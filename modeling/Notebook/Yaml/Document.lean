import Notebook.Catalog
import Notebook.Yaml.Node

/-! # Reading YAML documents

Anchors are numbered. The number of an anchor is how many names the anchors before it have, so a
name that comes again takes a number that the next new name takes too. An alias means the number
that its name has at that point.
-/

namespace Notebook.Yaml

namespace Document

structure ParseState where
  tokens : List Token
  handles : List (String × List UInt8) := []
  /-- The number that each name of an anchor has at present. -/
  numbers : Catalog Nat := ∅
  /-- The nodes with an anchor. One that is not complete yet is an empty scalar. -/
  anchored : List (Nat × Node) := []

abbrev Parse := StateT ParseState Option

namespace Parse

def peek : Parse (Option Token) := do
  return (← get).tokens.head?

def skip : Parse Unit :=
  modify fun s => { s with tokens := s.tokens.tail }

def isNext (t : Token) : Parse Bool := do
  return (← peek) = some t

def expect (t : Token) : Parse Unit := do
  if ← isNext t then skip else failure

def nextIn (ts : List Token) : Parse Bool := do
  match ← peek with
  | some t => return ts.contains t
  | none => return true

/-- Numbers an anchor by the names before it, and keeps a place for its node. -/
def openAnchor : Option String → Parse (Option Nat)
  | some name =>
    modifyGet fun s =>
      let number := s.numbers.keys.length
      (some s.anchored.length,
        { s with
          numbers := s.numbers.insert name number
          anchored := s.anchored ++ [(number, .empty)] })
  | none => return none

def fillAnchor (place : Option Nat) (node : Node) : Parse Unit :=
  match place with
  | some place =>
    modify fun s => { s with anchored := s.anchored.modify place fun entry => (entry.1, node) }
  | none => return

def commonHandles : List (String × List UInt8) :=
  [("", []), ("!", asciiOctets "!"), ("!!", asciiOctets "tag:yaml.org,2002:")]

def resolveTag (handle : String) (suffix : List UInt8) : Parse (Option (List UInt8)) := do
  match ((← get).handles ++ commonHandles).lookup handle with
  | some start =>
    let tag := start ++ suffix
    return if tag = asciiOctets "!" then none else some tag
  | none => failure

def properties : Parse (Option String × Option (List UInt8) × Bool) := do
  let anchor? : Parse (Option String) := do
    match ← peek with
    | some (.anchor name) =>
      skip
      return some name
    | _ => return none
  let first ← anchor?
  match ← peek with
  | some (.tag handle suffix) =>
    skip
    let tag ← resolveTag handle suffix
    let second ← if first.isNone then anchor? else pure none
    return (first.or second, tag, true)
  | _ => return (first, none, first.isSome)

mutual

/-- A node. Block collections may begin only where `block` is set, and a sequence at the
indentation of its key only where `indentless` is. -/
def node (block indentless : Bool) : Nat → Parse Node
  | 0 => failure
  | bound + 1 => do
    if let some (.alias name) ← peek then
      skip
      match (← get).numbers.get? name with
      | some number => return .alias number
      | none => failure
    else
      let (anchor, tag, bare) ← properties
      let place ← openAnchor anchor
      let content ← contentOf block indentless bare tag bound
      fillAnchor place content
      return content

def contentOf (block indentless bare : Bool) (tag : Option (List UInt8)) : Nat → Parse Node
  | 0 => failure
  | bound + 1 => do
    match ← peek with
    | some .blockEntry =>
      if indentless then return .sequence (← indentlessItems bound)
      else if bare then return .scalar "" .plain tag else failure
    | some (.scalar text style) =>
      skip
      return .scalar text style tag
    | some .flowSequenceStart =>
      skip
      return .sequence (← flowItems true bound)
    | some .flowMappingStart =>
      skip
      return .mapping (← flowEntries true bound)
    | some .blockSequenceStart =>
      if block then
        skip
        return .sequence (← blockItems bound)
      else if bare then return .scalar "" .plain tag else failure
    | some .blockMappingStart =>
      if block then
        skip
        return .mapping (← blockEntries bound)
      else if bare then return .scalar "" .plain tag else failure
    | _ => if bare then return .scalar "" .plain tag else failure

def nodeUnless (ts : List Token) (block indentless : Bool) : Nat → Parse Node
  | 0 => failure
  | bound + 1 => do
    if ← nextIn ts then return .empty else node block indentless bound

def blockItems : Nat → Parse (List Node)
  | 0 => failure
  | bound + 1 => do
    if ← isNext .blockEntry then
      skip
      let item ← nodeUnless [.blockEntry, .blockEnd] true false bound
      return item :: (← blockItems bound)
    else
      expect .blockEnd
      return []

def indentlessItems : Nat → Parse (List Node)
  | 0 => failure
  | bound + 1 => do
    if ← isNext .blockEntry then
      skip
      let item ← nodeUnless [.blockEntry, .key, .value, .blockEnd] true false bound
      return item :: (← indentlessItems bound)
    else return []

def blockEntries : Nat → Parse (List (Node × Node))
  | 0 => failure
  | bound + 1 => do
    if ← isNext .key then
      skip
      let key ← nodeUnless [.key, .value, .blockEnd] true true bound
      let value ←
        if ← isNext .value then do
          skip
          nodeUnless [.key, .value, .blockEnd] true true bound
        else pure .empty
      return (key, value) :: (← blockEntries bound)
    else
      expect .blockEnd
      return []

/-- An entry of a flow sequence with a key is a mapping of its own. -/
def flowItems (first : Bool) : Nat → Parse (List Node)
  | 0 => failure
  | bound + 1 => do
    if ← isNext .flowSequenceEnd then
      skip
      return []
    unless first do expect .flowEntry
    if ← isNext .flowSequenceEnd then
      skip
      return []
    else if ← isNext .key then
      skip
      let key ←
        if ← nextIn [.value, .flowEntry, .flowSequenceEnd] then do
          skip
          pure .empty
        else node false false bound
      let value ←
        if ← isNext .value then do
          skip
          nodeUnless [.flowEntry, .flowSequenceEnd] false false bound
        else pure .empty
      return .mapping [(key, value)] :: (← flowItems false bound)
    else
      let item ← node false false bound
      return item :: (← flowItems false bound)

def flowEntries (first : Bool) : Nat → Parse (List (Node × Node))
  | 0 => failure
  | bound + 1 => do
    if ← isNext .flowMappingEnd then
      skip
      return []
    unless first do expect .flowEntry
    if ← isNext .flowMappingEnd then
      skip
      return []
    else if ← isNext .key then
      skip
      let key ← nodeUnless [.value, .flowEntry, .flowMappingEnd] false false bound
      let value ←
        if ← isNext .value then do
          skip
          nodeUnless [.flowEntry, .flowMappingEnd] false false bound
        else pure .empty
      return (key, value) :: (← flowEntries false bound)
    else
      let key ← node false false bound
      return (key, .empty) :: (← flowEntries false bound)

end

/-- Directives before a document. A version must be a known one and may stand once. -/
def directives (seen : Bool) : Nat → Parse Unit
  | 0 => failure
  | bound + 1 => do
    match ← peek with
    | some (.version major minor) =>
      if seen || major ≠ 1 || (minor ≠ 1 && minor ≠ 2) then failure
      skip
      directives true bound
    | some (.tagDirective handle start) =>
      if ((← get).handles.lookup handle).isSome then failure
      skip
      modify fun s => { s with handles := (handle, start) :: s.handles }
      directives seen bound
    | _ => return

def isDirective : Token → Bool
  | .version .. | .tagDirective .. => true
  | _ => false

def skipEnds : Nat → Parse Unit
  | 0 => failure
  | bound + 1 => do
    if ← isNext .documentEnd then
      skip
      skipEnds bound

def document (bound : Nat) : Parse Node := do
  let some first ← peek | return .empty
  let content ←
    if first = .documentStart || isDirective first then do
      directives false bound
      expect .documentStart
      let next ← peek
      if next = none || next = some .documentStart || next = some .documentEnd ||
          (next.map isDirective).getD false then pure .empty
      else node true false bound
    else node true false bound
  skipEnds bound
  if (← peek).isSome then failure
  return content

end Parse

/-- The document with the given tokens. A text without document counts as one without content. -/
def ofTokens? (tokens : List Token) : Option Document := do
  let (content, s) ← (Parse.document (4 * tokens.length + 4)).run { tokens }
  return { content, anchored := s.anchored }

end Document

end Notebook.Yaml
