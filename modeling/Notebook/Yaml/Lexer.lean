import Notebook.Text.Number
import Notebook.Yaml.Token

/-! # Reading YAML tokens

Tokens are read from left to right. Columns matter: a deeper column opens a block collection and
a shallower one closes it. Whether text is a key shows only at the colon behind it, so the place
of each token that may begin a key is remembered. Such a key stays on one line.

A lexer without result has met text that no YAML text contains.
-/

namespace Notebook.Yaml

structure Position where
  offset : Nat := 0
  line : Nat := 0
  column : Nat := 0
  deriving DecidableEq, Repr

/-- A place at which a key may begin: the number of its first token. -/
structure KeyPlace where
  token : Nat
  position : Position
  required : Bool
  deriving DecidableEq, Repr

structure LexState where
  rest : List Char
  position : Position := {}
  tokens : List Token := []
  /-- The columns of the open block collections, innermost first. Outside of all is -1. -/
  indents : List Int := [-1]
  keyAllowed : Bool := true
  /-- One place for the block level and one for each open flow collection, innermost first. -/
  keys : List (Option KeyPlace) := [none]

abbrev Lex := StateT LexState Option

namespace Lex

def isBlank (c : Char) : Bool := c = ' ' || c = '\t'

def isBreak (c : Char) : Bool :=
  c = '\n' || c = '\r' || c = '\u0085' || c = '\u2028' || c = '\u2029'

def isBlankOrBreak (c : Char) : Bool := isBlank c || isBreak c

def isAllowed (c : Char) : Bool :=
  let n := c.toNat
  n = 0x9 || n = 0xA || n = 0xD || (0x20 ≤ n && n ≤ 0x7E) || n = 0x85 ||
    (0xA0 ≤ n && n ≤ 0xFFFD) || 0x10000 ≤ n

def isWordChar (c : Char) : Bool :=
  ('0' ≤ c && c ≤ '9') || ('a' ≤ c && c ≤ 'z') || ('A' ≤ c && c ≤ 'Z') || c = '_' || c = '-'

def isUriChar (c : Char) : Bool :=
  isWordChar c || [';', '/', '?', ':', '@', '&', '=', '+', '$', '.', '!', '~', '*', '\x27', '(',
    ')', '%'].contains c

def peekAt (n : Nat) : Lex (Option Char) := do
  return (← get).rest[n]?

def peek : Lex (Option Char) := peekAt 0

def endsAt (n : Nat) : Lex Bool := do
  return ((← peekAt n).map isBlankOrBreak).getD true

def isNext (c : Char) : Lex Bool := do
  return (← peek) = some c

def column : Lex Nat := do
  return (← get).position.column

def indent : Lex Int := do
  return (← get).indents.headD (-1)

def inFlow : Lex Bool := do
  return 1 < (← get).keys.length

def octetCount (cs : List Char) : Nat :=
  cs.foldl (fun n c => n + c.utf8Size) 0

def skip (n : Nat) : Lex Unit :=
  modify fun s =>
    { s with
      rest := s.rest.drop n
      position := { s.position with
        offset := s.position.offset + octetCount (s.rest.take n)
        column := s.position.column + n } }

def takeRun (p : Char → Bool) : Lex (List Char) := do
  let run := (← get).rest.takeWhile p
  skip run.length
  return run

/-- Passes over a line break. All but two kinds of breaks count as a newline. -/
def takeBreak : Lex (List Char) := do
  let s ← get
  let (length, text) :=
    match s.rest with
    | '\r' :: '\n' :: _ => (2, ['\n'])
    | '\u2028' :: _ => (1, ['\u2028'])
    | '\u2029' :: _ => (1, ['\u2029'])
    | _ :: _ => (1, ['\n'])
    | [] => (0, [])
  let offset := s.position.offset + octetCount (s.rest.take length)
  set { s with rest := s.rest.drop length, position := ⟨offset, s.position.line + 1, 0⟩ }
  return text

/-- Repeats a step for as long as it asks for it. Each repetition has to read something. -/
def whileWithin (step : Lex Bool) : Nat → Lex Unit
  | 0 => failure
  | bound + 1 => do
    if ← step then whileWithin step bound

def repeatWhile (step : Lex Bool) : Lex Unit := do
  whileWithin step ((← get).rest.length + 2)

def emit (t : Token) : Lex Unit :=
  modify fun s => { s with tokens := s.tokens ++ [t] }

def emitAt (n : Nat) (t : Token) : Lex Unit :=
  modify fun s => { s with tokens := s.tokens.take n ++ t :: s.tokens.drop n }

def allowKey (b : Bool) : Lex Unit :=
  modify fun s => { s with keyAllowed := b }

/-- Gives up a place. A required key must have come. -/
def giveUp (place : Option KeyPlace) : Lex Unit := do
  if (place.map KeyPlace.required).getD false then failure

/-- Forgets the places that lie on earlier lines or more than 1024 octets behind. -/
def dropStale : Lex Unit := do
  let s ← get
  let isStale (place : KeyPlace) : Bool :=
    place.position.line < s.position.line || place.position.offset + 1024 < s.position.offset
  if s.keys.any fun place => place.any fun k => isStale k && k.required then failure
  set { s with keys := s.keys.map (Option.filter fun k => !isStale k) }

def setPlace (place : Option KeyPlace) : Lex Unit :=
  modify fun s => { s with keys := place :: s.keys.tail }

def forgetPlace : Lex Unit := do
  giveUp ((← get).keys.headD none)
  setPlace none

def markPlace : Lex Unit := do
  let s ← get
  let required := !(← inFlow) && (← indent) = s.position.column
  if s.keyAllowed then
    forgetPlace
    setPlace (some ⟨s.tokens.length, s.position, required⟩)

def openBlock (column : Nat) (at? : Option Nat) (t : Token) : Lex Unit := do
  if !(← inFlow) && (← indent) < column then
    modify fun s => { s with indents := (column : Int) :: s.indents }
    match at? with
    | some n => emitAt n t
    | none => emit t

def closeBlocks (column : Int) : Lex Unit := do
  unless ← inFlow do
    modify fun s =>
      let deeper := s.indents.takeWhile fun i => column < i
      { s with
        indents := s.indents.drop deeper.length
        tokens := s.tokens ++ deeper.map fun _ => Token.blockEnd }

def skipComment : Lex Unit := do
  if ← isNext '#' then
    let _ ← takeRun fun c => !isBreak c

/-- Tabs may stand where no key may begin. -/
def skipToToken : Lex Unit :=
  repeatWhile do
    if (← get).position.column = 0 then
      if ← isNext '\uFEFF' then skip 1
    let tabs := (← inFlow) || !(← get).keyAllowed
    let _ ← takeRun fun c => c = ' ' || (tabs && c = '\t')
    skipComment
    match ← peek with
    | some c =>
      if isBreak c then
        let _ ← takeBreak
        unless ← inFlow do allowKey true
        return true
      else return false
    | none => return false

def endOfLine : Lex Unit := do
  let _ ← takeRun isBlank
  skipComment
  match ← peek with
  | some c => if isBreak c then let _ ← takeBreak else failure
  | none => return

def versionNumber : Lex Nat := do
  let run ← takeRun fun c => '0' ≤ c && c ≤ '9'
  if run.isEmpty || 9 < run.length then failure
  return run.foldl (fun n c => 10 * n + (c.toNat - 48)) 0

def tagHandle (complete : Bool) : Lex String := do
  unless ← isNext '!' do failure
  skip 1
  let name ← takeRun isWordChar
  if ← isNext '!' then
    skip 1
    return String.ofList ('!' :: name ++ ['!'])
  else
    if complete && !name.isEmpty then failure
    return String.ofList ('!' :: name)

def octet? : List Char → Option (UInt8 × List Char)
  | '%' :: a :: b :: cs => do
    let high ← Text.digitValue? 16 a
    let low ← Text.digitValue? 16 b
    return ((16 * high + low).toUInt8, cs)
  | _ => none

def followers? (first : UInt8) : Option Nat :=
  if first < 0x80 then some 0
  else if first / 32 = 6 then some 1
  else if first / 16 = 14 then some 2
  else if first / 8 = 30 then some 3
  else none

def followingOctets? : Nat → List Char → Option (List UInt8 × List Char)
  | 0, cs => some ([], cs)
  | count + 1, cs => do
    let (o, cs) ← octet? cs
    if o / 64 = 2 then
      let (os, cs) ← followingOctets? count cs
      return (o :: os, cs)
    else none

def characterOctets? (cs : List Char) : Option (List UInt8 × List Char) := do
  let (o, cs) ← octet? cs
  let (os, cs) ← followingOctets? (← followers? o) cs
  return (o :: os, cs)

def octetsWithin : Nat → List Char → Option (List UInt8)
  | 0, _ => some []
  | bound + 1, cs =>
    match cs with
    | [] => some []
    | '%' :: _ => do
      let (os, rest) ← characterOctets? cs
      return os ++ (← octetsWithin bound rest)
    | c :: rest => do return c.toUInt8 :: (← octetsWithin bound rest)

def tagUri (more : Bool) : Lex (List UInt8) := do
  let run ← takeRun fun c => isUriChar c || (more && (c = ',' || c = '[' || c = ']'))
  match octetsWithin run.length run with
  | some uri => return uri
  | none => failure

def upToZero (octets : List UInt8) : List UInt8 :=
  octets.takeWhile (· ≠ 0)

def directive : Lex Unit := do
  closeBlocks (-1)
  forgetPlace
  allowKey false
  skip 1
  let name ← takeRun isWordChar
  if name.isEmpty || !(← endsAt 0) then failure
  let _ ← takeRun isBlank
  if name = ['Y', 'A', 'M', 'L'] then
    let major ← versionNumber
    unless ← isNext '.' do failure
    skip 1
    emit (.version major (← versionNumber))
  else if name = ['T', 'A', 'G'] then
    let handle ← tagHandle true
    let gap ← takeRun isBlank
    if gap.isEmpty then failure
    let start ← tagUri true
    if start.isEmpty || !(← endsAt 0) then failure
    emit (.tagDirective handle (upToZero start))
  else failure
  endOfLine

def anchorName : Lex String := do
  skip 1
  let name ← takeRun isWordChar
  let ended ← endsAt 0
  let next ← peek
  if name.isEmpty ||
      !(ended || ['?', ':', ',', ']', '\x7d', '%', '@', '\x60'].any (next = some ·)) then
    failure
  return String.ofList name

def isNamedHandle (handle : String) : Bool :=
  1 < handle.length && handle.endsWith "!"

def tag : Lex Unit := do
  if (← peekAt 1) = some '<' then
    skip 2
    let uri ← tagUri true
    if uri.isEmpty || !(← isNext '>') then failure
    skip 1
    emit (.tag "" (upToZero uri))
  else
    let handle ← tagHandle false
    let uri ← tagUri false
    if isNamedHandle handle then
      if uri.isEmpty then failure
      emit (.tag handle (upToZero uri))
    else
      let suffix := upToZero ((asciiOctets handle).tail ++ uri)
      emit (if suffix.isEmpty then .tag "" (asciiOctets "!") else .tag "!" suffix)
  unless (← endsAt 0) || ((← inFlow) && (← isNext ',')) do failure

def documentMark (c : Char) : Lex Bool := do
  let s ← get
  return s.position.column = 0 && s.rest.take 3 = [c, c, c] && (← endsAt 3)

def atDocumentMark : Lex Bool := do
  return (← documentMark '-') || (← documentMark '.')

/-- Lines that are joined: a single break becomes a space, and of several the first is lost. -/
def fold (first more : List Char) : List Char :=
  if first.head? = some '\n' then (if more.isEmpty then [' '] else more) else first ++ more

/-- Blanks and breaks within a scalar. Of the blanks only those before the first break count.
`check` looks at each blank behind a break. -/
def gapWithin (check : Char → Lex Unit) (leading : Bool) : Nat → List Char → List Char →
    List Char → Lex (Bool × List Char × List Char × List Char)
  | 0, _, _, _ => failure
  | bound + 1, blanks, first, more => do
    match ← peek with
    | some c =>
      if isBlank c then
        if leading then check c
        skip 1
        gapWithin check leading bound (if leading then blanks else blanks ++ [c]) first more
      else if isBreak c then
        let text ← takeBreak
        if leading then gapWithin check true bound blanks first (more ++ text)
        else gapWithin check true bound [] text more
      else return (leading, blanks, first, more)
    | none => return (leading, blanks, first, more)

def gapText : Bool × List Char × List Char × List Char → List Char
  | (leading, blanks, first, more) => if leading then fold first more else blanks

def codePoint (digits : Nat) : Lex Char := do
  let cs := (← get).rest.take digits
  let some ds := cs.mapM (Text.digitValue? 16) | failure
  if ds.length < digits then failure
  let n := ds.foldl (fun n d => 16 * n + d) 0
  if (0xD800 ≤ n && n ≤ 0xDFFF) || 0x10FFFF < n then failure
  skip digits
  return Char.ofNat n

def escaped : Lex Char := do
  let c? ← peekAt 1
  skip 2
  match c? with
  | some '0' => return '\x00'
  | some 'a' => return '\x07'
  | some 'b' => return '\x08'
  | some 't' => return '\t'
  | some '\t' => return '\t'
  | some 'n' => return '\n'
  | some 'v' => return '\x0b'
  | some 'f' => return '\x0c'
  | some 'r' => return '\r'
  | some 'e' => return '\x1b'
  | some ' ' => return ' '
  | some '"' => return '"'
  | some '/' => return '/'
  | some '\\' => return '\\'
  | some 'N' => return '\u0085'
  | some '_' => return '\u00a0'
  | some 'L' => return '\u2028'
  | some 'P' => return '\u2029'
  | some 'x' => codePoint 2
  | some 'u' => codePoint 4
  | some 'U' => codePoint 8
  | _ => failure

/-- Characters within quotes up to a blank, a break or the closing quote. The flag tells that a
break was escaped. -/
def quotedRun (quote : Char) : Nat → Lex (List Char × Bool)
  | 0 => failure
  | bound + 1 => do
    match ← peek with
    | none => return ([], false)
    | some c =>
      if isBlankOrBreak c then return ([], false)
      else if c = quote then
        if quote = '\x27' && (← peekAt 1) = some quote then
          skip 2
          let (cs, broken) ← quotedRun quote bound
          return (quote :: cs, broken)
        else return ([], false)
      else if c = '\\' && quote = '"' then
        if ((← peekAt 1).map isBreak).getD false then
          skip 1
          let _ ← takeBreak
          return ([], true)
        else
          let d ← escaped
          let (cs, broken) ← quotedRun quote bound
          return (d :: cs, broken)
      else
        skip 1
        let (cs, broken) ← quotedRun quote bound
        return (c :: cs, broken)

def quotedWithin (quote : Char) : Nat → Lex (List Char)
  | 0 => failure
  | bound + 1 => do
    if (← atDocumentMark) || (← peek) = none then failure
    let (cs, broken) ← quotedRun quote ((← get).rest.length + 1)
    if ← isNext quote then return cs
    else
      let gap ← gapWithin (fun _ => return) broken ((← get).rest.length + 1) [] [] []
      return cs ++ gapText gap ++ (← quotedWithin quote bound)

def quotedScalar (quote : Char) : Lex Unit := do
  skip 1
  let cs ← quotedWithin quote ((← get).rest.length + 1)
  skip 1
  emit (.scalar (String.ofList cs) .quoted)

def isFlowMark (c : Char) : Bool :=
  c = ',' || c = '[' || c = ']' || c = '\x7b' || c = '\x7d'

def plainRun : Nat → Lex (List Char)
  | 0 => failure
  | bound + 1 => do
    match ← peek with
    | none => return []
    | some c =>
      if isBlankOrBreak c then return []
      let flow ← inFlow
      if c = ':' then
        if flow && ((← peekAt 1).map fun d => isFlowMark d || d = '?').getD false then failure
        if ← endsAt 1 then return []
      if flow && isFlowMark c then return []
      skip 1
      return c :: (← plainRun bound)

/-- The text of a plain scalar, and whether it ends behind a break. `gap` comes before the next
characters, if there are any. -/
def plainWithin (indent : Int) : Nat → Bool × List Char × List Char × List Char →
    Lex (List Char × Bool)
  | 0, _ => failure
  | bound + 1, gap => do
    if (← atDocumentMark) || (← isNext '#') then return ([], gap.1)
    let run ← plainRun ((← get).rest.length + 1)
    let text := if run.isEmpty then [] else gapText gap ++ run
    let carried := if run.isEmpty then gap else (false, [], [], [])
    unless ((← peek).map isBlankOrBreak).getD false do return (text, carried.1)
    let check (c : Char) : Lex Unit := do
      if c = '\t' && (← column) < indent then failure
    let gap ← gapWithin check carried.1 ((← get).rest.length + 1) carried.2.1 carried.2.2.1
      carried.2.2.2
    if !(← inFlow) && (← column) < indent then return (text, gap.1)
    let (more, broken) ← plainWithin indent bound gap
    return (text ++ more, broken)

def plainScalar : Lex Unit := do
  let (cs, broken) ← plainWithin ((← indent) + 1) ((← get).rest.length + 1) (false, [], [], [])
  if broken then allowKey true
  emit (.scalar (String.ofList cs) .plain)

/-- The breaks before a line of a block scalar, and the indentation, which the first line with
text sets if it is not given. -/
def blockBreaks (indent : Option Nat) : Nat → Nat → List Char → Lex (Nat × List Char)
  | 0, _, _ => failure
  | bound + 1, widest, breaks => do
    let start ← column
    let run := (← get).rest.takeWhile (· = ' ')
    let width :=
      match indent with
      | some n => min run.length (n - start)
      | none => run.length
    skip width
    let here ← column
    let widest := max widest here
    if ((indent.map fun n => decide (here < n)).getD true) && (← isNext '\t') then failure
    if ((← peek).map isBreak).getD false then
      let text ← takeBreak
      blockBreaks indent bound widest (breaks ++ text)
    else
      let least := max 1 ((← Lex.indent) + 1).toNat
      return (indent.getD (max widest least), breaks)

/-- The lines of a block scalar: its text, its last break and the breaks behind that. -/
def blockLines (literal : Bool) (indent : Nat) : Nat → Bool → List Char → List Char →
    Lex (List Char × List Char × List Char)
  | 0, _, _, _ => failure
  | bound + 1, blankBefore, lastBreak, breaks => do
    if (← column) = indent && (← peek) ≠ none then
      let blankHere := ((← peek).map isBlank).getD false
      let joined :=
        if !literal && lastBreak.head? = some '\n' && !blankBefore && !blankHere then
          (if breaks.isEmpty then [' '] else []) ++ breaks
        else lastBreak ++ breaks
      let run ← takeRun fun c => !isBreak c
      let ending ← takeBreak
      let (_, behind) ← blockBreaks (some indent) ((← get).rest.length + 1) 0 []
      let (text, tail) ← blockLines literal indent bound blankHere ending behind
      return (joined ++ run ++ text, tail)
    else return ([], lastBreak, breaks)

inductive Chomp where
  | strip
  | clip
  | keep
  deriving DecidableEq

def chompMark : Lex (Option Chomp) := do
  if ← isNext '+' then
    skip 1
    return some .keep
  else if ← isNext '-' then
    skip 1
    return some .strip
  else return none

def indentMark : Lex (Option Nat) := do
  match ← peek with
  | some c =>
    if c = '0' then failure
    else if '1' ≤ c && c ≤ '9' then
      skip 1
      return some (c.toNat - 48)
    else return none
  | none => return none

def blockScalar (literal : Bool) : Lex Unit := do
  skip 1
  let before ← chompMark
  let increment ← indentMark
  let behind ← if before.isSome || increment.isNone then pure none else chompMark
  let chomp := (before.or behind).getD .clip
  endOfLine
  let base := (← indent).toNat
  let (indent, breaks) ←
    blockBreaks (increment.map (base + ·)) ((← get).rest.length + 1) 0 []
  let (text, lastBreak, tail) ←
    blockLines literal indent ((← get).rest.length + 2) false [] breaks
  let ending :=
    match chomp with
    | .strip => []
    | .clip => lastBreak
    | .keep => lastBreak ++ tail
  emit (.scalar (String.ofList (text ++ ending)) (if literal then .literal else .folded))

def flowStart (t : Token) : Lex Unit := do
  markPlace
  modify fun s => { s with keys := none :: s.keys }
  allowKey true
  skip 1
  emit t

def flowEnd (t : Token) : Lex Unit := do
  forgetPlace
  if ← inFlow then modify fun s => { s with keys := s.keys.tail }
  allowKey false
  skip 1
  emit t

def flowEntry : Lex Unit := do
  forgetPlace
  allowKey true
  skip 1
  emit .flowEntry

/-- Within the block level, an indicator must stand where a key could begin. -/
def needKeyAllowed : Lex Unit := do
  if !(← inFlow) && !(← get).keyAllowed then failure

def blockEntry : Lex Unit := do
  needKeyAllowed
  openBlock (← column) none .blockSequenceStart
  forgetPlace
  allowKey true
  skip 1
  emit .blockEntry

def keyMark : Lex Unit := do
  needKeyAllowed
  openBlock (← column) none .blockMappingStart
  forgetPlace
  allowKey (!(← inFlow))
  skip 1
  emit .key

def valueMark : Lex Unit := do
  match (← get).keys.headD none with
  | some place =>
    emitAt place.token .key
    openBlock place.position.column (some place.token) .blockMappingStart
    setPlace none
    allowKey false
  | none =>
    needKeyAllowed
    openBlock (← column) none .blockMappingStart
    allowKey (!(← inFlow))
  skip 1
  emit .value

def documentBoundary (t : Token) : Lex Unit := do
  closeBlocks (-1)
  forgetPlace
  allowKey false
  skip 3
  emit t

def keyLike (token : Lex Unit) : Lex Unit := do
  markPlace
  allowKey false
  token

def noPlainStart : List Char :=
  ['-', '?', ':', ',', '[', ']', '\x7b', '\x7d', '#', '&', '*', '!', '|', '>', '\x27', '"', '%',
    '@', '\x60']

def tokenAt (c : Char) : Lex Unit := do
  let ended ← endsAt 1
  let flow ← inFlow
  if c = '%' && (← column) = 0 then directive
  else if ← documentMark '-' then documentBoundary .documentStart
  else if ← documentMark '.' then documentBoundary .documentEnd
  else if c = '[' then flowStart .flowSequenceStart
  else if c = '\x7b' then flowStart .flowMappingStart
  else if c = ']' then flowEnd .flowSequenceEnd
  else if c = '\x7d' then flowEnd .flowMappingEnd
  else if c = ',' then flowEntry
  else if c = '-' && ended then blockEntry
  else if c = '?' && (flow || ended) then keyMark
  else if c = ':' && (flow || ended) then valueMark
  else if c = '*' then keyLike do emit (.alias (← anchorName))
  else if c = '&' then keyLike do emit (.anchor (← anchorName))
  else if c = '!' then keyLike tag
  else if (c = '|' || c = '>') && !flow then
    forgetPlace
    allowKey true
    blockScalar (c = '|')
  else if c = '\x27' || c = '"' then keyLike (quotedScalar c)
  else if isBlank c then failure
  else if !noPlainStart.contains c || (c = '-' && !ended) ||
      (!flow && (c = '?' || c = ':') && !ended) then
    keyLike plainScalar
  else failure

def nextToken : Lex Bool := do
  skipToToken
  dropStale
  closeBlocks (← column)
  match ← peek with
  | some c =>
    tokenAt c
    return true
  | none =>
    modify fun s =>
      if s.position.column = 0 then s
      else { s with position := { s.position with column := 0, line := s.position.line + 1 } }
    closeBlocks (-1)
    forgetPlace
    return false

end Lex

def tokens? (cs : List Char) : Option (List Token) := do
  if cs.all Lex.isAllowed then
    let (_, s) ← (Lex.repeatWhile Lex.nextToken).run { rest := cs }
    return s.tokens
  else none

end Notebook.Yaml
