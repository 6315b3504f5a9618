import Notebook.Settings.Basic
import Notebook.Text.Blank
import Notebook.Text.Number
import Notebook.Yaml.Document
import Notebook.Yaml.Lexer

/-! # Reading settings

Settings are a YAML mapping with two sections. Whatever is missing has its default, and unknown
keys do not matter. A known key may stand only once in its section.
-/

namespace Notebook

inductive SettingsError where
  | unreadable
  | malformed
  /-- A value that is well-formed but makes no sense. -/
  | invalid (field reason : String)
  deriving DecidableEq, Repr

namespace SettingsError

def message? : SettingsError → Option String
  | invalid field reason => some ("Invalid value for " ++ field ++ ": " ++ reason)
  | _ => none

end SettingsError

namespace Settings

def text? (doc : Yaml.Document) (node : Yaml.Node) : Option String :=
  match doc.follow? node with
  | some (.scalar text _ _) => some text
  | _ => none

def based? (cs : List Char) : Option Nat :=
  match cs with
  | '0' :: 'x' :: rest => Text.number? 16 rest
  | '0' :: 'o' :: rest => Text.number? 8 rest
  | '0' :: 'b' :: rest => Text.number? 2 rest
  | _ => none

/-- A decimal number has no leading zeros. -/
def decimal? (cs : List Char) : Option Nat :=
  if cs.length > 1 && cs.head? = some '0' then none else Text.number? 10 cs

/-- Whether a scalar may be a number: one without quotes, or a literal block with the tag of
numbers. -/
def isNumeric (style : Yaml.ScalarStyle) (tag : Option (List UInt8)) : Bool :=
  style = .plain ||
    (style = .literal && tag = some (Yaml.asciiOctets "tag:yaml.org,2002:int"))

def number? (doc : Yaml.Document) (node : Yaml.Node) : Option Nat :=
  match doc.follow? node with
  | some (.scalar text style tag) =>
    let cs := Text.dropPlus text.toList
    if isNumeric style tag then (based? cs).or (decimal? cs) else none
  | _ => none

def entries? (doc : Yaml.Document) (node : Yaml.Node) : Option (List (Yaml.Node × Yaml.Node)) :=
  match doc.follow? node with
  | some (.mapping entries) => some entries
  | some (.scalar "" .plain _) => some []
  | _ => none

/-- Reads the entries of a section one after the other. `known` are the keys that may not come
again. -/
def readEntries (doc : Yaml.Document) (known : List String)
    (set : α → String → Yaml.Node → Option α) :
    List String → α → List (Yaml.Node × Yaml.Node) → Option α
  | _, a, [] => some a
  | seen, a, (key, value) :: rest => do
    let name ← text? doc key
    if known.contains name then
      if seen.contains name then none
      else readEntries doc known set (name :: seen) (← set a name value) rest
    else readEntries doc known set seen a rest

def readSection? (doc : Yaml.Document) (known : List String)
    (set : α → String → Yaml.Node → Option α) (default : α) (node : Yaml.Node) : Option α := do
  readEntries doc known set [] default (← entries? doc node)

def page? (doc : Yaml.Document) : Yaml.Node → Option PageSettings :=
  readSection? doc ["default_type", "frame_class", "missing_class"]
    (fun page name value => do
      let text ← text? doc value
      return if name = "default_type" then { page with defaultType := text }
        else if name = "frame_class" then { page with frameClass := text }
        else { page with missingClass := text })
    {}

def watch? (doc : Yaml.Document) : Yaml.Node → Option WatchSettings :=
  readSection? doc ["root_title", "clock_title", "interval_ms"]
    (fun watch name value => do
      if name = "interval_ms" then return { watch with intervalMs := ← number? doc value }
      else
        let text ← text? doc value
        return if name = "root_title" then { watch with rootTitle := text }
          else { watch with clockTitle := text })
    {}

def ofDocument? (doc : Yaml.Document) : Option Settings :=
  readSection? doc ["engine", "watch"]
    (fun settings name value => do
      if name = "engine" then return { settings with page := ← page? doc value }
      else return { settings with watch := ← watch? doc value })
    {} doc.content

def check (settings : Settings) : Except SettingsError Settings :=
  if (Text.trim settings.page.defaultType.toList).isEmpty then
    .error (.invalid "engine.default_type" "must not be empty")
  else if settings.watch.intervalMs = 0 then
    .error (.invalid "watch.interval_ms" "must be greater than zero")
  else .ok settings

def ofYaml (text : String) : Except SettingsError Settings :=
  match (Yaml.tokens? text.toList).bind Yaml.Document.ofTokens? with
  | some doc =>
    match ofDocument? doc with
    | some settings => settings.check
    | none => .error .malformed
  | none => .error .malformed

end Settings

end Notebook
