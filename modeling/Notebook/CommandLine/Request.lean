import Notebook.CommandLine.Words
import Notebook.Note.Basic
import Notebook.Text.Number

/-! # Requests on the command line

A notebook is rendered once, watched or listed. Which files it is read from is said before that.
-/

namespace Notebook.CommandLine

inductive Format where
  | text
  | json
  deriving DecidableEq, Repr

inductive Request where
  | render (title : Option Title) (format : Format) (withTally : Bool)
  | watch (title : Option Title) (intervalMs ticks : Option Nat)
  | list (asJson : Bool)
  deriving DecidableEq, Repr

structure Invocation where
  config : String
  load : Option String
  verbose : Bool
  request : Request
  deriving DecidableEq, Repr

def defaultConfig : String := "tiddle.yml"

def number? (text : String) : Option Nat :=
  Text.number? 10 (Text.dropPlus text.toList)

def format? : String → Option Format
  | "text" => some .text
  | "json" => some .json
  | _ => none

def helpFlag : Flag where
  name := "help"
  short := some 'h'
  effect := some .help

def pathSetting (name : String) : Setting where
  name := name
  accepts path := path ≠ ""

def numberSetting (name : String) : Setting where
  name := name
  accepts text := (number? text).isSome

def renderGrammar : Grammar where
  flags := [helpFlag, { name := "metrics" }]
  settings := [{ name := "format", accepts := fun text => (format? text).isSome }]
  maxOperands := 1

def watchGrammar : Grammar where
  flags := [helpFlag]
  settings := [numberSetting "interval-ms", numberSetting "ticks"]
  maxOperands := 1

def listGrammar : Grammar where
  flags := [helpFlag, { name := "json" }]
  settings := []

def commands : List String :=
  ["render", "watch", "list", "help"]

def grammar : Grammar where
  flags :=
    [helpFlag, { name := "version", short := some 'V', effect := some .version },
      { name := "verbose", short := some 'v' }]
  settings := [pathSetting "config", pathSetting "load"]
  commands := commands

/-- The request of a command. Help can be had about each single command. -/
def request (command : String) (words : List String) : Except Stop Request := do
  if command = "render" then
    let a ← renderGrammar.read words {}
    return .render a.operands.head? (((a.value? "format").bind format?).getD .text)
      (a.hasFlag "metrics")
  else if command = "watch" then
    let a ← watchGrammar.read words {}
    return .watch a.operands.head? ((a.value? "interval-ms").bind number?)
      ((a.value? "ticks").bind number?)
  else if command = "list" then
    let a ← listGrammar.read words {}
    return .list (a.hasFlag "json")
  else
    match words with
    | [] => throw .help
    | [name] => throw (if commands.contains name then .help else .misuse)
    | _ => throw .misuse

/-- Reads a command line. The notes to load may also be named by the environment, in `preset`,
which counts if the command line does not name any. -/
def read (preset : Option String) (words : List String) : Except Stop Invocation := do
  let a ← grammar.read words {}
  match a.command with
  | none => throw .misuse
  | some (command, words) =>
    let request ← request command words
    let a ← a.settle
    let a ←
      match preset, a.value? "load" with
      | some path, none => a.store (pathSetting "load") path
      | _, _ => .ok a
    return {
      config := (a.value? "config").getD defaultConfig
      load := a.value? "load"
      verbose := a.hasFlag "verbose"
      request }

end Notebook.CommandLine
