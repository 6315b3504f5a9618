import Notebook.Macro
import Notebook.ParseCache
import Notebook.Tally
import Notebook.Tree.Numbering

/-! # The state of an expansion

An expansion reads from an environment that stays as it is: the notes that titles resolve to, the
parsers, the macros and the settings of one store. It changes four things: the next free id, the
tally, the cache of parsed notes and the counts of parser runs. An expansion that nests deeper
than it may has no result.
-/

namespace Notebook

structure Env where
  lookup : Title → Option Saved
  rules : ParseRules
  macros : MacroTable
  page : PageSettings
  /-- How many titles resolve. -/
  titleCount : Nat

namespace Env

def note? (env : Env) (title : Title) : Option Note :=
  (env.lookup title).map Saved.note

/-- A chain of built-in macros grows with each expansion by a title that resolves. In between, a
macro that is not built in may stand at most once if it ever comes to an end. -/
def maxDepth (env : Env) : Nat :=
  (env.titleCount + 1) * ((env.macros.values.filter Macro.isCustom).length + 1) + 1

end Env

structure Progress (env : Env) where
  nextId : NodeId := 1
  tally : Tally := {}
  cache : ParseCache env.rules := ∅
  parseCounts : Catalog Nat := ∅

abbrev Expand (env : Env) := StateT (Progress env) Option

inductive Failure where
  | error (e : RenderError)
  | panic (message : Option String)
  deriving DecidableEq, Repr

def Failure.toError (callee : String) : Failure → RenderError
  | error e => e
  | panic message => .macroFailed callee (message.getD "macro panicked")

namespace Expand

variable {env : Env}

def freshId : Expand env NodeId :=
  modifyGet fun p => (p.nextId, { p with nextId := p.nextId + 1 })

/-- The id that a node keeps, or the next free one. -/
def idOrFresh (id : Option NodeId) : Expand env NodeId :=
  match id with
  | some n => pure n
  | none => freshId

def assign (nodes : List Node) : Expand env (List Node) :=
  modifyGet fun p =>
    let numbered := Node.assignList p.nextId nodes
    (numbered.1, { p with nextId := numbered.2 })

def modifyTally (f : Tally → Tally) : Expand env Unit :=
  modify fun p => { p with tally := f p.tally }

def countExecution : Expand env Unit :=
  modifyTally fun t => { t with executions := t.executions + 1 }

def countError : Expand env Unit :=
  modifyTally fun t => { t with errors := t.errors + 1 }

def countRecursion : Expand env Unit :=
  modifyTally fun t => { t with recursions := t.recursions + 1 }

def countReexecution : Expand env Unit :=
  modifyTally fun t => { t with reexecutions := t.reexecutions + 1 }

def countForward : Expand env Unit :=
  modifyTally fun t => { t with forwards := t.forwards + 1 }

def parse (type : Option String) (text : String) : Expand env (Except String (List Node)) := do
  modify fun p => { p with parseCounts := countParse p.parseCounts (env.rules.parserFor type) }
  return env.rules.parse type text

def parseSaved (title : Title) (saved : Saved) : Expand env (Except String (List Node)) :=
  modifyGet fun p =>
    match p.cache.hit? title saved with
    | some nodes => (.ok nodes, p)
    | none =>
      let parsed := p.cache.parse title saved
      (parsed.1,
        { p with
          cache := parsed.2
          parseCounts := countParse p.parseCounts (env.rules.parserFor saved.note.type) })

end Expand

end Notebook
