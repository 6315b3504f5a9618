import Notebook.Live.Tree
import Notebook.Script

/-! # Session steps

A session works on stores, trees and listeners by name. Its steps are also what listeners do when
they are called.
-/

namespace Notebook.Session

inductive Root where
  | note (title : Title)
  | call (c : Call)
  deriving Repr

/-- Steps name the store or the tree that they work on. -/
inductive Step where
  | addStore (store : String) (settings : PageSettings) (builtins : Bool)
  | addBuiltinStore (store : String)
  | installBuiltins (store : String)
  | dropStore (store : String)
  | dropTree (tree : String)
  | addFallback (store fallback : String)
  | addNote (store : String) (note : Note)
  | delete (store : String) (title : Title)
  | get (store : String) (title : Title)
  | field (store : String) (title : Title) (name : String)
  | lookup (store : String) (title : Title)
  | titles (store : String)
  | tagged (store : String) (tag : String)
  | registerParser (store : String) (keys : List String) (parser : Parser)
  | parseCount (label : String)
  | installMacro (store : String) (m : Script)
  | macroNames (store : String)
  | hasMacro (store : String) (name : String)
  | parseText (store : String) (type : Option String) (text : String)
  | parseNote (store : String) (title : Title)
  | pending (store : String)
  | clear (store : String)
  | listen (store name : String) (filter : EventFilter) (actions : List Step)
  /-- Removes the listener of a store that has the number of the latest listener of that name. -/
  | unlisten (store name : String)
  | flush (store : String)
  | summary (store : String)
  | render (store tree : String) (root : Root)
  | report (tree : String)
  | text (tree : String)
  | root (tree : String)
  | json (tree : String)
  | walk (tree : String)
  | metrics (tree : String)
  | resetMetrics (tree : String)
  | mount (tree : String)
  | unmount (tree : String)
  /-- Without a batch, the last one that came up is taken. -/
  | refresh (tree : String) (batch : Option Batch) (silent : Bool)
  | fail
  | panic

mutual

def Step.size : Step → Nat
  | .listen _ _ _ actions => 1 + Step.sizeList actions
  | _ => 1

def Step.sizeList : List Step → Nat
  | [] => 0
  | step :: steps => Step.size step + Step.sizeList steps

end

inductive Outcome where
  | ok
  | failed
  | panicked
  deriving DecidableEq, Repr

structure TreeReport where
  text : String
  errors : List RenderError
  tally : Tally

structure Resolution where
  isThere : Bool
  shadowed : Bool
  origin : Option Origin
  text : Option String

structure RefreshReport where
  reexecuted : Nat
  forwarded : Nat
  /-- Missing if the output was not to hear anything. -/
  events : Option (List SinkEvent)
  text : String

mutual

inductive Answer where
  | done
  | cycleRefused
  | flag (b : Bool)
  | note (n : Option Note)
  | field (value : Option String)
  | resolution (r : Resolution)
  | titles (entries : List (Title × Origin))
  | tagged (notes : List Note)
  | count (n : Option Nat)
  | names (ns : List String)
  | nodes (ns : Option (List Node))
  | pending (batch : Batch)
  | flushed (batch : Batch) (calls : List ListenerCall)
  | text (s : String)
  | report (r : TreeReport)
  | root (n : Node)
  | walk (ns : List Node)
  | tally (t : Tally)
  | events (es : List SinkEvent)
  | refreshed (r : RefreshReport)
  | panicked

/-- One call of a listener, with the answers to its actions. -/
inductive ListenerCall where
  | mk (listener : String) (batch : Batch) (answers : List Answer) (outcome : Outcome)

end

end Notebook.Session
