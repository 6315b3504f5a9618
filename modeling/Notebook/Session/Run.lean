import Notebook.Builtin
import Notebook.Session.Step
import Notebook.Store.Summary

/-! # Running a session

Steps run one after the other. A flush calls listeners, whose actions are steps again. Each
dispatch that runs within another one belongs to another store, since a store has one dispatch at
a time, so listeners nest only so deep.
-/

namespace Notebook

structure Callback where
  name : String
  actions : List Session.Step

structure Session where
  library : Library Callback := {}
  stores : Catalog StoreId := ∅
  trees : Catalog LiveTree := ∅
  /-- The number of the latest listener of each name. Each store counts its own listeners. -/
  listeners : Catalog ListenerId := ∅
  /-- The batch of the latest flush or of the latest call of a listener. -/
  lastBatch : Batch := ∅
  /-- The calls of the running flush, in the order in which they ended. -/
  calls : List Session.ListenerCall := []

namespace Session

inductive Halt where
  | failed
  | panicked
  deriving DecidableEq, Repr

/-- Steps may break off; then what they have done so far is undone, which no step shows. -/
abbrev Turn := StateT Session (Except Halt)

namespace Turn

def storeId (name : String) : Turn StoreId := do
  match (← get).stores.get? name with
  | some s => return s
  | none => throw .panicked

def store (name : String) : Turn (Store Callback) := do
  match (← get).library.store? (← storeId name) with
  | some store => return store
  | none => throw .panicked

def tree (name : String) : Turn LiveTree := do
  match (← get).trees.get? name with
  | some tree => return tree
  | none => throw .panicked

def modifyLibrary (f : Library Callback → Library Callback) : Turn Unit :=
  modify fun session => { session with library := f session.library }

def nameStore (name : String) (added : StoreId × Library Callback) : Turn Unit :=
  modify fun session =>
    { session with library := added.2, stores := session.stores.insert name added.1 }

def keepTree (name : String) (tree : LiveTree) (lib : Library Callback) : Turn Unit :=
  modify fun session =>
    { session with library := lib, trees := session.trees.insert name tree }

def ofOption (x : Option α) : Turn α :=
  match x with
  | some a => return a
  | none => throw .panicked

def parsed (nodes : Except String (List Node)) : Turn (List Node) :=
  match nodes with
  | .ok nodes => return nodes
  | .error _ => throw .panicked

end Turn

open Turn

def busAccess (s : StoreId) : Bus.Access Session Callback where
  get session := (Library.busAccess s).get session.library
  modify f session := { session with library := (Library.busAccess s).modify f session.library }

def resolve (lib : Library Callback) (s : StoreId) (title : Title) : Resolution where
  isThere := lib.exists s title
  shadowed := lib.isShadowed s title
  origin := lib.origin s title
  text := (lib.get s title).map Note.text

def treeReport (tree : LiveTree) : TreeReport :=
  ⟨tree.text, tree.errors, tree.tally⟩

def flush (invoke : Listener Callback → Batch → Session → Session) (s : StoreId)
    (session : Session) : Answer × Session :=
  let (batch, after) := Bus.flush (busAccess s) invoke { session with calls := [] }
  (.flushed batch after.calls, { after with calls := session.calls, lastBatch := batch })

def run (invoke : Listener Callback → Batch → Session → Session) : Step → Turn Answer
  | .addStore name settings builtins => do
    let store : Store Callback := { settings }
    let store := if builtins then store.installBuiltins else store
    nameStore name ((← get).library.addStore store)
    return .done
  | .addBuiltinStore name => do
    nameStore name (Builtin.addStore (← get).library)
    return .done
  | .installBuiltins name => do
    let s ← storeId name
    modifyLibrary fun lib => lib.update s Store.installBuiltins
    return .done
  | .dropStore name => do
    let session ← get
    set { session with stores := session.stores.erase name }
    return .flag (session.stores.contains name)
  | .dropTree name => do
    let session ← get
    set { session with trees := session.trees.erase name }
    return .flag (session.trees.contains name)
  | .addFallback name fallback => do
    match (← get).library.addFallback? (← storeId name) (← storeId fallback) with
    | some lib =>
      modifyLibrary fun _ => lib
      return .done
    | none => return .cycleRefused
  | .addNote name note => do
    let s ← storeId name
    modifyLibrary fun lib => lib.add s note
    return .done
  | .delete name title => do
    let s ← storeId name
    modifyLibrary fun lib => lib.delete s title
    return .done
  | .get name title => do
    return .note ((← get).library.get (← storeId name) title)
  | .field name title field => do
    return .field (((← get).library.get (← storeId name) title).bind fun note => note.field field)
  | .lookup name title => do
    return .resolution (resolve (← get).library (← storeId name) title)
  | .titles name => do
    return .titles ((← get).library.titles (← storeId name)).entries
  | .tagged name tag => do
    return .tagged ((← get).library.tagged (← storeId name) tag)
  | .registerParser name keys parser => do
    let s ← storeId name
    modifyLibrary fun lib => lib.registerParser s keys parser
    return .done
  | .parseCount label => do
    return .count ((← get).library.parseCounts.get? label)
  | .installMacro name m => do
    let s ← storeId name
    modifyLibrary fun lib => lib.installMacro s m.toMacro
    return .done
  | .macroNames name => do
    return .names (← store name).macros.keys
  | .hasMacro name m => do
    return .flag ((← store name).macros.contains m)
  | .parseText name type text => do
    let (nodes, lib) := (← get).library.parseText (← storeId name) type text
    modifyLibrary fun _ => lib
    return .nodes (some (← parsed nodes))
  | .parseNote name title => do
    let (nodes, lib) := (← get).library.parseNote (← storeId name) title
    modifyLibrary fun _ => lib
    match nodes with
    | some nodes => return .nodes (some (← parsed nodes))
    | none => return .nodes none
  | .pending name => do
    return .pending ((← get).library.pending (← storeId name))
  | .clear name => do
    let s ← storeId name
    modifyLibrary fun lib => lib.clearPending s
    return .done
  | .listen name listener filter actions => do
    let s ← storeId name
    let session ← get
    let (id, bus) := ((busAccess s).get session).subscribe filter ⟨listener, actions⟩
    let session := (busAccess s).modify (fun _ => bus) session
    set { session with listeners := session.listeners.insert listener id }
    return .done
  | .unlisten name listener => do
    match (← get).listeners.get? listener with
    | some id =>
      let s ← storeId name
      let session ← get
      let (removed, bus) := ((busAccess s).get session).unsubscribe id
      set ((busAccess s).modify (fun _ => bus) session)
      return .flag removed
    | none => return .flag false
  | .flush name => do
    let s ← storeId name
    modifyGet (flush invoke s)
  | .summary name => do
    return .text (← store name).summary
  | .render name treeName root => do
    let s ← storeId name
    let lib := (← get).library
    let (tree, lib) ← ofOption
      (match root with
        | .note title => LiveTree.renderNote lib s title
        | .call c => LiveTree.render lib s c)
    keepTree treeName tree lib
    return .report (treeReport tree)
  | .report name => do
    return .report (treeReport (← tree name))
  | .text name => do
    return .text (← tree name).text
  | .root name => do
    return .root (← tree name).root
  | .json name => do
    return .text (← tree name).toJson.indented
  | .walk name => do
    return .walk (← tree name).root.walk
  | .metrics name => do
    return .tally (← tree name).tally
  | .resetMetrics name => do
    let tree ← tree name
    keepTree name { tree with tally := {} } (← get).library
    return .done
  | .mount name => do
    return .events (← tree name).mount
  | .unmount name => do
    return .events (← tree name).unmount
  | .refresh name batch silent => do
    let session ← get
    let (log, tree, lib) ← ofOption
      ((← tree name).refresh session.library (batch.getD session.lastBatch))
    keepTree name tree lib
    return .refreshed
      ⟨log.reexecuted, log.forwarded, if silent then none else some log.events, tree.text⟩
  | .fail => throw .failed
  | .panic => throw .panicked

def runActions (invoke : Listener Callback → Batch → Session → Session) :
    List Step → Session → List Answer × Outcome × Session
  | [], session => ([], .ok, session)
  | step :: steps, session =>
    match (run invoke step).run session with
    | .ok (answer, session) =>
      let (answers, outcome, session) := runActions invoke steps session
      (answer :: answers, outcome, session)
    | .error .failed => ([], .failed, session)
    | .error .panicked => ([], .panicked, session)

/-- Calls a listener, within at most `bound` dispatches. -/
def invokeWithin : Nat → Listener Callback → Batch → Session → Session
  | 0, _, _, session => session
  | bound + 1, listener, batch, session =>
    let (answers, outcome, session) :=
      runActions (invokeWithin bound) listener.callback.actions { session with lastBatch := batch }
    let call : ListenerCall := .mk listener.callback.name batch answers outcome
    { session with calls := session.calls ++ [call] }

/-- One step of a session of the given size. -/
def answer (size : Nat) (step : Step) (session : Session) : Answer × Session :=
  let bound := (session.library.stores.length + 1) * (size + 1)
  match (run (invokeWithin bound) step).run session with
  | .ok result => result
  | .error _ => (.panicked, session)

def answers (size : Nat) : List Step → Session → List Answer
  | [], _ => []
  | step :: steps, session =>
    let (first, session) := answer size step session
    first :: answers size steps session

def play (steps : List Step) : List Answer :=
  answers (Step.sizeList steps) steps {}

end Session

end Notebook
