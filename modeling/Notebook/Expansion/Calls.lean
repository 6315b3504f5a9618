import Notebook.Expansion.Progress

/-! # Expanding calls

A call is bound to the signature of its macro, the calls among its arguments are expanded to text,
and the body of the macro runs. Whatever goes wrong becomes an error in place of the content. The
nodes that a body has expanded lie one level deeper than the call itself.
-/

namespace Notebook.Expand

variable {env : Env}

/-- What a call has read and the nodes it stands for. -/
structure Result where
  reads : Reads
  content : List Node

/-- How nodes are expanded one level deeper. -/
abbrev Nested (env : Env) := Context → List Node → Expand env (List Node)

structure Deferred (env : Env) where
  callee : String
  run : Expand env (Reads × String)

def runBody (nested : Nested env) : Body → Expand env (Except Failure (List Node))
  | .done nodes => return .ok nodes
  | .fail e => return .error (.error e)
  | .panic message => return .error (.panic message)
  | .lookup title next => runBody nested (next (env.note? title))
  | .parse type text next => do
    match ← parse type text with
    | .ok nodes => runBody nested (next nodes)
    | .error message => return .error (.panic (some message))
  | .parseNote title next =>
    match env.lookup title with
    | none => runBody nested (next none)
    | some saved => do
      match ← parseSaved title saved with
      | .ok nodes => runBody nested (next (some nodes))
      | .error message => return .error (.panic (some message))
  | .expand context nodes next => do
    let nodes ← nested context nodes
    runBody nested (next nodes)
  | .recursion next => do
    countRecursion
    runBody nested next
  | .executions next => do
    runBody nested (next (← get).tally.executions)

def runDeferred : List (Deferred env) → Expand env (Reads × List String)
  | [] => return (.none, [])
  | d :: ds => do
    let (reads, text) ← d.run
    let (rest, texts) ← runDeferred ds
    return (reads.merge rest, text :: texts)

/-- A call as a value hides what is read, if the value decides that. -/
def hidesReads (signature : Signature) (b : Binding κ) : Bool :=
  signature.params.any fun spec => spec.affectsReads && b.hasCall spec.name

def failed (reads : Reads) (e : RenderError) : Expand env Result := do
  countError
  return ⟨reads, [.error e]⟩

def expandBound (nested : Nested env) (context : Context) (callee : String) (m : Macro)
    (b : Binding (Deferred env)) : Expand env Result := do
  let own :=
    if hidesReads m.signature b then .all else m.reads (b.mapCalls fun _ => ()) context
  let (read, texts) ← runDeferred b.calls
  let reads := own.merge read
  let args := (b.fill texts).mapCalls fun _ => ()
  match ← runBody nested (m.body env.page args context) with
  | .ok nodes => return ⟨reads, ← assign nodes⟩
  | .error f => failed reads (f.toError callee)

def expandSupplied (nested : Nested env) (context : Context) (callee : String)
    (supplied : List (Supplied (Deferred env))) : Expand env Result :=
  match env.macros.get? callee with
  | none => failed .none (.unknownMacro callee)
  | some m =>
    match m.signature.bind callee (showArgument Deferred.callee) supplied with
    | .error e => failed .none e
    | .ok b => expandBound nested context callee m b

mutual

/-- A call as value is expanded like any other call and then read as text. It draws an id, which
nothing in the page will carry. -/
def defer (nested : Nested env) (context : Context) : Param → Supplied (Deferred env)
  | .literal name text => ⟨name, .literal text⟩
  | .call name callee params =>
    let run : Expand env (Reads × String) := do
      let _ ← freshId
      countExecution
      let result ← expandSupplied nested context callee (deferList nested context params)
      return (result.reads, Node.plainTextList result.content)
    ⟨name, .call ⟨callee, run⟩ none⟩

def deferList (nested : Nested env) (context : Context) :
    List Param → List (Supplied (Deferred env))
  | [] => []
  | param :: params => defer nested context param :: deferList nested context params

end

def expandCall (nested : Nested env) (context : Context) (c : Call) : Expand env Result :=
  expandSupplied nested context c.name (deferList nested context c.params)

mutual

/-- Expands the calls among nodes. A call that had been expanded before is expanded anew. -/
def expandNode (expand : Context → Call → Expand env Result) (context : Context) :
    Node → Expand env Node
  | .text s => return .text s
  | .element id tag attributes children => do
    let id ← idOrFresh id
    let children ← expandList expand context children
    return .element (some id) tag attributes children
  | .call id c _ _ => do
    let id ← idOrFresh id
    countExecution
    let result ← expand context c
    return .call (some id) c (some ⟨result.reads, context⟩) result.content
  | .error e => return .error e

def expandList (expand : Context → Call → Expand env Result) (context : Context) :
    List Node → Expand env (List Node)
  | [] => return []
  | node :: nodes => do
    let node ← expandNode expand context node
    let nodes ← expandList expand context nodes
    return node :: nodes

end

def expandWithin : Nat → Context → Call → Expand env Result
  | 0 => fun _ _ => failure
  | depth + 1 => expandCall (expandList (expandWithin depth))

def expand (context : Context) (c : Call) : Expand env Result :=
  expandWithin env.maxDepth context c

end Notebook.Expand
