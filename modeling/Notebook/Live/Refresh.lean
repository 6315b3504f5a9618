import Notebook.Expansion.Calls

/-! # Refreshing nodes

A refresh walks over expanded nodes with a batch of changes. A call that has read a changed title
is expanded anew where it stands, and only what is below it is replaced. Any other call is passed
by, and the walk goes on below it. An output is told of every difference by events.
-/

namespace Notebook

/-- What an output hears. A mount and an unmount cover everything below the node. -/
inductive SinkEvent where
  | mount (parent : Option NodeId) (node : Node)
  | refresh (node : Node) (titles : List Title)
  | unmount (node : Node)

structure RefreshLog where
  reexecuted : Nat := 0
  forwarded : Nat := 0
  events : List SinkEvent := []

namespace RefreshLog

def append (a b : RefreshLog) : RefreshLog :=
  ⟨a.reexecuted + b.reexecuted, a.forwarded + b.forwarded, a.events ++ b.events⟩

instance : Append RefreshLog := ⟨append⟩

end RefreshLog

namespace Transclude

/-- Whether the target of a frame is missing now. A frame without target counts as one. -/
def isMissing (env : Env) (attributes : Attributes) : Bool :=
  match attributes.get? targetAttribute with
  | some target => target = "" || (env.note? target).isNone
  | none => true

def remark (env : Env) (content : List Node) : List Node :=
  match content with
  | .element id tag attributes children :: rest =>
    .element id tag (attributes.toggle env.page.missingClass (isMissing env attributes)) children ::
      rest
  | _ => content

def remarks (env : Env) (content : List Node) : Bool :=
  match content with
  | .element _ _ attributes _ :: _ =>
    attributes.toggles env.page.missingClass (isMissing env attributes)
  | _ => false

end Transclude

namespace Macro

/-- What a macro does to the content of a call that a refresh passes by. -/
def touch (env : Env) : Macro → List Node → List Node
  | transclude, content => Transclude.remark env content
  | custom c, content => content ++ (c.appended.map Node.text).toList
  | _, content => content

def touches (env : Env) : Macro → List Node → Bool
  | transclude, content => Transclude.remarks env content
  | custom c, _ => c.appended.isSome
  | _, _ => false

end Macro

namespace Expand

variable {env : Env}

def touch (env : Env) (c : Call) (content : List Node) : List Node :=
  match env.macros.get? c.name with
  | some m => m.touch env content
  | none => content

def touchEvents (env : Env) (batch : Batch) (c : Call) (content : List Node) : List SinkEvent :=
  match env.macros.get? c.name with
  | some m =>
    if m.touches env content then
      ((m.touch env content).head?.map fun node => SinkEvent.refresh node batch.titles).toList
    else []
  | none => []

/-- A call that has never been expanded is out of date. -/
def isStale (batch : Batch) (trace : Option Trace) : Bool :=
  match trace with
  | some t => t.reads.hasChanged batch
  | none => true

def placeOf (trace : Option Trace) : Context :=
  match trace with
  | some t => t.context
  | none => {}

def reexpand (node : Node) (context : Context) : Expand env (Node × RefreshLog) := do
  let fresh ← expandNode expand context node
  countReexecution
  return (fresh,
    { reexecuted := 1
      events := node.children.map SinkEvent.unmount ++
        fresh.children.map (SinkEvent.mount fresh.id?) })

mutual

/-- Touching a call and refreshing what is below it do not interfere: the first changes the
attributes of a frame or appends text, the second keeps both. -/
def refreshNode (batch : Batch) : Node → Expand env (Node × RefreshLog)
  | .text s => return (.text s, {})
  | .element id tag attributes children => do
    let (children, log) ← refreshList batch children
    return (.element id tag attributes children, log)
  | .call id c trace content => do
    if isStale batch trace then reexpand (.call id c trace content) (placeOf trace)
    else
      countForward
      let (below, log) ← refreshList batch content
      return (.call id c trace (touch env c below),
        { forwarded := 1, events := touchEvents env batch c content } ++ log)
  | .error e => return (.error e, {})

def refreshList (batch : Batch) : List Node → Expand env (List Node × RefreshLog)
  | [] => return ([], {})
  | node :: nodes => do
    let (node, log) ← refreshNode batch node
    let (nodes, rest) ← refreshList batch nodes
    return (node :: nodes, log ++ rest)

end

end Expand

end Notebook
