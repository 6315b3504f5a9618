import Notebook.Batch

/-! # The event bus of a store

Changes are collected until a flush delivers them as one batch. A flush calls the listeners that
want the batch, in the order of their registration. While it does so the listeners are taken out
of the list, so that a listener may add and remove listeners, itself included, and a flush within
a flush does nothing.

What a listener does is left open: it acts on a state in which the bus lies.
-/

namespace Notebook

inductive EventFilter where
  | all
  | title (t : Title)
  deriving DecidableEq, Repr

namespace EventFilter

def ofText (text : String) : EventFilter :=
  if text = "" then all else title text

def isMatch : EventFilter → Batch → Bool
  | all, _ => true
  | title t, batch => batch.contains t

end EventFilter

abbrev ListenerId := Nat

structure Listener (κ : Type) where
  id : ListenerId
  filter : EventFilter
  callback : κ

structure Bus (κ : Type) where
  pending : Batch := ∅
  listeners : List (Listener κ) := []
  /-- The listeners of the running dispatch. -/
  checkedOut : List ListenerId := []
  /-- Those of them that were unsubscribed since it began. -/
  removed : List ListenerId := []
  dispatching : Bool := false
  nextId : ListenerId := 1

namespace Bus

variable {κ : Type} {σ : Type u}

def enqueue (bus : Bus κ) (title : Title) (kind : ChangeKind) : Bus κ :=
  { bus with pending := bus.pending.record title kind }

def clear (bus : Bus κ) : Bus κ :=
  { bus with pending := ∅ }

def subscribe (bus : Bus κ) (filter : EventFilter) (callback : κ) : ListenerId × Bus κ :=
  (bus.nextId,
    { bus with
      listeners := bus.listeners ++ [⟨bus.nextId, filter, callback⟩]
      nextId := bus.nextId + 1 })

/-- Whether the listener was there. One that is checked out can be removed only once. -/
def unsubscribe (bus : Bus κ) (id : ListenerId) : Bool × Bus κ :=
  if bus.listeners.any (·.id = id) then
    (true, { bus with listeners := bus.listeners.filter (·.id ≠ id) })
  else if bus.checkedOut.contains id && !bus.removed.contains id then
    (true, { bus with removed := id :: bus.removed })
  else (false, bus)

def checkOut (bus : Bus κ) : Bus κ :=
  { bus with
    pending := ∅
    listeners := []
    checkedOut := bus.listeners.map Listener.id
    dispatching := true }

def checkIn (active : List (Listener κ)) (bus : Bus κ) : Bus κ :=
  { bus with
    listeners := active.filter (fun l => !bus.removed.contains l.id) ++ bus.listeners
    checkedOut := []
    removed := []
    dispatching := false }

/-- Where a bus lies within a state. -/
structure Access (σ : Type u) (κ : Type) where
  get : σ → Bus κ
  modify : (Bus κ → Bus κ) → σ → σ

/-- Calls the listeners that want the batch and have not been removed before their turn. -/
def dispatch (access : Access σ κ) (invoke : Listener κ → Batch → σ → σ) (batch : Batch) :
    List (Listener κ) → σ → σ
  | [], s => s
  | l :: rest, s =>
    if (access.get s).removed.contains l.id || !l.filter.isMatch batch then
      dispatch access invoke batch rest s
    else dispatch access invoke batch rest (invoke l batch s)

def flush (access : Access σ κ) (invoke : Listener κ → Batch → σ → σ) (s : σ) : Batch × σ :=
  let bus := access.get s
  if bus.dispatching || bus.pending.isEmpty then (∅, s)
  else
    let called :=
      dispatch access invoke bus.pending bus.listeners (access.modify checkOut s)
    (bus.pending, access.modify (checkIn bus.listeners) called)

end Bus

end Notebook
