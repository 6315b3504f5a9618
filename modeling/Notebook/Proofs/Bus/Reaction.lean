import Notebook.Bus

/-! # What listeners do to a bus

A listener that is called reacts with requests to the bus that has called it. Which request comes
next may depend on all answers so far, on the bus itself and on whatever else there is. It may
break off at any time.
-/

namespace Notebook.Bus

variable {κ σ : Type}

inductive Outcome where
  | ok
  | failed
  | panicked
  deriving DecidableEq, Repr

inductive Reaction (κ σ : Type) where
  | done (outcome : Outcome) (rest : σ)
  | look (next : Bus κ → Reaction κ σ)
  | enqueue (title : Title) (kind : ChangeKind) (next : Reaction κ σ)
  | clear (next : Reaction κ σ)
  | subscribe (filter : EventFilter) (callback : κ) (next : ListenerId → Reaction κ σ)
  | unsubscribe (id : ListenerId) (next : Bool → Reaction κ σ)
  | flush (next : Batch → Reaction κ σ)

/-- A request and its answer. A flush comes with what was pending before and after it. -/
inductive Exchange (κ : Type) where
  | enqueue (title : Title) (kind : ChangeKind)
  | clear
  | subscribe (l : Listener κ)
  | unsubscribe (id : ListenerId) (answer : Bool)
  | flush (answer before after : Batch)

structure Call (κ : Type) where
  listener : Listener κ
  batch : Batch
  exchanges : List (Exchange κ)
  outcome : Outcome

/-- A bus, everything else, and the calls of listeners so far. -/
structure Stage (κ σ : Type) where
  bus : Bus κ
  rest : σ
  calls : List (Call κ) := []

namespace Stage

def access : Access (Stage κ σ) κ where
  get := Stage.bus
  modify f w := { w with bus := f w.bus }

end Stage

/-- How the listeners of a flush within a call would be called. -/
abbrev Inner (κ σ : Type) := Listener κ → Batch → Stage κ σ → Stage κ σ

def react (inner : Inner κ σ) :
    Reaction κ σ → Stage κ σ → Outcome × List (Exchange κ) × Stage κ σ
  | .done outcome rest, w => (outcome, [], { w with rest })
  | .look next, w => react inner (next w.bus) w
  | .enqueue title kind next, w =>
    let (outcome, exchanges, w) := react inner next { w with bus := w.bus.enqueue title kind }
    (outcome, .enqueue title kind :: exchanges, w)
  | .clear next, w =>
    let (outcome, exchanges, w) := react inner next { w with bus := w.bus.clear }
    (outcome, .clear :: exchanges, w)
  | .subscribe filter callback next, w =>
    let (id, bus) := w.bus.subscribe filter callback
    let (outcome, exchanges, w) := react inner (next id) { w with bus }
    (outcome, .subscribe ⟨id, filter, callback⟩ :: exchanges, w)
  | .unsubscribe id next, w =>
    let (answer, bus) := w.bus.unsubscribe id
    let (outcome, exchanges, w) := react inner (next answer) { w with bus }
    (outcome, .unsubscribe id answer :: exchanges, w)
  | .flush next, w =>
    let (answer, w') := Bus.flush Stage.access inner w
    let (outcome, exchanges, w'') := react inner (next answer) w'
    (outcome, .flush answer w.bus.pending w'.bus.pending :: exchanges, w'')

abbrev Behaviour (κ σ : Type) := Listener κ → Batch → σ → Reaction κ σ

/-- Calls a listener. However the call ends, the dispatch goes on. -/
def invoke (behaviour : Behaviour κ σ) (inner : Inner κ σ) : Inner κ σ := fun l batch w =>
  let (outcome, exchanges, w') := react inner (behaviour l batch w.rest) w
  { w' with calls := w'.calls ++ [⟨l, batch, exchanges, outcome⟩] }

/-- The stages between two operations from outside. -/
inductive Reachable : Stage κ σ → Prop
  | new (rest : σ) : Reachable { bus := {}, rest }
  | other {w : Stage κ σ} (h : Reachable w) (rest : σ) : Reachable { w with rest }
  | enqueue {w : Stage κ σ} (h : Reachable w) (title : Title) (kind : ChangeKind) :
      Reachable { w with bus := w.bus.enqueue title kind }
  | clear {w : Stage κ σ} (h : Reachable w) : Reachable { w with bus := w.bus.clear }
  | subscribe {w : Stage κ σ} (h : Reachable w) (filter : EventFilter) (callback : κ) :
      Reachable { w with bus := (w.bus.subscribe filter callback).2 }
  | unsubscribe {w : Stage κ σ} (h : Reachable w) (id : ListenerId) :
      Reachable { w with bus := (w.bus.unsubscribe id).2 }
  | flush {w : Stage κ σ} (h : Reachable w) (behaviour : Behaviour κ σ) (inner : Inner κ σ) :
      Reachable (Bus.flush Stage.access (invoke behaviour inner) w).2

end Notebook.Bus
