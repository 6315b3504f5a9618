import Notebook.Proofs.Bus.Dispatch

/-! # Journals of a bus

Listeners and callers can keep a journal of all that happens on a bus: of each request, of each
call and of what is pending after it. Every run has such a journal, and it changes nothing in the
run.
-/

namespace Notebook.Bus

inductive Entry where
  | enqueue (title : Title) (kind : ChangeKind)
  | clear
  | take
  | call (batch : Batch)
  | deliver (batch : Batch)
  /-- A flush within a call has been answered. -/
  | nested (answer : Batch)
  | pending (batch : Batch)

abbrev Journal := List Entry

variable {κ σ : Type}

/-- The reaction, with an entry and a look at what is pending after each request. -/
def Reaction.journaled : Reaction κ σ → Journal → Reaction κ (σ × Journal)
  | .done outcome rest, j => .done outcome (rest, j)
  | .look next, j => .look fun bus => (next bus).journaled (j ++ [.pending bus.pending])
  | .enqueue title kind next, j =>
    .enqueue title kind (.look fun bus =>
      next.journaled (j ++ [.enqueue title kind] ++ [.pending bus.pending]))
  | .clear next, j =>
    .clear (.look fun bus => next.journaled (j ++ [.clear] ++ [.pending bus.pending]))
  | .subscribe filter callback next, j =>
    .subscribe filter callback fun id =>
      .look fun bus => (next id).journaled (j ++ [.pending bus.pending])
  | .unsubscribe id next, j =>
    .unsubscribe id fun answer =>
      .look fun bus => (next answer).journaled (j ++ [.pending bus.pending])
  | .flush next, j =>
    .flush fun answer => .look fun bus =>
      (next answer).journaled (j ++ [.nested answer] ++ [.pending bus.pending])

def Behaviour.journaled (behaviour : Behaviour κ σ) : Behaviour κ (σ × Journal) :=
  fun l batch rest => .look fun bus =>
    (behaviour l batch rest.1).journaled (rest.2 ++ [.call batch] ++ [.pending bus.pending])

namespace Stage

variable (w : Stage κ (σ × Journal))

def journal : Journal :=
  w.rest.2

def enter (e : Entry) : Stage κ (σ × Journal) :=
  { w with rest := (w.rest.1, w.journal ++ [e]) }

/-- Enters what is pending now. -/
def look : Stage κ (σ × Journal) :=
  w.enter (.pending w.bus.pending)

def forget : Stage κ σ where
  bus := w.bus
  rest := w.rest.1
  calls := w.calls

end Stage

/-- The stages between two operations from outside, with a journal of all operations and of all
that listeners have done. -/
inductive Journaled : Stage κ (σ × Journal) → Prop
  | new (rest : σ) : Journaled { bus := {}, rest := (rest, []) }
  | other {w : Stage κ (σ × Journal)} (h : Journaled w) (rest : σ) :
      Journaled { w with rest := (rest, w.journal) }
  | enqueue {w : Stage κ (σ × Journal)} (h : Journaled w) (title : Title) (kind : ChangeKind) :
      Journaled (({ w with bus := w.bus.enqueue title kind }.enter (.enqueue title kind)).look)
  | clear {w : Stage κ (σ × Journal)} (h : Journaled w) :
      Journaled (({ w with bus := w.bus.clear }.enter .clear).look)
  | subscribe {w : Stage κ (σ × Journal)} (h : Journaled w) (filter : EventFilter) (callback : κ) :
      Journaled ({ w with bus := (w.bus.subscribe filter callback).2 }.look)
  | unsubscribe {w : Stage κ (σ × Journal)} (h : Journaled w) (id : ListenerId) :
      Journaled ({ w with bus := (w.bus.unsubscribe id).2 }.look)
  | flush {w : Stage κ (σ × Journal)} (h : Journaled w) (behaviour : Behaviour κ σ)
      (inner : Inner κ (σ × Journal)) {batch : Batch} {w' : Stage κ (σ × Journal)}
      (hf : Bus.flush Stage.access (invoke behaviour.journaled inner) (w.enter .take) =
        (batch, w')) : Journaled ((w'.enter (.deliver batch)).look)

theorem Journaled.reachable {w : Stage κ (σ × Journal)} (h : Journaled w) : Reachable w := by
  induction h with
  | new rest => exact .new (rest, [])
  | other _ rest ih => exact ih.other _
  | enqueue _ title kind ih => exact ((ih.enqueue title kind).other _).other _
  | clear _ ih => exact (ih.clear.other _).other _
  | subscribe _ filter callback ih => exact (ih.subscribe filter callback).other _
  | unsubscribe _ id ih => exact (ih.unsubscribe id).other _
  | @flush w _ behaviour inner batch w' hf ih =>
    have hflush := (ih.other (w.rest.1, w.journal ++ [.take])).flush behaviour.journaled inner
    change Reachable (Bus.flush Stage.access _ (w.enter .take)).2 at hflush
    rw [hf] at hflush
    exact (hflush.other _).other _

theorem dispatching_unsubscribe (bus : Bus κ) (id : ListenerId) :
    (bus.unsubscribe id).2.dispatching = bus.dispatching := by
  unfold unsubscribe
  split
  · rfl
  · split <;> rfl

theorem dispatching_react (inner : Inner κ σ) (r : Reaction κ σ) {w : Stage κ σ}
    (hd : w.bus.dispatching = true) : (react inner r w).2.2.bus.dispatching = true := by
  induction r generalizing w with
  | done outcome rest => exact hd
  | look next ih => exact ih w.bus hd
  | enqueue title kind next ih => exact ih (w := { w with bus := _ }) hd
  | clear next ih => exact ih (w := { w with bus := _ }) hd
  | subscribe filter callback next ih => exact ih _ (w := { w with bus := _ }) hd
  | unsubscribe id next ih =>
    exact ih _ (w := { w with bus := _ }) ((dispatching_unsubscribe w.bus id).trans hd)
  | flush next ih =>
    simp only [react, flush_of_dispatching inner hd]
    exact ih ∅ hd

section Forget

variable {w : Stage κ (σ × Journal)}

theorem forget_react (inner : Inner κ σ) (inner' : Inner κ (σ × Journal)) (r : Reaction κ σ)
    (j : Journal) (hd : w.bus.dispatching = true) :
    react inner r w.forget = ((react inner' (r.journaled j) w).1,
      (react inner' (r.journaled j) w).2.1, (react inner' (r.journaled j) w).2.2.forget) := by
  induction r generalizing j w with
  | done outcome rest => rfl
  | look next ih => exact ih w.bus _ hd
  | enqueue title kind next ih =>
    have hnext := ih (w := { w with bus := w.bus.enqueue title kind })
      (j ++ [.enqueue title kind] ++ [.pending (w.bus.enqueue title kind).pending]) hd
    exact congrArg (fun x => (x.1, Exchange.enqueue title kind :: x.2.1, x.2.2)) hnext
  | clear next ih =>
    have hnext := ih (w := { w with bus := w.bus.clear })
      (j ++ [.clear] ++ [.pending w.bus.clear.pending]) hd
    exact congrArg (fun x => (x.1, Exchange.clear :: x.2.1, x.2.2)) hnext
  | subscribe filter callback next ih =>
    have hnext := ih w.bus.nextId (w := { w with bus := (w.bus.subscribe filter callback).2 })
      (j ++ [.pending (w.bus.subscribe filter callback).2.pending]) hd
    exact congrArg
      (fun x => (x.1, Exchange.subscribe ⟨w.bus.nextId, filter, callback⟩ :: x.2.1, x.2.2)) hnext
  | unsubscribe id next ih =>
    have hnext := ih (w.bus.unsubscribe id).1 (w := { w with bus := (w.bus.unsubscribe id).2 })
      (j ++ [.pending (w.bus.unsubscribe id).2.pending])
      ((dispatching_unsubscribe w.bus id).trans hd)
    exact congrArg
      (fun x => (x.1, Exchange.unsubscribe id (w.bus.unsubscribe id).1 :: x.2.1, x.2.2)) hnext
  | flush next ih =>
    have hd' : w.forget.bus.dispatching = true := hd
    simp only [Reaction.journaled, react, flush_of_dispatching inner' hd,
      flush_of_dispatching inner hd']
    have hnext := ih ∅ (j ++ [.nested ∅] ++ [.pending w.bus.pending]) hd
    exact congrArg
      (fun x => (x.1, Exchange.flush ∅ w.bus.pending w.bus.pending :: x.2.1, x.2.2)) hnext

theorem forget_dispatch (behaviour : Behaviour κ σ) (inner : Inner κ σ)
    (inner' : Inner κ (σ × Journal)) (batch : Batch) (todo : List (Listener κ))
    (hd : w.bus.dispatching = true) :
    dispatch Stage.access (invoke behaviour inner) batch todo w.forget =
      (dispatch Stage.access (invoke behaviour.journaled inner') batch todo w).forget := by
  induction todo generalizing w with
  | nil => rfl
  | cons l todo ih =>
    have hremoved : (Stage.access.get w.forget).removed = (Stage.access.get w).removed := rfl
    rw [dispatch, dispatch, hremoved]
    split
    · exact ih hd
    · have hreact : react inner (behaviour l batch w.forget.rest) w.forget = _ :=
        forget_react inner inner' (behaviour l batch w.rest.1)
          (w.journal ++ [.call batch] ++ [.pending w.bus.pending]) hd
      have hinvoke : invoke behaviour inner l batch w.forget =
          (invoke behaviour.journaled inner' l batch w).forget := by
        unfold invoke
        rw [hreact]
        rfl
      rw [hinvoke]
      exact ih (dispatching_react inner' _ hd)

theorem forget_flush {w' : Stage κ (σ × Journal)} {batch : Batch} (hi : Idle w.bus)
    (behaviour : Behaviour κ σ) (inner : Inner κ σ) (inner' : Inner κ (σ × Journal))
    (hf : Bus.flush Stage.access (invoke behaviour.journaled inner') (w.enter .take) =
      (batch, w')) :
    Bus.flush Stage.access (invoke behaviour inner) w.forget = (batch, w'.forget) := by
  cases hp : w.bus.pending.isEmpty with
  | true =>
    rw [flush_of_isEmpty (w := w.enter .take) hp] at hf
    cases hf
    exact flush_of_isEmpty (w := w.forget) hp _
  | false =>
    have hi₁ : Idle w.forget.bus := hi
    have hi₂ : Idle (w.enter .take).bus := hi
    rw [hi₂.flush_eq hp] at hf
    cases hf
    rw [hi₁.flush_eq hp]
    have hdispatch := forget_dispatch (w := { w.enter .take with bus := w.bus.checkOut })
      behaviour inner inner' w.bus.pending w.bus.listeners rfl
    exact congrArg (fun x : Stage κ σ =>
      (w.bus.pending, Stage.access.modify (Bus.checkIn w.bus.listeners) x)) hdispatch

end Forget

theorem Journaled.forget {w : Stage κ (σ × Journal)} (h : Journaled w) :
    Reachable w.forget := by
  induction h with
  | new rest => exact .new rest
  | other _ rest ih => exact ih.other rest
  | enqueue _ title kind ih => exact ih.enqueue title kind
  | clear _ ih => exact ih.clear
  | subscribe _ filter callback ih => exact ih.subscribe filter callback
  | unsubscribe _ id ih => exact ih.unsubscribe id
  | @flush w h behaviour inner batch w' hf ih =>
    have hflush := ih.flush behaviour fun _ _ w => w
    rw [forget_flush h.reachable.idle behaviour _ inner hf] at hflush
    exact hflush

/-- Every run has a journal, which changes nothing in it. -/
theorem Reachable.exists_journaled {w : Stage κ σ} (h : Reachable w) :
    ∃ w' : Stage κ (σ × Journal), Journaled w' ∧ w'.forget = w := by
  induction h with
  | new rest => exact ⟨_, .new rest, rfl⟩
  | other _ rest ih =>
    obtain ⟨w', hw, rfl⟩ := ih
    exact ⟨_, hw.other rest, rfl⟩
  | enqueue _ title kind ih =>
    obtain ⟨w', hw, rfl⟩ := ih
    exact ⟨_, hw.enqueue title kind, rfl⟩
  | clear _ ih =>
    obtain ⟨w', hw, rfl⟩ := ih
    exact ⟨_, hw.clear, rfl⟩
  | subscribe _ filter callback ih =>
    obtain ⟨w', hw, rfl⟩ := ih
    exact ⟨_, hw.subscribe filter callback, rfl⟩
  | unsubscribe _ id ih =>
    obtain ⟨w', hw, rfl⟩ := ih
    exact ⟨_, hw.unsubscribe id, rfl⟩
  | flush _ behaviour inner ih =>
    obtain ⟨w', hw, rfl⟩ := ih
    rcases hf : Bus.flush Stage.access (invoke behaviour.journaled fun _ _ w => w)
      (w'.enter .take) with ⟨batch, w''⟩
    refine ⟨_, hw.flush behaviour _ hf, ?_⟩
    rw [forget_flush hw.reachable.idle behaviour inner _ hf]
    rfl

end Notebook.Bus
