import Notebook.Proofs.Bus.Journal
import Notebook.Proofs.Catalog

/-! # Windows of changes

Every change is delivered in one batch, or overtaken by another change of its title, or cleared, or
still pending. A journal is cut into windows by the flushes from outside and by clearing. What such
a flush delivers are the last changes in the window that it closes, and what is pending at any
moment are the last changes in the window that is open.
-/

namespace Notebook.Bus

abbrev Window := List (Title × ChangeKind)

namespace Window

def lastKind? (window : Window) (title : Title) : Option ChangeKind :=
  (window.reverse.find? (·.1 = title)).map Prod.snd

/-- The batch has the last change of each title in the window, and nothing else. -/
def Makes (window : Window) (batch : Batch) : Prop :=
  ∀ title, batch.get? title = window.lastKind? title

theorem makes_nil : Makes [] ∅ :=
  fun _ => rfl

theorem Makes.record {window : Window} {batch : Batch} (h : window.Makes batch) (title : Title)
    (kind : ChangeKind) : Makes (window ++ [(title, kind)]) (batch.record title kind) := by
  intro other
  rw [Batch.record, Catalog.get?_insert, lastKind?, List.reverse_concat, List.find?_cons]
  by_cases ho : other = title
  · simp [ho]
  · simp only [ho, Ne.symm ho, if_false, decide_false]
    exact h other

end Window

namespace Journal

/-- The open window and the one that was closed by the last flush from outside. -/
structure Cut where
  current : Window := []
  taken : Window := []

def Cut.next (cut : Cut) : Entry → Cut
  | .enqueue title kind => { cut with current := cut.current ++ [(title, kind)] }
  | .clear => { cut with current := [] }
  | .take => ⟨[], cut.current⟩
  | _ => cut

def cut (j : Journal) : Cut :=
  j.foldl Cut.next {}

/-- The changes since the last flush from outside or the last clearing. -/
def openWindow (j : Journal) : Window :=
  j.cut.current

/-- The changes that the last flush from outside has taken. -/
def takenWindow (j : Journal) : Window :=
  j.cut.taken

theorem cut_concat (j : Journal) (e : Entry) : cut (j ++ [e]) = j.cut.next e := by
  rw [cut, List.foldl_append]
  rfl

end Journal

/-- The entry tells the truth after what is in the journal: all that is delivered, to a listener or
to the caller of the flush, is the window that this flush has closed; a flush within a call gives
nothing; and what is pending is the open window. -/
def Entry.Follows (j : Journal) : Entry → Prop
  | call batch => j.takenWindow.Makes batch
  | deliver batch => j.takenWindow.Makes batch
  | nested answer => answer = ∅
  | pending batch => j.openWindow.Makes batch
  | _ => True

def Journal.IsTrue (j : Journal) : Prop :=
  ∀ before e after, j = before ++ e :: after → e.Follows before

theorem Journal.isTrue_nil : Journal.IsTrue [] := by
  intro before e after h
  simp at h

theorem Journal.IsTrue.concat {j : Journal} {e : Entry} (h : j.IsTrue) (he : e.Follows j) :
    Journal.IsTrue (j ++ [e]) :=
  forall_concat_splits h he

variable {κ σ : Type}

/-- The journal is true, what is pending is its open window, and the last flush from outside has
taken the given window. -/
structure Kept (taken : Window) (j : Journal) (bus : Bus κ) : Prop where
  isTrue : j.IsTrue
  current : j.openWindow.Makes bus.pending
  taken : j.takenWindow = taken

namespace Kept

variable {taken : Window} {j : Journal} {bus bus' : Bus κ} {e : Entry}

theorem concat (h : Kept taken j bus) (he : e.Follows j) (hcut : j.cut.next e = j.cut)
    (hb : bus'.pending = bus.pending) : Kept taken (j ++ [e]) bus' where
  isTrue := h.isTrue.concat he
  current := by
    rw [Journal.openWindow, Journal.cut_concat, hcut, hb]
    exact h.current
  taken := by
    rw [Journal.takenWindow, Journal.cut_concat, hcut]
    exact h.taken

theorem look (h : Kept taken j bus) : Kept taken (j ++ [.pending bus.pending]) bus :=
  h.concat h.current rfl rfl

theorem of_pending (h : Kept taken j bus) (hb : bus'.pending = bus.pending) :
    Kept taken j bus' :=
  ⟨h.isTrue, hb ▸ h.current, h.taken⟩

theorem enqueue (h : Kept taken j bus) (title : Title) (kind : ChangeKind) :
    Kept taken (j ++ [.enqueue title kind]) (bus.enqueue title kind) where
  isTrue := h.isTrue.concat trivial
  current := by
    rw [Journal.openWindow, Journal.cut_concat]
    exact h.current.record title kind
  taken := by
    rw [Journal.takenWindow, Journal.cut_concat]
    exact h.taken

theorem clear (h : Kept taken j bus) : Kept taken (j ++ [.clear]) bus.clear where
  isTrue := h.isTrue.concat trivial
  current := by
    rw [Journal.openWindow, Journal.cut_concat]
    exact Window.makes_nil
  taken := by
    rw [Journal.takenWindow, Journal.cut_concat]
    exact h.taken

theorem take (h : Kept taken j bus) (hb : bus'.pending = ∅) :
    Kept j.openWindow (j ++ [.take]) bus' where
  isTrue := h.isTrue.concat trivial
  current := by
    rw [Journal.openWindow, Journal.cut_concat, hb]
    exact Window.makes_nil
  taken := by
    rw [Journal.takenWindow, Journal.cut_concat]
    rfl

end Kept

section Calls

variable {taken : Window} {w : Stage κ (σ × Journal)} {j : Journal}

theorem Kept.react (inner : Inner κ (σ × Journal)) (r : Reaction κ σ)
    (h : Kept taken j w.bus) (hd : w.bus.dispatching = true) :
    Kept taken (react inner (r.journaled j) w).2.2.journal
        (react inner (r.journaled j) w).2.2.bus ∧
      (react inner (r.journaled j) w).2.2.bus.dispatching = true := by
  induction r generalizing j w with
  | done outcome rest => exact ⟨h, hd⟩
  | look next ih => exact ih w.bus h.look hd
  | enqueue title kind next ih =>
    have hnext := h.enqueue title kind
    exact ih (w := { w with bus := w.bus.enqueue title kind }) hnext.look hd
  | clear next ih =>
    have hnext := h.clear
    exact ih (w := { w with bus := w.bus.clear }) hnext.look hd
  | subscribe filter callback next ih =>
    have hnext : Kept taken j (w.bus.subscribe filter callback).2 := h.of_pending rfl
    exact ih _ (w := { w with bus := (w.bus.subscribe filter callback).2 }) hnext.look hd
  | unsubscribe id next ih =>
    have hnext := h.of_pending (pending_unsubscribe w.bus id)
    have hd' := (dispatching_unsubscribe w.bus id).trans hd
    exact ih _ (w := { w with bus := (w.bus.unsubscribe id).2 }) hnext.look hd'
  | flush next ih =>
    simp only [Reaction.journaled, Bus.react, flush_of_dispatching inner hd]
    have hnext : Kept taken (j ++ [.nested ∅]) w.bus := h.concat rfl rfl rfl
    exact ih ∅ hnext.look hd

variable {batch : Batch}

theorem Kept.dispatch (behaviour : Behaviour κ σ) (inner : Inner κ (σ × Journal))
    (hb : taken.Makes batch) (todo : List (Listener κ)) (h : Kept taken w.journal w.bus)
    (hd : w.bus.dispatching = true) :
    Kept taken (dispatch Stage.access (invoke behaviour.journaled inner) batch todo w).journal
      (dispatch Stage.access (invoke behaviour.journaled inner) batch todo w).bus := by
  induction todo generalizing w with
  | nil => exact h
  | cons l todo ih =>
    rw [Bus.dispatch]
    split
    · exact ih h hd
    · have htaken : w.journal.takenWindow.Makes batch := h.taken ▸ hb
      have hcall : Kept taken (w.journal ++ [.call batch]) w.bus := h.concat htaken rfl rfl
      obtain ⟨hkept, hd'⟩ := hcall.look.react inner (behaviour l batch w.rest.1) hd
      exact ih (w := invoke behaviour.journaled inner l batch w) hkept hd'

end Calls

theorem Kept.flush {taken : Window} {w w' : Stage κ (σ × Journal)} {batch : Batch}
    (hi : Idle w.bus) (h : Kept taken w.journal w.bus) (behaviour : Behaviour κ σ)
    (inner : Inner κ (σ × Journal))
    (hf : Bus.flush Stage.access (invoke behaviour.journaled inner) (w.enter .take) = (batch, w')) :
    Kept w.journal.openWindow w'.journal w'.bus ∧ w.journal.openWindow.Makes batch := by
  cases hp : w.bus.pending.isEmpty with
  | true =>
    have hnone : w.bus.pending = ∅ := Catalog.isEmpty_iff.1 hp
    rw [flush_of_isEmpty (w := w.enter .take) hp] at hf
    cases hf
    exact ⟨h.take hnone, hnone ▸ h.current⟩
  | false =>
    have hi' : Idle (w.enter .take).bus := hi
    rw [hi'.flush_eq hp] at hf
    cases hf
    have htaken : Kept w.journal.openWindow (w.journal ++ [.take]) w.bus.checkOut := h.take rfl
    have hkept := Kept.dispatch behaviour inner h.current w.bus.listeners
      (w := { w.enter .take with bus := w.bus.checkOut }) htaken rfl
    exact ⟨hkept.of_pending rfl, h.current⟩

theorem Journaled.kept {w : Stage κ (σ × Journal)} (h : Journaled w) :
    ∃ taken, Kept taken w.journal w.bus := by
  induction h with
  | new rest => exact ⟨[], Journal.isTrue_nil, Window.makes_nil, rfl⟩
  | other _ _ ih => exact ih
  | enqueue _ title kind ih =>
    obtain ⟨taken, hkept⟩ := ih
    exact ⟨taken, (hkept.enqueue title kind).look⟩
  | clear _ ih =>
    obtain ⟨taken, hkept⟩ := ih
    exact ⟨taken, hkept.clear.look⟩
  | @subscribe w _ filter callback ih =>
    obtain ⟨taken, hkept⟩ := ih
    have hnext : Kept taken w.journal (w.bus.subscribe filter callback).2 := hkept.of_pending rfl
    exact ⟨taken, hnext.look⟩
  | @unsubscribe w _ id ih =>
    obtain ⟨taken, hkept⟩ := ih
    exact ⟨taken, (hkept.of_pending (pending_unsubscribe w.bus id)).look⟩
  | @flush w h behaviour inner batch w' hf ih =>
    obtain ⟨taken, hkept⟩ := ih
    obtain ⟨hkept', hbatch⟩ := hkept.flush h.reachable.idle behaviour inner hf
    have htaken : w'.journal.takenWindow.Makes batch := hkept'.taken ▸ hbatch
    have hdeliver : Kept w.journal.openWindow (w'.journal ++ [.deliver batch]) w'.bus :=
      hkept'.concat htaken rfl rfl
    exact ⟨_, hdeliver.look⟩

/-- Every run can be journaled, which changes nothing in it, and every journal is true: each flush
from outside gives and delivers the last change of each title in the window that it closes, a flush
within a call gives nothing and closes nothing, and what is pending at any moment are the last
changes in the open window. -/
theorem journaled_windows (κ σ : Type) :
    (∀ w : Stage κ (σ × Journal), Journaled w →
      Reachable w.forget ∧ w.journal.IsTrue ∧ w.journal.openWindow.Makes w.bus.pending) ∧
    ∀ w : Stage κ σ, Reachable w → ∃ w', Journaled w' ∧ w'.forget = w := by
  refine ⟨fun w h => ?_, fun w h => h.exists_journaled⟩
  obtain ⟨taken, hkept⟩ := h.kept
  exact ⟨h.forget, hkept.isTrue, hkept.current⟩

def restless : Behaviour Unit Unit := fun _ _ _ =>
  .enqueue "b" .deleted (.flush fun _ => .done .panicked ())

theorem journaled_windows_restless :
    ∃ w' : Stage Unit (Unit × Journal), Journaled w' ∧ w'.forget =
        (Bus.flush Stage.access (invoke restless noInner) attended).2 ∧ w'.journal.IsTrue ∧
      w'.journal.openWindow.lastKind? "b" = some .deleted := by
  have h : Reachable attended := ((Reachable.new ()).subscribe .all ()).enqueue "a" .added
  obtain ⟨htrue, hjournaled⟩ := journaled_windows Unit Unit
  obtain ⟨w', hw, hforget⟩ := hjournaled _ (h.flush restless noInner)
  obtain ⟨-, hjournal, hopen⟩ := htrue w' hw
  refine ⟨w', hw, hforget, hjournal, (hopen "b").symm.trans ?_⟩
  have hbus : w'.bus = w'.forget.bus := rfl
  rw [hbus, hforget]
  rfl

end Notebook.Bus
