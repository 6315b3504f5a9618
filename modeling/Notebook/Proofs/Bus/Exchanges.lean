import Notebook.Proofs.Bus.Reaction

/-! # Exchanges during a dispatch

While listeners are called, new ones gather in the list of the bus and old ones are marked as
removed. What exchanges have done to the bus can be read off from them.
-/

namespace Notebook.Bus

variable {κ σ : Type}

def Exchange.isUnsubscribe (id : ListenerId) : Exchange κ → Bool
  | unsubscribe other _ => other = id
  | _ => false

def unsubscribes (es : List (Exchange κ)) (id : ListenerId) : Bool :=
  es.any (Exchange.isUnsubscribe id)

/-- The listeners that are subscribed in the course of exchanges and not unsubscribed since. -/
def newcomers : List (Exchange κ) → List (Listener κ)
  | [] => []
  | .subscribe l :: es => if unsubscribes es l.id then newcomers es else l :: newcomers es
  | _ :: es => newcomers es

/-- Listeners are listed in the order of their registration, which is that of their ids. -/
structure Ordered (bus : Bus κ) : Prop where
  ascending : bus.listeners.Pairwise fun a b => a.id < b.id
  below : ∀ l ∈ bus.listeners, l.id < bus.nextId

/-- The bus within the dispatch for some listeners, all of which have ids below the first new one,
after some exchanges. -/
structure During (old : List (Listener κ)) (first : ListenerId) (es : List (Exchange κ))
    (bus : Bus κ) : Prop extends Ordered bus where
  dispatching : bus.dispatching = true
  checkedOut : bus.checkedOut = old.map Listener.id
  removed : ∀ l ∈ old, bus.removed.contains l.id = unsubscribes es l.id
  listeners : bus.listeners = newcomers es
  new : ∀ l ∈ bus.listeners, first ≤ l.id
  next : first ≤ bus.nextId

theorem forall_concat_splits {α : Type u} {P : List α → α → Prop} {l : List α} {x : α}
    (h : ∀ before a after, l = before ++ a :: after → P before a) (hx : P l x) :
    ∀ before a after, l ++ [x] = before ++ a :: after → P before a := by
  intro before a after heq
  rcases List.eq_nil_or_concat after with rfl | ⟨after, y, rfl⟩
  · obtain ⟨rfl, hlast⟩ := List.append_inj' heq rfl
    cases hlast
    exact hx
  · rw [List.concat_eq_append, ← List.cons_append, ← List.append_assoc] at heq
    exact h before a after (List.append_inj' heq rfl).1

theorem unsubscribes_append (es es' : List (Exchange κ)) (id : ListenerId) :
    unsubscribes (es ++ es') id = (unsubscribes es id || unsubscribes es' id) :=
  List.any_append

theorem newcomers_subscribe (es : List (Exchange κ)) (l : Listener κ) :
    newcomers (es ++ [.subscribe l]) = newcomers es ++ [l] := by
  have hu : ∀ (es : List (Exchange κ)) id,
      unsubscribes (es ++ [.subscribe l]) id = unsubscribes es id := by
    intro es id
    simp [unsubscribes, Exchange.isUnsubscribe]
  induction es with
  | nil => rfl
  | cons x es ih =>
    cases x with
    | subscribe l' =>
      simp only [List.cons_append, newcomers, hu, ih]
      split <;> rfl
    | _ => exact ih

theorem newcomers_unsubscribe (es : List (Exchange κ)) (id : ListenerId) (answer : Bool) :
    newcomers (es ++ [.unsubscribe id answer]) = (newcomers es).filter (·.id ≠ id) := by
  have hu : ∀ (es : List (Exchange κ)) id',
      unsubscribes (es ++ [.unsubscribe id answer]) id' = (unsubscribes es id' || id = id') := by
    intro es id'
    simp [unsubscribes, Exchange.isUnsubscribe]
  induction es with
  | nil => rfl
  | cons x es ih =>
    cases x with
    | subscribe l' =>
      simp only [List.cons_append, newcomers, hu, ih]
      by_cases h : unsubscribes es l'.id
      · simp [h]
      · by_cases hid : id = l'.id
        · simp [h, hid]
        · simp [h, hid, Ne.symm hid]
    | _ => exact ih

theorem newcomers_other {x : Exchange κ} (hs : ∀ l, x ≠ .subscribe l)
    (hu : ∀ id answer, x ≠ .unsubscribe id answer) (es : List (Exchange κ)) :
    newcomers (es ++ [x]) = newcomers es ∧
      ∀ id, unsubscribes (es ++ [x]) id = unsubscribes es id := by
  have hx : ∀ id, unsubscribes [x] id = false := by
    intro id
    cases x with
    | unsubscribe id answer => exact absurd rfl (hu id answer)
    | _ => rfl
  have hes : ∀ (es : List (Exchange κ)) id, unsubscribes (es ++ [x]) id = unsubscribes es id := by
    intro es id
    rw [unsubscribes_append, hx, Bool.or_false]
  refine ⟨?_, hes es⟩
  induction es with
  | nil =>
    cases x with
    | subscribe l => exact absurd rfl (hs l)
    | _ => rfl
  | cons y es ih =>
    cases y with
    | subscribe l =>
      simp only [List.cons_append, newcomers, hes, ih]
    | _ => exact ih

theorem pending_unsubscribe (bus : Bus κ) (id : ListenerId) :
    (bus.unsubscribe id).2.pending = bus.pending := by
  unfold unsubscribe
  split
  · rfl
  · split <;> rfl

namespace Ordered

variable {bus bus' : Bus κ}

theorem of_sublist (h : Ordered bus) (hs : bus'.listeners.Sublist bus.listeners)
    (hn : bus'.nextId = bus.nextId) : Ordered bus' where
  ascending := h.ascending.sublist hs
  below l hl := hn ▸ h.below l (hs.subset hl)

theorem subscribe (h : Ordered bus) (filter : EventFilter) (callback : κ) :
    Ordered (bus.subscribe filter callback).2 := by
  refine ⟨List.pairwise_append.2 ⟨h.ascending, List.pairwise_singleton .., fun a ha b hb => ?_⟩,
    fun l hl => ?_⟩
  · rw [List.mem_singleton.1 hb]
    exact h.below a ha
  · rcases List.mem_append.1 hl with hl | hl
    · exact Nat.lt_succ_of_lt (h.below l hl)
    · rw [List.mem_singleton.1 hl]
      exact Nat.lt_succ_self _

end Ordered

namespace During

variable {old : List (Listener κ)} {first : ListenerId} {es : List (Exchange κ)} {bus bus' : Bus κ}

theorem other (h : During old first es bus) {x : Exchange κ} (hs : ∀ l, x ≠ .subscribe l)
    (hu : ∀ id answer, x ≠ .unsubscribe id answer)
    (hb : bus' = { bus with pending := bus'.pending }) : During old first (es ++ [x]) bus' := by
  obtain ⟨hn, hes⟩ := newcomers_other hs hu es
  rw [hb]
  refine ⟨⟨h.ascending, h.below⟩, h.dispatching, h.checkedOut, fun l hl => ?_, ?_, h.new, h.next⟩
  · rw [hes]
    exact h.removed l hl
  · rw [hn]
    exact h.listeners

theorem enqueue (h : During old first es bus) (title : Title) (kind : ChangeKind) :
    During old first (es ++ [.enqueue title kind]) (bus.enqueue title kind) :=
  h.other (by simp) (by simp) rfl

theorem clear (h : During old first es bus) : During old first (es ++ [.clear]) bus.clear :=
  h.other (by simp) (by simp) rfl

theorem flush (h : During old first es bus) (answer before after : Batch) :
    During old first (es ++ [.flush answer before after]) bus :=
  h.other (by simp) (by simp) rfl

theorem subscribe (h : During old first es bus) (filter : EventFilter) (callback : κ) :
    During old first (es ++ [.subscribe ⟨bus.nextId, filter, callback⟩])
      (bus.subscribe filter callback).2 := by
  refine ⟨h.toOrdered.subscribe filter callback, h.dispatching, h.checkedOut, fun l hl => ?_, ?_,
    fun l hl => ?_, Nat.le_succ_of_le h.next⟩
  · have hu : unsubscribes [.subscribe ⟨bus.nextId, filter, callback⟩] l.id = false := rfl
    rw [unsubscribes_append, hu, Bool.or_false]
    exact h.removed l hl
  · rw [newcomers_subscribe, ← h.listeners]
    rfl
  · rcases List.mem_append.1 hl with hl | hl
    · exact h.new l hl
    · rw [List.mem_singleton.1 hl]
      exact h.next

theorem of_unsubscribe (h : During old first es bus) {id : ListenerId} {answer : Bool}
    (hb : bus' =
      { bus with listeners := bus.listeners.filter (·.id ≠ id), removed := bus'.removed })
    (hr : ∀ l ∈ old, bus'.removed.contains l.id = (bus.removed.contains l.id || id = l.id)) :
    During old first (es ++ [.unsubscribe id answer]) bus' := by
  have hsub : bus'.listeners.Sublist bus.listeners := by
    rw [hb]
    exact List.filter_sublist
  have hnext : bus'.nextId = bus.nextId := by rw [hb]
  refine ⟨h.toOrdered.of_sublist hsub hnext, ?_, ?_, fun l hl => ?_, ?_,
    fun l hl => h.new l (hsub.subset hl), hnext ▸ h.next⟩
  · rw [hb]
    exact h.dispatching
  · rw [hb]
    exact h.checkedOut
  · rw [hr l hl, h.removed l hl, unsubscribes_append]
    simp [unsubscribes, Exchange.isUnsubscribe]
  · rw [newcomers_unsubscribe, ← h.listeners, hb]

theorem unsubscribe (h : During old first es bus) (hold : ∀ l ∈ old, l.id < first)
    (id : ListenerId) :
    During old first (es ++ [.unsubscribe id (bus.unsubscribe id).1]) (bus.unsubscribe id).2 := by
  by_cases hnew : bus.listeners.any (·.id = id)
  · have hb : bus.unsubscribe id =
        (true, { bus with listeners := bus.listeners.filter (·.id ≠ id) }) := if_pos hnew
    rw [hb]
    refine h.of_unsubscribe rfl fun l hl => ?_
    obtain ⟨l', hl', hid⟩ := List.any_eq_true.1 hnew
    have hne : id ≠ l.id := by
      rintro rfl
      have hlt := hold l hl
      have hle := h.new l' hl'
      rw [of_decide_eq_true hid] at hle
      exact Nat.lt_irrefl _ (Nat.lt_of_lt_of_le hlt hle)
    simp [hne]
  · have hfilter : bus.listeners.filter (·.id ≠ id) = bus.listeners := by
      rw [List.filter_eq_self]
      intro l hl
      refine decide_eq_true fun hid => hnew (List.any_eq_true.2 ⟨l, hl, decide_eq_true hid⟩)
    by_cases hmark : bus.checkedOut.contains id && !bus.removed.contains id
    · have hb : bus.unsubscribe id = (true, { bus with removed := id :: bus.removed }) := by
        rw [Bus.unsubscribe, if_neg hnew, if_pos hmark]
      rw [hb]
      refine h.of_unsubscribe (by rw [hfilter]) fun l hl => ?_
      rw [List.contains_cons, Bool.or_comm, Bool.beq_eq_decide_eq]
      simp only [eq_comm]
    · have hb : bus.unsubscribe id = (false, bus) := by
        rw [Bus.unsubscribe, if_neg hnew, if_neg hmark]
      rw [hb]
      refine h.of_unsubscribe (by rw [hfilter]) fun l hl => ?_
      by_cases hid : id = l.id
      · subst hid
        have hout : l.id ∈ bus.checkedOut := by
          rw [h.checkedOut]
          exact List.mem_map_of_mem hl
        have hmarked : l.id ∈ bus.checkedOut → l.id ∈ bus.removed := by simpa using hmark
        simpa using hmarked hout
      · simp [hid]

end During

section Calls

variable {old : List (Listener κ)} {first : ListenerId} {es : List (Exchange κ)}
  {w : Stage κ σ}

theorem flush_of_dispatching (inner : Inner κ σ) (h : w.bus.dispatching = true) :
    Bus.flush Stage.access inner w = (∅, w) := by
  have hget : (Stage.access.get w).dispatching = true := h
  simp [Bus.flush, hget]

structure Reacts (old : List (Listener κ)) (first : ListenerId) (es : List (Exchange κ))
    (w : Stage κ σ) (result : Outcome × List (Exchange κ) × Stage κ σ) : Prop where
  during : During old first (es ++ result.2.1) result.2.2.bus
  calls : result.2.2.calls = w.calls
  deferred : ∀ answer before after, Exchange.flush answer before after ∈ result.2.1 →
    answer = ∅ ∧ after = before

theorem Reacts.cons {w' : Stage κ σ} {x : Exchange κ}
    {result : Outcome × List (Exchange κ) × Stage κ σ}
    (h : Reacts old first (es ++ [x]) w' result) (hc : w'.calls = w.calls)
    (hx : ∀ answer before after, x = .flush answer before after → answer = ∅ ∧ after = before) :
    Reacts old first es w (result.1, x :: result.2.1, result.2.2) := by
  refine ⟨?_, h.calls.trans hc, fun answer before after hmem => ?_⟩
  · have hd := h.during
    rwa [List.append_assoc] at hd
  · rcases List.mem_cons.1 hmem with heq | hmem
    · exact hx answer before after heq.symm
    · exact h.deferred answer before after hmem

theorem reacts_react (inner : Inner κ σ) (hold : ∀ l ∈ old, l.id < first) (r : Reaction κ σ)
    (h : During old first es w.bus) : Reacts old first es w (react inner r w) := by
  induction r generalizing es w with
  | done outcome rest =>
    refine ⟨?_, rfl, fun _ _ _ hmem => by simp [react] at hmem⟩
    simpa [react] using h
  | look next ih => exact ih w.bus h
  | enqueue title kind next ih =>
    exact (ih (w := { w with bus := _ }) (h.enqueue title kind)).cons rfl (by simp)
  | clear next ih => exact (ih (w := { w with bus := _ }) h.clear).cons rfl (by simp)
  | subscribe filter callback next ih =>
    exact (ih _ (w := { w with bus := _ }) (h.subscribe filter callback)).cons rfl (by simp)
  | unsubscribe id next ih =>
    exact (ih _ (w := { w with bus := _ }) (h.unsubscribe hold id)).cons rfl (by simp)
  | flush next ih =>
    simp only [react, flush_of_dispatching inner h.dispatching]
    exact (ih ∅ (h.flush ∅ w.bus.pending w.bus.pending)).cons rfl (by simp)

end Calls

end Notebook.Bus
