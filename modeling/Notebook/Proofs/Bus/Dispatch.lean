import Notebook.Proofs.Bus.Exchanges

/-! # What one flush delivers

A flush calls the listeners that want its batch, in the order of their registration, except those
that an earlier call has unsubscribed. Whatever the listeners do meanwhile, the bus is afterwards
as if they had been unsubscribed and subscribed one after the other.
-/

namespace Notebook.Bus

variable {κ σ : Type}

structure Call.Gets (c : Call κ) (batch : Batch) : Prop where
  batch : c.batch = batch
  deferred : ∀ answer before after, Exchange.flush answer before after ∈ c.exchanges →
    answer = ∅ ∧ after = before

/-- What a flush does: the calls that it makes, the batch that it gives and the stage it leads
to. -/
structure Delivery (before : Stage κ σ) (calls : List (Call κ)) (answer : Batch)
    (after : Stage κ σ) : Prop where
  returned : answer = before.bus.pending
  logged : after.calls = before.calls ++ calls
  order : (calls.map Call.listener).Sublist before.bus.listeners
  once : (calls.map fun c => c.listener.id).Nodup
  /-- A listener is called if it wants the batch and no call before its turn unsubscribes it. -/
  called_iff : ∀ pre l post, before.bus.listeners = pre ++ l :: post →
    (l ∈ calls.map Call.listener ↔ l.filter.isMatch before.bus.pending ∧
      ∀ c ∈ calls, c.listener ∈ pre → unsubscribes c.exchanges l.id = false)
  gets : ∀ c ∈ calls, c.Gets before.bus.pending
  listeners : after.bus.listeners =
    before.bus.listeners.filter (fun l => !unsubscribes (calls.flatMap Call.exchanges) l.id) ++
      newcomers (calls.flatMap Call.exchanges)
  checkedOut : after.bus.checkedOut = []
  removed : after.bus.removed = []
  dispatching : after.bus.dispatching = false

structure Idle (bus : Bus κ) : Prop extends Ordered bus where
  dispatching : bus.dispatching = false
  checkedOut : bus.checkedOut = []
  removed : bus.removed = []

/-- The calls that listeners get when it is their turn, after some exchanges. -/
inductive Turns (batch : Batch) : List (Exchange κ) → List (Listener κ) → List (Call κ) → Prop
  | nil {es : List (Exchange κ)} : Turns batch es [] []
  | pass {es : List (Exchange κ)} {l : Listener κ} {rest : List (Listener κ)}
      {calls : List (Call κ)} (hl : unsubscribes es l.id ∨ l.filter.isMatch batch = false)
      (h : Turns batch es rest calls) : Turns batch es (l :: rest) calls
  | call {es : List (Exchange κ)} {rest : List (Listener κ)} {c : Call κ} {calls : List (Call κ)}
      (hu : unsubscribes es c.listener.id = false) (hm : c.listener.filter.isMatch batch)
      (hg : c.Gets batch) (h : Turns batch (es ++ c.exchanges) rest calls) :
      Turns batch es (c.listener :: rest) (c :: calls)

namespace Turns

variable {batch : Batch} {es : List (Exchange κ)} {todo : List (Listener κ)}
  {calls : List (Call κ)}

theorem sublist (h : Turns batch es todo calls) : (calls.map Call.listener).Sublist todo := by
  induction h with
  | nil => exact .slnil
  | pass _ _ ih => exact ih.cons _
  | call _ _ _ _ ih => exact ih.cons_cons _

theorem gets (h : Turns batch es todo calls) : ∀ c ∈ calls, c.Gets batch := by
  induction h with
  | nil => simp
  | pass _ _ ih => exact ih
  | call _ _ hg _ ih => exact List.forall_mem_cons.2 ⟨hg, ih⟩

theorem listener_mem (h : Turns batch es todo calls) {c : Call κ} (hc : c ∈ calls) :
    c.listener ∈ todo :=
  h.sublist.subset (List.mem_map_of_mem hc)

/-- Whose turn is a call: that of a listener that wants the batch and that neither the exchanges
before nor an earlier call has unsubscribed. -/
theorem mem_iff (h : Turns batch es todo calls) (hn : todo.Nodup) {pre post : List (Listener κ)}
    {l : Listener κ} (ht : todo = pre ++ l :: post) :
    l ∈ calls.map Call.listener ↔ l.filter.isMatch batch ∧ unsubscribes es l.id = false ∧
      ∀ c ∈ calls, c.listener ∈ pre → unsubscribes c.exchanges l.id = false := by
  induction h generalizing pre with
  | nil => simp at ht
  | @pass es l₀ rest calls hl h ih =>
    obtain ⟨hnot, hrest⟩ := List.nodup_cons.1 hn
    cases pre with
    | nil =>
      obtain ⟨rfl, rfl⟩ := List.cons.inj ht
      constructor
      · intro hmem
        exact absurd (h.sublist.subset hmem) hnot
      · rintro ⟨hm, hu, -⟩
        rcases hl with hl | hl
        · simp [hl] at hu
        · simp [hl] at hm
    | cons l₁ pre =>
      rw [List.cons_append, List.cons.injEq] at ht
      obtain ⟨rfl, ht⟩ := ht
      rw [ih hrest ht]
      refine and_congr_right fun _ => and_congr_right fun _ => forall₂_congr fun c hc => ?_
      have hne : c.listener ≠ l₀ := fun heq => hnot (heq ▸ h.listener_mem hc)
      simp [hne]
  | @call es rest c₀ calls hu hm hg h ih =>
    obtain ⟨hnot, hrest⟩ := List.nodup_cons.1 hn
    cases pre with
    | nil =>
      obtain ⟨rfl, rfl⟩ := List.cons.inj ht
      simp [hu, hm]
    | cons l₁ pre =>
      rw [List.cons_append, List.cons.injEq] at ht
      obtain ⟨rfl, ht⟩ := ht
      have hl : l ≠ c₀.listener := by
        rintro rfl
        exact hnot (by rw [ht]; simp)
      have hne : ∀ c ∈ calls, c.listener ≠ c₀.listener :=
        fun c hc heq => hnot (heq ▸ h.listener_mem hc)
      have hmem : l ∈ (c₀ :: calls).map Call.listener ↔ l ∈ calls.map Call.listener := by
        simp [hl]
      rw [hmem, ih hrest ht, unsubscribes_append, Bool.or_eq_false_iff, List.forall_mem_cons]
      constructor
      · rintro ⟨hm', ⟨hes, hc₀⟩, hcalls⟩
        refine ⟨hm', hes, fun _ => hc₀, fun c hc hpre => hcalls c hc ?_⟩
        exact (List.mem_cons.1 hpre).resolve_left (hne c hc)
      · rintro ⟨hm', hes, hc₀, hcalls⟩
        refine ⟨hm', ⟨hes, hc₀ List.mem_cons_self⟩, fun c hc hpre => hcalls c hc ?_⟩
        exact List.mem_cons_of_mem _ hpre

end Turns

section Dispatch

variable {old : List (Listener κ)} {first : ListenerId} {es : List (Exchange κ)}

theorem invoke_spec (behaviour : Behaviour κ σ) (inner : Inner κ σ)
    (hold : ∀ l ∈ old, l.id < first) {w : Stage κ σ} (h : During old first es w.bus)
    (l : Listener κ) (batch : Batch) :
    ∃ c : Call κ, c.listener = l ∧ c.Gets batch ∧
      c.exchanges = (react inner (behaviour l batch w.rest) w).2.1 ∧
      (invoke behaviour inner l batch w).calls = w.calls ++ [c] ∧
      During old first (es ++ c.exchanges) (invoke behaviour inner l batch w).bus := by
  have hr := reacts_react inner hold (behaviour l batch w.rest) h
  refine ⟨⟨l, batch, (react inner (behaviour l batch w.rest) w).2.1,
    (react inner (behaviour l batch w.rest) w).1⟩, rfl, ⟨rfl, hr.deferred⟩, rfl, ?_, hr.during⟩
  simp [invoke, hr.calls]

theorem dispatch_turns (behaviour : Behaviour κ σ) (inner : Inner κ σ) (batch : Batch)
    (hold : ∀ l ∈ old, l.id < first) (todo : List (Listener κ)) (htodo : ∀ l ∈ todo, l ∈ old)
    {w : Stage κ σ} (h : During old first es w.bus) :
    ∃ calls, Turns batch es todo calls ∧
      (dispatch Stage.access (invoke behaviour inner) batch todo w).calls = w.calls ++ calls ∧
      During old first (es ++ calls.flatMap Call.exchanges)
        (dispatch Stage.access (invoke behaviour inner) batch todo w).bus := by
  induction todo generalizing es w with
  | nil =>
    refine ⟨[], .nil, by simp [dispatch], ?_⟩
    simpa [dispatch] using h
  | cons l todo ih =>
    obtain ⟨hl, hrest⟩ := List.forall_mem_cons.1 htodo
    have hremoved := h.removed l hl
    unfold dispatch
    split
    · next hskip =>
      obtain ⟨calls, ht, hcalls, hd⟩ := ih hrest h
      refine ⟨calls, .pass ?_ ht, hcalls, hd⟩
      rw [Bool.or_eq_true, Bool.not_eq_true'] at hskip
      rcases hskip with hskip | hskip
      · exact .inl (hremoved.symm.trans hskip)
      · exact .inr hskip
    · next hcall =>
      rw [Bool.or_eq_true, not_or, Bool.not_eq_true', Bool.not_eq_false, Bool.not_eq_true] at hcall
      obtain ⟨c, rfl, hg, -, hc, hd⟩ := invoke_spec behaviour inner hold h l batch
      obtain ⟨calls, ht, hcalls, hd⟩ := ih hrest hd
      refine ⟨c :: calls, .call (hremoved.symm.trans hcall.1) hcall.2 hg ht, ?_, ?_⟩
      · rw [hcalls, hc, List.append_assoc, List.singleton_append]
      · rwa [List.append_assoc] at hd

end Dispatch

theorem flush_of_isEmpty {w : Stage κ σ} (hp : w.bus.pending.isEmpty = true) (call : Inner κ σ) :
    Bus.flush Stage.access call w = (∅, w) := by
  have hp' : (Stage.access.get w).pending.isEmpty = true := hp
  simp [Bus.flush, hp']

namespace Idle

variable {bus : Bus κ}

theorem nodup_ids (h : Idle bus) : (bus.listeners.map Listener.id).Nodup :=
  List.pairwise_map.2 (h.ascending.imp fun hlt => Nat.ne_of_lt hlt)

theorem nodup (h : Idle bus) : bus.listeners.Nodup :=
  h.ascending.imp fun hlt heq => Nat.ne_of_lt hlt (congrArg Listener.id heq)

theorem during_checkOut (h : Idle bus) :
    During bus.listeners bus.nextId [] bus.checkOut where
  dispatching := rfl
  checkedOut := rfl
  removed l _ := by
    have hr : bus.checkOut.removed = [] := h.removed
    rw [hr]
    rfl
  listeners := rfl
  ascending := .nil
  new := by simp [checkOut]
  below := by simp [checkOut]
  next := Nat.le_refl _

theorem flush_eq {w : Stage κ σ} (h : Idle w.bus) (hp : w.bus.pending.isEmpty = false)
    (call : Inner κ σ) :
    Bus.flush Stage.access call w =
      (w.bus.pending, Stage.access.modify (checkIn w.bus.listeners)
        (dispatch Stage.access call w.bus.pending w.bus.listeners
          { w with bus := w.bus.checkOut })) := by
  have hd : (Stage.access.get w).dispatching = false := h.dispatching
  have hp' : (Stage.access.get w).pending.isEmpty = false := hp
  simp only [Bus.flush, hd, hp', Bool.or_self, Bool.false_eq_true, if_false]
  rfl

theorem flush_turns {w : Stage κ σ} (h : Idle w.bus) (hp : w.bus.pending.isEmpty = false)
    (behaviour : Behaviour κ σ) (inner : Inner κ σ) :
    ∃ calls called, Bus.flush Stage.access (invoke behaviour inner) w =
        (w.bus.pending, Stage.access.modify (checkIn w.bus.listeners) called) ∧
      Turns w.bus.pending [] w.bus.listeners calls ∧ called.calls = w.calls ++ calls ∧
      During w.bus.listeners w.bus.nextId (calls.flatMap Call.exchanges) called.bus := by
  have hout : During w.bus.listeners w.bus.nextId [] { w with bus := w.bus.checkOut }.bus :=
    h.during_checkOut
  obtain ⟨calls, ht, hcalls, hd⟩ := dispatch_turns behaviour inner w.bus.pending h.below
    w.bus.listeners (fun _ hl => hl) hout
  exact ⟨calls, _, h.flush_eq hp _, ht, hcalls, hd⟩

theorem checkIn {es : List (Exchange κ)} {called : Bus κ} (h : Idle bus)
    (hd : During bus.listeners bus.nextId es called) : Idle (called.checkIn bus.listeners) := by
  have hstay : ∀ l ∈ bus.listeners.filter (fun l => !called.removed.contains l.id),
      l.id < bus.nextId := fun l hl => h.below l (List.mem_filter.1 hl).1
  refine ⟨⟨?_, fun l hl => ?_⟩, rfl, rfl, rfl⟩
  · refine List.pairwise_append.2 ⟨h.ascending.filter _, hd.ascending, fun a ha b hb => ?_⟩
    exact Nat.lt_of_lt_of_le (hstay a ha) (hd.new b hb)
  · rcases List.mem_append.1 hl with hl | hl
    · exact Nat.lt_of_lt_of_le (hstay l hl) hd.next
    · exact hd.below l hl

theorem flush {w : Stage κ σ} (h : Idle w.bus) (behaviour : Behaviour κ σ) (inner : Inner κ σ) :
    Idle (Bus.flush Stage.access (invoke behaviour inner) w).2.bus := by
  cases hp : w.bus.pending.isEmpty with
  | true =>
    rwa [flush_of_isEmpty hp]
  | false =>
    obtain ⟨calls, called, heq, -, -, hd⟩ := h.flush_turns hp behaviour inner
    rw [heq]
    exact h.checkIn hd

theorem subscribe (h : Idle bus) (filter : EventFilter) (callback : κ) :
    Idle (bus.subscribe filter callback).2 :=
  ⟨h.toOrdered.subscribe filter callback, h.dispatching, h.checkedOut, h.removed⟩

theorem unsubscribe (h : Idle bus) (id : ListenerId) : Idle (bus.unsubscribe id).2 := by
  unfold Bus.unsubscribe
  split
  · exact ⟨h.toOrdered.of_sublist List.filter_sublist rfl, h.dispatching, h.checkedOut, h.removed⟩
  · rw [h.checkedOut]
    exact h

end Idle

theorem Reachable.idle {w : Stage κ σ} (h : Reachable w) : Idle w.bus := by
  induction h with
  | new rest => exact ⟨⟨.nil, by simp⟩, rfl, rfl, rfl⟩
  | other h rest ih => exact ih
  | enqueue h title kind ih =>
    exact ⟨⟨ih.ascending, ih.below⟩, ih.dispatching, ih.checkedOut, ih.removed⟩
  | clear h ih => exact ⟨⟨ih.ascending, ih.below⟩, ih.dispatching, ih.checkedOut, ih.removed⟩
  | subscribe h filter callback ih => exact ih.subscribe filter callback
  | unsubscribe h id ih => exact ih.unsubscribe id
  | flush h behaviour inner ih => exact ih.flush behaviour inner

/-- A flush delivers what is pending, whatever the listeners do when they are called. -/
theorem Reachable.flush_delivery {w : Stage κ σ} (h : Reachable w)
    (hp : w.bus.pending.isEmpty = false) (behaviour : Behaviour κ σ) (inner : Inner κ σ) :
    ∃ calls, Delivery w calls (Bus.flush Stage.access (invoke behaviour inner) w).1
      (Bus.flush Stage.access (invoke behaviour inner) w).2 := by
  have hi := h.idle
  obtain ⟨calls, called, heq, ht, hcalls, hd⟩ := hi.flush_turns hp behaviour inner
  rw [heq]
  refine ⟨calls, rfl, hcalls, ht.sublist, ?_, fun pre l post hl => ?_, ht.gets, ?_, rfl, rfl, rfl⟩
  · have hs := (ht.sublist.map Listener.id).nodup hi.nodup_ids
    rwa [List.map_map] at hs
  · rw [ht.mem_iff hi.nodup hl]
    simp [unsubscribes]
  · change List.filter _ _ ++ Bus.listeners _ = _
    rw [hd.listeners, List.filter_congr fun l hl => by rw [hd.removed l hl]]

def relieved : Behaviour Unit Unit := fun l _ _ =>
  .unsubscribe l.id fun _ => .subscribe .all () fun _ => .flush fun _ => .done .panicked ()

def noInner : Inner Unit Unit := fun _ _ w => w

def attended : Stage Unit Unit :=
  { bus := (({} : Bus Unit).subscribe .all ()).2.enqueue "a" .added, rest := () }

theorem flush_delivery_relieved :
    ∃ calls, Delivery attended calls (Bus.flush Stage.access (invoke relieved noInner) attended).1
      (Bus.flush Stage.access (invoke relieved noInner) attended).2 := by
  have h : Reachable attended := ((Reachable.new ()).subscribe .all ()).enqueue "a" .added
  exact h.flush_delivery rfl relieved noInner

end Notebook.Bus
