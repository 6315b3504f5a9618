import Notebook.Proofs.Bus.Exchanges
import Notebook.Proofs.Store.Queries

/-! # Pending changes tell the truth

What is pending in a store tells how its titles stand. A title that was added or modified resolves
there, and the store does not hold one that was deleted. Later edits of other stores do not make
this untrue, whether or not they are announced there.
-/

namespace Notebook.Library

open Relation

variable {κ : Type} {n : Nat} {lib lib' : Library κ} {s t : StoreId} {title : Title}
  {kind : ChangeKind}

/-- What callers do to a library of `n` stores, one thing after the other. -/
inductive Activity (κ : Type) (n : Nat) where
  | done
  /-- Looks at the library. All that comes next may depend on it. -/
  | look (next : Library κ → Activity κ n)
  | edit (s : Fin n) (e : Edit) (next : Activity κ n)
  /-- Has no effect if the fallback is refused. -/
  | addFallback (s fallback : Fin n) (next : Activity κ n)
  | clear (s : Fin n) (next : Activity κ n)
  | subscribe (s : Fin n) (filter : EventFilter) (callback : κ) (next : Activity κ n)
  | unsubscribe (s : Fin n) (id : ListenerId) (next : Activity κ n)
  | flush (s : Fin n) (called : Listener κ → Batch → Activity κ n) (next : Activity κ n)

/-- A library and what was seen of it so far, by callers and by listeners within their calls. -/
structure Watched (κ : Type) where
  library : Library κ
  seen : List (Library κ) := []

namespace Watched

def change (f : Library κ → Library κ) (w : Watched κ) : Watched κ :=
  { w with library := f w.library }

def look (w : Watched κ) : Watched κ :=
  { w with seen := w.seen ++ [w.library] }

def access (s : StoreId) : Bus.Access (Watched κ) κ where
  get w := (busAccess s).get w.library
  modify f := change ((busAccess s).modify f)

end Watched

def Activity.run : Activity κ n → Watched κ → Watched κ
  | done, w => w
  | look next, w => (next w.library).run w.look
  | edit s e next, w => next.run (w.change (·.edit s e))
  | addFallback s f next, w => next.run (w.change fun lib => (lib.addFallback? s f).getD lib)
  | clear s next, w => next.run (w.change (·.clearPending s))
  | subscribe s filter callback next, w =>
    next.run ((Watched.access s).modify (fun bus => (bus.subscribe filter callback).2) w)
  | unsubscribe s id next, w =>
    next.run ((Watched.access s).modify (fun bus => (bus.unsubscribe id).2) w)
  | flush s called next, w =>
    next.run (Bus.flush (Watched.access s) (fun l batch => (called l batch).run) w).2

/-- How a title stands in a store after a change of the given kind. -/
def Confirms (lib : Library κ) (t : StoreId) (title : Title) : ChangeKind → Prop
  | .deleted => lib.own? t title = none
  | _ => (lib.get t title).isSome

structure Truthful (n : Nat) (lib : Library κ) : Prop where
  length : lib.stores.length = n
  linked : lib.Linked
  pending : ∀ t title kind, (lib.pending t).get? title = some kind → lib.Confirms t title kind

theorem Confirms.congr (h : lib.Confirms t title kind)
    (hl : lib'.lookup t title = lib.lookup t title) (ho : lib'.own? t title = lib.own? t title) :
    lib'.Confirms t title kind := by
  cases kind with
  | deleted => exact ho.trans h
  | added | modified =>
    have hg : lib'.get t title = lib.get t title := congrArg (Option.map Saved.note) hl
    exact (congrArg Option.isSome hg).trans h

theorem Linked.isSome_get (h : lib.Linked) (hp : ReflTransGen lib.Refers t s)
    (ho : (lib.own? s title).isSome) (ht : t < lib.stores.length) :
    (lib.get t title).isSome := by
  rw [get, Option.isSome_map, Option.isSome_iff_ne_none]
  intro hnone
  rw [(h.lookup_eq_none_iff ht).1 hnone s hp] at ho
  cases ho

theorem own?_edit_self {e : Edit} (hs : s < lib.stores.length) :
    (lib.edit s e).own? s e.title =
      match e with
      | .add note => some ⟨lib.nextSerial, note⟩
      | .delete _ => none := by
  obtain ⟨store, hstore⟩ := store?_of_lt hs
  cases e with
  | add note =>
    rw [edit, add, ← (sameButBuses_announce _ s _ _).own?, own?]
    simp [store?, update, Edit.title, Store.put, show lib.stores[s]? = some store from hstore]
  | delete title =>
    rw [edit, delete, ← (sameButBuses_announce _ s _ _).own?, own?, store?_update_self, hstore]
    simp [Edit.title, Store.remove]

theorem Linked.ne_of_sees (h : lib.Linked) (hs : lib.Sees title t s) : t ≠ s := by
  rintro rfl
  exact h.acyclic t hs.transGen

theorem Sees.own?_eq_none (h : lib.Sees title t s) : lib.own? t title = none := by
  obtain ⟨u, hp, -⟩ := TransGen.head'_iff.1 h
  exact hp.2

theorem Sees.lt (h : lib.Sees title t s) : t < lib.stores.length := by
  obtain ⟨u, hp, -⟩ := TransGen.head'_iff.1 h
  exact hp.1.lt

theorem Linked.confirms_edit (h : lib.Linked) (hs : s < lib.stores.length) (e : Edit)
    (ht : t = s ∨ lib.Sees e.title t s) :
    (lib.edit s e).Confirms t e.title (lib.kindOf s e) := by
  have hl := sameLinks_edit lib s e
  have hself := own?_edit_self (e := e) hs
  cases e with
  | add note =>
    have hrefers : lib.Refers = (lib.edit s (.add note)).Refers := by
      funext t u
      rw [Refers, Refers, hl.fallbacks]
    have hway : ReflTransGen (lib.edit s (.add note)).Refers t s ∧ t < lib.stores.length := by
      rcases ht with rfl | ht
      · exact ⟨.refl, hs⟩
      · exact ⟨hrefers ▸ ht.transGen.to_reflTransGen, ht.lt⟩
    have hown : ((lib.edit s (.add note)).own? s note.title).isSome :=
      Option.isSome_of_eq_some hself
    have hsome : ((lib.edit s (.add note)).get t note.title).isSome :=
      (h.of_sameLinks hl).isSome_get hway.1 hown (hl.length ▸ hway.2)
    simp only [kindOf]
    split <;> exact hsome
  | delete title =>
    rcases ht with rfl | ht
    · exact hself
    · exact (own?_edit (.inl (h.ne_of_sees ht))).symm.trans ht.own?_eq_none

namespace Truthful

theorem edit (h : lib.Truthful n) (s : Fin n) (e : Edit) : (lib.edit s e).Truthful n where
  length := (sameLinks_edit lib s e).length.symm.trans h.length
  linked := h.linked.of_sameLinks (sameLinks_edit lib s e)
  pending t title kind hk := by
    have hs : s < lib.stores.length := h.length ▸ s.isLt
    have hrecords := h.linked.pending_edit_records hs e t
    have hother : title ≠ e.title → lib.Confirms t title kind →
        (lib.edit s e).Confirms t title kind :=
      fun hne hc => hc.congr (lookup_edit_of_ne hne t) (own?_edit (.inr hne)).symm
    by_cases ht : t = s ∨ lib.Sees e.title t s
    · rw [hrecords.1 ht, Batch.record, Catalog.get?_insert] at hk
      split at hk
      · next htitle =>
        cases hk
        rw [htitle]
        exact h.linked.confirms_edit hs e ht
      · next hne => exact hother hne (h.pending t title kind hk)
    · -- A store that is not told goes on resolving the title as before.
      rw [hrecords.2 ht] at hk
      have hc := h.pending t title kind hk
      rw [not_or] at ht
      by_cases htitle : title = e.title
      · subst htitle
        exact hc.congr (lookup_edit_of_not_sees ht.1 ht.2) (own?_edit (.inl ht.1)).symm
      · exact hother htitle hc

end Truthful

theorem own?_addFallback {f : StoreId} (ha : lib.addFallback? s f = some lib') (t : StoreId)
    (title : Title) : lib'.own? t title = lib.own? t title := by
  obtain ⟨-, rfl⟩ := addFallback?_eq_some ha
  refine own?_congr ?_ title
  rw [map_store?_update fun _ => by rfl, map_store?_update fun _ => by rfl]

theorem pending_addFallback {f : StoreId} (ha : lib.addFallback? s f = some lib') (t : StoreId) :
    lib'.pending t = lib.pending t := by
  obtain ⟨-, rfl⟩ := addFallback?_eq_some ha
  have hbus : ∀ (lib : Library κ) (s : StoreId) (f : Store κ → Store κ),
      (∀ store, (f store).bus = store.bus) → (lib.update s f).pending t = lib.pending t := by
    intro lib s f hf
    exact congrArg (Option.getD · ∅)
      (map_store?_update (fun store => congrArg Bus.pending (hf store)) lib s t)
  rw [hbus _ _ _ fun _ => by rfl, hbus _ _ _ fun _ => by rfl]

theorem lt_of_isSome_get (hg : (lib.get t title).isSome) :
    t < lib.stores.length := by
  by_contra hlt
  have hnone : lib.store? t = none := List.getElem?_eq_none (Nat.le_of_not_lt hlt)
  rw [get, lookup_of_store?_none hnone] at hg
  cases hg

namespace Truthful

theorem addFallback (h : lib.Truthful n) (s f : Fin n) (ha : lib.addFallback? s f = some lib') :
    lib'.Truthful n := by
  have hs : s < lib.stores.length := h.length ▸ s.isLt
  have hlength := length_addFallback ha
  have hlinked := h.linked.addFallback hs (h.length ▸ f.isLt) ha
  refine ⟨hlength.trans h.length, hlinked, fun t title kind hk => ?_⟩
  rw [pending_addFallback ha] at hk
  have hc := h.pending t title kind hk
  have hresolves : (lib.get t title).isSome → (lib'.get t title).isSome := by
    intro hg
    have ht := lt_of_isSome_get hg
    rw [get, Option.isSome_map, Option.isSome_iff_ne_none] at hg ⊢
    rw [Ne, h.linked.lookup_eq_none_iff ht] at hg
    rw [Ne, hlinked.lookup_eq_none_iff (hlength ▸ ht)]
    intro hlacks
    refine hg fun u hp => ?_
    have hle : lib.Refers ≤ lib'.Refers := fun _ _ hr => (refers_addFallback hs ha).2 (.inl hr)
    rw [← own?_addFallback ha]
    exact hlacks u (ReflTransGen.mono hle _ _ hp)
  cases kind with
  | deleted => exact (own?_addFallback ha t title).trans hc
  | added | modified => exact hresolves hc

end Truthful

theorem sameButBuses_withBus (lib : Library κ) (s : StoreId) (f : Bus κ → Bus κ) :
    SameButBuses lib (lib.update s (Store.withBus f)) := by
  intro t
  exact (map_store?_update (fun _ => by rfl) lib s t).symm

def Quiet (f : Bus κ → Bus κ) : Prop :=
  ∀ bus, (f bus).pending = bus.pending ∨ (f bus).pending = ∅

theorem quiet_clear : Quiet (Bus.clear : Bus κ → Bus κ) :=
  fun _ => .inr rfl

theorem quiet_subscribe (filter : EventFilter) (callback : κ) :
    Quiet fun bus : Bus κ => (bus.subscribe filter callback).2 :=
  fun _ => .inl rfl

theorem quiet_unsubscribe (id : ListenerId) : Quiet fun bus : Bus κ => (bus.unsubscribe id).2 :=
  fun bus => .inl (Bus.pending_unsubscribe bus id)

theorem quiet_checkOut : Quiet (Bus.checkOut : Bus κ → Bus κ) :=
  fun _ => .inr rfl

theorem quiet_checkIn (active : List (Listener κ)) : Quiet (Bus.checkIn active) :=
  fun _ => .inl rfl

theorem pending_withBus {f : Bus κ → Bus κ} (hf : Quiet f) (lib : Library κ) (s t : StoreId) :
    (lib.update s (Store.withBus f)).pending t = lib.pending t ∨
      (lib.update s (Store.withBus f)).pending t = ∅ := by
  rw [pending, store?_update, pending]
  split
  · cases lib.store? t with
    | none => exact .inr rfl
    | some store => exact hf store.bus
  · exact .inl rfl

theorem Truthful.withBus (h : lib.Truthful n) {f : Bus κ → Bus κ} (hf : Quiet f) (s : StoreId) :
    (lib.update s (Store.withBus f)).Truthful n := by
  have hsame := sameButBuses_withBus lib s f
  have hl := hsame.sameLinks
  refine ⟨hl.length.symm.trans h.length, h.linked.of_sameLinks hl, fun t title kind hk => ?_⟩
  rcases pending_withBus hf lib s t with hp | hp
  · rw [hp] at hk
    have hlookup : lib.lookup t title = (lib.update s (Store.withBus f)).lookup t title :=
      lookup_congr hl.fallbacks hl.length fun u => hsame.own? u title
    exact (h.pending t title kind hk).congr hlookup.symm (hsame.own? t title).symm
  · rw [hp] at hk
    cases hk

namespace Watched

/-- The library is truthful, and so was everything that was seen of it. -/
def Truthful (n : Nat) (w : Watched κ) : Prop :=
  w.library.Truthful n ∧ ∀ lib ∈ w.seen, lib.Truthful n

variable {w : Watched κ}

theorem Truthful.change (h : w.Truthful n) {f : Library κ → Library κ}
    (hf : w.library.Truthful n → (f w.library).Truthful n) : (w.change f).Truthful n :=
  ⟨hf h.1, h.2⟩

theorem Truthful.look (h : w.Truthful n) : w.look.Truthful n := by
  refine ⟨h.1, fun lib hlib => ?_⟩
  rcases List.mem_append.1 hlib with hlib | hlib
  · exact h.2 lib hlib
  · rw [List.mem_singleton.1 hlib]
    exact h.1

theorem Truthful.modify (h : w.Truthful n) {f : Bus κ → Bus κ} (hf : Quiet f) (s : StoreId) :
    ((access s).modify f w).Truthful n :=
  h.change fun hlib => hlib.withBus hf s

variable {invoke : Listener κ → Batch → Watched κ → Watched κ}

theorem Truthful.dispatch (hi : ∀ l batch w, w.Truthful n → (invoke l batch w).Truthful n)
    (s : StoreId) (batch : Batch) (todo : List (Listener κ)) (h : w.Truthful n) :
    (Bus.dispatch (access s) invoke batch todo w).Truthful n := by
  induction todo generalizing w with
  | nil => exact h
  | cons l todo ih =>
    rw [Bus.dispatch]
    split
    · exact ih h
    · exact ih (hi l batch w h)

theorem Truthful.flush (hi : ∀ l batch w, w.Truthful n → (invoke l batch w).Truthful n)
    (s : StoreId) (h : w.Truthful n) : (Bus.flush (access s) invoke w).2.Truthful n := by
  unfold Bus.flush
  dsimp only
  split
  · exact h
  · have hout := h.modify quiet_checkOut s
    exact (hout.dispatch hi s _ _).modify (quiet_checkIn _) s

end Watched

theorem Activity.truthful_run (a : Activity κ n) {w : Watched κ} (h : w.Truthful n) :
    (a.run w).Truthful n := by
  induction a generalizing w with
  | done => exact h
  | look next ih => exact ih _ h.look
  | edit s e next ih => exact ih (h.change fun hlib => hlib.edit s e)
  | addFallback s f next ih =>
    refine ih (h.change fun hlib => ?_)
    cases ha : w.library.addFallback? s f with
    | none => exact hlib
    | some lib' => exact hlib.addFallback s f ha
  | clear s next ih => exact ih (h.change fun hlib => hlib.withBus quiet_clear s)
  | subscribe s filter callback next ih => exact ih (h.modify (quiet_subscribe filter callback) s)
  | unsubscribe s id next ih => exact ih (h.modify (quiet_unsubscribe id) s)
  | flush s called next ihc ih => exact ih (h.flush (fun l batch _ hw => ihc l batch hw) s)

/-- At every moment of every run over stores that had no links and nothing pending, also while
listeners are being called: a title that is pending as added or modified resolves in its store,
and one that is pending as deleted is not held there. -/
theorem Unlinked.pending_truthful (h : lib.Unlinked) (hp : ∀ t, lib.pending t = ∅)
    (a : Activity κ lib.stores.length) :
    ∀ now, now = (a.run ⟨lib, []⟩).library ∨ now ∈ (a.run ⟨lib, []⟩).seen → ∀ t title,
      ((now.pending t).get? title = some .added ∨ (now.pending t).get? title = some .modified →
        (now.get t title).isSome) ∧
      ((now.pending t).get? title = some .deleted → now.own? t title = none) := by
  have hstart : lib.Truthful lib.stores.length := by
    refine ⟨rfl, h.linked, fun t title kind hk => ?_⟩
    rw [hp] at hk
    cases hk
  obtain ⟨hlast, hseen⟩ := a.truthful_run (w := ⟨lib, []⟩) ⟨hstart, by simp⟩
  intro now hnow t title
  have htrue : now.Truthful lib.stores.length := by
    rcases hnow with rfl | hnow
    · exact hlast
    · exact hseen now hnow
  have hconfirms := htrue.pending t title
  refine ⟨fun hk => ?_, hconfirms .deleted⟩
  rcases hk with hk | hk
  · exact hconfirms .added hk
  · exact hconfirms .modified hk

def withdrawal : Activity Unit 2 :=
  .addFallback 1 0 <| .subscribe 1 .all () <| .edit 0 (.add { title := "a", text := "x" }) <|
    .flush 1 (fun _ _ => .edit 0 (.delete "a") <| .look fun _ => .done) .done

theorem pending_truthful_withdrawal :
    ∃ now ∈ (withdrawal.run ⟨{ stores := [{}, {}] }, []⟩).seen,
      (now.pending 1).get? "a" = some .deleted ∧ now.own? 1 "a" = none := by
  have hunlinked : ({ stores := [{}, {}] } : Library Unit).Unlinked := by
    intro s
    match s with
    | 0 | 1 | _ + 2 => exact ⟨rfl, rfl⟩
  have hempty : ∀ t, ({ stores := [{}, {}] } : Library Unit).pending t = ∅ := by
    intro t
    match t with
    | 0 | 1 | _ + 2 => rfl
  have hseen : (withdrawal.run ⟨{ stores := [{}, {}] }, []⟩).seen ≠ [] := by decide
  have hmem := List.head_mem hseen
  have hdeleted : (((withdrawal.run ⟨{ stores := [{}, {}] }, []⟩).seen.head hseen).pending 1).get?
      "a" = some .deleted := rfl
  have htrue := hunlinked.pending_truthful hempty withdrawal _ (.inr hmem) 1 "a"
  exact ⟨_, hmem, hdeleted, htrue.2 hdeleted⟩

end Notebook.Library
