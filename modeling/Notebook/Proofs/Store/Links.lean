import Mathlib.Data.Finset.Card
import Mathlib.Data.Finset.Range
import Mathlib.Logic.Relation
import Notebook.Proofs.Store.Update

/-! # Links between stores

Stores refer to fallbacks, and each fallback knows who refers to it. In every library that comes
about by adding stores and fallbacks the two sides mirror each other and no store is its own
fallback, so the bounds on lookups and announcements leave nothing out.
-/

namespace Notebook.Library

open Relation

variable {κ : Type} {lib lib' : Library κ} {s t f : StoreId}

def Refers (lib : Library κ) (s t : StoreId) : Prop :=
  t ∈ lib.fallbacks s

structure Linked (lib : Library κ) : Prop where
  /-- A store is an overlay of another as often as that is its fallback. -/
  mirror : ∀ s t, (lib.overlays t).count s = (lib.fallbacks s).count t
  inRange : ∀ s t, lib.Refers s t → t < lib.stores.length
  acyclic : ∀ s, ¬ TransGen lib.Refers s s

structure SameLinks (lib lib' : Library κ) : Prop where
  fallbacks : ∀ s, lib.fallbacks s = lib'.fallbacks s
  overlays : ∀ s, lib.overlays s = lib'.overlays s
  length : lib.stores.length = lib'.stores.length

/-- The libraries that come about when stores without links are added and linked by fallbacks.
Everything else may change at any time. -/
inductive Reachable : Library κ → Prop
  | empty {lib : Library κ} (h : lib.stores = []) : Reachable lib
  | addStore {lib : Library κ} {store : Store κ} (h : Reachable lib)
      (hf : store.fallbacks = []) (ho : store.overlays = []) : Reachable (lib.addStore store).2
  | addFallback {lib lib' : Library κ} {s f : StoreId} (h : Reachable lib)
      (hs : s < lib.stores.length) (hf : f < lib.stores.length)
      (ha : lib.addFallback? s f = some lib') : Reachable lib'
  | change {lib lib' : Library κ} (h : Reachable lib) (hl : SameLinks lib lib') :
      Reachable lib'

theorem Refers.lt (h : lib.Refers s t) : s < lib.stores.length := by
  unfold Refers fallbacks at h
  cases hs : lib.store? s with
  | none => simp [hs] at h
  | some store => exact lt_of_store? hs

theorem Linked.mem_overlays (h : lib.Linked) : s ∈ lib.overlays t ↔ lib.Refers s t := by
  rw [Refers, ← List.count_pos_iff, ← List.count_pos_iff, h.mirror]

open Classical in
/-- How many stores can be reached from a store. -/
noncomputable def rank (lib : Library κ) (s : StoreId) : Nat :=
  ((Finset.range lib.stores.length).filter (TransGen lib.Refers s)).card

namespace Linked

theorem rank_lt (h : lib.Linked) (hr : lib.Refers s t) : lib.rank t < lib.rank s := by
  classical
  refine Finset.card_lt_card (Finset.ssubset_iff_subset_ne.2 ⟨fun u hu => ?_, fun heq => ?_⟩)
  · rw [Finset.mem_filter] at hu ⊢
    exact ⟨hu.1, hu.2.head hr⟩
  · have ht : t ∈ (Finset.range lib.stores.length).filter (TransGen lib.Refers s) :=
      Finset.mem_filter.2 ⟨Finset.mem_range.2 (h.inRange s t hr), .single hr⟩
    rw [← heq, Finset.mem_filter] at ht
    exact h.acyclic t ht.2

theorem rank_lt_length (h : lib.Linked) (hs : s < lib.stores.length) :
    lib.rank s < lib.stores.length := by
  classical
  have hlt : ((Finset.range lib.stores.length).filter (TransGen lib.Refers s)).card <
      (Finset.range lib.stores.length).card := by
    refine Finset.card_lt_card (Finset.filter_ssubset.2 ⟨s, Finset.mem_range.2 hs, ?_⟩)
    exact h.acyclic s
  rwa [Finset.card_range] at hlt

theorem reachesWithin_of_reflTransGen (h : lib.Linked) {bound : Nat}
    (hp : ReflTransGen lib.Refers s t) (hb : lib.rank s < bound) :
    lib.reachesWithin t bound s := by
  induction hp using ReflTransGen.head_induction_on generalizing bound with
  | refl =>
    obtain ⟨bound, rfl⟩ := Nat.exists_eq_add_of_lt hb
    simp [reachesWithin]
  | head hr _ ih =>
    have hlt := h.rank_lt hr
    obtain ⟨bound, rfl⟩ := Nat.exists_eq_add_of_lt hb
    rw [reachesWithin, Bool.or_eq_true, List.any_eq_true]
    exact .inr ⟨_, hr, ih (by omega)⟩

theorem not_reaches (h : lib.Linked) (hs : s < lib.stores.length) (hr : ¬ lib.reaches s t) :
    ¬ ReflTransGen lib.Refers s t :=
  fun hp => hr (h.reachesWithin_of_reflTransGen hp (h.rank_lt_length hs))

end Linked

theorem addFallback?_eq_some (ha : lib.addFallback? s f = some lib') :
    ¬ lib.reaches f s ∧ lib' =
      (lib.update f fun store => { store with overlays := store.overlays ++ [s] }).update s
        fun store => { store with fallbacks := store.fallbacks ++ [f] } := by
  unfold addFallback? at ha
  split at ha
  · cases ha
  · next hr => exact ⟨hr, (Option.some.inj ha).symm⟩

theorem length_addFallback (ha : lib.addFallback? s f = some lib') :
    lib'.stores.length = lib.stores.length := by
  obtain ⟨-, rfl⟩ := addFallback?_eq_some ha
  exact (maxDepth_update _ s _).trans (maxDepth_update lib f _)

theorem fallbacks_addFallback (hs : s < lib.stores.length)
    (ha : lib.addFallback? s f = some lib') (t : StoreId) :
    lib'.fallbacks t = if s = t then lib.fallbacks t ++ [f] else lib.fallbacks t := by
  obtain ⟨lib₁, hlength, hfallbacks, rfl⟩ : ∃ lib₁ : Library κ,
      lib₁.stores.length = lib.stores.length ∧ (∀ t, lib₁.fallbacks t = lib.fallbacks t) ∧
      lib' = lib₁.update s fun store => { store with fallbacks := store.fallbacks ++ [f] } :=
    ⟨_, maxDepth_update lib f _, fallbacks_update (fun _ => by rfl) lib f,
      (addFallback?_eq_some ha).2⟩
  rw [← hfallbacks]
  split
  · next ht =>
    subst ht
    obtain ⟨store, hstore⟩ := store?_of_lt (hlength ▸ hs)
    rw [fallbacks_update_self hstore]
    simp [fallbacks, hstore]
  · next ht => rw [fallbacks, store?_update_of_ne ht, fallbacks]

theorem overlays_addFallback (hf : f < lib.stores.length)
    (ha : lib.addFallback? s f = some lib') (t : StoreId) :
    lib'.overlays t = if f = t then lib.overlays t ++ [s] else lib.overlays t := by
  obtain ⟨-, rfl⟩ := addFallback?_eq_some ha
  rw [overlays_update fun _ => by rfl]
  split
  · next ht =>
    subst ht
    obtain ⟨store, hstore⟩ := store?_of_lt hf
    rw [overlays_update_self hstore]
    simp [overlays, hstore]
  · next ht => rw [overlays, store?_update_of_ne ht, overlays]

theorem refers_addFallback (hs : s < lib.stores.length) (ha : lib.addFallback? s f = some lib')
    {t u : StoreId} : lib'.Refers t u ↔ lib.Refers t u ∨ t = s ∧ u = f := by
  rw [Refers, Refers, fallbacks_addFallback hs ha]
  split
  · next ht => simp [ht]
  · next ht => simp [Ne.symm ht]

theorem transGen_addFallback (hs : s < lib.stores.length)
    (ha : lib.addFallback? s f = some lib') {t u : StoreId} (h : TransGen lib'.Refers t u) :
    TransGen lib.Refers t u ∨ ReflTransGen lib.Refers t s ∧ ReflTransGen lib.Refers f u := by
  induction h with
  | single hr =>
    rcases (refers_addFallback hs ha).1 hr with hr | ⟨rfl, rfl⟩
    · exact .inl (.single hr)
    · exact .inr ⟨.refl, .refl⟩
  | tail _ hr ih =>
    rcases (refers_addFallback hs ha).1 hr with hr | ⟨rfl, rfl⟩
    · rcases ih with hp | ⟨hl, hp⟩
      · exact .inl (hp.tail hr)
      · exact .inr ⟨hl, hp.tail hr⟩
    · rcases ih with hp | ⟨hl, -⟩
      · exact .inr ⟨hp.to_reflTransGen, .refl⟩
      · exact .inr ⟨hl, .refl⟩

namespace Linked

theorem addFallback (h : lib.Linked) (hs : s < lib.stores.length) (hf : f < lib.stores.length)
    (ha : lib.addFallback? s f = some lib') : lib'.Linked where
  mirror t u := by
    rw [fallbacks_addFallback hs ha, overlays_addFallback hf ha]
    have hm := h.mirror t u
    by_cases hu : f = u <;> by_cases ht : s = t <;> simp [hu, ht, hm]
  inRange t u hr := by
    rw [length_addFallback ha]
    rcases (refers_addFallback hs ha).1 hr with hr | ⟨-, rfl⟩
    · exact h.inRange t u hr
    · exact hf
  acyclic t hp := by
    rcases transGen_addFallback hs ha hp with hp | ⟨hl, hp⟩
    · exact h.acyclic t hp
    · -- A cycle through the new edge leads from the fallback to the store without it.
      exact h.not_reaches hf (addFallback?_eq_some ha).1 (hp.trans hl)

theorem of_eq (h : lib.Linked) (hf : ∀ s, lib.fallbacks s = lib'.fallbacks s)
    (ho : ∀ s, lib.overlays s = lib'.overlays s)
    (hlength : lib.stores.length ≤ lib'.stores.length) : lib'.Linked := by
  have hr : lib'.Refers = lib.Refers := by
    funext s t
    rw [Refers, Refers, hf]
  refine ⟨fun s t => ?_, fun s t hst => ?_, ?_⟩
  · rw [← ho, ← hf]
    exact h.mirror s t
  · exact Nat.lt_of_lt_of_le (h.inRange s t (hr ▸ hst)) hlength
  · rw [hr]
    exact h.acyclic

theorem addStore (h : lib.Linked) {store : Store κ} (hf : store.fallbacks = [])
    (ho : store.overlays = []) : (lib.addStore store).2.Linked := by
  have hstore : ∀ s, (lib.addStore store).2.store? s =
      if s = lib.stores.length then some store else lib.store? s := by
    intro s
    change (lib.stores ++ [store])[s]? = _
    rcases Nat.lt_trichotomy s lib.stores.length with hlt | rfl | hgt
    · rw [if_neg (Nat.ne_of_lt hlt), List.getElem?_append_left hlt, store?]
    · rw [if_pos rfl, List.getElem?_concat_length]
    · rw [if_neg (Nat.ne_of_gt hgt), store?, List.getElem?_eq_none (Nat.le_of_lt hgt)]
      exact List.getElem?_eq_none (by simpa using Nat.succ_le_of_lt hgt)
  have hnone : lib.store? lib.stores.length = none := List.getElem?_eq_none (Nat.le_refl _)
  refine h.of_eq (fun s => ?_) (fun s => ?_) (by simp [Library.addStore])
  · rw [fallbacks, fallbacks, hstore]
    split
    · next heq => simp [heq, hnone, hf]
    · rfl
  · rw [overlays, overlays, hstore]
    split
    · next heq => simp [heq, hnone, ho]
    · rfl

theorem of_empty (h : lib.stores = []) : lib.Linked := by
  have hnone : ∀ s, lib.store? s = none := by simp [store?, h]
  refine ⟨fun s t => ?_, fun s t hr => ?_, fun s hp => ?_⟩
  · simp [overlays, fallbacks, hnone]
  · simp [Refers, fallbacks, hnone] at hr
  · obtain ⟨t, hr, -⟩ := TransGen.head'_iff.1 hp
    simp [Refers, fallbacks, hnone] at hr

end Linked

theorem Reachable.linked (h : lib.Reachable) : lib.Linked := by
  induction h with
  | empty h => exact .of_empty h
  | addStore _ hf ho ih => exact ih.addStore hf ho
  | addFallback _ hs hf ha ih => exact ih.addFallback hs hf ha
  | change _ hl ih => exact ih.of_eq hl.fallbacks hl.overlays (Nat.le_of_eq hl.length)

end Notebook.Library
