import Notebook.Proofs.Store.Links

/-! # Announcing changes

An edit is recorded in its store and in each store that sees it: a path of fallbacks leads there
from it, and no store on the way holds a note of its own under the title. So no store misses a
change of what a title resolves to.
-/

namespace Notebook

namespace Batch

@[simp] theorem record_record (batch : Batch) (title : Title) (kind : ChangeKind) :
    (batch.record title kind).record title kind = batch.record title kind := by
  refine Catalog.ext fun name => ?_
  simp only [record, Catalog.get?_insert]
  split <;> rfl

/-- The change is recorded if the condition holds, and otherwise nothing happens. -/
def Records (title : Title) (kind : ChangeKind) (p : Prop) (before after : Batch) : Prop :=
  (p → after = before.record title kind) ∧ (¬ p → after = before)

variable {title : Title} {kind : ChangeKind} {p q : Prop} {a b c : Batch}

theorem Records.refl (h : ¬ p) : Records title kind p a a :=
  ⟨fun hp => absurd hp h, fun _ => rfl⟩

theorem Records.congr (h : Records title kind p a b) (hpq : p ↔ q) : Records title kind q a b :=
  ⟨fun hq => h.1 (hpq.2 hq), fun hq => h.2 fun hp => hq (hpq.1 hp)⟩

theorem Records.trans (h : Records title kind p a b) (h' : Records title kind q b c) :
    Records title kind (p ∨ q) a c := by
  by_cases hp : p <;> by_cases hq : q
  · refine ⟨fun _ => ?_, fun hn => absurd (.inl hp) hn⟩
    rw [h'.1 hq, h.1 hp, record_record]
  · refine ⟨fun _ => ?_, fun hn => absurd (.inl hp) hn⟩
    rw [h'.2 hq, h.1 hp]
  · refine ⟨fun _ => ?_, fun hn => absurd (.inr hq) hn⟩
    rw [h'.1 hq, h.2 hp]
  · refine ⟨fun hpq => absurd hpq (not_or.2 ⟨hp, hq⟩), fun _ => ?_⟩
    rw [h'.2 hq, h.2 hp]

end Batch

namespace Library

open Relation

variable {κ : Type} {lib lib' : Library κ} {s t : StoreId} {title : Title} {kind : ChangeKind}

/-- The libraries are the same except for the buses of their stores. -/
def SameButBuses (lib lib' : Library κ) : Prop :=
  ∀ t, (lib.store? t).map (Store.withBus fun _ => {}) =
    (lib'.store? t).map (Store.withBus fun _ => {})

namespace SameButBuses

theorem refl (lib : Library κ) : SameButBuses lib lib :=
  fun _ => rfl

theorem trans {lib'' : Library κ} (h : SameButBuses lib lib') (h' : SameButBuses lib' lib'') :
    SameButBuses lib lib'' :=
  fun t => (h t).trans (h' t)

theorem map_eq {α : Type} (h : SameButBuses lib lib') {g : Store κ → α}
    (hg : ∀ store, g (Store.withBus (fun _ => {}) store) = g store) (t : StoreId) :
    (lib.store? t).map g = (lib'.store? t).map g := by
  have ht := congrArg (Option.map g) (h t)
  rw [Option.map_map, Option.map_map] at ht
  rwa [show g ∘ Store.withBus (fun _ => {}) = g from funext hg] at ht

theorem own? (h : SameButBuses lib lib') (t : StoreId) (title : Title) :
    lib.own? t title = lib'.own? t title :=
  own?_congr (h.map_eq (fun _ => rfl) t) title

theorem overlays (h : SameButBuses lib lib') (t : StoreId) : lib.overlays t = lib'.overlays t :=
  congrArg (Option.getD · []) (h.map_eq (fun _ => rfl) t)

theorem fallbacks (h : SameButBuses lib lib') (t : StoreId) :
    lib.fallbacks t = lib'.fallbacks t :=
  congrArg (Option.getD · []) (h.map_eq (fun _ => rfl) t)

theorem rules? (h : SameButBuses lib lib') (t : StoreId) : lib.rules? t = lib'.rules? t :=
  h.map_eq (fun _ => rfl) t

theorem isSome_store? (h : SameButBuses lib lib') (t : StoreId) :
    (lib.store? t).isSome = (lib'.store? t).isSome := by
  have ht := congrArg Option.isSome (h t)
  rwa [Option.isSome_map, Option.isSome_map] at ht

theorem length (h : SameButBuses lib lib') : lib.stores.length = lib'.stores.length := by
  have hiff : ∀ t, t < lib.stores.length ↔ t < lib'.stores.length := by
    intro t
    have ht := h.isSome_store? t
    rw [Bool.eq_iff_iff] at ht
    simpa [store?] using ht
  exact Nat.le_antisymm (Nat.le_of_not_lt fun hlt => Nat.lt_irrefl _ ((hiff _).1 hlt))
    (Nat.le_of_not_lt fun hlt => Nat.lt_irrefl _ ((hiff _).2 hlt))

theorem sameLinks (h : SameButBuses lib lib') : SameLinks lib lib' :=
  ⟨h.fallbacks, h.overlays, h.length⟩

end SameButBuses

theorem sameButBuses_enqueue (lib : Library κ) (s : StoreId) (title : Title)
    (kind : ChangeKind) : SameButBuses lib (lib.update s (Store.enqueue title kind)) := by
  intro t
  exact (map_store?_update (fun _ => by rfl) lib s t).symm

theorem sameButBuses_forwardWithin (title : Title) (kind : ChangeKind) (bound : Nat)
    (s : StoreId) (lib : Library κ) : SameButBuses lib (forwardWithin title kind bound s lib) := by
  induction bound generalizing s lib with
  | zero => exact .refl lib
  | succ bound ih =>
    rw [forwardWithin]
    generalize lib.overlays s = os
    induction os generalizing lib with
    | nil => exact .refl lib
    | cons o os ihos =>
      rw [List.foldl_cons]
      refine SameButBuses.trans ?_ (ihos _)
      split
      · exact .refl lib
      · exact (sameButBuses_enqueue lib o title kind).trans (ih o _)

theorem sameButBuses_announce (lib : Library κ) (s : StoreId) (title : Title)
    (kind : ChangeKind) : SameButBuses lib (lib.announce s title kind) :=
  (sameButBuses_enqueue lib s title kind).trans (sameButBuses_forwardWithin title kind _ s _)

/-- The announcement of a change in `s` comes to `t` within a number of steps. -/
def ToldWithin (lib : Library κ) (title : Title) : Nat → StoreId → StoreId → Prop
  | 0, _, _ => False
  | bound + 1, s, t =>
    ∃ o ∈ lib.overlays s, lib.own? o title = none ∧ (t = o ∨ ToldWithin lib title bound o t)

theorem SameButBuses.toldWithin (h : SameButBuses lib lib') (bound : Nat) (s t : StoreId) :
    lib.ToldWithin title bound s t ↔ lib'.ToldWithin title bound s t := by
  induction bound generalizing s with
  | zero => exact Iff.rfl
  | succ bound ih => simp only [ToldWithin, h.overlays, h.own?, ih]

theorem pending_enqueue (hs : (lib.store? s).isSome) (title : Title) (kind : ChangeKind)
    (t : StoreId) :
    Batch.Records title kind (t = s) (lib.pending t)
      ((lib.update s (Store.enqueue title kind)).pending t) := by
  constructor
  · rintro rfl
    obtain ⟨store, hstore⟩ := Option.isSome_iff_exists.1 hs
    simp [pending, store?_update_self, hstore, Store.enqueue, Store.withBus, Bus.enqueue]
  · intro hne
    rw [pending, store?_update_of_ne (Ne.symm hne), pending]

theorem pending_foldl {step : Library κ → StoreId → Library κ} {p : StoreId → Prop}
    {os : List StoreId} (hsame : ∀ lib₁ o, SameButBuses lib₁ (step lib₁ o))
    (hstep : ∀ lib₁ o, o ∈ os → SameButBuses lib lib₁ →
      Batch.Records title kind (p o) (lib₁.pending t) ((step lib₁ o).pending t))
    (hlib : SameButBuses lib lib') :
    Batch.Records title kind (∃ o ∈ os, p o) (lib'.pending t)
      ((os.foldl step lib').pending t) := by
  induction os generalizing lib' with
  | nil => exact .refl (by simp)
  | cons o os ih =>
    have hfirst := hstep lib' o List.mem_cons_self hlib
    have hrest := ih (fun lib₁ o ho => hstep lib₁ o (List.mem_cons_of_mem _ ho))
      (hlib.trans (hsame lib' o))
    exact (hfirst.trans hrest).congr (by simp)

theorem pending_forwardWithin (ho : ∀ s o, o ∈ lib.overlays s → (lib.store? o).isSome)
    (bound : Nat) (s t : StoreId) :
    Batch.Records title kind (lib.ToldWithin title bound s t) (lib.pending t)
      ((forwardWithin title kind bound s lib).pending t) := by
  induction bound generalizing s lib with
  | zero => exact .refl fun h => h
  | succ bound ih =>
    have hlib := SameButBuses.refl lib
    refine pending_foldl (fun lib₁ o => ?_) (fun lib₁ o hmem hsame => ?_) hlib
    · split
      · exact .refl lib₁
      · exact (sameButBuses_enqueue lib₁ o title kind).trans
          (sameButBuses_forwardWithin title kind bound o _)
    · rw [← hsame.own?]
      split
      · next hown => exact .refl fun h => by simp [h.1] at hown
      · next hown =>
        rw [Option.not_isSome_iff_eq_none] at hown
        -- Recording a change moves no note and no link, so who is told does not depend on it.
        have hsome := (hsame.isSome_store? o).symm.trans (ho s o hmem)
        have hsame' := hsame.trans (sameButBuses_enqueue lib₁ o title kind)
        have ho' : ∀ s' o', o' ∈ (lib₁.update o (Store.enqueue title kind)).overlays s' →
            ((lib₁.update o (Store.enqueue title kind)).store? o').isSome := by
          intro s' o' h'
          rw [← hsame'.overlays] at h'
          exact (hsame'.isSome_store? o').symm.trans (ho s' o' h')
        refine ((pending_enqueue hsome title kind t).trans (ih ho' o)).congr ?_
        rw [← hsame'.toldWithin]
        exact ⟨fun h => ⟨hown, h⟩, And.right⟩

end Library

end Notebook
