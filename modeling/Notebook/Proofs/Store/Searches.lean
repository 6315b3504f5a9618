import Mathlib.Data.List.Basic
import Notebook.Proofs.Store.Parsing

/-! # Searches come to an end

A store is never its own fallback, so every way down along fallbacks ends and so does every way up
along overlays. The bounds on searches and announcements are never met: each of them obeys the
equation that it would have without a bound. What is refused as a fallback are exactly the stores
from which a way leads back.
-/

namespace Notebook.Library

open Relation

variable {κ : Type} {α : Type u} {lib lib₁ : Library κ} {s t f : StoreId} {title : Title}
  {kind : ChangeKind} {bound bound' : Nat}

/-- What a search gives for a store depends on what it gives for its fallbacks, and on nothing
else that it gives. -/
def AsksBelow (lib : Library κ) (step : (StoreId → α) → StoreId → α) : Prop :=
  ∀ g g' s, (∀ f ∈ lib.fallbacks s, g f = g' f) → step g s = step g' s

section

variable {step : (StoreId → α) → StoreId → α} {search : Nat → StoreId → α}

/-- A bound above the rank of a store makes no difference there. -/
theorem Linked.search_eq (h : lib.Linked) (hstep : lib.AsksBelow step)
    (hs : ∀ bound s, search (bound + 1) s = step (search bound) s)
    (hb : lib.rank s < bound) (hb' : lib.rank s < bound') : search bound s = search bound' s := by
  induction bound generalizing s bound' with
  | zero => omega
  | succ bound ih =>
    cases bound' with
    | zero => omega
    | succ bound' =>
      rw [hs, hs]
      apply hstep
      intro f hf
      have hlt : lib.rank f < lib.rank s := h.rank_lt hf
      exact ih (by omega) (by omega)

theorem Linked.search_maxDepth (h : lib.Linked) (search : Nat → StoreId → α)
    (step : (StoreId → α) → StoreId → α) (hstep : lib.AsksBelow step)
    (hs : ∀ bound s, search (bound + 1) s = step (search bound) s)
    (hlt : s < lib.stores.length) : search lib.maxDepth s = step (search lib.maxDepth) s := by
  have hrank : lib.rank s < lib.maxDepth := h.rank_lt_length hlt
  rw [← hs]
  exact h.search_eq hstep hs hrank (Nat.lt_succ_of_lt hrank)

end

theorem findSome?_congr {β γ : Type u} {g g' : β → Option γ} {l : List β}
    (h : ∀ b ∈ l, g b = g' b) : l.findSome? g = l.findSome? g' := by
  induction l with
  | nil => rfl
  | cons b l ih =>
    obtain ⟨hb, hl⟩ := List.forall_mem_cons.1 h
    rw [List.findSome?_cons, List.findSome?_cons, hb, ih hl]

theorem Linked.lookup_eq (h : lib.Linked) (hs : s < lib.stores.length) (title : Title) :
    lib.lookup s title =
      (lib.own? s title).or ((lib.fallbacks s).findSome? (lib.lookup · title)) := by
  refine h.search_maxDepth (lib.lookupWithin title)
    (fun g s => (lib.own? s title).or ((lib.fallbacks s).findSome? g)) ?_ ?_ hs
  · intro g g' s hg
    exact congrArg _ (findSome?_congr hg)
  · intro bound s
    rw [lookupWithin]
    cases lib.own? s title <;> rfl

theorem Linked.origin_eq (h : lib.Linked) (hs : s < lib.stores.length) (title : Title) :
    lib.origin s title =
      if (lib.own? s title).isSome then some .primary
      else (lib.fallbacks s).findSome? fun f => (lib.origin f title).map Origin.deeper := by
  refine h.search_maxDepth (lib.originWithin title)
    (fun g s => if (lib.own? s title).isSome then some .primary
      else (lib.fallbacks s).findSome? fun f => (g f).map Origin.deeper) ?_ ?_ hs
  · intro g g' s hg
    have hmap : ∀ f ∈ lib.fallbacks s,
        (g f).map Origin.deeper = (g' f).map Origin.deeper := by
      intro f hf
      rw [hg f hf]
    dsimp only
    rw [findSome?_congr hmap]
  · intro bound s
    rw [originWithin]

theorem Linked.titles_eq (h : lib.Linked) (hs : s < lib.stores.length) :
    lib.titles s = (lib.fallbacks s).foldl (fun acc f => mergeTitles acc (lib.titles f))
      ((((lib.store? s).map Store.notes).getD ∅).map fun _ => .primary) := by
  refine h.search_maxDepth lib.titlesWithin
    (fun g s => (lib.fallbacks s).foldl (fun acc f => mergeTitles acc (g f))
      ((((lib.store? s).map Store.notes).getD ∅).map fun _ => .primary)) ?_ ?_ hs
  · intro g g' s hg
    apply List.foldl_ext
    intro acc f hf
    rw [hg f hf]
  · intro bound s
    rw [titlesWithin]

theorem Linked.reaches_eq (h : lib.Linked) (hs : s < lib.stores.length) (t : StoreId) :
    lib.reaches s t = (decide (s = t) || (lib.fallbacks s).any (lib.reaches · t)) := by
  refine h.search_maxDepth (lib.reachesWithin t)
    (fun g s => decide (s = t) || (lib.fallbacks s).any g) ?_ ?_ hs
  · intro g g' s hg
    have hany : (lib.fallbacks s).any g = (lib.fallbacks s).any g' := by
      rw [Bool.eq_iff_iff, List.any_eq_true, List.any_eq_true]
      exact exists_congr fun f => and_congr_right fun hf => by rw [hg f hf]
    dsimp only
    rw [hany]
  · intro bound s
    rw [reachesWithin]

def forward (lib : Library κ) (s : StoreId) (title : Title) (kind : ChangeKind) : Library κ :=
  forwardWithin title kind lib.maxDepth s lib

theorem foldl_congr_of_sameButBuses {step step' : Library κ → StoreId → Library κ}
    {os : List StoreId} (hsame : ∀ lib₂ o, SameButBuses lib₂ (step lib₂ o))
    (hstep : ∀ lib₂ o, o ∈ os → SameButBuses lib lib₂ → step lib₂ o = step' lib₂ o)
    (hlib : SameButBuses lib lib₁) : os.foldl step lib₁ = os.foldl step' lib₁ := by
  induction os generalizing lib₁ with
  | nil => rfl
  | cons o os ih =>
    rw [List.foldl_cons, List.foldl_cons, ← hstep lib₁ o List.mem_cons_self hlib]
    refine ih (fun lib₂ o ho => hstep lib₂ o (List.mem_cons_of_mem _ ho)) ?_
    exact hlib.trans (hsame lib₁ o)

theorem sameButBuses_tell (lib : Library κ) (o : StoreId) (title : Title) (kind : ChangeKind)
    (bound : Nat) :
    SameButBuses lib
      (if (lib.own? o title).isSome then lib
        else forwardWithin title kind bound o (lib.update o (Store.enqueue title kind))) := by
  split
  · exact .refl lib
  · exact (sameButBuses_enqueue lib o title kind).trans
      (sameButBuses_forwardWithin title kind bound o _)

/-- A bound above the number of stores over a store makes no difference there. That number is at
most what the rank leaves of all stores. -/
theorem Linked.forwardWithin_eq (h : lib.Linked) (hs : s < lib.stores.length)
    (hlib : SameButBuses lib lib₁) (hb : lib.stores.length ≤ lib.rank s + bound)
    (hb' : lib.stores.length ≤ lib.rank s + bound') :
    forwardWithin title kind bound s lib₁ = forwardWithin title kind bound' s lib₁ := by
  have hrank := h.rank_lt_length hs
  induction bound generalizing s bound' lib₁ with
  | zero => omega
  | succ bound ih =>
    cases bound' with
    | zero => omega
    | succ bound' =>
      rw [forwardWithin, forwardWithin]
      refine foldl_congr_of_sameButBuses (fun lib₂ o => sameButBuses_tell lib₂ o title kind bound)
        (fun lib₂ o ho hlib₂ => ?_) hlib
      have hr : lib.Refers o s := h.mem_overlays.1 (hlib.overlays s ▸ ho)
      have hlt := h.rank_lt hr
      split
      · rfl
      · exact ih hr.lt (hlib₂.trans (sameButBuses_enqueue lib₂ o title kind)) (by omega)
          (by omega) (h.rank_lt_length hr.lt)

theorem Linked.forward_eq (h : lib.Linked) (hs : s < lib.stores.length) (title : Title)
    (kind : ChangeKind) :
    lib.forward s title kind = (lib.overlays s).foldl
      (fun lib o => if (lib.own? o title).isSome then lib
        else (lib.update o (Store.enqueue title kind)).forward o title kind) lib := by
  have hall : lib.forward s title kind =
      forwardWithin title kind (lib.maxDepth + 1) s lib := by
    unfold forward
    have hb : lib.stores.length ≤ lib.rank s + lib.maxDepth := Nat.le_add_left _ _
    exact h.forwardWithin_eq hs (.refl lib) hb (Nat.le_succ_of_le hb)
  rw [hall, forwardWithin]
  refine foldl_congr_of_sameButBuses
    (fun lib₂ o => sameButBuses_tell lib₂ o title kind lib.maxDepth) (fun lib₂ o _ hlib₂ => ?_)
    (.refl lib)
  have hdepth : lib₂.maxDepth = lib.maxDepth := hlib₂.length.symm
  split
  · rfl
  · rw [forward, maxDepth_update, hdepth]

/-- All ways along links end, and no search or announcement is cut short by its bound. -/
structure SearchesEnd (lib : Library κ) : Prop where
  down : WellFounded fun f s => f ∈ lib.fallbacks s
  up : WellFounded fun o s => o ∈ lib.overlays s
  lookup : ∀ s < lib.stores.length, ∀ title, lib.lookup s title =
    (lib.own? s title).or ((lib.fallbacks s).findSome? (lib.lookup · title))
  origin : ∀ s < lib.stores.length, ∀ title, lib.origin s title =
    if (lib.own? s title).isSome then some .primary
    else (lib.fallbacks s).findSome? fun f => (lib.origin f title).map Origin.deeper
  titles : ∀ s < lib.stores.length, lib.titles s =
    (lib.fallbacks s).foldl (fun acc f => mergeTitles acc (lib.titles f))
      ((((lib.store? s).map Store.notes).getD ∅).map fun _ => .primary)
  reaches : ∀ s < lib.stores.length, ∀ t, lib.reaches s t =
    (decide (s = t) || (lib.fallbacks s).any (lib.reaches · t))
  forward : ∀ s < lib.stores.length, ∀ title kind, lib.forward s title kind =
    (lib.overlays s).foldl
      (fun lib o => if (lib.own? o title).isSome then lib
        else (lib.update o (Store.enqueue title kind)).forward o title kind) lib

theorem Linked.searchesEnd (h : lib.Linked) : lib.SearchesEnd where
  down := by
    refine Subrelation.wf ?_ (measure lib.rank).wf
    intro f s hf
    exact h.rank_lt hf
  up := by
    refine Subrelation.wf ?_ (measure fun s => lib.stores.length - lib.rank s).wf
    intro o s ho
    have hr : lib.Refers o s := h.mem_overlays.1 ho
    have hlt := h.rank_lt hr
    have hbelow := h.rank_lt_length hr.lt
    change lib.stores.length - lib.rank o < lib.stores.length - lib.rank s
    omega
  lookup _ hs title := h.lookup_eq hs title
  origin _ hs title := h.origin_eq hs title
  titles _ hs := h.titles_eq hs
  reaches _ hs t := h.reaches_eq hs t
  forward _ hs title kind := h.forward_eq hs title kind

theorem reflTransGen_of_reachesWithin (h : lib.reachesWithin t bound s) :
    ReflTransGen lib.Refers s t := by
  induction bound generalizing s with
  | zero => simp [reachesWithin] at h
  | succ bound ih =>
    rw [reachesWithin, Bool.or_eq_true, List.any_eq_true, decide_eq_true_eq] at h
    rcases h with rfl | ⟨f, hf, h⟩
    · exact .refl
    · exact .head hf (ih h)

theorem Linked.reaches_iff (h : lib.Linked) (hs : s < lib.stores.length) :
    lib.reaches s t ↔ ReflTransGen lib.Refers s t := by
  constructor
  · exact reflTransGen_of_reachesWithin
  · intro hp
    exact h.reachesWithin_of_reflTransGen hp (h.rank_lt_length hs)

theorem Linked.addFallback?_eq_none_iff (h : lib.Linked) (hf : f < lib.stores.length) :
    lib.addFallback? s f = none ↔ ReflTransGen lib.Refers f s := by
  rw [← h.reaches_iff hf]
  unfold addFallback?
  split
  · next hr => simp [hr]
  · next hr => simp [hr]

def Operation.IsWithin (n : Nat) : Operation → Prop
  | addFallback s fallback => s < n ∧ fallback < n
  | _ => True

def Unlinked (lib : Library κ) : Prop :=
  ∀ s, lib.fallbacks s = [] ∧ lib.overlays s = []

theorem Unlinked.linked (h : lib.Unlinked) : lib.Linked where
  mirror s t := by rw [(h t).2, (h s).1, List.count_nil, List.count_nil]
  inRange s t hr := by simp [Refers, (h s).1] at hr
  acyclic s hp := by
    obtain ⟨t, hr, -⟩ := TransGen.head'_iff.1 hp
    simp [Refers, (h s).1] at hr

theorem sameLinks_registerParser (lib : Library κ) (s : StoreId) (keys : List String)
    (parser : Parser) : SameLinks lib (lib.registerParser s keys parser) := by
  have hupdate : SameLinks lib (lib.update s (Store.register keys parser)) :=
    ⟨fun t => (fallbacks_update (fun _ => by rfl) lib s t).symm,
      fun t => (overlays_update (fun _ => by rfl) lib s t).symm, (maxDepth_update lib s _).symm⟩
  unfold registerParser
  dsimp only
  split
  · exact ⟨hupdate.fallbacks, hupdate.overlays, hupdate.length⟩
  · exact hupdate

theorem sameLinks_parseNote (lib : Library κ) (s : StoreId) (title : Title) :
    SameLinks lib (lib.parseNote s title).2 := by
  have hself : SameLinks lib lib := ⟨fun _ => rfl, fun _ => rfl, rfl⟩
  unfold parseNote
  split
  · next store saved hs hl =>
    split
    · exact hself
    · -- Only the cache of the store is another one.
      have hstore : ∀ {β : Type} (g : Store κ → β), (∀ cache, g { store with cache } = g store) →
          ∀ t, (lib.store? t).map g = ((lib.update s fun _ =>
            { store with cache := (store.cache.parse title saved).2 }).store? t).map g := by
        intro β g hg t
        rw [store?_update]
        split
        · next ht =>
          rw [← ht, hs]
          exact congrArg some (hg _).symm
        · rfl
      exact ⟨fun t => congrArg (Option.getD · []) (hstore Store.fallbacks (fun _ => rfl) t),
        fun t => congrArg (Option.getD · []) (hstore Store.overlays (fun _ => rfl) t),
        (maxDepth_update lib s _).symm⟩
  · exact hself

theorem Linked.of_sameLinks (h : lib.Linked) (hl : SameLinks lib lib₁) : lib₁.Linked :=
  h.of_eq hl.fallbacks hl.overlays (Nat.le_of_eq hl.length)

theorem Linked.perform (h : lib.Linked) {op : Operation} (hop : op.IsWithin lib.stores.length) :
    (lib.perform op).Linked ∧ (lib.perform op).stores.length = lib.stores.length := by
  cases op with
  | edit s e =>
    have hl := sameLinks_edit lib s e
    exact ⟨h.of_sameLinks hl, hl.length.symm⟩
  | registerParser s keys parser =>
    have hl := sameLinks_registerParser lib s keys parser
    exact ⟨h.of_sameLinks hl, hl.length.symm⟩
  | parseNote s title =>
    have hl := sameLinks_parseNote lib s title
    exact ⟨h.of_sameLinks hl, hl.length.symm⟩
  | addFallback s f =>
    simp only [Library.perform]
    cases ha : lib.addFallback? s f with
    | none => exact ⟨h, rfl⟩
    | some lib₁ => exact ⟨h.addFallback hop.1 hop.2 ha, length_addFallback ha⟩

theorem Linked.run (h : lib.Linked) {ops : List Operation}
    (hops : ∀ op ∈ ops, op.IsWithin lib.stores.length) :
    (lib.run ops).Linked ∧ (lib.run ops).stores.length = lib.stores.length := by
  induction ops generalizing lib with
  | nil => exact ⟨h, rfl⟩
  | cons op ops ih =>
    obtain ⟨hop, hops⟩ := List.forall_mem_cons.1 hops
    obtain ⟨hlinked, hlength⟩ := h.perform hop
    obtain ⟨hlinked', hlength'⟩ := ih hlinked (by rwa [hlength])
    exact ⟨hlinked', hlength'.trans hlength⟩

/-- However fallbacks are added to stores that had none, with anything else in between: a fallback
is refused exactly if a way leads back from it, and then nothing changes. No way ever leads from a
store to itself, overlays mirror fallbacks, and all searches and announcements end. -/
theorem Unlinked.run_acyclic (h : lib.Unlinked) (ops : List Operation)
    (hops : ∀ op ∈ ops, op.IsWithin lib.stores.length) :
    (∀ s f, f < lib.stores.length →
      ((lib.run ops).addFallback? s f = none ↔ ReflTransGen (lib.run ops).Refers f s) ∧
      (ReflTransGen (lib.run ops).Refers f s →
        (lib.run ops).perform (.addFallback s f) = lib.run ops)) ∧
    (∀ s, ¬ TransGen (lib.run ops).Refers s s) ∧
    (∀ s t, ((lib.run ops).overlays t).count s = ((lib.run ops).fallbacks s).count t) ∧
    (lib.run ops).SearchesEnd := by
  obtain ⟨hlinked, hlength⟩ := h.linked.run hops
  refine ⟨fun s f hf => ?_, hlinked.acyclic, hlinked.mirror, hlinked.searchesEnd⟩
  have hiff := hlinked.addFallback?_eq_none_iff (s := s) (hlength ▸ hf)
  refine ⟨hiff, fun hp => ?_⟩
  rw [Library.perform, hiff.2 hp, Option.getD_none]

theorem run_acyclic_row :
    let lib := ({ stores := [{}, {}, {}] } : Library Unit).run
      [.addFallback 2 1, .addFallback 1 0, .addFallback 2 0]
    lib.perform (.addFallback 0 2) = lib ∧ ∀ s, ¬ TransGen lib.Refers s s := by
  intro lib
  have hunlinked : ({ stores := [{}, {}, {}] } : Library Unit).Unlinked := by
    intro s
    match s with
    | 0 | 1 | 2 | _ + 3 => exact ⟨rfl, rfl⟩
  obtain ⟨hrefused, hacyclic, -⟩ := hunlinked.run_acyclic
    [.addFallback 2 1, .addFallback 1 0, .addFallback 2 0] (by simp [Operation.IsWithin])
  have hrefers : lib.Refers 2 1 ∧ lib.Refers 1 0 :=
    ⟨(by decide : 1 ∈ lib.fallbacks 2), (by decide : 0 ∈ lib.fallbacks 1)⟩
  have hway : ReflTransGen lib.Refers 2 0 := .head hrefers.1 (.single hrefers.2)
  exact ⟨(hrefused 0 2 (by decide)).2 hway, hacyclic⟩

end Notebook.Library
