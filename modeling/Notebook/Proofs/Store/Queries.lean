import Notebook.Proofs.Store.Searches
import Notebook.Proofs.Store.Titles

/-! # Queries agree

A title is looked up depth first: each store that does not hold it itself passes on to the first
fallback from which it can be found. The note, the origin and the catalog of titles all tell of
the same way down.
-/

namespace Notebook

namespace Origin

def ofDepth : Nat → Origin
  | 0 => primary
  | depth + 1 => fallback (depth + 1)

@[simp] theorem deeper_ofDepth (depth : Nat) : (ofDepth depth).deeper = ofDepth (depth + 1) := by
  cases depth <;> rfl

end Origin

namespace Library

open Relation

variable {κ : Type} {lib : Library κ} {s t f last : StoreId} {title : Title} {tag : String}
  {way : List StoreId}

/-- No way down leads to a store that holds the title. -/
def Lacks (lib : Library κ) (title : Title) (s : StoreId) : Prop :=
  ∀ t, ReflTransGen lib.Refers s t → lib.own? t title = none

/-- The way down to the store that answers for a title. It goes on from a store that does not hold
the title, to the first fallback that does not lack it. -/
inductive FirstWay (lib : Library κ) (title : Title) : StoreId → List StoreId → StoreId → Prop
  | here {s : StoreId} (h : (lib.own? s title).isSome) : FirstWay lib title s [] s
  | onward {s f last : StoreId} {before after way : List StoreId}
      (hown : lib.own? s title = none) (hf : lib.fallbacks s = before ++ f :: after)
      (hbefore : ∀ g ∈ before, lib.Lacks title g) (h : FirstWay lib title f way last) :
      FirstWay lib title s (f :: way) last

theorem lacks_iff : lib.Lacks title s ↔
    lib.own? s title = none ∧ ∀ f ∈ lib.fallbacks s, lib.Lacks title f := by
  constructor
  · intro h
    exact ⟨h s .refl, fun f hf t hp => h t (.head hf hp)⟩
  · rintro ⟨hown, hbelow⟩ t hp
    rcases ReflTransGen.cases_head hp with rfl | ⟨f, hf, hp⟩
    · exact hown
    · exact hbelow f hf t hp

theorem FirstWay.not_lacks (h : lib.FirstWay title s way last) : ¬ lib.Lacks title s := by
  induction h with
  | here h =>
    intro hlacks
    rw [hlacks _ .refl] at h
    cases h
  | onward hown hf _ _ ih =>
    intro hlacks
    refine ih ((lacks_iff.1 hlacks).2 _ ?_)
    rw [hf]
    exact List.mem_append_cons_self

namespace Linked

theorem lookup_eq_none_iff (h : lib.Linked) (hs : s < lib.stores.length) :
    lib.lookup s title = none ↔ lib.Lacks title s := by
  induction s using h.searchesEnd.down.induction with
  | _ s ih =>
    rw [h.lookup_eq hs, Option.or_eq_none_iff, List.findSome?_eq_none_iff, lacks_iff]
    refine and_congr_right fun _ => forall₂_congr fun f hf => ?_
    exact ih f hf (h.inRange s f hf)

theorem exists_firstWay (h : lib.Linked) (hs : s < lib.stores.length)
    (hl : (lib.lookup s title).isSome) : ∃ way last, lib.FirstWay title s way last := by
  induction s using h.searchesEnd.down.induction with
  | _ s ih =>
    cases hown : lib.own? s title with
    | some saved => exact ⟨[], s, .here (by rw [hown]; rfl)⟩
    | none =>
      obtain ⟨saved, hsaved⟩ := Option.isSome_iff_exists.1 hl
      rw [h.lookup_eq hs, hown, Option.none_or, List.findSome?_eq_some_iff] at hsaved
      obtain ⟨before, f, after, hf, hfound, hbefore⟩ := hsaved
      have hrefers : ∀ g ∈ before ++ f :: after, lib.Refers s g := by
        intro g hg
        rw [Refers, hf]
        exact hg
      have hmem : f ∈ before ++ f :: after := List.mem_append_cons_self
      obtain ⟨way, last, hway⟩ :=
        ih f (hrefers f hmem) (h.inRange s f (hrefers f hmem)) (by rw [hfound]; rfl)
      refine ⟨f :: way, last, .onward hown hf (fun g hg => ?_) hway⟩
      have hgs : lib.Refers s g := hrefers g (List.mem_append_left _ hg)
      exact (h.lookup_eq_none_iff (h.inRange s g hgs)).1 (hbefore g hg)

/-- The note at the end of the way down is the answer, and its origin is the length of the way. -/
theorem answer_of_firstWay (h : lib.Linked) (hs : s < lib.stores.length)
    (hway : lib.FirstWay title s way last) :
    lib.lookup s title = lib.own? last title ∧
      lib.origin s title = some (.ofDepth way.length) := by
  induction hway with
  | @here s hown =>
    obtain ⟨saved, hsaved⟩ := Option.isSome_iff_exists.1 hown
    rw [h.lookup_eq hs, h.origin_eq hs, hsaved]
    exact ⟨rfl, rfl⟩
  | @onward s f last before after way hown hf hbefore hway ih =>
    have hrefers : ∀ g ∈ before ++ f :: after, lib.Refers s g := by
      intro g hg
      rw [Refers, hf]
      exact hg
    have hmem : f ∈ before ++ f :: after := List.mem_append_cons_self
    have hfs := h.inRange s f (hrefers f hmem)
    obtain ⟨hlookup, horigin⟩ := ih hfs
    have hnone : ∀ g ∈ before, lib.lookup g title = none := by
      intro g hg
      have hgs := h.inRange s g (hrefers g (List.mem_append_left _ hg))
      exact (h.lookup_eq_none_iff hgs).2 (hbefore g hg)
    have hfound : (lib.lookup f title).isSome := by
      rw [Option.isSome_iff_ne_none]
      exact fun hl => hway.not_lacks ((h.lookup_eq_none_iff hfs).1 hl)
    obtain ⟨saved, hsaved⟩ := Option.isSome_iff_exists.1 hfound
    constructor
    · rw [h.lookup_eq hs, hown, Option.none_or, ← hlookup, hsaved, List.findSome?_eq_some_iff]
      exact ⟨before, f, after, hf, hsaved, hnone⟩
    · have hskip : ∀ g ∈ before, (lib.origin g title).map Origin.deeper = none := by
        intro g hg
        have hg' : (lib.origin g title).isSome = (lib.lookup g title).isSome :=
          isSome_originWithin title lib.maxDepth g
        rw [hnone g hg] at hg'
        rw [Option.map_eq_none_iff, ← Option.not_isSome_iff_eq_none, hg']
        simp
      rw [h.origin_eq hs, hown, if_neg (by simp), List.findSome?_eq_some_iff]
      refine ⟨before, f, after, hf, ?_, hskip⟩
      rw [horigin, Option.map_some, Origin.deeper_ofDepth]
      rfl

end Linked

theorem map_some_filter {β γ : Type} (g : β → Option γ) (p : γ → Bool) (l : List β) :
    ((l.filterMap g).filter p).map some = (l.filter fun b => (g b).any p).map g := by
  induction l with
  | nil => rfl
  | cons b l ih =>
    cases hb : g b with
    | none => simpa [hb] using ih
    | some c => by_cases hc : p c <;> simp [hb, hc, ih]

theorem tagged_eq (lib : Library κ) (s : StoreId) (tag : String) :
    ∃ titles : List Title, titles.Pairwise (· < ·) ∧
      (∀ t, t ∈ titles ↔ ∃ note, lib.get s t = some note ∧ tag ∈ note.tags) ∧
      (lib.tagged s tag).map some = titles.map (lib.get s) := by
  refine ⟨(lib.titles s).keys.filter fun t => (lib.get s t).any (·.hasTag tag),
    (lib.titles s).keys_ascending.filter _, fun t => ?_, map_some_filter ..⟩
  rw [List.mem_filter, ← Catalog.contains_iff, contains_titles]
  cases lib.get s t with
  | none => simp
  | some note => simp [Note.hasTag]

/-- A title has a note where it has an origin, exists and is listed, and it is listed under its
origin. The note is that of the store at the end of the first way down, whose length the origin
tells. Titles are listed once each and in order, and so are the notes with a tag. A title is
shadowed where a store and one of its fallbacks both have it. -/
theorem Linked.queries_agree (h : lib.Linked) (hs : s < lib.stores.length) (title : Title) :
    ((lib.get s title).isSome = (lib.origin s title).isSome ∧
      (lib.get s title).isSome = lib.exists s title ∧
      ((lib.get s title).isSome ↔ title ∈ (lib.titles s).keys)) ∧
    (lib.titles s).get? title = lib.origin s title ∧
    ((lib.get s title).isSome ↔ ∃ way last, lib.FirstWay title s way last) ∧
    (∀ way last, lib.FirstWay title s way last →
      lib.get s title = (lib.own? last title).map Saved.note ∧
        lib.origin s title = some (.ofDepth way.length)) ∧
    (lib.titles s).keys.Pairwise (· < ·) ∧
    (∀ tag, ∃ titles : List Title, titles.Pairwise (· < ·) ∧
      (∀ t, t ∈ titles ↔ ∃ note, lib.get s t = some note ∧ tag ∈ note.tags) ∧
      (lib.tagged s tag).map some = titles.map (lib.get s)) ∧
    (lib.isShadowed s title ↔
      (lib.own? s title).isSome ∧ ∃ f ∈ lib.fallbacks s, (lib.get f title).isSome) := by
  have hsome : ∀ t, (lib.get t title).isSome = (lib.origin t title).isSome := by
    intro t
    rw [get, Option.isSome_map]
    exact (isSome_originWithin title lib.maxDepth t).symm
  refine ⟨⟨hsome s, hsome s, ?_⟩, get?_titlesWithin lib.maxDepth s title, ⟨fun hl => ?_, ?_⟩,
    fun way last hway => ?_, (lib.titles s).keys_ascending, tagged_eq lib s, ?_⟩
  · rw [← Catalog.contains_iff, contains_titles]
  · rw [get, Option.isSome_map] at hl
    exact h.exists_firstWay hs hl
  · rintro ⟨way, last, hway⟩
    rw [hsome, (h.answer_of_firstWay hs hway).2]
    rfl
  · obtain ⟨hlookup, horigin⟩ := h.answer_of_firstWay hs hway
    exact ⟨congrArg (Option.map Saved.note) hlookup, horigin⟩
  · simp only [isShadowed, Library.exists, Bool.and_eq_true, List.any_eq_true, hsome]

/-- Two stores share a fallback that holds a note, and one of them holds another note of the same
title. A store above asks first the one that does not. -/
def diamond : Library Unit :=
  ({ stores := [{}, {}, {}, {}] } : Library Unit).run
    [.addFallback 1 0, .addFallback 2 0, .addFallback 3 1, .addFallback 3 2,
      .edit 0 (.add { title := "a", text := "far" }),
      .edit 2 (.add { title := "a", text := "near" })]

theorem linked_diamond : diamond.Linked := by
  have hunlinked : ({ stores := [{}, {}, {}, {}] } : Library Unit).Unlinked := by
    intro s
    match s with
    | 0 | 1 | 2 | 3 | _ + 4 => exact ⟨rfl, rfl⟩
  exact (hunlinked.linked.run (by simp [Operation.IsWithin])).1

theorem queries_agree_diamond :
    diamond.get 3 "a" = some { title := "a", text := "far" } ∧
      diamond.origin 3 "a" = some (.fallback 2) ∧
      (diamond.titles 3).get? "a" = some (.fallback 2) := by
  obtain ⟨-, htitles, -, hanswer, -⟩ := linked_diamond.queries_agree (s := 3) (by decide) "a"
  have hway : diamond.FirstWay "a" 3 [1, 0] 0 := by
    have htop : diamond.fallbacks 3 = [] ++ 1 :: [2] := rfl
    have hside : diamond.fallbacks 1 = [] ++ 0 :: [] := rfl
    exact .onward rfl htop (by simp) (.onward rfl hside (by simp) (.here rfl))
  obtain ⟨hget, horigin⟩ := hanswer [1, 0] 0 hway
  exact ⟨hget, horigin, htitles.trans horigin⟩

end Library

end Notebook
