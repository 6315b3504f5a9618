import Mathlib.Data.Fintype.EquivFin
import Mathlib.Order.BoundedOrder.Lattice
import Notebook.Proofs.Catalog
import Notebook.Reads

/-! # What is covered by reads

Reads cover titles, and they are ordered by what they cover: nothing is least, all titles are
greatest, and a merge is the join of its parts. A batch makes reads out of date if it has a title
that they cover, so it makes a join out of date if it does so with one of the parts.
-/

namespace Notebook

namespace TitleSet

theorem contains_union (s t : TitleSet) (title : Title) :
    (s.union t).contains title = (s.contains title || t.contains title) := by
  have h : ∀ (l : List Title) (s : TitleSet),
      (l.foldl (fun acc x => acc.insert x ()) s).contains title =
        (s.contains title || l.contains title) := by
    intro l
    induction l with
    | nil => simp
    | cons x l ih =>
      intro s
      rw [List.foldl_cons, ih]
      by_cases hx : title = x <;> simp [Catalog.contains, hx]
  rw [union, h, Bool.eq_iff_iff]
  simp [Catalog.contains_iff]

theorem eq_of_contains {s t : TitleSet} (h : ∀ title, s.contains title ↔ t.contains title) :
    s = t := by
  ext title : 1
  have hiff := h title
  simp only [Catalog.contains] at hiff
  cases hs : s.get? title <;> cases ht : t.get? title <;> simp_all

theorem exists_not_contains (set : TitleSet) : ∃ title, ¬ set.contains title := by
  obtain ⟨title, h⟩ := Infinite.exists_notMem_finset set.keys.toFinset
  exact ⟨title, fun hc => h (List.mem_toFinset.2 (Catalog.contains_iff.1 hc))⟩

end TitleSet

namespace Reads

def Covers : Reads → Title → Prop
  | all, _ => True
  | titles set, t => set.contains t

theorem covers_all (t : Title) : all.Covers t := trivial

theorem not_covers_none (t : Title) : ¬ none.Covers t := by
  simp [none, Covers, Catalog.contains]

theorem covers_title {t u : Title} : (title t).Covers u ↔ u = t := by
  simp only [title, Covers, Catalog.contains, Catalog.get?_insert]
  split <;> simp_all

theorem covers_merge {a b : Reads} {t : Title} :
    (a.merge b).Covers t ↔ a.Covers t ∨ b.Covers t := by
  cases a <;> cases b <;> simp [merge, Covers, TitleSet.contains_union]

theorem eq_of_covers {a b : Reads} (h : ∀ t, a.Covers t ↔ b.Covers t) : a = b := by
  match a, b with
  | all, all => rfl
  | all, titles set =>
    obtain ⟨t, ht⟩ := set.exists_not_contains
    exact absurd ((h t).1 trivial) ht
  | titles set, all =>
    obtain ⟨t, ht⟩ := set.exists_not_contains
    exact absurd ((h t).2 trivial) ht
  | titles s, titles s' => exact congrArg titles (TitleSet.eq_of_contains h)

/-- Reads are ordered by what they cover. -/
instance : SemilatticeSup Reads where
  le a b := ∀ t, a.Covers t → b.Covers t
  le_refl _ _ h := h
  le_trans _ _ _ hab hbc t h := hbc t (hab t h)
  le_antisymm _ _ hab hba := eq_of_covers fun t => ⟨hab t, hba t⟩
  sup := merge
  le_sup_left _ _ _ h := covers_merge.2 (.inl h)
  le_sup_right _ _ _ h := covers_merge.2 (.inr h)
  sup_le _ _ _ hac hbc t h := (covers_merge.1 h).elim (hac t) (hbc t)

instance : BoundedOrder Reads where
  bot := none
  bot_le _ t h := absurd h (not_covers_none t)
  top := all
  le_top _ t _ := covers_all t

theorem le_merge_left (a b : Reads) : a ≤ a.merge b := le_sup_left

section Batches

variable {a b : Reads} {batch : Batch}

theorem hasChanged_all_iff : all.hasChanged batch ↔ batch ≠ ∅ := by
  simp [hasChanged, ← Catalog.isEmpty_iff]

theorem hasChanged_titles (set : TitleSet) (batch : Batch) :
    (titles set).hasChanged batch = set.keys.any batch.contains ∧
      (titles set).hasChanged batch = batch.titles.any set.contains := by
  have hcomm := Catalog.any_contains_comm set batch
  simp only [hasChanged]
  split
  · exact ⟨rfl, hcomm⟩
  · exact ⟨hcomm.symm, rfl⟩

theorem hasChanged_iff : a.hasChanged batch ↔ ∃ t, batch.contains t ∧ a.Covers t := by
  cases a with
  | all => simp only [hasChanged_all_iff, Covers, and_true, Catalog.exists_contains_iff]
  | titles set =>
    rw [(hasChanged_titles set batch).2, List.any_eq_true]
    simp only [Batch.titles, ← Catalog.contains_iff, Covers]

theorem hasChanged_iff_all_or_common :
    a.hasChanged batch ↔
      a = all ∧ batch ≠ ∅ ∨
        ∃ set, a = titles set ∧ ∃ t, set.contains t ∧ batch.contains t := by
  cases a with
  | all => simp [hasChanged_all_iff]
  | titles set => simp [hasChanged_iff, Covers, and_comm]

theorem hasChanged_merge (a b : Reads) (batch : Batch) :
    (a.merge b).hasChanged batch = (a.hasChanged batch || b.hasChanged batch) := by
  rw [Bool.eq_iff_iff, Bool.or_eq_true]
  simp only [hasChanged_iff, covers_merge, and_or_left, exists_or]

theorem hasChanged_mono {batch' : Batch} (hab : a ≤ b)
    (hbatch : ∀ t, batch.contains t → batch'.contains t) (h : a.hasChanged batch) :
    b.hasChanged batch' := by
  obtain ⟨t, ht, hcovers⟩ := hasChanged_iff.1 h
  exact hasChanged_iff.2 ⟨t, hbatch t ht, hab t hcovers⟩

theorem hasChanged_eq_false_of_le (hab : a ≤ b) (h : b.hasChanged batch = false) :
    a.hasChanged batch = false := by
  rw [Bool.eq_false_iff] at h ⊢
  exact fun ha => h (hasChanged_mono hab (fun _ ht => ht) ha)

end Batches

/-- Reads under merging are a semilattice with nothing at the bottom and all titles at the top, and
the test against a batch keeps joins and the order of both sides. -/
theorem merge_join_hasChanged (a b c : Reads) (batch : Batch) :
    (a.hasChanged batch ↔
      a = all ∧ batch ≠ ∅ ∨
        ∃ set, a = titles set ∧ ∃ t, set.contains t ∧ batch.contains t) ∧
    (∀ set, (titles set).hasChanged batch = set.keys.any batch.contains ∧
      (titles set).hasChanged batch = batch.titles.any set.contains) ∧
    (a.merge b).merge c = a.merge (b.merge c) ∧
    a.merge b = b.merge a ∧
    a.merge a = a ∧
    (none.merge a = a ∧ a.merge none = a) ∧
    (all.merge a = all ∧ a.merge all = all) ∧
    (a.merge b).hasChanged batch = (a.hasChanged batch || b.hasChanged batch) ∧
    (a ≤ b ↔ a.merge b = b) ∧
    ∀ batch' : Batch, a ≤ b → (∀ t, batch.contains t → batch'.contains t) →
      a.hasChanged batch → b.hasChanged batch' := by
  refine ⟨hasChanged_iff_all_or_common, fun set => hasChanged_titles set batch, ?_⟩
  refine ⟨sup_assoc a b c, sup_comm a b, sup_idem a, ⟨bot_sup_eq a, sup_bot_eq a⟩, ?_⟩
  refine ⟨⟨top_sup_eq a, sup_top_eq a⟩, hasChanged_merge a b batch, sup_eq_right.symm, ?_⟩
  exact fun batch' => hasChanged_mono

theorem merge_join_hasChanged_note :
    let batch := Batch.record ∅ "Note" .modified
    let later := batch.record "Clock" .deleted
    title "Note" ≤ ofList ["Note", "Page"] ∧ (∀ t, batch.contains t → later.contains t) ∧
      (title "Note").hasChanged batch ∧ (ofList ["Note", "Page"]).hasChanged later ∧
      (title "Note").merge (ofList ["Note", "Page"]) = ofList ["Note", "Page"] := by
  intro batch later
  have hle : title "Note" ≤ ofList ["Note", "Page"] := fun t h => by
    obtain rfl := covers_title.1 h
    rfl
  have hlater : ∀ t, batch.contains t → later.contains t := fun t h => by
    simp_all [batch, later, Catalog.contains, Batch.record]
  have hnote : (title "Note").hasChanged batch := rfl
  obtain ⟨-, -, -, -, -, -, -, -, hmerge, hmono⟩ :=
    merge_join_hasChanged (title "Note") (ofList ["Note", "Page"]) all batch
  exact ⟨hle, hlater, hnote, hmono later hle hlater hnote, hmerge.1 hle⟩

end Reads

end Notebook
