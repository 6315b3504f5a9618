import Notebook.Live.Tree
import Notebook.Proofs.Catalog
import Notebook.Proofs.Expansion.Total

/-! # The titles that resolve

The catalog of titles holds every title that resolves, with its origin. So the environment of a
store counts all titles that an expansion can transclude.
-/

namespace Notebook

namespace Library

variable {κ : Type} {lib : Library κ}

theorem get?_foldl_insertNew (titles : Catalog Origin) (l : List (String × Origin))
    (title : Title) :
    (l.foldl (fun acc e => acc.insertNew e.1 e.2.deeper) titles).get? title =
      (titles.get? title).or ((Catalog.find title l).map Origin.deeper) := by
  induction l generalizing titles with
  | nil => simp [Catalog.find]
  | cons e l ih =>
    rw [List.foldl_cons, ih, Catalog.get?_insertNew, Option.or_assoc]
    simp only [Catalog.find]
    split <;> simp

theorem get?_mergeTitles (titles below : Catalog Origin) (title : Title) :
    (mergeTitles titles below).get? title =
      (titles.get? title).or ((below.get? title).map Origin.deeper) :=
  get?_foldl_insertNew titles below.entries title

theorem get?_foldl_mergeTitles (below : StoreId → Catalog Origin) (titles : Catalog Origin)
    (l : List StoreId) (title : Title) :
    (l.foldl (fun acc f => mergeTitles acc (below f)) titles).get? title =
      (titles.get? title).or
        (l.findSome? fun f => ((below f).get? title).map Origin.deeper) := by
  induction l generalizing titles with
  | nil => simp
  | cons f l ih =>
    rw [List.foldl_cons, ih, get?_mergeTitles, Option.or_assoc, List.findSome?_cons]
    cases (below f).get? title <;> rfl

/-- The catalog of titles holds the origin of each. -/
theorem get?_titlesWithin (bound : Nat) (s : StoreId) (title : Title) :
    (lib.titlesWithin bound s).get? title = lib.originWithin title bound s := by
  induction bound generalizing s with
  | zero => rfl
  | succ bound ih =>
    have hown : ((((lib.store? s).map Store.notes).getD ∅).map fun _ => Origin.primary).get? title =
        (lib.own? s title).map fun _ => .primary := by
      unfold own?
      cases lib.store? s <;> simp
    simp only [titlesWithin, originWithin, get?_foldl_mergeTitles, hown, ih]
    cases lib.own? s title <;> rfl

theorem isSome_originWithin (title : Title) (bound : Nat) (s : StoreId) :
    (lib.originWithin title bound s).isSome = (lib.lookupWithin title bound s).isSome := by
  induction bound generalizing s with
  | zero => rfl
  | succ bound ih =>
    simp only [originWithin, lookupWithin]
    cases lib.own? s title with
    | some saved => rfl
    | none =>
      rw [Bool.eq_iff_iff]
      simp [List.findSome?_isSome_iff, ih]

theorem contains_titles (lib : Library κ) (s : StoreId) (title : Title) :
    (lib.titles s).contains title = (lib.get s title).isSome := by
  rw [Catalog.contains, titles, get?_titlesWithin, isSome_originWithin, get, Option.isSome_map]
  rfl

theorem env_isCounted (lib : Library κ) (s : StoreId) (store : Store κ) :
    (lib.env s store).IsCounted := by
  refine ⟨(lib.titles s).keys, ?_, fun title h => ?_⟩
  · simp [env, Catalog.keys, Catalog.size]
  · rw [← Catalog.contains_iff, contains_titles]
    exact h

end Library

end Notebook
