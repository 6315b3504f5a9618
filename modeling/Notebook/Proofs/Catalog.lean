import Notebook.Catalog

/-! # Names of catalogs, and maps over their values

A catalog without names is empty, and names that two catalogs share are found from either side.
A map over the values of a catalog keeps its names, so it commutes with every other operation.
-/

namespace Notebook.Catalog

variable {α β γ σ : Type u}

theorem eq_of_entries {c d : Catalog α} (h : c.entries = d.entries) : c = d := by
  cases c
  cases d
  cases h
  rfl

theorem isEmpty_iff {c : Catalog α} : c.isEmpty ↔ c = ∅ :=
  ⟨fun h => eq_of_entries (List.isEmpty_iff.1 h), fun h => h ▸ rfl⟩

theorem exists_contains_iff {c : Catalog α} : (∃ name, c.contains name) ↔ c ≠ ∅ := by
  constructor
  · rintro ⟨name, h⟩ rfl
    cases h
  · intro h
    obtain ⟨e, he⟩ := List.exists_mem_of_ne_nil c.entries fun hnil => h (eq_of_entries hnil)
    exact ⟨e.1, contains_iff.2 (List.mem_map_of_mem he)⟩

theorem any_contains_comm (c : Catalog α) (d : Catalog β) :
    c.keys.any d.contains = d.keys.any c.contains := by
  rw [Bool.eq_iff_iff]
  simp only [List.any_eq_true, ← contains_iff, and_comm]

theorem find_map (f : α → β) (name : String) (l : List (String × α)) :
    find name (l.map fun e => (e.1, f e.2)) = (find name l).map f := by
  induction l with
  | nil => rfl
  | cons head rest ih =>
    simp only [List.map_cons, find]
    split
    · rfl
    · exact ih

@[simp] theorem get?_map (f : α → β) (c : Catalog α) (name : String) :
    (c.map f).get? name = (c.get? name).map f :=
  find_map f name c.entries

@[simp] theorem contains_map (f : α → β) (c : Catalog α) (name : String) :
    (c.map f).contains name = c.contains name := by
  simp [contains]

theorem map_insert (f : α → β) (c : Catalog α) (name : String) (value : α) :
    (c.insert name value).map f = (c.map f).insert name (f value) := by
  ext other
  simp only [get?_map, get?_insert]
  split <;> rfl

theorem get?_insertNew (c : Catalog α) (name other : String) (value : α) :
    (c.insertNew name value).get? other =
      (c.get? other).or (if other = name then some value else none) := by
  unfold insertNew contains
  by_cases h : other = name
  · subst h
    cases hc : c.get? other <;> simp [hc]
  · split <;> simp [h]

theorem map_map (f : α → β) (g : β → γ) (c : Catalog α) :
    (c.map f).map g = c.map fun a => g (f a) := by
  ext name
  simp

theorem values_map (f : α → β) (c : Catalog α) : (c.map f).values = c.values.map f := by
  simp [values, map]

/-- The values that are passed on while a state is threaded through, and the last state. -/
theorem mapAccumEntries_map {δ : Type u} {F : α → σ → β × σ} {G : γ → σ → δ × σ} {f : α → γ}
    {g : β → δ} (h : ∀ a s, G (f a) s = (g (F a s).1, (F a s).2)) (l : List (String × α)) (s : σ) :
    mapAccumEntries G (l.map fun e => (e.1, f e.2)) s =
      ((mapAccumEntries F l s).1.map fun e => (e.1, g e.2), (mapAccumEntries F l s).2) := by
  induction l generalizing s with
  | nil => rfl
  | cons head rest ih => simp [mapAccumEntries, h, ih]

theorem find_mapAccumEntries {F : α → σ → β × σ} {name : String} {l : List (String × α)}
    {value : α} (h : find name l = some value) (s : σ) :
    ∃ s', find name (mapAccumEntries F l s).1 = some (F value s').1 := by
  induction l generalizing s with
  | nil => simp [find] at h
  | cons head rest ih =>
    simp only [find] at h
    simp only [mapAccumEntries, find]
    split at h
    · next heq =>
      cases h
      exact ⟨s, if_pos heq⟩
    · next hne =>
      rw [if_neg hne]
      exact ih h _

theorem get?_mapAccum {F : α → σ → β × σ} {c : Catalog α} {name : String} {value : α}
    (h : c.get? name = some value) (s : σ) :
    ∃ s', (c.mapAccum F s).1.get? name = some (F value s').1 :=
  find_mapAccumEntries h s

theorem get?_mapAccum_of_none {F : α → σ → β × σ} {c : Catalog α} {name : String}
    (h : c.get? name = none) (s : σ) : (c.mapAccum F s).1.get? name = none := by
  have hkeys : (c.mapAccum F s).1.keys = c.keys := mapAccumEntries_fst F c.entries s
  have hc : ¬ c.contains name := by simp [contains, h]
  rw [contains_iff, ← hkeys, ← contains_iff] at hc
  simpa [contains] using hc

theorem mapAccum_map {δ : Type u} {F : α → σ → β × σ} {G : γ → σ → δ × σ} {f : α → γ}
    {g : β → δ} (h : ∀ a s, G (f a) s = (g (F a s).1, (F a s).2)) (c : Catalog α) (s : σ) :
    ((c.map f).mapAccum G s).1 = ((c.mapAccum F s).1).map g :=
  eq_of_entries (congrArg Prod.fst (mapAccumEntries_map h c.entries s))

end Notebook.Catalog
