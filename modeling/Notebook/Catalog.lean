/-! # Catalogs

A catalog is a finite map from names to values, listed in ascending order of names. Two
catalogs with the same values under the same names are equal.
-/

namespace Notebook

/-- Names are ordered by code point. -/
structure Catalog (α : Type u) where
  entries : List (String × α)
  ascending : entries.Pairwise fun a b => a.1 < b.1
  deriving DecidableEq, Repr

namespace Catalog

variable {α β : Type u}

def find (name : String) : List (String × α) → Option α
  | [] => none
  | (key, value) :: rest => if name = key then some value else find name rest

def place (name : String) (value : α) : List (String × α) → List (String × α)
  | [] => [(name, value)]
  | (key, old) :: rest =>
    if name < key then (name, value) :: (key, old) :: rest
    else if name = key then (name, value) :: rest
    else (key, old) :: place name value rest

theorem mem_place {name : String} {value : α} {l : List (String × α)} {e : String × α}
    (h : e ∈ place name value l) : e = (name, value) ∨ e ∈ l := by
  induction l with
  | nil => simpa [place] using h
  | cons head rest ih =>
    simp only [place] at h
    split at h
    · simpa using h
    · split at h
      · simp only [List.mem_cons] at h ⊢
        exact h.imp_right .inr
      · simp only [List.mem_cons] at h ⊢
        rcases h with h | h
        · exact .inr (.inl h)
        · exact (ih h).imp_right .inr

theorem place_ascending (name : String) (value : α) {l : List (String × α)}
    (h : l.Pairwise fun a b => a.1 < b.1) :
    (place name value l).Pairwise fun a b => a.1 < b.1 := by
  induction l with
  | nil => simp [place]
  | cons head rest ih =>
    obtain ⟨hhead, hrest⟩ := List.pairwise_cons.1 h
    simp only [place]
    split
    · next hlt =>
      refine List.pairwise_cons.2 ⟨fun e he => ?_, h⟩
      rcases List.mem_cons.1 he with rfl | he
      · exact hlt
      · exact String.lt_trans hlt (hhead e he)
    · split
      · next heq => exact List.pairwise_cons.2 ⟨fun e he => heq ▸ hhead e he, hrest⟩
      · next hlt hne =>
        refine List.pairwise_cons.2 ⟨fun e he => ?_, ih hrest⟩
        rcases mem_place he with rfl | he
        · exact String.not_le.1 fun hle => hne (String.le_antisymm hle (String.not_lt.1 hlt))
        · exact hhead e he

def empty : Catalog α := ⟨[], .nil⟩

instance : EmptyCollection (Catalog α) := ⟨empty⟩

instance : Inhabited (Catalog α) := ⟨empty⟩

def get? (c : Catalog α) (name : String) : Option α :=
  find name c.entries

def contains (c : Catalog α) (name : String) : Bool :=
  (c.get? name).isSome

def insert (c : Catalog α) (name : String) (value : α) : Catalog α :=
  ⟨place name value c.entries, place_ascending name value c.ascending⟩

def erase (c : Catalog α) (name : String) : Catalog α :=
  ⟨c.entries.filter fun e => e.1 ≠ name, c.ascending.filter _⟩

/-- A later entry replaces an earlier one of the same name. -/
def ofList (l : List (String × α)) : Catalog α :=
  l.foldl (fun c e => c.insert e.1 e.2) ∅

def keys (c : Catalog α) : List String :=
  c.entries.map Prod.fst

def values (c : Catalog α) : List α :=
  c.entries.map Prod.snd

def size (c : Catalog α) : Nat :=
  c.entries.length

def isEmpty (c : Catalog α) : Bool :=
  c.entries.isEmpty

def insertNew (c : Catalog α) (name : String) (value : α) : Catalog α :=
  if c.contains name then c else c.insert name value

def map (f : α → β) (c : Catalog α) : Catalog β :=
  ⟨c.entries.map fun e => (e.1, f e.2), List.pairwise_map.2 c.ascending⟩

/-- Maps the values in ascending order of names while a state is passed along. -/
def mapAccumEntries (f : α → σ → β × σ) : List (String × α) → σ → List (String × β) × σ
  | [], s => ([], s)
  | (name, value) :: rest, s =>
    let head := f value s
    let tail := mapAccumEntries f rest head.2
    ((name, head.1) :: tail.1, tail.2)

theorem mapAccumEntries_fst (f : α → σ → β × σ) (l : List (String × α)) (s : σ) :
    (mapAccumEntries f l s).1.map Prod.fst = l.map Prod.fst := by
  induction l generalizing s with
  | nil => rfl
  | cons head rest ih => simp [mapAccumEntries, ih]

def mapAccum (f : α → σ → β × σ) (c : Catalog α) (s : σ) : Catalog β × σ :=
  (⟨(mapAccumEntries f c.entries s).1, by
    have h := List.pairwise_map.2 c.ascending
    rw [← mapAccumEntries_fst f c.entries s] at h
    exact List.pairwise_map.1 h⟩,
   (mapAccumEntries f c.entries s).2)

theorem find_eq_none_of_lt {name : String} {l : List (String × α)}
    (h : ∀ e ∈ l, name < e.1) : find name l = none := by
  induction l with
  | nil => rfl
  | cons head rest ih =>
    have hne : name ≠ head.1 := fun heq =>
      String.lt_irrefl _ (heq ▸ h head (List.mem_cons_self ..))
    simp [find, hne, ih fun e he => h e (List.mem_cons_of_mem _ he)]

theorem find_place (name other : String) (value : α) (l : List (String × α)) :
    find other (place name value l) = if other = name then some value else find other l := by
  induction l with
  | nil => simp [place, find]
  | cons head rest ih =>
    simp only [place]
    split
    · simp [find]
    · split
      · next heq => subst heq; by_cases h : other = head.1 <;> simp [find, h]
      · next hne =>
        by_cases h : other = head.1
        · have : other ≠ name := fun h' => hne (h' ▸ h)
          simp [find, h]
          grind
        · simp [find, h, ih]

@[simp] theorem get?_empty (name : String) : (∅ : Catalog α).get? name = none := rfl

@[simp] theorem get?_insert (c : Catalog α) (name other : String) (value : α) :
    (c.insert name value).get? other = if other = name then some value else c.get? other :=
  find_place name other value c.entries

theorem find_filter (p : String → Bool) (name : String) (l : List (String × α)) :
    find name (l.filter fun e => p e.1) = if p name then find name l else none := by
  induction l with
  | nil => simp [find]
  | cons head rest ih =>
    by_cases hp : p head.1 <;> by_cases h : name = head.1 <;> grind [find]

@[simp] theorem get?_erase (c : Catalog α) (name other : String) :
    (c.erase name).get? other = if other = name then none else c.get? other := by
  have := find_filter (fun key => decide (key ≠ name)) other c.entries
  simp only [get?, erase, this]
  by_cases h : other = name <;> simp [h]

theorem find_eq_some_of_mem {l : List (String × α)} {e : String × α}
    (hl : l.Pairwise fun a b => a.1 < b.1) (h : e ∈ l) : find e.1 l = some e.2 := by
  induction l with
  | nil => simp at h
  | cons head rest ih =>
    obtain ⟨hhead, hrest⟩ := List.pairwise_cons.1 hl
    rcases List.mem_cons.1 h with rfl | h
    · simp [find]
    · have hne : e.1 ≠ head.1 := fun heq => String.lt_irrefl _ (heq ▸ hhead e h)
      simp [find, hne, ih hrest h]

theorem mem_of_find {name : String} {value : α} {l : List (String × α)}
    (h : find name l = some value) : (name, value) ∈ l := by
  induction l with
  | nil => simp [find] at h
  | cons head rest ih =>
    simp only [find] at h
    split at h
    · next heq =>
      cases h
      exact heq ▸ List.mem_cons_self ..
    · exact List.mem_cons_of_mem _ (ih h)

theorem mem_entries {c : Catalog α} {e : String × α} : e ∈ c.entries ↔ c.get? e.1 = some e.2 :=
  ⟨find_eq_some_of_mem c.ascending, mem_of_find⟩

theorem contains_iff {c : Catalog α} {name : String} : c.contains name = true ↔ name ∈ c.keys := by
  simp only [contains, Option.isSome_iff_exists, keys, List.mem_map]
  constructor
  · rintro ⟨value, h⟩
    exact ⟨_, mem_of_find h, rfl⟩
  · rintro ⟨e, he, rfl⟩
    exact ⟨_, mem_entries.1 he⟩

theorem keys_ascending (c : Catalog α) : c.keys.Pairwise (· < ·) :=
  List.pairwise_map.2 c.ascending

theorem entries_eq_of_find {l m : List (String × α)} (hl : l.Pairwise fun a b => a.1 < b.1)
    (hm : m.Pairwise fun a b => a.1 < b.1) (h : ∀ name, find name l = find name m) : l = m := by
  induction l generalizing m with
  | nil =>
    cases m with
    | nil => rfl
    | cons e _ => simpa [find] using h e.1
  | cons e l ih =>
    obtain ⟨he, hl'⟩ := List.pairwise_cons.1 hl
    cases m with
    | nil => simpa [find] using h e.1
    | cons f m =>
      obtain ⟨hf, hm'⟩ := List.pairwise_cons.1 hm
      have hef : e.1 = f.1 := by
        refine String.le_antisymm (String.not_lt.1 fun hlt => ?_) (String.not_lt.1 fun hlt => ?_)
        · have := h f.1
          rw [find_eq_none_of_lt (l := e :: l)] at this
          · simp [find] at this
          · intro x hx
            rcases List.mem_cons.1 hx with rfl | hx
            · exact hlt
            · exact String.lt_trans hlt (he x hx)
        · have := h e.1
          rw [find_eq_none_of_lt (l := f :: m)] at this
          · simp [find] at this
          · intro x hx
            rcases List.mem_cons.1 hx with rfl | hx
            · exact hlt
            · exact String.lt_trans hlt (hf x hx)
      have hval : e.2 = f.2 := by simpa [find, hef] using h e.1
      have htail : l = m := ih hl' hm' fun name => by
        by_cases hn : name = e.1
        · rw [find_eq_none_of_lt (hn ▸ he), find_eq_none_of_lt (hn ▸ hef ▸ hf)]
        · simpa [find, hn, hef ▸ hn] using h name
      rw [htail, Prod.ext hef hval]

@[ext] theorem ext {c d : Catalog α} (h : ∀ name, c.get? name = d.get? name) : c = d := by
  obtain ⟨l, hl⟩ := c
  obtain ⟨m, hm⟩ := d
  obtain rfl := entries_eq_of_find hl hm h
  rfl

end Catalog

end Notebook
