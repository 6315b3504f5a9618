import Mathlib.Data.List.Induction
import Notebook.Proofs.Catalog
import Notebook.Signature

/-! # Where supplied values go

Values are placed from left to right, each with regard to those before it. A value that finds no
place is refused.
-/

namespace Notebook

variable {κ : Type}

/-- A supplied value and the name that it goes to. -/
structure Placed (κ : Type) where
  name : String
  supplied : Supplied κ

namespace Placed

def Given (placed : List (Placed κ)) (name : String) : Prop :=
  ∃ p ∈ placed, p.name = name

def values (placed : List (Placed κ)) (name : String) : List (Argument κ) :=
  (placed.filter fun p => p.name = name).map fun p => p.supplied.value

def last? (placed : List (Placed κ)) : Option String :=
  (placed.filterMap fun p => p.supplied.name).getLast?

end Placed

namespace Signature

open Placed

/-- A value goes to its own name. Without one it goes to the most recent name, if the signature
cascades, or else to the first positional parameter without a value. -/
inductive Goes (signature : Signature) (placed : List (Placed κ)) (s : Supplied κ) :
    String → Prop
  | named {spec : ParamSpec} (hspec : spec ∈ signature.params) (hs : s.name = some spec.name) :
      Goes signature placed s spec.name
  | cascaded {name : String} (hs : s.name = none) (hc : signature.cascade)
      (hlast : last? placed = some name) : Goes signature placed s name
  | positional {before after : List ParamSpec} {spec : ParamSpec} (hs : s.name = none)
      (hc : signature.cascade → last? placed = none)
      (hparams : signature.params = before ++ spec :: after) (hspec : spec.positional)
      (hfree : ¬ Given placed spec.name)
      (hbefore : ∀ other ∈ before, other.positional → Given placed other.name) :
      Goes signature placed s spec.name

/-- There is no parameter of this name, or no place for a value without a name. -/
inductive Refuses (signature : Signature) (callee : String) (shown : Argument κ → String)
    (placed : List (Placed κ)) (s : Supplied κ) : RenderError → Prop
  | undeclared {name : String} (hs : s.name = some name)
      (hparams : ∀ spec ∈ signature.params, spec.name ≠ name) :
      Refuses signature callee shown placed s (.unknownParameter callee name)
  | unplaced (hs : s.name = none) (hc : signature.cascade → last? placed = none)
      (hfull : ∀ spec ∈ signature.params, spec.positional → Given placed spec.name) :
      Refuses signature callee shown placed s (.unexpectedPositional callee (shown s.value))

/-- The supplied values are placed one after the other, behind those that are placed already. -/
inductive Places (signature : Signature) :
    List (Placed κ) → List (Supplied κ) → List (Placed κ) → Prop
  | nil {placed : List (Placed κ)} : Places signature placed [] placed
  | cons {placed all : List (Placed κ)} {s : Supplied κ} {rest : List (Supplied κ)}
      {name : String} (h : signature.Goes placed s name)
      (hrest : Places signature (placed ++ [⟨name, s⟩]) rest all) :
      Places signature placed (s :: rest) all

end Signature

namespace Placed

def gathered (placed : List (Placed κ)) : Binding κ :=
  placed.foldl (fun b p => b.add p.name p.supplied.value) ∅

theorem gathered_concat (placed : List (Placed κ)) (p : Placed κ) :
    gathered (placed ++ [p]) = (gathered placed).add p.name p.supplied.value := by
  simp [gathered]

theorem last?_concat (placed : List (Placed κ)) (p : Placed κ) :
    last? (placed ++ [p]) = p.supplied.name.or (last? placed) := by
  cases h : p.supplied.name <;> simp [last?, h]

theorem values_concat (placed : List (Placed κ)) (p : Placed κ) (name : String) :
    values (placed ++ [p]) name =
      values placed name ++ if p.name = name then [p.supplied.value] else [] := by
  by_cases h : p.name = name <;> simp [values, h]

theorem values_eq_nil_iff {placed : List (Placed κ)} {name : String} :
    values placed name = [] ↔ ¬ Given placed name := by
  simp [values, Given]

theorem get?_gathered (placed : List (Placed κ)) (name : String) :
    (gathered placed).get? name =
      if values placed name = [] then none else some (values placed name) := by
  induction placed using List.reverseRecOn with
  | nil => rfl
  | append_singleton placed p ih =>
    rw [gathered_concat, Binding.add, Catalog.get?_insert, values_concat]
    by_cases h : name = p.name
    · subst h
      rw [if_pos rfl, if_pos rfl, Binding.valuesOf, ih]
      split <;> simp_all
    · rw [if_neg h, if_neg (Ne.symm h), List.append_nil, ih]

theorem contains_gathered {placed : List (Placed κ)} {name : String} :
    (gathered placed).contains name ↔ Given placed name := by
  rw [Catalog.contains, get?_gathered]
  split
  · next h => simpa using values_eq_nil_iff.1 h
  · next h => simpa using not_not.1 (mt values_eq_nil_iff.2 h)

end Placed

namespace Signature

open Placed

variable {signature : Signature} {callee : String} {shown : Argument κ → String}
  {placed : List (Placed κ)} {s : Supplied κ} {name : String} {e : RenderError}

theorem isSome_find? : (signature.find? name).isSome ↔ ∃ spec ∈ signature.params,
    spec.name = name := by
  simp [find?]

theorem freeSlot?_eq_some_iff : signature.freeSlot? (gathered placed) = some name ↔
    ∃ before spec after, signature.params = before ++ spec :: after ∧ spec.positional ∧
      ¬ Given placed spec.name ∧
      (∀ other ∈ before, other.positional → Given placed other.name) ∧ spec.name = name := by
  simp only [freeSlot?, Option.map_eq_some_iff, List.find?_eq_some_iff_append, Bool.and_eq_true,
    Bool.not_eq_true', ← Bool.not_eq_true, contains_gathered, not_and, not_not]
  constructor
  · rintro ⟨spec, ⟨⟨hspec, hfree⟩, before, after, hparams, hbefore⟩, hname⟩
    exact ⟨before, spec, after, hparams, hspec, hfree, hbefore, hname⟩
  · rintro ⟨before, spec, after, hparams, hspec, hfree, hbefore, hname⟩
    exact ⟨spec, ⟨⟨hspec, hfree⟩, before, after, hparams, hbefore⟩, hname⟩

theorem freeSlot?_eq_none_iff : signature.freeSlot? (gathered placed) = none ↔
    ∀ spec ∈ signature.params, spec.positional → Given placed spec.name := by
  simp [freeSlot?, contains_gathered]

theorem nameFor_of_name (b : Binding κ) (last : Option String) (hs : s.name = some name) :
    signature.nameFor callee shown last b s =
      if (signature.find? name).isSome then .ok name
      else .error (.unknownParameter callee name) := by
  simp only [nameFor, hs]

theorem nameFor_of_cascade (b : Binding κ) (hs : s.name = none) (hc : signature.cascade) :
    signature.nameFor callee shown (some name) b s = .ok name := by
  simp only [nameFor, hs, hc, if_true]

theorem nameFor_of_slot {b : Binding κ} {last : Option String} (hs : s.name = none)
    (hc : signature.cascade → last = none) :
    signature.nameFor callee shown last b s =
      match signature.freeSlot? b with
      | some name => .ok name
      | none => .error (.unexpectedPositional callee (shown s.value)) := by
  have hlast : (if signature.cascade then last else none) = none := by
    split
    · next h => exact hc h
    · rfl
  cases hslot : signature.freeSlot? b <;> simp only [nameFor, hs, hlast, hslot]

theorem supplied_cases (signature : Signature) (placed : List (Placed κ)) (s : Supplied κ) :
    (∃ name, s.name = some name) ∨
      (s.name = none ∧ signature.cascade ∧ ∃ name, last? placed = some name) ∨
        (s.name = none ∧ (signature.cascade → last? placed = none)) := by
  cases hs : s.name with
  | some name => exact .inl ⟨name, rfl⟩
  | none =>
    cases hlast : last? placed with
    | some name =>
      by_cases hc : signature.cascade
      · exact .inr (.inl ⟨rfl, hc, name, rfl⟩)
      · exact .inr (.inr ⟨rfl, fun h => absurd h hc⟩)
    | none => exact .inr (.inr ⟨rfl, fun _ => rfl⟩)

theorem nameFor_eq_ok_iff :
    signature.nameFor callee shown (last? placed) (gathered placed) s = .ok name ↔
      signature.Goes placed s name := by
  constructor
  · intro h
    obtain ⟨own, hs⟩ | ⟨hs, hc, recent, hlast⟩ | ⟨hs, hc⟩ := supplied_cases signature placed s
    · rw [nameFor_of_name _ _ hs] at h
      split at h
      · next hfind =>
        obtain ⟨spec, hspec, rfl⟩ := isSome_find?.1 hfind
        cases h
        exact .named hspec hs
      · cases h
    · rw [hlast, nameFor_of_cascade _ hs hc] at h
      cases h
      exact .cascaded hs hc hlast
    · rw [nameFor_of_slot hs hc] at h
      split at h
      · next free hslot =>
        cases h
        obtain ⟨before, spec, after, hparams, hspec, hfree, hbefore, rfl⟩ :=
          freeSlot?_eq_some_iff.1 hslot
        exact .positional hs hc hparams hspec hfree hbefore
      · cases h
  · intro h
    cases h with
    | named hspec hs => rw [nameFor_of_name _ _ hs, if_pos (isSome_find?.2 ⟨_, hspec, rfl⟩)]
    | cascaded hs hc hlast => rw [hlast, nameFor_of_cascade _ hs hc]
    | positional hs hc hparams hspec hfree hbefore =>
      rw [nameFor_of_slot hs hc,
        freeSlot?_eq_some_iff.2 ⟨_, _, _, hparams, hspec, hfree, hbefore, rfl⟩]

theorem nameFor_eq_error_iff :
    signature.nameFor callee shown (last? placed) (gathered placed) s = .error e ↔
      signature.Refuses callee shown placed s e := by
  constructor
  · intro h
    obtain ⟨own, hs⟩ | ⟨hs, hc, recent, hlast⟩ | ⟨hs, hc⟩ := supplied_cases signature placed s
    · rw [nameFor_of_name _ _ hs] at h
      split at h
      · cases h
      · next hfind =>
        cases h
        refine .undeclared hs fun spec hspec hname => hfind ?_
        exact isSome_find?.2 ⟨spec, hspec, hname⟩
    · rw [hlast, nameFor_of_cascade _ hs hc] at h
      cases h
    · rw [nameFor_of_slot hs hc] at h
      split at h
      · cases h
      · next hfull =>
        cases h
        exact .unplaced hs hc (freeSlot?_eq_none_iff.1 hfull)
  · intro h
    cases h with
    | undeclared hs hparams =>
      rw [nameFor_of_name _ _ hs, if_neg]
      intro hfind
      obtain ⟨spec, hspec, hname⟩ := isSome_find?.1 hfind
      exact hparams spec hspec hname
    | unplaced hs hc hfull => rw [nameFor_of_slot hs hc, freeSlot?_eq_none_iff.2 hfull]

theorem bindSupplied_cons (signature : Signature) (callee : String) (shown : Argument κ → String)
    (placed : List (Placed κ)) (s : Supplied κ) (rest : List (Supplied κ)) :
    signature.bindSupplied callee shown (last? placed) (gathered placed) (s :: rest) =
      signature.nameFor callee shown (last? placed) (gathered placed) s >>= fun name =>
        signature.bindSupplied callee shown (last? (placed ++ [⟨name, s⟩]))
          (gathered (placed ++ [⟨name, s⟩])) rest := by
  simp only [bindSupplied, last?_concat, gathered_concat]

theorem bindSupplied_of_goes {rest : List (Supplied κ)} (h : signature.Goes placed s name) :
    signature.bindSupplied callee shown (last? placed) (gathered placed) (s :: rest) =
      signature.bindSupplied callee shown (last? (placed ++ [⟨name, s⟩]))
        (gathered (placed ++ [⟨name, s⟩])) rest := by
  rw [bindSupplied_cons, nameFor_eq_ok_iff.2 h]
  rfl

theorem bindSupplied_of_refuses {rest : List (Supplied κ)}
    (h : signature.Refuses callee shown placed s e) :
    signature.bindSupplied callee shown (last? placed) (gathered placed) (s :: rest) =
      .error e := by
  rw [bindSupplied_cons, nameFor_eq_error_iff.2 h]
  rfl

theorem goes_or_refuses (signature : Signature) (callee : String) (shown : Argument κ → String)
    (placed : List (Placed κ)) (s : Supplied κ) :
    (∃ name, signature.Goes placed s name) ∨ ∃ e, signature.Refuses callee shown placed s e := by
  cases h : signature.nameFor callee shown (last? placed) (gathered placed) s with
  | ok name => exact .inl ⟨name, nameFor_eq_ok_iff.1 h⟩
  | error e => exact .inr ⟨e, nameFor_eq_error_iff.1 h⟩

theorem Places.bindSupplied_append {l rest : List (Supplied κ)} {all : List (Placed κ)}
    (h : Places signature placed l all) :
    signature.bindSupplied callee shown (last? placed) (gathered placed) (l ++ rest) =
      signature.bindSupplied callee shown (last? all) (gathered all) rest := by
  induction h with
  | nil => rfl
  | cons h hrest ih => rw [List.cons_append, bindSupplied_of_goes h, ih]

/-- Either all values can be placed, or one is refused after those before it have been placed. -/
theorem places_or_refuses (signature : Signature) (callee : String) (shown : Argument κ → String)
    (placed : List (Placed κ)) (l : List (Supplied κ)) :
    (∃ all, Places signature placed l all) ∨
      ∃ before s rest all e, l = before ++ s :: rest ∧ Places signature placed before all ∧
        signature.Refuses callee shown all s e := by
  induction l generalizing placed with
  | nil => exact .inl ⟨placed, .nil⟩
  | cons s rest ih =>
    obtain ⟨name, h⟩ | ⟨e, h⟩ := goes_or_refuses signature callee shown placed s
    · obtain ⟨all, hrest⟩ | ⟨before, s', rest', all, e, rfl, hbefore, hs'⟩ :=
        ih (placed ++ [⟨name, s⟩])
      · exact .inl ⟨all, .cons h hrest⟩
      · exact .inr ⟨s :: before, s', rest', all, e, rfl, .cons h hbefore, hs'⟩
    · exact .inr ⟨[], s, rest, placed, e, rfl, .nil, h⟩

theorem bindSupplied_of_places {l : List (Supplied κ)} {all : List (Placed κ)}
    (h : Places signature placed l all) :
    signature.bindSupplied callee shown (last? placed) (gathered placed) l =
      .ok (gathered all) := by
  have happend : signature.bindSupplied callee shown (last? placed) (gathered placed) (l ++ []) =
      signature.bindSupplied callee shown (last? all) (gathered all) [] := h.bindSupplied_append
  rwa [List.append_nil] at happend

theorem bindSupplied_of_places_refuses {before rest : List (Supplied κ)} {all : List (Placed κ)}
    (h : Places signature placed before all) (hs : signature.Refuses callee shown all s e) :
    signature.bindSupplied callee shown (last? placed) (gathered placed) (before ++ s :: rest) =
      .error e := by
  rw [h.bindSupplied_append, bindSupplied_of_refuses hs]

theorem Places.map_supplied {l : List (Supplied κ)} {all : List (Placed κ)}
    (h : Places signature placed l all) :
    all.map Placed.supplied = placed.map Placed.supplied ++ l := by
  induction h with
  | nil => rw [List.append_nil]
  | cons h hrest ih => simp [ih]

/-- A name that is written with a value is the name that the value goes to. -/
structure Declared (signature : Signature) (p : Placed κ) : Prop where
  own : ∀ name, p.supplied.name = some name → name = p.name
  mem : ∃ spec ∈ signature.params, spec.name = p.name

theorem exists_of_last? (h : last? placed = some name) :
    ∃ p ∈ placed, p.supplied.name = some name :=
  List.mem_filterMap.1 (List.mem_of_getLast? h)

theorem Goes.declared (h : signature.Goes placed s name)
    (hplaced : ∀ p ∈ placed, signature.Declared p) : signature.Declared ⟨name, s⟩ := by
  cases h with
  | named hspec hs =>
    exact ⟨fun own hown => Option.some.inj (hown.symm.trans hs), _, hspec, rfl⟩
  | cascaded hs hc hlast =>
    obtain ⟨p, hp, hname⟩ := exists_of_last? hlast
    obtain ⟨spec, hspec, heq⟩ := (hplaced p hp).mem
    refine ⟨fun own hown => ?_, spec, hspec, heq.trans ((hplaced p hp).own _ hname).symm⟩
    cases hs.symm.trans hown
  | @positional before after spec hs hc hparams hspec hfree hbefore =>
    refine ⟨fun own hown => ?_, spec, by simp [hparams], rfl⟩
    cases hs.symm.trans hown

theorem Places.declared {l : List (Supplied κ)} {all : List (Placed κ)}
    (h : Places signature placed l all) (hplaced : ∀ p ∈ placed, signature.Declared p) :
    ∀ p ∈ all, signature.Declared p := by
  induction h with
  | nil => exact hplaced
  | cons h hrest ih =>
    refine ih fun p hp => ?_
    rcases List.mem_append.1 hp with hp | hp
    · exact hplaced p hp
    · obtain rfl := List.mem_singleton.1 hp
      exact h.declared hplaced

end Signature

end Notebook
