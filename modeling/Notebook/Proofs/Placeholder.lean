import Mathlib.Data.List.Forall2
import Mathlib.Data.List.TakeWhile
import Notebook.Placeholder

/-! # One pass over the placeholders

A text can be cut at its placeholders in exactly one way. Substitution puts the values in their
places and leaves everything else as it is written, whatever the values look like.
-/

namespace Notebook.Placeholder

open Text

variable {values : List String} {c d : Char} {cs before digits digits' rest tail : List Char}

def Plain (cs : List Char) : Prop :=
  ∀ d, isDecimalDigit d → ¬ ['$', d] <:+: cs

/-- At least one digit, and not followed by another one. -/
structure Run (digits rest : List Char) : Prop where
  nonempty : digits ≠ []
  digits : ∀ d ∈ digits, isDecimalDigit d
  maximal : ∀ d ∈ rest.head?, ¬ isDecimalDigit d

/-- The text is cut at one placeholder after the other. Each piece is what stands before a
placeholder and the digits of the placeholder. The tail has no placeholder any more. -/
inductive Cut : List Char → List (List Char × List Char) → List Char → Prop
  | tail {tail : List Char} (h : Plain tail) : Cut tail [] tail
  | piece {before digits rest tail : List Char} {pieces : List (List Char × List Char)}
      (hbefore : Plain before) (hrun : Run digits rest) (h : Cut rest pieces tail) :
      Cut (before ++ '$' :: (digits ++ rest)) ((before, digits) :: pieces) tail

/-- The digits are ASCII digits of a number of 64 bits that counts up to the value. -/
structure Names (values : List String) (digits : List Char) (value : String) : Prop where
  ascii : ∀ d ∈ digits, isAsciiDigit d
  pos : 0 < decimalValue digits
  word : decimalValue digits ≤ maxWord
  value : values[decimalValue digits - 1]? = some value

inductive Fills (values : List String) : List Char × List Char → List Char → Prop
  | named {before digits : List Char} {value : String} (h : Names values digits value) :
      Fills values (before, digits) (before ++ value.toList)
  | asWritten {before digits : List Char} (h : ∀ value, ¬ Names values digits value) :
      Fills values (before, digits) (before ++ '$' :: digits)

theorem not_isDecimalDigit_dollar : ¬ isDecimalDigit '$' := by
  decide

theorem plain_nil : Plain [] :=
  fun d _ hi => by simp at hi

theorem Plain.of_cons (h : Plain (c :: cs)) : Plain cs :=
  fun d hd hi => h d hd (List.infix_cons hi)

theorem plain_cons (h : Plain cs) (hc : c = '$' → ∀ d ∈ cs.head?, ¬ isDecimalDigit d) :
    Plain (c :: cs) := by
  intro d hd hi
  rcases List.infix_cons_iff.1 hi with hp | hi
  · obtain ⟨rfl, rest, rfl⟩ := List.cons_prefix_cons.1 hp
    exact hc rfl d rfl hd
  · exact h d hd hi

theorem not_plain (hrun : Run digits rest) : ¬ Plain (before ++ '$' :: (digits ++ rest)) := by
  obtain ⟨d, digits, rfl⟩ := List.exists_cons_of_ne_nil hrun.nonempty
  intro hplain
  exact hplain d (hrun.digits d List.mem_cons_self) ⟨before, digits ++ rest, by simp⟩

theorem Run.takeWhile (h : Run digits rest) :
    (digits ++ rest).takeWhile isDecimalDigit = digits := by
  rw [List.takeWhile_append_of_pos h.digits]
  cases rest with
  | nil => simp
  | cons d rest => simp [h.maximal d rfl]

theorem Run.dropWhile (h : Run digits rest) :
    (digits ++ rest).dropWhile isDecimalDigit = rest := by
  rw [List.dropWhile_append_of_pos h.digits]
  cases rest with
  | nil => rfl
  | cons d rest => simp [h.maximal d rfl]

theorem run_takeWhile (hne : cs.takeWhile isDecimalDigit ≠ []) :
    Run (cs.takeWhile isDecimalDigit) (cs.dropWhile isDecimalDigit) where
  nonempty := hne
  digits _ := List.mem_takeWhile_imp
  maximal d hd := by
    have h := List.head?_dropWhile_not isDecimalDigit cs
    rw [Option.mem_def.1 hd] at h
    simpa using h

theorem Cut.cons {pieces : List (List Char × List Char)} (h : Cut cs pieces tail)
    (hc : c = '$' → ∀ d ∈ cs.head?, ¬ isDecimalDigit d) :
    ∃ pieces' tail', Cut (c :: cs) pieces' tail' := by
  cases h with
  | tail h => exact ⟨_, _, .tail (plain_cons h hc)⟩
  | @piece before digits rest _ pieces hbefore hrun h =>
    have hplain : Plain (c :: before) := by
      apply plain_cons hbefore
      intro hdollar d hd
      apply hc hdollar d
      cases before with
      | nil => cases hd
      | cons b before => exact hd
    exact ⟨_, _, .piece hplain hrun h⟩

theorem exists_cut (cs : List Char) : ∃ pieces tail, Cut cs pieces tail := by
  induction h : cs.length using Nat.strong_induction_on generalizing cs with
  | _ n ih =>
    subst h
    cases cs with
    | nil => exact ⟨_, _, .tail plain_nil⟩
    | cons c cs =>
      by_cases hrun : c = '$' ∧ cs.takeWhile isDecimalDigit ≠ []
      · obtain ⟨rfl, hrun⟩ := hrun
        have hlength : (cs.dropWhile isDecimalDigit).length ≤ cs.length :=
          (List.dropWhile_sublist isDecimalDigit).length_le
        obtain ⟨pieces, tail, hcut⟩ := ih _ (Nat.lt_succ_of_le hlength) _ rfl
        have hpiece := Cut.piece plain_nil (run_takeWhile hrun) hcut
        rw [List.takeWhile_append_dropWhile, List.nil_append] at hpiece
        exact ⟨_, _, hpiece⟩
      · obtain ⟨pieces, tail, hcut⟩ := ih _ (Nat.lt_succ_self _) cs rfl
        apply hcut.cons
        rintro rfl d hd hdigit
        apply hrun
        obtain ⟨cs, rfl⟩ := List.head?_eq_some_iff.1 hd
        simp [hdigit]

theorem Run.not_plain_cons {cs' : List Char} (hrun : Run digits rest)
    (h : digits ++ rest = before ++ '$' :: cs') : ¬ Plain ('$' :: before) := by
  obtain ⟨d, digits, rfl⟩ := List.exists_cons_of_ne_nil hrun.nonempty
  have hd := hrun.digits d List.mem_cons_self
  intro hplain
  cases before with
  | nil =>
    obtain ⟨rfl, -⟩ := List.cons.inj h
    exact not_isDecimalDigit_dollar hd
  | cons c before =>
    obtain ⟨rfl, -⟩ := List.cons.inj h
    exact hplain d hd ⟨[], before, rfl⟩

theorem before_unique {before' rest' : List Char} (hb : Plain before) (hb' : Plain before')
    (hrun : Run digits rest) (hrun' : Run digits' rest')
    (h : before ++ '$' :: (digits ++ rest) = before' ++ '$' :: (digits' ++ rest')) :
    before = before' := by
  induction before generalizing before' with
  | nil =>
    cases before' with
    | nil => rfl
    | cons c before' =>
      obtain ⟨rfl, htext⟩ := List.cons.inj h
      exact absurd hb' (hrun.not_plain_cons htext)
  | cons c before ih =>
    cases before' with
    | nil =>
      obtain ⟨rfl, htext⟩ := List.cons.inj h
      exact absurd hb (hrun'.not_plain_cons htext.symm)
    | cons c' before' =>
      obtain ⟨rfl, htext⟩ := List.cons.inj h
      rw [ih hb.of_cons hb'.of_cons htext]

theorem Cut.unique {pieces pieces' : List (List Char × List Char)} {tail' : List Char}
    (h : Cut cs pieces tail) (h' : Cut cs pieces' tail') : pieces' = pieces ∧ tail' = tail := by
  induction h generalizing pieces' tail' with
  | tail h =>
    cases h' with
    | tail => exact ⟨rfl, rfl⟩
    | piece _ hrun _ => exact absurd h (not_plain hrun)
  | piece hb hrun _ ih =>
    generalize htext : _ ++ '$' :: _ = text at h'
    cases h' with
    | tail h' => exact absurd h' (htext ▸ not_plain hrun)
    | piece hb' hrun' h' =>
      obtain rfl := before_unique hb hb' hrun hrun' htext
      obtain ⟨-, hdigits⟩ := List.cons.inj (List.append_cancel_left htext)
      have htake := congrArg (List.takeWhile isDecimalDigit) hdigits
      have hdrop := congrArg (List.dropWhile isDecimalDigit) hdigits
      rw [hrun.takeWhile, hrun'.takeWhile] at htake
      rw [hrun.dropWhile, hrun'.dropWhile] at hdrop
      subst htake hdrop
      obtain ⟨rfl, rfl⟩ := ih h'
      exact ⟨rfl, rfl⟩

theorem valueAt_eq_some_iff {value : String} :
    valueAt values digits = some value ↔ Names values digits value := by
  unfold valueAt
  constructor
  · intro h
    split at h
    · next hascii =>
      split at h
      · cases h
      · next n hn =>
        split at h
        · next hlt => exact ⟨by simpa using hascii, by omega, by omega, by simpa [hn] using h⟩
        · cases h
    · cases h
  · rintro ⟨hascii, hpos, hword, hvalue⟩
    obtain ⟨n, hn⟩ := Nat.exists_eq_add_one.2 hpos
    rw [hn] at hvalue hword
    rw [if_pos (List.all_eq_true.2 hascii), hn]
    dsimp only
    rw [if_pos (Nat.lt_of_succ_le hword)]
    exact hvalue

theorem fills_replacement (before digits : List Char) :
    Fills values (before, digits) (before ++ replacement values digits) := by
  unfold replacement
  cases h : valueAt values digits with
  | some value => exact .named (valueAt_eq_some_iff.1 h)
  | none =>
    apply Fills.asWritten
    intro value hnames
    rw [valueAt_eq_some_iff.2 hnames] at h
    cases h

theorem replacement_of_forall_not (h : ∀ value, ¬ Names values digits value) :
    replacement values digits = '$' :: digits := by
  have hnone : valueAt values digits = none := by
    apply Option.eq_none_iff_forall_ne_some.2
    intro value hvalue
    exact h value (valueAt_eq_some_iff.1 hvalue)
  rw [replacement, hnone]

theorem replacement_nil : replacement values [] = ['$'] :=
  replacement_of_forall_not fun _ h => Nat.lt_irrefl 0 h.pos

theorem substituteChars_plain (h : Plain before)
    (hrest : ∀ d ∈ rest.head?, ¬ isDecimalDigit d) :
    substituteChars values (before ++ rest) = before ++ substituteChars values rest := by
  induction before with
  | nil => rfl
  | cons c before ih =>
    rw [List.cons_append, substituteChars]
    split
    · next hc =>
      subst hc
      have hnone : ∀ d ∈ (before ++ rest).head?, ¬ isDecimalDigit d := by
        cases before with
        | nil => exact hrest
        | cons d before =>
          rintro _ ⟨⟩ hd
          exact h d hd ⟨[], before, rfl⟩
      have hrun : (before ++ rest).takeWhile isDecimalDigit = [] ∧
          (before ++ rest).dropWhile isDecimalDigit = before ++ rest := by
        cases hcs : before ++ rest with
        | nil => exact ⟨rfl, rfl⟩
        | cons d cs => simp [hnone d (by rw [hcs]; rfl)]
      rw [hrun.1, hrun.2, replacement_nil, ih h.of_cons]
      rfl
    · rw [ih h.of_cons]
      rfl

theorem substituteChars_tail (h : Plain tail) : substituteChars values tail = tail := by
  have hplain : substituteChars values (tail ++ []) = tail ++ substituteChars values [] :=
    substituteChars_plain h (by simp)
  rwa [List.append_nil, substituteChars, List.append_nil] at hplain

theorem substituteChars_before (h : Plain before) (rest : List Char) :
    substituteChars values (before ++ '$' :: rest) =
      before ++ substituteChars values ('$' :: rest) := by
  apply substituteChars_plain h
  rintro d ⟨⟩
  exact not_isDecimalDigit_dollar

theorem substituteChars_placeholder (h : Run digits rest) :
    substituteChars values ('$' :: (digits ++ rest)) =
      replacement values digits ++ substituteChars values rest := by
  rw [substituteChars, if_pos rfl, h.takeWhile, h.dropWhile]

theorem Cut.substituteChars {pieces : List (List Char × List Char)} (h : Cut cs pieces tail)
    (values : List String) :
    ∃ parts, List.Forall₂ (Fills values) pieces parts ∧
      substituteChars values cs = parts.flatten ++ tail := by
  induction h with
  | tail h => exact ⟨[], .nil, substituteChars_tail h⟩
  | @piece before digits rest tail pieces hbefore hrun _ ih =>
    obtain ⟨parts, hparts, ih⟩ := ih
    refine ⟨(before ++ replacement values digits) :: parts, ?_, ?_⟩
    · exact .cons (fills_replacement before digits) hparts
    · rw [substituteChars_before hbefore, substituteChars_placeholder hrun, ih, List.flatten_cons,
        List.append_assoc, List.append_assoc]

theorem Cut.substituteChars_nil {pieces : List (List Char × List Char)} (h : Cut cs pieces tail) :
    Placeholder.substituteChars [] cs = cs := by
  induction h with
  | tail h => exact substituteChars_tail h
  | @piece before digits rest tail pieces hbefore hrun _ ih =>
    have hnames : ∀ value, ¬ Names [] digits value := fun value h => by simpa using h.value
    rw [substituteChars_before hbefore, substituteChars_placeholder hrun,
      replacement_of_forall_not hnames, ih]
    rfl

/-- Every text has one cut at its placeholders. Substitution puts in the value that a placeholder
names, just as it is, and changes nothing else. Without values it changes nothing at all. -/
theorem substitute_eq (text : String) (values : List String) :
    (∃ pieces tail parts, Cut text.toList pieces tail ∧
      (∀ pieces' tail', Cut text.toList pieces' tail' → pieces' = pieces ∧ tail' = tail) ∧
      List.Forall₂ (Fills values) pieces parts ∧
      (substitute text values).toList = parts.flatten ++ tail) ∧
    substitute text [] = text := by
  obtain ⟨pieces, tail, hcut⟩ := exists_cut text.toList
  constructor
  · obtain ⟨parts, hparts, heq⟩ := hcut.substituteChars values
    refine ⟨pieces, tail, parts, hcut, fun _ _ => hcut.unique, hparts, ?_⟩
    rw [substitute, String.toList_ofList, heq]
  · rw [substitute, hcut.substituteChars_nil, String.ofList_toList]

example : substitute "$1$2$10$0" ["$2", "1"] = "$21$10$0" := by cbv

end Notebook.Placeholder
