import Mathlib.Data.List.Infix
import Notebook.Proofs.Markup.Canonical

/-! # The tokens of a parameter list

The text of a parameter list consists of blanks and tokens, one token for each parameter. What a
token is depends on the token alone and on whether a blank or the end of the text follows it, so
there is only one way to take a text apart.
-/

namespace Notebook.Markup

open Text

/-- A text between marks has no closing mark in it, nor does one begin at its end, so that the
closing mark behind it is the first. -/
structure Enclosure.Fits (e : Enclosure) (text : List Char) : Prop where
  free : ¬ e.closing <:+: text
  last : ∀ c ∈ text.getLast?, c ∉ e.closing

/-- The parameter with the text between its marks. Braces without the name of a macro are empty
text. -/
def Enclosure.param (name : Option String) (text : List Char) : Enclosure → Param
  | .braces =>
    match parseCall? text with
    | some c => .ofCall name c
    | none => .literal name ""
  | .quotes | .brackets => .literal name (String.ofList text)

/-- The text of a value before the rest of the list, and the parameter with this value. -/
inductive ValueToken (name : Option String) : List Char → List Char → Param → Prop
  | enclosed {rest : List Char} (e : Enclosure) {text : List Char} (h : e.Fits text) :
      ValueToken name (e.mark ++ text ++ e.closing) rest (e.param name text)
  | unfinished (e : Enclosure) {text : List Char} (h : ¬ e.closing <:+: text) :
      ValueToken name (e.mark ++ text) [] (e.param name text)
  /-- A bare value is as long as it can be. It is empty where a blank comes at once. -/
  | bare {run rest : List Char} (hmark : ∀ e : Enclosure, ¬ e.mark <+: run)
      (hrun : ∀ c ∈ run, isBlank c = false) (hrest : ∀ c ∈ rest.head?, isBlank c) :
      ValueToken name run rest (.literal name (String.ofList run))

/-- The text of a parameter before the rest of the list. Whatever can be a name is one. -/
inductive Token : List Char → List Char → Param → Prop
  | mk {label : Option Label} {value rest : List Char} {param : Param}
      (hlabel : label = none → ∀ l : Label, ¬ l.chars ++ [':'] <+: value)
      (hvalue : ValueToken (label.map fun l => String.ofList l.chars) value rest param)
      (hne : tag label ++ value ≠ []) : Token (tag label ++ value) rest param

namespace Enclosure

theorem cutAt_closing_iff (e : Enclosure) {cs text rest : List Char} :
    cutAt e.closing cs = some (text, rest) ↔ cs = text ++ e.closing ++ rest ∧ e.Fits text := by
  constructor
  · intro h
    refine ⟨eq_append_of_cutAt h, not_infix_of_cutAt e.closing_ne_nil h, fun c hc hm => ?_⟩
    -- With its last character, the text would have a closing mark one place earlier.
    obtain ⟨front, rfl⟩ := List.getLast?_eq_some_iff.1 hc
    refine not_prefix_of_cutAt h (List.suffix_append front [c]) (List.cons_ne_nil _ _) ?_
    cases e <;> simp_all [closing]
  · rintro ⟨rfl, hfree, hlast⟩
    cases e with
    | quotes => exact closes_quotes (fun hm => hfree ((List.singleton_infix_iff _ _).2 hm)) rest
    | brackets => exact closes_brackets hfree (fun hm => hlast _ hm (by decide)) rest
    | braces => exact closes_braces hfree (fun hm => hlast _ hm (by decide)) rest

theorem param_eq (e : Enclosure) (name : Option String) (text : List Char) :
    (if e = .braces then RawValue.call text else .literal text).param name = e.param name text := by
  cases e with
  | quotes => rfl
  | brackets => rfl
  | braces =>
    simp only [if_true, RawValue.param, param, parseCall?]
    cases callParts? text <;> rfl

theorem mark_ne_nil (e : Enclosure) : e.mark ≠ [] := by
  cases e <;> exact List.cons_ne_nil _ _

theorem isBlank_of_mem_mark (e : Enclosure) {c : Char} (h : c ∈ e.mark) : isBlank c = false := by
  cases e <;> simp only [mark, List.mem_cons, List.not_mem_nil, or_false, or_self] at h <;>
    subst h <;> decide

end Enclosure

theorem opening_eq_none_iff {cs : List Char} :
    opening? cs = none ↔ ∀ e : Enclosure, ¬ e.mark <+: cs := by
  constructor
  · rintro h e ⟨after, rfl⟩
    rw [opening_append] at h
    cases h
  · intro h
    cases hopen : opening? cs with
    | none => rfl
    | some parts =>
      obtain ⟨e, after⟩ := parts
      exact absurd ⟨after, (eq_append_of_opening hopen).symm⟩ (h e)

theorem prefix_append_iff {text run rest : List Char} (htext : ∀ c ∈ text, isBlank c = false)
    (hrun : ∀ c ∈ run, isBlank c = false) (hrest : ∀ c ∈ rest.head?, isBlank c) :
    text <+: run ++ rest ↔ text <+: run := by
  refine ⟨fun h => ?_, fun h => h.trans (List.prefix_append ..)⟩
  have hword := prefix_word htext h
  rwa [word_append hrun hrest] at hword

theorem rawValue_of_opening {cs after : List Char} {e : Enclosure}
    (h : opening? cs = some (e, after)) :
    rawValue cs = (if e = .braces then .call ((cutAt e.closing after).getD (after, [])).1
      else .literal ((cutAt e.closing after).getD (after, [])).1,
      ((cutAt e.closing after).getD (after, [])).2) := by
  simp only [rawValue, h]

theorem rawValue_of_not_opening {cs : List Char} (h : opening? cs = none) :
    rawValue cs = (.literal (word cs), afterWord cs) := by
  simp only [rawValue, h]

theorem ValueToken.rawValue_eq {name : Option String} {value rest : List Char} {param : Param}
    (h : ValueToken name value rest param) :
    (rawValue (value ++ rest)).2 = rest ∧ (rawValue (value ++ rest)).1.param name = param := by
  cases h with
  | @enclosed rest e text h =>
    have hcut : cutAt e.closing (text ++ e.closing ++ rest) = some (text, rest) :=
      e.cutAt_closing_iff.2 ⟨rfl, h⟩
    have hopen := opening_append e (text ++ e.closing ++ rest)
    rw [← List.append_assoc, ← List.append_assoc] at hopen
    rw [rawValue_of_opening hopen, hcut]
    exact ⟨rfl, e.param_eq name text⟩
  | @unfinished e text h =>
    have hcut := (cutAt_eq_none e.closing_ne_nil text).2 h
    rw [List.append_nil, rawValue_of_opening (opening_append e text), hcut]
    exact ⟨rfl, e.param_eq name text⟩
  | bare hmark hrun hrest =>
    have hopen : opening? (value ++ rest) = none := by
      refine opening_eq_none_iff.2 fun e he => hmark e ?_
      exact (prefix_append_iff (fun _ => e.isBlank_of_mem_mark) hrun hrest).1 he
    rw [rawValue_of_not_opening hopen, word_append hrun hrest, afterWord_append hrun hrest]
    exact ⟨rfl, rfl⟩

/-- Whether a value begins with a name does not depend on what follows it. -/
theorem ValueToken.not_prefix {name : Option String} {value rest : List Char} {param : Param}
    (h : ValueToken name value rest param) {l : Label} (hl : ¬ l.chars ++ [':'] <+: value) :
    ¬ l.chars ++ [':'] <+: value ++ rest := by
  cases h with
  | enclosed e h =>
    rw [List.append_assoc, List.append_assoc]
    exact l.not_prefix_mark e _
  | unfinished e h => rwa [List.append_nil]
  | bare hmark hrun hrest =>
    rwa [prefix_append_iff (fun c hc => ?_) hrun hrest]
    rcases List.mem_append.1 hc with hc | hc
    · exact isBlank_of_isNameChar (l.plain c hc)
    · obtain rfl := List.mem_singleton.1 hc
      decide

theorem Token.read {token rest : List Char} {param : Param} (h : Token token rest param) :
    (rawValue (splitName (token ++ rest)).2).2 = rest ∧
      (rawValue (splitName (token ++ rest)).2).1.param
        ((splitName (token ++ rest)).1.map String.ofList) = param := by
  obtain ⟨hlabel, hvalue, hne⟩ := h
  rw [List.append_assoc, splitName_tag fun hl l => hvalue.not_prefix (hlabel hl l), Option.map_map]
  exact hvalue.rawValue_eq

end Notebook.Markup
