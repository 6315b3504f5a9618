import Notebook.Proofs.Markup.Slices

/-! # Values between marks

A value between marks ends at the first closing mark. The search for the end of a call passes
over such values and over all characters with which no mark begins.
-/

namespace Notebook.Markup

open Text

namespace Enclosure

def wrap (e : Enclosure) (text : List Char) : List Char :=
  e.mark ++ text ++ e.closing

/-- The text ends at the closing mark that is put behind it. -/
def Closes (e : Enclosure) (text : List Char) : Prop :=
  ∀ rest, cutAt e.closing (text ++ e.closing ++ rest) = some (text, rest)

theorem closing_ne_nil (e : Enclosure) : e.closing ≠ [] := by
  cases e <;> exact List.cons_ne_nil _ _

theorem closes_quotes {text : List Char} (h : '"' ∉ text) : quotes.Closes text :=
  cutAt_once h

theorem closes_brackets {text : List Char} (h : ¬ [']', ']'] <:+: text)
    (hlast : text.getLast? ≠ some ']') : brackets.Closes text :=
  cutAt_twice h hlast

theorem closes_braces {text : List Char} (h : ¬ ['\x7d', '\x7d'] <:+: text)
    (hlast : text.getLast? ≠ some '\x7d') : braces.Closes text :=
  cutAt_twice h hlast

end Enclosure

theorem opening_append (e : Enclosure) (cs : List Char) :
    opening? (e.mark ++ cs) = some (e, cs) := by
  cases e <;> rfl

def startsMark (c : Char) : Bool :=
  c = '"' || c = '[' || c = '\x7b' || c = '>'

theorem opening_eq_none {c : Char} (h : startsMark c = false) (cs : List Char) :
    opening? (c :: cs) = none := by
  unfold opening?
  split <;> simp_all [startsMark]

theorem startsMark_eq_false {p : Char → Bool} (hp : ['"', '[', '\x7b', '>'].any p = false)
    {c : Char} (h : p c) : startsMark c = false := by
  rw [Bool.eq_false_iff]
  intro hs
  have hm : c ∈ ['"', '[', '\x7b', '>'] := by
    simpa [startsMark, or_assoc] using hs
  exact List.any_eq_false.1 hp c hm h

theorem startsMark_of_isBlank {c : Char} (h : isBlank c) : startsMark c = false :=
  startsMark_eq_false (by decide) h

theorem startsMark_of_isNameChar {c : Char} (h : isNameChar c) : startsMark c = false :=
  startsMark_eq_false (by decide) h

theorem rawValue_wrap {e : Enclosure} {text : List Char} (h : e.Closes text)
    (rest : List Char) : rawValue (e.wrap text ++ rest) =
      (if e = .braces then .call text else .literal text, rest) := by
  have heq : e.wrap text ++ rest = e.mark ++ (text ++ e.closing ++ rest) := by
    simp [Enclosure.wrap]
  rw [heq, rawValue, opening_append]
  simp only [h rest, Option.getD_some]

theorem splitClosing_here (rest : List Char) :
    splitClosing ('>' :: '>' :: rest) = some ([], rest) := by
  rw [splitClosing]

theorem splitClosing_cons {c : Char} {rest : List Char} (hend : ¬ ['>', '>'] <+: c :: rest)
    (h : ∀ e after, opening? (c :: rest) = some (e, after) → cutAt e.closing after = none) :
    splitClosing (c :: rest) = (splitClosing rest).map fun parts => (c :: parts.1, parts.2) := by
  rw [splitClosing]
  · split
    · next e after hopen =>
      split
      · next hcut => simp [h e after hopen] at hcut
      · rfl
    · rfl
  · rintro rest' rfl rfl
    simp at hend

theorem splitClosing_of_opening {cs after inner behind : List Char} {e : Enclosure}
    (hopen : opening? cs = some (e, after)) (hcut : cutAt e.closing after = some (inner, behind)) :
    splitClosing cs = (splitClosing behind).map fun parts =>
      (e.mark ++ inner ++ e.closing ++ parts.1, parts.2) := by
  cases cs with
  | nil => cases hopen
  | cons c rest =>
    rw [splitClosing]
    · split
      · next e' after' hopen' =>
        obtain ⟨rfl, rfl⟩ := Prod.mk.inj (Option.some.inj (hopen.symm.trans hopen'))
        split
        · next inner' behind' hcut' =>
          obtain ⟨rfl, rfl⟩ := Prod.mk.inj (Option.some.inj (hcut.symm.trans hcut'))
          rfl
        · next hcut' => simp [hcut] at hcut'
      · next hopen' => simp [hopen] at hopen'
    · rintro rest' rfl rfl
      cases hopen

/-- The search for the end of a call passes over the text. -/
def Passed (text : List Char) : Prop :=
  ∀ rest, splitClosing (text ++ rest) =
    (splitClosing rest).map fun parts => (text ++ parts.1, parts.2)

theorem passed_nil : Passed [] := by
  intro rest
  simp

theorem Passed.append {text text' : List Char} (h : Passed text) (h' : Passed text') :
    Passed (text ++ text') := by
  intro rest
  rw [List.append_assoc, h, h', Option.map_map]
  simp only [Function.comp_def, List.append_assoc]

theorem passed_flatMap {α : Type} {f : α → List Char} (xs : List α) (h : ∀ x, Passed (f x)) :
    Passed (xs.flatMap f) := by
  induction xs with
  | nil => exact passed_nil
  | cons x xs ih => exact (h x).append ih

theorem passed_of_not_startsMark {text : List Char} (h : ∀ c ∈ text, startsMark c = false) :
    Passed text := by
  induction text with
  | nil => exact passed_nil
  | cons c text ih =>
    obtain ⟨hc, htext⟩ := List.forall_mem_cons.1 h
    intro rest
    have hend : ¬ ['>', '>'] <+: c :: (text ++ rest) := by
      intro hp
      obtain rfl : '>' = c := (List.cons_prefix_cons.1 hp).1
      cases hc
    have hstep := splitClosing_cons hend fun e after hopen => by
      simp [opening_eq_none hc] at hopen
    rw [List.cons_append, hstep, ih htext, Option.map_map]
    rfl

theorem passed_wrap {e : Enclosure} {text : List Char} (h : e.Closes text) :
    Passed (e.wrap text) := by
  intro rest
  have heq : e.wrap text ++ rest = e.mark ++ (text ++ e.closing ++ rest) := by
    simp [Enclosure.wrap]
  rw [heq, splitClosing_of_opening (opening_append e _) (h rest)]
  rfl

theorem Passed.splitClosing_eq {text : List Char} (h : Passed text) (rest : List Char) :
    splitClosing (text ++ ['>', '>'] ++ rest) = some (text, rest) := by
  have hend : splitClosing (['>', '>'] ++ rest) = some ([], rest) := splitClosing_here rest
  rw [List.append_assoc, h, hend, Option.map_some, List.append_nil]

def RawValue.param (name : Option String) : RawValue → Param
  | literal text => .literal name (String.ofList text)
  | call body =>
    match callParts? body with
    | none => .literal name ""
    | some (callee, params) => .call name (String.ofList callee) (parseParams params)

theorem parseParams_of_skipBlanks_nil {cs : List Char} (h : skipBlanks cs = []) :
    parseParams cs = [] := by
  rw [parseParams]
  split
  · rfl
  · next heq => simp [h] at heq

theorem parseParams_of_skipBlanks_cons {cs rest : List Char} {c : Char}
    (h : skipBlanks cs = c :: rest) :
    parseParams cs =
      (rawValue (splitName (c :: rest)).2).1.param ((splitName (c :: rest)).1.map String.ofList) ::
        parseParams (rawValue (splitName (c :: rest)).2).2 := by
  rw [parseParams]
  split
  · next heq => simp [h] at heq
  · next c' rest' heq =>
    obtain ⟨rfl, rfl⟩ := List.cons.inj (h.symm.trans heq)
    split
    · next text after hraw => rw [hraw]; rfl
    · next body after hraw =>
      rw [hraw]
      simp only [RawValue.param]
      split
      · next hparts => rw [hparts]
      · next callee params hparts => rw [hparts]

theorem parseParams_induction {P : List Char → Prop} (nil : ∀ cs, skipBlanks cs = [] → P cs)
    (cons : ∀ cs c rest, skipBlanks cs = c :: rest →
      P (rawValue (splitName (c :: rest)).2).2 → P cs) (cs : List Char) : P cs := by
  induction hn : cs.length using Nat.strong_induction_on generalizing cs with
  | _ n ih =>
    cases hskip : skipBlanks cs with
    | nil => exact nil cs hskip
    | cons c rest =>
      refine cons cs c rest hskip (ih _ ?_ _ rfl)
      have hle := length_skipBlanks_le cs
      have hlt := length_rest_lt (isBlank_head_skipBlanks hskip) rest
      rw [hskip] at hle
      omega

theorem isBlank_of_isNameChar {c : Char} (h : isNameChar c) : isBlank c = false := by
  have hle : ∀ a b : Char, a ≤ b ↔ a.toNat ≤ b.toNat := fun a b => by
    rw [Char.le_def, UInt32.le_iff_toNat_le]
    rfl
  have heq : ∀ a : Char, c = a → c.toNat = a.toNat := fun a => congrArg Char.toNat
  have hn : (97 ≤ c.toNat ∧ c.toNat ≤ 122) ∨ (65 ≤ c.toNat ∧ c.toNat ≤ 90) ∨
      (48 ≤ c.toNat ∧ c.toNat ≤ 57) ∨ c.toNat = 95 ∨ c.toNat = 45 := by
    simp only [isNameChar, Bool.or_eq_true, Bool.and_eq_true, decide_eq_true_eq, hle] at h
    rcases h with (((h | h) | h) | h) | h
    · exact .inl h
    · exact .inr (.inl h)
    · exact .inr (.inr (.inl h))
    · exact .inr (.inr (.inr (.inl (heq _ h))))
    · exact .inr (.inr (.inr (.inr (heq _ h))))
  simp only [isBlank, Bool.or_eq_false_iff, Bool.and_eq_false_imp, decide_eq_true_eq,
    decide_eq_false_iff_not, beq_eq_false_iff_ne]
  omega

theorem callParts_append {name params : List Char} (hne : name ≠ [])
    (hname : ∀ c ∈ name, isBlank c = false) (hhead : ∀ c ∈ params.head?, isBlank c)
    (hlast : ∀ c ∈ params.getLast?, isBlank c = false) :
    callParts? (name ++ params) = some (name, params) := by
  have htrim : trim (name ++ params) = name ++ params := by
    refine trim_eq_self (fun c hc => ?_) fun c hc => ?_
    · rw [List.head?_append_of_ne_nil _ hne] at hc
      exact hname c (List.mem_of_mem_head? hc)
    · cases params with
      | nil =>
        rw [List.append_nil] at hc
        exact hname c (List.mem_of_mem_getLast? hc)
      | cons d params =>
        rw [List.getLast?_append_of_ne_nil _ (List.cons_ne_nil d params)] at hc
        exact hlast c hc
  rw [callParts?, htrim, word_append hname hhead, afterWord_append hname hhead]
  simp [hne]

end Notebook.Markup
