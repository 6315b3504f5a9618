import Mathlib.Data.List.TakeWhile
import Notebook.Text.Blank
import Notebook.Text.Cut

/-! # Text from the front

A cut at a mark is made at the first place where the mark stands. A word is followed by a blank or
by nothing.
-/

namespace Notebook.Text

theorem cutAt_eq_none {mark : List Char} (hm : mark ≠ []) (cs : List Char) :
    cutAt mark cs = none ↔ ¬ mark <:+: cs := by
  induction cs with
  | nil => simp [cutAt, hm]
  | cons c cs ih =>
    rw [cutAt, List.infix_cons_iff, not_or, ← ih, ← List.isPrefixOf_iff_prefix]
    split <;> simp_all

/-- A mark that follows a text is found there, unless it begins somewhere in the text. -/
theorem cutAt_append {mark text : List Char} (hm : mark ≠ [])
    (h : ∀ left, left <:+ text → left ≠ [] → ¬ mark <+: left ++ mark) (rest : List Char) :
    cutAt mark (text ++ mark ++ rest) = some (text, rest) := by
  induction text with
  | nil =>
    obtain ⟨c, mark, rfl⟩ := List.exists_cons_of_ne_nil hm
    have hp : (c :: mark).isPrefixOf (c :: (mark ++ rest)) := by simp
    simp only [List.nil_append, List.cons_append, cutAt, hp, if_true]
    simp
  | cons c text ih =>
    have hp : ¬ mark.isPrefixOf (c :: (text ++ mark ++ rest)) := by
      rw [List.isPrefixOf_iff_prefix]
      intro hp
      refine h (c :: text) List.suffix_rfl (List.cons_ne_nil _ _) ?_
      refine List.prefix_of_prefix_length_le hp ⟨rest, by simp⟩ ?_
      simp only [List.length_append]
      omega
    have hrest := ih fun left hl => h left (hl.trans (List.suffix_cons c text))
    simp only [List.cons_append, cutAt, if_neg hp, hrest, Option.map_some]

/-- The mark that is found begins nowhere before, not even where the text that is cut off goes
over into it. -/
theorem not_prefix_of_cutAt {mark cs before after left : List Char}
    (h : cutAt mark cs = some (before, after)) (hl : left <:+ before) (hne : left ≠ []) :
    ¬ mark <+: left ++ mark := by
  induction cs generalizing before with
  | nil =>
    rw [cutAt] at h
    split at h
    · obtain ⟨rfl, -⟩ := Prod.mk.inj (Option.some.inj h)
      exact absurd (List.suffix_nil.1 hl) hne
    · cases h
  | cons c cs ih =>
    have heq := eq_append_of_cutAt h
    rw [cutAt] at h
    split at h
    · obtain ⟨rfl, -⟩ := Prod.mk.inj (Option.some.inj h)
      exact absurd (List.suffix_nil.1 hl) hne
    · next hp =>
      obtain ⟨⟨front, behind⟩, hparts, h⟩ := Option.map_eq_some_iff.1 h
      obtain ⟨rfl, rfl⟩ := Prod.mk.inj h
      rcases List.suffix_cons_iff.1 hl with rfl | hl
      · intro hpre
        refine hp (List.isPrefixOf_iff_prefix.2 ?_)
        rw [heq]
        exact hpre.trans (List.prefix_append ..)
      · exact ih hparts hl

theorem not_infix_of_cutAt {mark cs before after : List Char} (hm : mark ≠ [])
    (h : cutAt mark cs = some (before, after)) : ¬ mark <:+: before := by
  rintro ⟨front, behind, rfl⟩
  have hl : mark ++ behind <:+ front ++ mark ++ behind := ⟨front, by simp⟩
  refine not_prefix_of_cutAt h hl (by simp [hm]) ?_
  rw [List.append_assoc]
  exact List.prefix_append ..

theorem cutAt_twice {c : Char} {text : List Char} (h : ¬ [c, c] <:+: text)
    (hlast : text.getLast? ≠ some c) (rest : List Char) :
    cutAt [c, c] (text ++ [c, c] ++ rest) = some (text, rest) := by
  refine cutAt_append (List.cons_ne_nil _ _) (fun left hl hne hp => ?_) rest
  match left, hne with
  | [d], _ =>
    obtain rfl : c = d := by simpa using hp
    obtain ⟨front, rfl⟩ := hl
    simp at hlast
  | d :: d' :: left, _ =>
    have hp' : [c, c] <+: d :: d' :: left := by simpa using hp
    exact h (hp'.isInfix.trans hl.isInfix)

theorem getLast?_of_cutAt_twice {c : Char} {cs before after : List Char}
    (h : cutAt [c, c] cs = some (before, after)) : before.getLast? ≠ some c := by
  intro hlast
  obtain ⟨front, rfl⟩ := List.getLast?_eq_some_iff.1 hlast
  exact not_prefix_of_cutAt h (List.suffix_append front [c]) (by simp) (by simp)

theorem cutAt_once {c : Char} {text : List Char} (h : c ∉ text) (rest : List Char) :
    cutAt [c] (text ++ [c] ++ rest) = some (text, rest) := by
  refine cutAt_append (List.cons_ne_nil _ _) (fun left hl hne hp => ?_) rest
  obtain ⟨d, left, rfl⟩ := List.exists_cons_of_ne_nil hne
  obtain rfl : c = d := by simpa using hp
  exact h (hl.subset List.mem_cons_self)

theorem cutAt_append_right {mark cs before after : List Char} (hm : mark ≠ [])
    (h : cutAt mark cs = some (before, after)) (cs' : List Char) :
    cutAt mark (cs ++ cs') = some (before, after ++ cs') := by
  have hcs := eq_append_of_cutAt h
  rw [hcs, List.append_assoc (before ++ mark)]
  exact cutAt_append hm (fun left hl hne => not_prefix_of_cutAt h hl hne) _

theorem skipBlanks_of_not_isBlank {c : Char} (h : isBlank c = false) (cs : List Char) :
    skipBlanks (c :: cs) = c :: cs := by
  simp [skipBlanks, h]

theorem exists_gap (cs : List Char) :
    ∃ gap, cs = gap ++ skipBlanks cs ∧ ∀ c ∈ gap, isBlank c :=
  ⟨cs.takeWhile isBlank, List.takeWhile_append_dropWhile.symm, fun _ => List.mem_takeWhile_imp⟩

theorem isBlank_of_mem_word {c : Char} {cs : List Char} (h : c ∈ word cs) : isBlank c = false := by
  simpa using List.mem_takeWhile_imp h

section

variable {run rest : List Char} (hrun : ∀ c ∈ run, isBlank c = false)
  (hrest : ∀ c ∈ rest.head?, isBlank c)

include hrun hrest

theorem word_append : word (run ++ rest) = run := by
  rw [word, List.takeWhile_append_of_pos (by simpa using hrun)]
  cases rest with
  | nil => simp
  | cons c rest => simp [hrest c rfl]

theorem afterWord_append : afterWord (run ++ rest) = rest := by
  have happend := word_append_afterWord (run ++ rest)
  rw [word_append hrun hrest] at happend
  exact List.append_cancel_left happend

end

theorem prefix_word {text cs : List Char} (htext : ∀ c ∈ text, isBlank c = false)
    (h : text <+: cs) : text <+: word cs := by
  obtain ⟨rest, rfl⟩ := h
  rw [word, List.takeWhile_append_of_pos (by simpa using htext)]
  exact List.prefix_append ..

theorem trim_eq_self {cs : List Char} (hhead : ∀ c ∈ cs.head?, isBlank c = false)
    (hlast : ∀ c ∈ cs.getLast?, isBlank c = false) : trim cs = cs := by
  have hdrop : ∀ l : List Char, (∀ c ∈ l.head?, isBlank c = false) → l.dropWhile isBlank = l := by
    intro l hl
    cases l with
    | nil => rfl
    | cons c l => simp [hl c rfl]
  rw [trim, skipBlanks, hdrop cs hhead, hdrop, List.reverse_reverse]
  rwa [List.head?_reverse]

end Notebook.Text
