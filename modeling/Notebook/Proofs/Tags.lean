import Mathlib.Data.List.Infix
import Notebook.Note.Basic
import Notebook.Proofs.Text

/-! # Tags that can be written

A tags field has no way to escape a bracket, so some tags are not read back as they were written.
The characters of a field that are no blanks show which: those that are lost in reading are the
brackets, and a field that is read back has four of them for each tag with blanks in it.
-/

namespace Notebook.Tags

open Text

def spaced (tag : List Char) : Bool :=
  tag.any isBlank

/-- A tag that is read back as it is written. -/
structure Writable (tag : List Char) : Prop where
  ne_nil : tag ≠ []
  bare : spaced tag = false → ¬ ['[', '['] <+: tag
  inside : spaced tag → ¬ [']', ']'] <:+: tag
  last : spaced tag → tag.getLast? ≠ some ']'

theorem writable_iff {tag : List Char} :
    Writable tag ↔ tag ≠ [] ∧ (spaced tag = false → ¬ ['[', '['] <+: tag) ∧
      (spaced tag → ¬ [']', ']'] <:+: tag) ∧ (spaced tag → tag.getLast? ≠ some ']') :=
  ⟨fun h => ⟨h.ne_nil, h.bare, h.inside, h.last⟩, fun ⟨h, hb, hi, hl⟩ => ⟨h, hb, hi, hl⟩⟩

instance (tag : List Char) : Decidable (Writable tag) :=
  decidable_of_iff _ writable_iff.symm

/-- How a tag stands in a field. -/
def written (tag : List Char) : List Char :=
  if spaced tag then ['[', '['] ++ tag ++ [']', ']'] else tag

def field (tags : List (List Char)) : List Char :=
  [' '].intercalate (tags.map written)

theorem field_cons_cons (tag tag' : List Char) (tags : List (List Char)) :
    field (tag :: tag' :: tags) = written tag ++ ' ' :: field (tag' :: tags) := by
  simp [field]

theorem toList_formatTag (tag : String) : (formatTag tag).toList = written tag.toList := by
  unfold formatTag written spaced
  split <;> simp

theorem toList_format (tags : List String) :
    (format tags).toList = field (tags.map String.toList) := by
  simp [format, field, String.toList_intercalate, toList_formatTag, Function.comp_def]

theorem split_of_skipBlanks_nil {cs : List Char} (h : skipBlanks cs = []) : split cs = [] := by
  rw [split]
  split
  · rfl
  · next heq => simp [h] at heq

theorem split_of_skipBlanks_cons {cs rest : List Char} {c : Char} (h : skipBlanks cs = c :: rest) :
    split cs = (first (c :: rest)).1 :: split (first (c :: rest)).2 := by
  rw [split]
  split
  · next heq => simp [h] at heq
  · next heq =>
    obtain ⟨rfl, rfl⟩ := List.cons.inj (h.symm.trans heq)
    rfl

theorem split_induction {P : List Char → Prop} (nil : ∀ cs, skipBlanks cs = [] → P cs)
    (cons : ∀ cs c rest, skipBlanks cs = c :: rest → P (first (c :: rest)).2 → P cs)
    (cs : List Char) : P cs := by
  induction cs using split.induct with
  | case1 cs hskip => exact nil cs hskip
  | case2 cs c rest hskip ih => exact cons cs c rest hskip ih

/-- A tag as it stands in a field before the rest of it. -/
inductive Item : List Char → List Char → List Char → Prop
  | word {tag rest : List Char} (hne : tag ≠ []) (htag : spaced tag = false)
      (hmark : ¬ ['[', '['] <+: tag) : Item tag rest tag
  | closed {tag rest : List Char} (hfree : ¬ [']', ']'] <:+: tag)
      (hlast : tag.getLast? ≠ some ']') : Item (['[', '['] ++ tag ++ [']', ']']) rest tag
  | unfinished {tag : List Char} (hfree : ¬ [']', ']'] <:+: tag) : Item (['[', '['] ++ tag) [] tag

theorem spaced_word (cs : List Char) : spaced (word cs) = false := by
  rw [spaced, List.any_eq_false]
  intro c hc
  simp [isBlank_of_mem_word hc]

theorem exists_item {c : Char} (hc : isBlank c = false) (cs : List Char) :
    ∃ item, c :: cs = item ++ (first (c :: cs)).2 ∧
      Item item (first (c :: cs)).2 (first (c :: cs)).1 := by
  unfold first
  split
  · next rest heq =>
    rw [heq]
    split
    · next parts hcut =>
      obtain ⟨tag, behind⟩ := parts
      refine ⟨['[', '['] ++ tag ++ [']', ']'], ?_, .closed ?_ (getLast?_of_cutAt_twice hcut)⟩
      · simp [eq_append_of_cutAt hcut]
      · exact not_infix_of_cutAt (List.cons_ne_nil _ _) hcut
    · next hcut =>
      exact ⟨_, (List.append_nil _).symm,
        .unfinished ((cutAt_eq_none (List.cons_ne_nil _ _) rest).1 hcut)⟩
  · next hmark =>
    refine ⟨word (c :: cs), (word_append_afterWord _).symm, .word ?_ (spaced_word _) fun hp => ?_⟩
    · simp [word, hc]
    · obtain ⟨rest, heq⟩ := hp.trans (List.takeWhile_prefix _)
      exact hmark rest heq.symm

theorem written_head {tag : List Char} (h : Writable tag) :
    ∃ c cs, written tag = c :: cs ∧ isBlank c = false := by
  unfold written
  split
  · exact ⟨'[', _, rfl, by decide⟩
  · next hs =>
    obtain ⟨c, cs, rfl⟩ := List.exists_cons_of_ne_nil h.ne_nil
    refine ⟨c, cs, rfl, ?_⟩
    simp only [spaced, List.any_cons, Bool.or_eq_true, not_or, Bool.not_eq_true] at hs
    exact hs.1

theorem first_written {tag rest : List Char} (h : Writable tag)
    (hrest : ∀ c ∈ rest.head?, isBlank c) : first (written tag ++ rest) = (tag, rest) := by
  unfold written
  split
  · next hs =>
    have hcut := cutAt_twice (h.inside hs) (h.last hs) rest
    simp only [List.append_assoc, List.cons_append, List.nil_append, first] at hcut ⊢
    rw [hcut]
  · next hs =>
    have hs : spaced tag = false := by simpa using hs
    have htag : ∀ c ∈ tag, isBlank c = false := fun c hc => by
      simpa using List.any_eq_false.1 hs c hc
    unfold first
    split
    · next inner heq =>
      have hopen : ∀ c ∈ ['[', '['], isBlank c = false := by
        intro c hc
        obtain rfl : c = '[' := by simpa using hc
        decide
      have hmark : ['[', '['] <+: word (tag ++ rest) :=
        prefix_word hopen (heq ▸ ⟨inner, rfl⟩)
      rw [word_append htag hrest] at hmark
      exact absurd hmark (h.bare hs)
    · rw [word_append htag hrest, afterWord_append htag hrest]

theorem split_written {tag rest : List Char} (h : Writable tag)
    (hrest : ∀ c ∈ rest.head?, isBlank c) : split (written tag ++ rest) = tag :: split rest := by
  obtain ⟨c, cs, hw, hc⟩ := written_head h
  have hfirst := first_written h hrest
  rw [hw, List.cons_append] at hfirst ⊢
  rw [split_of_skipBlanks_cons (skipBlanks_of_not_isBlank hc _), hfirst]

theorem split_space (cs : List Char) : split (' ' :: cs) = split cs := by
  have hskip : skipBlanks (' ' :: cs) = skipBlanks cs := rfl
  cases h : skipBlanks cs with
  | nil => rw [split_of_skipBlanks_nil h, split_of_skipBlanks_nil (hskip.trans h)]
  | cons c rest => rw [split_of_skipBlanks_cons h, split_of_skipBlanks_cons (hskip.trans h)]

theorem split_field {tags : List (List Char)} (h : ∀ tag ∈ tags, Writable tag) :
    split (field tags) = tags := by
  induction tags with
  | nil => exact split_of_skipBlanks_nil rfl
  | cons tag tags ih =>
    obtain ⟨htag, htags⟩ := List.forall_mem_cons.1 h
    cases tags with
    | nil =>
      have hend : split [] = [] := split_of_skipBlanks_nil rfl
      have hsplit : split (written tag ++ []) = tag :: split [] := split_written htag (by simp)
      simpa [field, hend] using hsplit
    | cons tag' tags =>
      have hspace : ∀ c ∈ (' ' :: field (tag' :: tags)).head?, isBlank c := by
        rintro c ⟨⟩
        decide
      rw [field_cons_cons, split_written htag hspace, split_space, ih htags]

/-- The number of characters that are no blanks. -/
def ink (cs : List Char) : Nat :=
  cs.countP fun c => !isBlank c

@[simp] theorem ink_append (cs cs' : List Char) : ink (cs ++ cs') = ink cs + ink cs' :=
  List.countP_append

theorem ink_skipBlanks (cs : List Char) : ink (skipBlanks cs) = ink cs := by
  obtain ⟨gap, hcs, hgap⟩ := exists_gap cs
  have hzero : ink gap = 0 := List.countP_eq_zero.2 fun c hc => by simp [hgap c hc]
  have hink := congrArg ink hcs
  rw [ink_append, hzero, Nat.zero_add] at hink
  exact hink.symm

theorem ink_opened (tag : List Char) : ink (['[', '['] ++ tag) = ink tag + 2 := by
  have hmark : ink ['[', '['] = 2 := by decide
  rw [ink_append, hmark, Nat.add_comm]

theorem ink_enclosed (tag : List Char) : ink (['[', '['] ++ tag ++ [']', ']']) = ink tag + 4 := by
  have hclosing : ink [']', ']'] = 2 := by decide
  rw [ink_append, ink_opened, hclosing]

theorem ink_written (tag : List Char) :
    ink (written tag) = if spaced tag then ink tag + 4 else ink tag := by
  unfold written
  split
  · rw [ink_enclosed]
  · rfl

/-- The characters of all tags as they stand in a field. -/
def weight (tags : List (List Char)) : Nat :=
  ink (tags.flatMap written)

theorem weight_cons (tag : List Char) (tags : List (List Char)) :
    weight (tag :: tags) = ink (written tag) + weight tags := by
  rw [weight, List.flatMap_cons, ink_append, weight]

theorem ink_field (tags : List (List Char)) : ink (field tags) = weight tags := by
  induction tags with
  | nil => rfl
  | cons tag tags ih =>
    cases tags with
    | nil => simp [field, weight]
    | cons tag' tags =>
      have hspace : ink (' ' :: field (tag' :: tags)) = ink (field (tag' :: tags)) := rfl
      rw [field_cons_cons, ink_append, hspace, ih, ← weight_cons]

theorem weight_filter (tags : List (List Char)) :
    weight (tags.filter fun tag => !tag.isEmpty) = weight tags := by
  induction tags with
  | nil => rfl
  | cons tag tags ih =>
    cases tag with
    | nil =>
      have hnil : ink (written []) = 0 := rfl
      simpa [weight_cons, hnil] using ih
    | cons c tag => simpa [weight_cons] using ih

/-- An item is as heavy as its tag in a field, unless brackets around a single word are lost or the
field ends before its brackets do. -/
theorem Item.weigh {item rest tag : List Char} (h : Item item rest tag) :
    (ink (written tag) = ink item ∧ Writable tag) ∨ ink (written tag) + 4 = ink item ∨
      (rest = [] ∧ ink (written tag) ≠ ink item ∧ ink (written tag) ≤ ink item + 2) := by
  cases h with
  | word hne htag hmark =>
    refine .inl ⟨by simp [ink_written, htag], hne, fun _ => hmark, ?_, ?_⟩
    · simp [htag]
    · simp [htag]
  | closed hfree hlast =>
    rw [ink_enclosed, ink_written]
    cases hs : spaced tag with
    | true =>
      refine .inl ⟨if_pos rfl, ?_, by simp [hs], fun _ => hfree, fun _ => hlast⟩
      rintro rfl
      cases hs
    | false => exact .inr (.inl rfl)
  | unfinished hfree =>
    rw [ink_opened, ink_written]
    refine .inr (.inr ⟨rfl, ?_⟩)
    split <;> omega

/-- Only brackets without an end make tags heavier than the field that they are read from. If they
are as heavy as the field, they can be written. -/
theorem weight_split (cs : List Char) :
    weight (split cs) ≤ ink cs + 2 ∧
      (weight (split cs) = ink cs → ∀ tag ∈ split cs, Writable tag) := by
  induction cs using split_induction with
  | nil cs hskip =>
    rw [split_of_skipBlanks_nil hskip]
    exact ⟨Nat.zero_le _, fun _ => List.forall_mem_nil _⟩
  | cons cs c rest hskip ih =>
    obtain ⟨item, hitem, h⟩ := exists_item (isBlank_head_skipBlanks hskip) rest
    have hink : ink cs = ink item + ink (first (c :: rest)).2 := by
      rw [← ink_skipBlanks cs, hskip, ← ink_append, ← hitem]
    rw [split_of_skipBlanks_cons hskip, weight_cons, hink]
    obtain ⟨hle, hwritable⟩ := ih
    rcases h.weigh with ⟨heq, htag⟩ | hlost | ⟨hrest, hne, hweight⟩
    · refine ⟨by omega, fun hsum => List.forall_mem_cons.2 ⟨htag, hwritable ?_⟩⟩
      omega
    · exact ⟨by omega, fun hsum => by omega⟩
    · have hnil : weight (split []) = 0 := by
        rw [split_of_skipBlanks_nil rfl]
        rfl
      rw [hrest, hnil]
      exact ⟨by omega, fun hsum => absurd hsum hne⟩

theorem filter_split_field_iff {tags : List (List Char)} :
    (split (field tags)).filter (fun tag => !tag.isEmpty) = tags ↔
      ∀ tag ∈ tags, Writable tag := by
  constructor
  · intro h tag htag
    have hweight : weight (split (field tags)) = ink (field tags) := by
      rw [ink_field, ← weight_filter, h]
    rw [← h] at htag
    exact (weight_split _).2 hweight tag (List.mem_filter.1 htag).1
  · intro h
    rw [split_field h, List.filter_eq_self]
    intro tag htag
    simpa using (h tag htag).ne_nil

theorem map_toList_parse (text : String) :
    (parse text).map String.toList = (split text.toList).filter fun tag => !tag.isEmpty := by
  simp [parse, Function.comp_def]

theorem parse_format_eq_iff {tags : List String} :
    parse (format tags) = tags ↔ ∀ tag ∈ tags, Writable tag.toList := by
  rw [← List.map_inj_right fun _ _ => String.toList_inj.1, map_toList_parse, toList_format,
    filter_split_field_iff, List.forall_mem_map]

/-- A list of tags is read back from its field exactly if all of them can be written. A note with
such tags has these tags and no others. -/
theorem parse_format_iff (tags : List String) :
    (parse (format tags) = tags ↔ ∀ tag ∈ tags, Writable tag.toList) ∧
      ∀ note : Note, (∀ tag ∈ tags, Writable tag.toList) →
        (note.withTags tags).tags = tags ∧
          ∀ tag, (note.withTags tags).hasTag tag ↔ tag ∈ tags := by
  refine ⟨parse_format_eq_iff, fun note h => ?_⟩
  have htags : (note.withTags tags).tags = tags := by
    simp only [Note.tags, Note.withTags, Note.withField, Catalog.get?_insert, if_true]
    exact parse_format_eq_iff.2 h
  refine ⟨htags, fun tag => ?_⟩
  rw [Note.hasTag, htags]
  exact List.contains_iff_mem

theorem parse_format_spaced :
    (∀ tag ∈ ["multi word", "a[b]"], Writable tag.toList) ∧
      parse (format ["multi word", "a[b]"]) = ["multi word", "a[b]"] ∧
      ∀ note : Note, (note.withTags ["multi word", "a[b]"]).tags = ["multi word", "a[b]"] := by
  have h : ∀ tag ∈ ["multi word", "a[b]"], Writable tag.toList := by
    decide
  have hall := parse_format_iff ["multi word", "a[b]"]
  exact ⟨h, hall.1.2 h, fun note => (hall.2 note h).1⟩

theorem Item.not_infix {item rest tag : List Char} (h : Item item rest tag) (hs : spaced tag) :
    ¬ [']', ']'] <:+: tag := by
  cases h with
  | word hne htag hmark => simp [htag] at hs
  | closed hfree hlast => exact hfree
  | unfinished hfree => exact hfree

theorem not_infix_of_mem_split {cs tag : List Char} (h : tag ∈ split cs) (hs : spaced tag) :
    ¬ [']', ']'] <:+: tag := by
  induction cs using split_induction with
  | nil cs hskip => simp [split_of_skipBlanks_nil hskip] at h
  | cons cs c rest hskip ih =>
    rw [split_of_skipBlanks_cons hskip] at h
    rcases List.mem_cons.1 h with rfl | h
    · obtain ⟨item, -, hitem⟩ := exists_item (isBlank_head_skipBlanks hskip) rest
      exact hitem.not_infix hs
    · exact ih h

/-- The tags of a field stay the same when they are written again, exactly if no single word among
them begins with brackets and none with blanks ends with a bracket. -/
theorem parse_format_parse_iff (text : String) :
    parse (format (parse text)) = parse text ↔
      ∀ tag ∈ parse text, (spaced tag.toList = false → ¬ ['[', '['] <+: tag.toList) ∧
        (spaced tag.toList → tag.toList.getLast? ≠ some ']') := by
  rw [parse_format_eq_iff]
  refine forall₂_congr fun tag htag => ⟨fun h => ⟨h.bare, h.last⟩, fun ⟨hbare, hlast⟩ => ?_⟩
  have hmem : tag.toList ∈ (split text.toList).filter fun tag => !tag.isEmpty := by
    rw [← map_toList_parse]
    exact List.mem_map_of_mem htag
  obtain ⟨hsplit, hne⟩ := List.mem_filter.1 hmem
  exact ⟨by simpa using hne, hbare, not_infix_of_mem_split hsplit, hlast⟩

theorem parse_format_parse_brackets :
    parse "[[[[a]]" = ["[[a"] ∧ parse (format (parse "[[[[a]]")) = ["a"] ∧
      parse "[[a b]" = ["a b]"] ∧ parse (format (parse "[[a b]")) = ["a b", "]"] := by
  decide +kernel

end Notebook.Tags
