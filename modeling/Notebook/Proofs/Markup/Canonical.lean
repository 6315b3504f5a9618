import Notebook.Proofs.Markup.Enclosures

/-! # Calls in canonical form

A call in canonical form has one space before each of its parameters and marks around each of its
values. It is read back as it stands, whatever its literals and the text behind it are.
-/

namespace Notebook.Markup

open Text

/-- A name of a macro that can be written in a call. -/
structure Callee where
  chars : List Char
  ne_nil : chars ≠ []
  plain : ∀ c ∈ chars, isBlank c = false ∧ c ∉ ['"', '[', '\x7b', '\x7d', '>']

/-- A name that can be written before a value. -/
structure Label where
  chars : List Char
  ne_nil : chars ≠ []
  plain : ∀ c ∈ chars, isNameChar c

/-- A literal parameter of a call between braces. -/
structure QuotedParam where
  label : Option Label
  text : List Char
  quotes : '"' ∉ text
  braces : ¬ ['\x7d', '\x7d'] <:+: text

inductive CanonicalValue where
  | quoted (text : List Char) (h : '"' ∉ text)
  | bracketed (text : List Char) (h : ¬ [']', ']'] <:+: text)
      (hlast : text.getLast? ≠ some ']')
  | braced (callee : Callee) (params : List QuotedParam)

structure CanonicalParam where
  label : Option Label
  value : CanonicalValue

structure CanonicalCall where
  callee : Callee
  params : List CanonicalParam

def tag (label : Option Label) : List Char :=
  (label.map fun l => l.chars ++ [':']).getD []

def lead (label : Option Label) : List Char :=
  ' ' :: tag label

namespace QuotedParam

def written (p : QuotedParam) : List Char :=
  lead p.label ++ Enclosure.quotes.wrap p.text

def param (p : QuotedParam) : Param :=
  .literal (p.label.map fun l => String.ofList l.chars) (String.ofList p.text)

end QuotedParam

namespace CanonicalValue

def enclosure : CanonicalValue → Enclosure
  | quoted .. => .quotes
  | bracketed .. => .brackets
  | braced .. => .braces

def inner : CanonicalValue → List Char
  | quoted text _ => text
  | bracketed text .. => text
  | braced callee params => callee.chars ++ params.flatMap QuotedParam.written

def written (v : CanonicalValue) : List Char :=
  v.enclosure.wrap v.inner

def param (name : Option String) : CanonicalValue → Param
  | quoted text _ => .literal name (String.ofList text)
  | bracketed text .. => .literal name (String.ofList text)
  | braced callee params => .call name (String.ofList callee.chars) (params.map QuotedParam.param)

end CanonicalValue

namespace CanonicalParam

def written (p : CanonicalParam) : List Char :=
  lead p.label ++ p.value.written

def param (p : CanonicalParam) : Param :=
  p.value.param (p.label.map fun l => String.ofList l.chars)

end CanonicalParam

namespace CanonicalCall

def body (c : CanonicalCall) : List Char :=
  c.callee.chars ++ c.params.flatMap CanonicalParam.written

def written (c : CanonicalCall) : List Char :=
  ['<', '<'] ++ c.body ++ ['>', '>']

def call (c : CanonicalCall) : Call :=
  ⟨String.ofList c.callee.chars, c.params.map CanonicalParam.param⟩

end CanonicalCall

theorem Callee.startsMark_eq_false (n : Callee) : ∀ c ∈ n.chars, startsMark c = false := by
  intro c hc
  have h := (n.plain c hc).2
  simp only [List.mem_cons, List.not_mem_nil, or_false, not_or] at h
  simp [startsMark, h]

theorem mem_lead {label : Option Label} {c : Char} (h : c ∈ lead label) :
    c = ' ' ∨ c = ':' ∨ isNameChar c := by
  rcases List.mem_cons.1 h with rfl | h
  · exact .inl rfl
  · cases label with
    | none => cases h
    | some l =>
      rcases List.mem_append.1 h with h | h
      · exact .inr (.inr (l.plain c h))
      · exact .inr (.inl (List.mem_singleton.1 h))

theorem passed_lead (label : Option Label) : Passed (lead label) := by
  refine passed_of_not_startsMark fun c hc => ?_
  rcases mem_lead hc with rfl | rfl | hc
  · rfl
  · rfl
  · exact startsMark_of_isNameChar hc

theorem not_infix_twice_iff {c : Char} {cs : List Char} :
    ¬ [c, c] <:+: cs ↔ cs.IsChain fun a b => ¬ (a = c ∧ b = c) := by
  rw [List.isChain_iff_forall_rel_of_append_cons_cons]
  constructor
  · rintro h _ _ front rest rfl ⟨rfl, rfl⟩
    exact h ⟨front, rest, by simp⟩
  · rintro h ⟨front, rest, rfl⟩
    have heq : front ++ [c, c] ++ rest = front ++ c :: c :: rest := by simp
    exact h heq ⟨rfl, rfl⟩

theorem not_infix_twice_append {c : Char} {cs cs' : List Char} (h : ¬ [c, c] <:+: cs)
    (h' : ¬ [c, c] <:+: cs') (hc : cs.getLast? ≠ some c ∨ cs'.head? ≠ some c) :
    ¬ [c, c] <:+: cs ++ cs' := by
  rw [not_infix_twice_iff] at h h' ⊢
  refine List.isChain_append.2 ⟨h, h', fun a ha b hb => ?_⟩
  rintro ⟨rfl, rfl⟩
  exact hc.elim (fun hc => hc ha) fun hc => hc hb

theorem not_infix_twice_of_not_mem {c : Char} {cs : List Char} (h : c ∉ cs) :
    ¬ [c, c] <:+: cs :=
  fun hi => h (hi.subset List.mem_cons_self)

theorem exists_getLast_of_flatMap {α : Type} {f : α → List Char} {xs : List α} {c : Char}
    (h : c ∈ (xs.flatMap f).getLast?) : ∃ x ∈ xs, c ∈ (f x).getLast? := by
  induction xs with
  | nil => cases h
  | cons x xs ih =>
    rw [List.flatMap_cons, List.getLast?_append, Option.mem_def, Option.or_eq_some_iff] at h
    rcases h with h | ⟨-, h⟩
    · obtain ⟨y, hy, hc⟩ := ih h
      exact ⟨y, List.mem_cons_of_mem _ hy, hc⟩
    · exact ⟨x, List.mem_cons_self, h⟩

namespace QuotedParam

theorem not_infix_written (p : QuotedParam) : ¬ ['\x7d', '\x7d'] <:+: p.written := by
  have hlead : '\x7d' ∉ lead p.label := by
    intro hc
    rcases mem_lead hc with hc | hc | hc <;> revert hc <;> decide
  have hquote : ¬ ['\x7d', '\x7d'] <:+: ['"'] := not_infix_twice_of_not_mem (by decide)
  have hopened : ¬ ['\x7d', '\x7d'] <:+: lead p.label ++ ['"'] :=
    not_infix_twice_of_not_mem (by simpa using hlead)
  have htext := not_infix_twice_append hopened p.braces (.inl (by simp))
  have hclosed := not_infix_twice_append htext hquote (.inr (by decide))
  simpa [written, Enclosure.wrap, Enclosure.mark, Enclosure.closing] using hclosed

/-- The last character of a parameter is a quote, so it makes no closing mark with what follows. -/
theorem getLast?_written (p : QuotedParam) : p.written.getLast? = some '"' := by
  have h : p.written = lead p.label ++ ['"'] ++ p.text ++ ['"'] := by
    simp [written, Enclosure.wrap, Enclosure.mark, Enclosure.closing]
  rw [h, List.getLast?_concat]

theorem not_infix_flatMap_written (params : List QuotedParam) :
    ¬ ['\x7d', '\x7d'] <:+: params.flatMap written := by
  induction params with
  | nil => simp
  | cons p params ih =>
    refine not_infix_twice_append p.not_infix_written ih (.inl ?_)
    rw [p.getLast?_written]
    decide

end QuotedParam

namespace CanonicalValue

theorem closes_braced (callee : Callee) (params : List QuotedParam) :
    Enclosure.braces.Closes (callee.chars ++ params.flatMap QuotedParam.written) := by
  have hname : '\x7d' ∉ callee.chars := fun hc => (callee.plain _ hc).2 (by decide)
  have hlast : callee.chars.getLast? ≠ some '\x7d' := fun hc => hname (List.mem_of_mem_getLast? hc)
  refine Enclosure.closes_braces ?_ ?_
  · exact not_infix_twice_append (not_infix_twice_of_not_mem hname)
      (QuotedParam.not_infix_flatMap_written params) (.inl hlast)
  · intro h
    rw [List.getLast?_append, Option.or_eq_some_iff] at h
    rcases h with h | ⟨-, h⟩
    · obtain ⟨p, -, hp⟩ := exists_getLast_of_flatMap h
      rw [p.getLast?_written] at hp
      cases hp
    · exact hlast h

theorem closes (v : CanonicalValue) : v.enclosure.Closes v.inner := by
  cases v with
  | quoted text h => exact Enclosure.closes_quotes h
  | bracketed text h hlast => exact Enclosure.closes_brackets h hlast
  | braced callee params => exact closes_braced callee params

end CanonicalValue

theorem CanonicalCall.passed_body (c : CanonicalCall) : Passed c.body :=
  (passed_of_not_startsMark c.callee.startsMark_eq_false).append
    (passed_flatMap _ fun p => (passed_lead p.label).append (passed_wrap p.value.closes))

/-- A name is read before its colon. Where none is written, none must be there to read. -/
theorem splitName_tag {label : Option Label} {cs : List Char}
    (h : label = none → ∀ l : Label, ¬ l.chars ++ [':'] <+: cs) :
    splitName (tag label ++ cs) = (label.map Label.chars, cs) := by
  cases label with
  | none =>
    change splitName cs = (none, cs)
    simp only [splitName]
    split
    · next rest hdrop =>
      split
      · rfl
      · next hne =>
        have hcs : cs = cs.takeWhile isNameChar ++ ':' :: rest := by
          rw [← hdrop, List.takeWhile_append_dropWhile]
        have hplain : ∀ c ∈ cs.takeWhile isNameChar, isNameChar c := fun _ => List.mem_takeWhile_imp
        refine absurd ⟨rest, ?_⟩ (h rfl ⟨_, by simpa using hne, hplain⟩)
        simpa using hcs.symm
    · rfl
  | some l =>
    have hpos : ∀ c ∈ l.chars, isNameChar c = true := l.plain
    have hcolon : isNameChar ':' = false := by decide
    have heq : tag (some l) ++ cs = l.chars ++ ':' :: cs := by
      simp [tag]
    have htake : (l.chars ++ ':' :: cs).takeWhile isNameChar = l.chars := by
      rw [List.takeWhile_append_of_pos hpos, List.takeWhile_cons_of_neg (by simp [hcolon]),
        List.append_nil]
    have hdrop : (l.chars ++ ':' :: cs).dropWhile isNameChar = ':' :: cs := by
      rw [List.dropWhile_append_of_pos hpos, List.dropWhile_cons_of_neg (by simp [hcolon])]
    rw [heq, splitName, htake, hdrop]
    simp [l.ne_nil]

theorem Label.not_prefix_mark (l : Label) (e : Enclosure) (cs : List Char) :
    ¬ l.chars ++ [':'] <+: e.mark ++ cs := by
  obtain ⟨c, chars, hl⟩ := List.exists_cons_of_ne_nil l.ne_nil
  have hc : startsMark c = false := startsMark_of_isNameChar (l.plain c (hl ▸ List.mem_cons_self))
  rw [hl, List.cons_append]
  intro h
  cases e <;>
    · obtain ⟨rfl, -⟩ := List.cons_prefix_cons.1 h
      cases hc

theorem splitName_tag_wrap (label : Option Label) (e : Enclosure) (text rest : List Char) :
    splitName (tag label ++ e.wrap text ++ rest) =
      (label.map Label.chars, e.wrap text ++ rest) := by
  rw [List.append_assoc]
  refine splitName_tag fun _ l => ?_
  rw [Enclosure.wrap, List.append_assoc, List.append_assoc]
  exact l.not_prefix_mark e _

theorem skipBlanks_lead_wrap (label : Option Label) (e : Enclosure) (text rest : List Char) :
    ∃ c cs, skipBlanks (lead label ++ e.wrap text ++ rest) = c :: cs ∧
      c :: cs = tag label ++ e.wrap text ++ rest := by
  have hspace : ∀ cs, skipBlanks (' ' :: cs) = skipBlanks cs := fun cs => rfl
  have hlead : lead label ++ e.wrap text ++ rest = ' ' :: (tag label ++ e.wrap text ++ rest) := rfl
  rw [hlead, hspace]
  cases label with
  | none => cases e <;> exact ⟨_, _, rfl, rfl⟩
  | some l =>
    obtain ⟨c, cs, hl⟩ := List.exists_cons_of_ne_nil l.ne_nil
    have hc : isNameChar c := l.plain c (hl ▸ List.mem_cons_self)
    refine ⟨c, cs ++ ':' :: (e.wrap text ++ rest), ?_, ?_⟩
    · simp [tag, hl, skipBlanks_of_not_isBlank (isBlank_of_isNameChar hc)]
    · simp [tag, hl]

theorem parseParams_lead_wrap (label : Option Label) {e : Enclosure} {text : List Char}
    (h : e.Closes text) (rest : List Char) :
    parseParams (lead label ++ e.wrap text ++ rest) =
      (if e = .braces then RawValue.call text else .literal text).param
        (label.map fun l => String.ofList l.chars) :: parseParams rest := by
  obtain ⟨c, cs, hskip, hcs⟩ := skipBlanks_lead_wrap label e text rest
  rw [parseParams_of_skipBlanks_cons hskip, hcs, splitName_tag_wrap, rawValue_wrap h,
    Option.map_map]
  rfl

theorem parseParams_nil : parseParams [] = [] :=
  parseParams_of_skipBlanks_nil rfl

theorem QuotedParam.parseParams_written (params : List QuotedParam) :
    parseParams (params.flatMap written) = params.map param := by
  induction params with
  | nil => exact parseParams_nil
  | cons p params ih =>
    rw [List.flatMap_cons, written, parseParams_lead_wrap _ (Enclosure.closes_quotes p.quotes), ih]
    rfl

theorem Callee.callParts_append (n : Callee) {α : Type} {f : α → List Char} (xs : List α)
    (hhead : ∀ x, (f x).head? = some ' ')
    (hlast : ∀ x, ∀ c ∈ (f x).getLast?, isBlank c = false) :
    callParts? (n.chars ++ xs.flatMap f) = some (n.chars, xs.flatMap f) := by
  refine Markup.callParts_append n.ne_nil (fun c hc => (n.plain c hc).1) (fun c hc => ?_)
    fun c hc => ?_
  · cases xs with
    | nil => cases hc
    | cons x xs =>
      rw [List.flatMap_cons, List.head?_append, hhead] at hc
      cases hc
      decide
  · obtain ⟨x, -, hx⟩ := exists_getLast_of_flatMap hc
    exact hlast x c hx

theorem Enclosure.getLast?_wrap (e : Enclosure) (front text : List Char) :
    ∀ c ∈ (front ++ e.wrap text).getLast?, isBlank c = false := by
  intro c hc
  rw [wrap, ← List.append_assoc, List.getLast?_append] at hc
  cases e <;> cases hc <;> decide

theorem CanonicalValue.param_eq (v : CanonicalValue) (name : Option String) :
    (if v.enclosure = .braces then RawValue.call v.inner else .literal v.inner).param name =
      v.param name := by
  cases v with
  | quoted text h => rfl
  | bracketed text h hlast => rfl
  | braced callee params =>
    have hparts : callParts? (callee.chars ++ params.flatMap QuotedParam.written) =
        some (callee.chars, params.flatMap QuotedParam.written) :=
      callee.callParts_append params (fun _ => rfl) fun p =>
        Enclosure.getLast?_wrap .quotes (lead p.label) p.text
    simp only [enclosure, inner, if_true, RawValue.param, hparts, CanonicalValue.param,
      QuotedParam.parseParams_written]

theorem CanonicalParam.parseParams_written (params : List CanonicalParam) :
    parseParams (params.flatMap written) = params.map param := by
  induction params with
  | nil => exact parseParams_nil
  | cons p params ih =>
    rw [List.flatMap_cons, written, CanonicalValue.written,
      parseParams_lead_wrap _ p.value.closes, ih, p.value.param_eq]
    rfl

namespace CanonicalCall

theorem parseCall_body (c : CanonicalCall) : parseCall? c.body = some c.call := by
  have hparts : callParts? c.body =
      some (c.callee.chars, c.params.flatMap CanonicalParam.written) :=
    c.callee.callParts_append c.params (fun _ => rfl) fun p =>
      Enclosure.getLast?_wrap p.value.enclosure (lead p.label) p.value.inner
  rw [parseCall?, hparts, Option.map_some, CanonicalParam.parseParams_written]
  rfl

theorem callHere_written (c : CanonicalCall) (tail : List Char) :
    callHere? (c.written ++ tail) = some (c.call, tail) := by
  have heq : c.written ++ tail = '<' :: '<' :: (c.body ++ ['>', '>'] ++ tail) := by
    simp [written]
  rw [heq]
  simp only [callHere?, c.passed_body.splitClosing_eq, c.parseCall_body, Option.bind_eq_bind,
    Option.bind_some]
  rfl

end CanonicalCall

theorem parseChars_of_construct {cs after : List Char} {k : Construct}
    (h : construct? cs = some (k, after)) : parseChars cs = k.node :: parseChars after := by
  have hrun : plainRun cs = ([], cs) := by
    cases cs with
    | nil => rfl
    | cons c cs => simp [plainRun, h]
  have hbehind : construct? (plainRun cs).2 = some (k, after) := by
    rw [hrun]
    exact h
  rw [parseChars_of_some hbehind, hrun]
  rfl

/-- A call in canonical form is read as the call that it writes down, and what is behind it as if
it stood alone. -/
theorem parse_written (c : CanonicalCall) (tail : String) :
    parse (String.ofList c.written ++ tail) = .ofCall c.call :: parse tail := by
  have hconstruct : construct? (c.written ++ tail.toList) = some (.call c.call, tail.toList) := by
    simp only [construct?, c.callHere_written]
  rw [parse, String.toList_append, String.toList_ofList, parseChars_of_construct hconstruct]
  rfl

def recipeLabel : Label :=
  ⟨['w', 'i', 't', 'h'], by decide, by simp [isNameChar]⟩

def recipeView : CanonicalValue :=
  .braced ⟨['v', 'i', 'e', 'w'], by decide, by simp [isBlank]⟩
    [⟨none, ['s', 'a', 'y', ' ', '>', '>'], by decide, by decide⟩]

def recipe : CanonicalCall where
  callee := ⟨['e', 'c', 'h', 'o'], by decide, by simp [isBlank]⟩
  params := [
    ⟨none, .quoted ['a', ' ', '>', '>', ' ', 'b'] (by decide)⟩,
    ⟨some recipeLabel, .bracketed ['"', 'c', ']', '"'] (by decide) (by decide)⟩,
    ⟨some recipeLabel, recipeView⟩]

/-- A quoted, a bracketed and a braced value, with marks of other kinds in them. -/
theorem parse_written_recipe :
    parse "<<echo \"a >> b\" with:[[\"c]\"]] with:\x7b\x7bview \"say >>\"\x7d\x7d>> on" =
      .ofCall ⟨"echo", [.literal none "a >> b", .literal (some "with") "\"c]\"",
        .call (some "with") "view" [.literal none "say >>"]]⟩ :: parse " on" :=
  parse_written recipe " on"

end Notebook.Markup
