import Notebook.Proofs.Markup.Enclosures

/-! # Where calls end

A call ends at the first `>>` that lies in none of its values between marks, unless an opening
mark stands in its name or in a bare value. The search for the end takes such a mark for the
beginning of a value too, although no value begins there.
-/

namespace Notebook.Markup

open Text

def Enclosure.text (e : Enclosure) (after : List Char) : List Char :=
  ((cutAt e.closing after).getD (after, [])).1

/-- A value of the parameters begins with `start`, and `front` is the text before it. -/
inductive ValueAt : List Char → List Char → List Char → Prop
  | first {cs rest front : List Char} {c : Char} (hskip : skipBlanks cs = c :: rest)
      (hcs : cs = front ++ (splitName (c :: rest)).2) :
      ValueAt cs front (splitName (c :: rest)).2
  | later {cs rest used front start : List Char} {c : Char} (hskip : skipBlanks cs = c :: rest)
      (hcs : cs = used ++ (rawValue (splitName (c :: rest)).2).2)
      (h : ValueAt (rawValue (splitName (c :: rest)).2).2 front start) :
      ValueAt cs (used ++ front) start

/-- The name and the parameters of a call, and the blanks around them. -/
structure BodyParts (body lead name params trail : List Char) : Prop where
  eq : body = lead ++ name ++ params ++ trail
  blank : ∀ c ∈ lead ++ trail, isBlank c
  parts : callParts? body = some (name, params)

inductive ArgumentAt (body : List Char) : List Char → List Char → Prop
  | mk {lead name params trail front start : List Char}
      (h : BodyParts body lead name params trail) (hv : ValueAt params front start) :
      ArgumentAt body (lead ++ name ++ front) start

/-- The text stands between the marks of a value, and `front` is all before it. -/
inductive EnclosedAt (body : List Char) : List Char → List Char → Prop
  | mk {front start after : List Char} {e : Enclosure} (h : ArgumentAt body front start)
      (ho : opening? start = some (e, after)) : EnclosedAt body (front ++ e.mark) (e.text after)

/-- The word is the name of the call or a value without marks, and `front` is all before it. -/
inductive BareAt (body : List Char) : List Char → List Char → Prop
  | name {lead name params trail : List Char} (h : BodyParts body lead name params trail) :
      BareAt body lead name
  | value {front start : List Char} (h : ArgumentAt body front start)
      (ho : opening? start = none) : BareAt body front (word start)

/-- A `>>` behind `done` lies between the marks of a value. -/
def InValue (body done : List Char) : Prop :=
  ∃ front text part, EnclosedAt body front text ∧ done = front ++ part ∧
    part ++ ['>', '>'] <+: text

/-- An opening mark stands here, and its closing mark further on. -/
def Marked (cs : List Char) : Prop :=
  ∃ e after, opening? cs = some (e, after) ∧ e.closing <:+: after

/-- Somewhere before the end of `done`, such a mark stands in the name or in a bare value. -/
def Misled (cs body done : List Char) : Prop :=
  ∃ front word left rest, BareAt body front (word ++ left) ∧ left ≠ [] ∧
    cs = front ++ word ++ rest ∧ Marked rest ∧ (front ++ word).length < done.length

theorem place_cases {cs cs' done left : List Char} (h : cs ++ cs' = done ++ ['>', '>'] ++ left) :
    done ++ ['>', '>'] <+: cs ∨ cs = done ++ ['>'] ∧ cs' = '>' :: left ∨
      ∃ done', done = cs ++ done' ∧ cs' = done' ++ ['>', '>'] ++ left := by
  rw [List.append_assoc] at h
  rcases List.append_eq_append_iff.1 h with ⟨done', rfl, hleft⟩ | ⟨rest, rfl, hleft⟩
  · exact .inr (.inr ⟨done', rfl, by simpa using hleft⟩)
  · match rest, hleft with
    | [], hleft => exact .inr (.inr ⟨[], by simp, hleft.symm⟩)
    | [_], hleft =>
      obtain ⟨rfl, rfl⟩ := List.cons.inj hleft
      exact .inr (.inl ⟨rfl, rfl⟩)
    | _ :: _ :: rest, hleft =>
      obtain ⟨rfl, htail⟩ := List.cons.inj hleft
      obtain ⟨rfl, -⟩ := List.cons.inj htail
      exact .inl ⟨rest, by simp⟩

theorem place_of_not_mem {cs cs' done left : List Char} (hcs : '>' ∉ cs)
    (h : cs ++ cs' = done ++ ['>', '>'] ++ left) :
    ∃ done', done = cs ++ done' ∧ cs' = done' ++ ['>', '>'] ++ left := by
  rcases place_cases h with hp | ⟨rfl, -⟩ | h
  · exact absurd (hp.subset (by simp)) hcs
  · simp at hcs
  · exact h

theorem getLast?_cons_of_splitClosing {c : Char} {rest body after : List Char}
    (hend : ∀ left, c = '>' → rest = '>' :: left → False)
    (h : splitClosing rest = some (body, after)) (hbody : body.getLast? ≠ some '>') :
    (c :: body).getLast? ≠ some '>' := by
  cases body with
  | nil =>
    intro hc
    obtain rfl : c = '>' := by simpa using hc
    exact hend _ rfl (eq_append_of_splitClosing h)
  | cons d body => rwa [List.getLast?_cons_cons]

/-- A call ends as early as it can, so no `>` stands before its end. -/
theorem getLast?_of_splitClosing {cs body after : List Char}
    (h : splitClosing cs = some (body, after)) : body.getLast? ≠ some '>' := by
  fun_induction splitClosing cs generalizing body with
  | case1 => cases h
  | case2 rest =>
    obtain ⟨rfl, -⟩ := Prod.mk.inj (Option.some.inj h)
    simp
  | case3 c rest _ e after' hopen inner behind hcut ih =>
    obtain ⟨⟨front, behind'⟩, hparts, heq⟩ := Option.map_eq_some_iff.1 h
    obtain ⟨rfl, rfl⟩ := Prod.mk.inj heq
    rw [List.getLast?_append, Ne, Option.or_eq_some_iff, not_or]
    refine ⟨ih hparts, fun hlast => ?_⟩
    rw [List.getLast?_append] at hlast
    cases e <;> simp [Enclosure.closing] at hlast
  | case4 c rest hend e after' hopen hcut ih =>
    obtain ⟨⟨front, behind⟩, hparts, heq⟩ := Option.map_eq_some_iff.1 h
    obtain ⟨rfl, rfl⟩ := Prod.mk.inj heq
    exact getLast?_cons_of_splitClosing hend hparts (ih hparts)
  | case5 c rest hend hopen ih =>
    obtain ⟨⟨front, behind⟩, hparts, heq⟩ := Option.map_eq_some_iff.1 h
    obtain ⟨rfl, rfl⟩ := Prod.mk.inj heq
    exact getLast?_cons_of_splitClosing hend hparts (ih hparts)

theorem not_marked_of_not_startsMark {c : Char} (h : startsMark c = false) (cs : List Char) :
    ¬ Marked (c :: cs) := by
  rintro ⟨e, after, hopen, -⟩
  simp [opening_eq_none h] at hopen

theorem splitClosing_step {c : Char} {rest body after : List Char} (hm : ¬ Marked (c :: rest))
    (h : splitClosing (c :: rest) = some (c :: body, after)) :
    ¬ ['>', '>'] <+: c :: rest ∧ splitClosing rest = some (body, after) := by
  have hend : ¬ ['>', '>'] <+: c :: rest := by
    rintro ⟨left, heq⟩
    rw [← heq, List.cons_append, List.cons_append, List.nil_append, splitClosing_here] at h
    cases h
  refine ⟨hend, ?_⟩
  rw [splitClosing_cons hend fun e after hopen => ?_] at h
  · obtain ⟨parts, hparts, heq⟩ := Option.map_eq_some_iff.1 h
    cases heq
    exact hparts
  · rw [cutAt_eq_none e.closing_ne_nil]
    exact fun hclosing => hm ⟨e, after, hopen, hclosing⟩

/-- The search goes over a run of text, unless a mark in it is closed further on. Until then, it
does not meet a `>>`. -/
theorem run_cases {run rest body after : List Char}
    (h : splitClosing (run ++ rest) = some (run ++ body, after)) :
    ((∀ done left, run ++ rest = done ++ ['>', '>'] ++ left → ∃ done', done = run ++ done') ∧
      splitClosing rest = some (body, after)) ∨
    ∃ word behind, run = word ++ behind ∧ behind ≠ [] ∧ Marked (behind ++ rest) ∧
      ∀ done left, run ++ rest = done ++ ['>', '>'] ++ left → word.length < done.length := by
  induction run with
  | nil => exact .inl ⟨fun done _ _ => ⟨done, rfl⟩, h⟩
  | cons c run ih =>
    by_cases hm : Marked (c :: (run ++ rest))
    · refine .inr ⟨[], c :: run, rfl, List.cons_ne_nil _ _, hm, fun done left heq => ?_⟩
      cases done with
      | nil =>
        obtain ⟨rfl, -⟩ := List.cons.inj heq
        obtain ⟨e, after, hopen, -⟩ := hm
        simp [opening?] at hopen
      | cons => simp
    · obtain ⟨hend, hstep⟩ := splitClosing_step hm h
      have hcons : ∀ done left, c :: (run ++ rest) = done ++ ['>', '>'] ++ left →
          ∃ done', done = c :: done' ∧ run ++ rest = done' ++ ['>', '>'] ++ left := by
        intro done left heq
        cases done with
        | nil => exact absurd ⟨left, heq.symm⟩ hend
        | cons d done =>
          obtain ⟨rfl, htail⟩ := List.cons.inj heq
          exact ⟨done, rfl, htail⟩
      rcases ih hstep with ⟨hrun, hrest⟩ | ⟨word, behind, rfl, hne, hmarked, hrun⟩
      · refine .inl ⟨fun done left heq => ?_, hrest⟩
        obtain ⟨done', rfl, htail⟩ := hcons done left heq
        obtain ⟨done'', rfl⟩ := hrun done' left htail
        exact ⟨done'', rfl⟩
      · refine .inr ⟨c :: word, behind, rfl, hne, hmarked, fun done left heq => ?_⟩
        obtain ⟨done', rfl, htail⟩ := hcons done left heq
        exact Nat.succ_lt_succ (hrun done' left htail)

theorem run_of_not_startsMark {run rest body after : List Char}
    (hrun : ∀ c ∈ run, startsMark c = false)
    (h : splitClosing (run ++ rest) = some (run ++ body, after)) :
    splitClosing rest = some (body, after) := by
  rcases run_cases h with ⟨-, h⟩ | ⟨word, behind, rfl, hne, hmarked, -⟩
  · exact h
  · obtain ⟨c, behind, rfl⟩ := List.exists_cons_of_ne_nil hne
    exact absurd hmarked (not_marked_of_not_startsMark (hrun c (by simp)) _)

theorem not_mem_of_not_startsMark {cs : List Char} (h : ∀ c ∈ cs, startsMark c = false) :
    '>' ∉ cs :=
  fun hc => absurd (h _ hc) (by decide)

theorem not_mem_of_isBlank {cs : List Char} (h : ∀ c ∈ cs, isBlank c) : '>' ∉ cs :=
  not_mem_of_not_startsMark fun c hc => startsMark_of_isBlank (h c hc)

theorem exists_before_value {cs rest : List Char} {c : Char} (hskip : skipBlanks cs = c :: rest) :
    ∃ front, cs = front ++ (splitName (c :: rest)).2 ∧ ∀ d ∈ front, startsMark d = false := by
  have hblank : cs = cs.takeWhile isBlank ++ c :: rest := by
    rw [← hskip, skipBlanks, List.takeWhile_append_dropWhile]
  have hfront : ∀ d ∈ cs.takeWhile isBlank, startsMark d = false :=
    fun d hd => startsMark_of_isBlank (List.mem_takeWhile_imp hd)
  generalize cs.takeWhile isBlank = front at hblank hfront
  generalize c :: rest = start at hblank
  subst hblank
  have hname : start = start.takeWhile isNameChar ++ start.dropWhile isNameChar :=
    List.takeWhile_append_dropWhile.symm
  have hchars : ∀ d ∈ start.takeWhile isNameChar, startsMark d = false :=
    fun d hd => startsMark_of_isNameChar (List.mem_takeWhile_imp hd)
  simp only [splitName]
  split
  · next left hleft =>
    split
    · exact ⟨front, rfl, hfront⟩
    · refine ⟨front ++ start.takeWhile isNameChar ++ [':'], ?_, ?_⟩
      · conv_lhs => rw [hname, hleft]
        simp
      · simp only [List.mem_append, List.mem_singleton]
        rintro d ((hd | hd) | rfl)
        · exact hfront d hd
        · exact hchars d hd
        · rfl
  · exact ⟨front, rfl, hfront⟩

theorem splitClosing_blank {trail : List Char} (h : ∀ c ∈ trail, isBlank c) (after : List Char) :
    splitClosing (trail ++ ['>', '>'] ++ after) = some (trail, after) :=
  (passed_of_not_startsMark fun c hc => startsMark_of_isBlank (h c hc)).splitClosing_eq after

/-- A `>>` at a value between marks or behind it lies between the marks, or it lies behind the
value, where the search goes on. -/
theorem enclosed_cases {start inside trail after done left : List Char} {e : Enclosure}
    (hopen : opening? start = some (e, inside)) (hblank : ∀ c ∈ trail, isBlank c)
    (h : splitClosing (start ++ (trail ++ ['>', '>'] ++ after)) = some (start ++ trail, after))
    (hplace : start ++ (trail ++ ['>', '>'] ++ after) = done ++ ['>', '>'] ++ left) :
    ∃ used, start = used ++ (rawValue start).2 ∧
      ((∃ part, done = e.mark ++ part ∧ part ++ ['>', '>'] <+: e.text inside) ∨
        (∃ done', done = used ++ done') ∧
          splitClosing ((rawValue start).2 ++ (trail ++ ['>', '>'] ++ after)) =
            some ((rawValue start).2 ++ trail, after)) := by
  have hmark : '>' ∉ e.mark := by cases e <;> decide
  have hclosing : '>' ∉ e.closing := by cases e <;> decide
  obtain rfl := eq_append_of_opening hopen
  rw [List.append_assoc] at h hplace
  obtain ⟨part, rfl, hpart⟩ := place_of_not_mem hmark hplace
  cases hcut : cutAt e.closing inside with
  | none =>
    have hraw : (rawValue (e.mark ++ inside)).2 = [] := by
      simp [rawValue, hopen, hcut]
    have htext : e.text inside = inside := by simp [Enclosure.text, hcut]
    rw [hraw, htext]
    refine ⟨e.mark ++ inside, by simp, ?_⟩
    rcases place_cases hpart with hin | ⟨rfl, hborder⟩ | ⟨done', rfl, -⟩
    · exact .inl ⟨part, rfl, hin⟩
    · -- Then the call would have ended one character earlier.
      cases trail with
      | nil =>
        have hlast := getLast?_of_splitClosing h
        simp [← List.append_assoc] at hlast
      | cons c trail =>
        obtain ⟨rfl, -⟩ := List.cons.inj hborder
        exact absurd (hblank '>' List.mem_cons_self) (by decide)
    · exact .inr ⟨⟨done', by simp⟩, splitClosing_blank hblank after⟩
  | some parts =>
    obtain ⟨inner, behind⟩ := parts
    have hraw : (rawValue (e.mark ++ inside)).2 = behind := by
      simp [rawValue, hopen, hcut]
    have htext : e.text inside = inner := by simp [Enclosure.text, hcut]
    obtain rfl := eq_append_of_cutAt hcut
    rw [hraw, htext]
    refine ⟨e.mark ++ inner ++ e.closing, by simp, ?_⟩
    rw [List.append_assoc, List.append_assoc inner] at hpart
    rcases place_cases hpart with hin | ⟨-, hborder⟩ | ⟨done', rfl, hbehind⟩
    · exact .inl ⟨part, rfl, hin⟩
    · cases e <;> simp [Enclosure.closing] at hborder
    · obtain ⟨done'', rfl, -⟩ := place_of_not_mem hclosing hbehind
      refine .inr ⟨⟨done'', by simp⟩, ?_⟩
      rw [splitClosing_of_opening (opening_append e _)
        (cutAt_append_right e.closing_ne_nil hcut _)] at h
      obtain ⟨⟨front, after'⟩, hparts, heq⟩ := Option.map_eq_some_iff.1 h
      obtain ⟨hfront, rfl⟩ := Prod.mk.inj heq
      rw [hparts]
      congr 2
      simpa using hfront

/-- A `>>` at a bare value or behind it lies behind the value, where the search goes on, unless
the search takes a part of the value for a mark. -/
theorem bare_cases {start trail after done left : List Char} (hopen : opening? start = none)
    (h : splitClosing (start ++ (trail ++ ['>', '>'] ++ after)) = some (start ++ trail, after))
    (hplace : start ++ (trail ++ ['>', '>'] ++ after) = done ++ ['>', '>'] ++ left) :
    (∃ text behind rest, word start = text ++ behind ∧ behind ≠ [] ∧
      start ++ (trail ++ ['>', '>'] ++ after) = text ++ rest ∧ Marked rest ∧
        text.length < done.length) ∨
      ∃ used, start = used ++ (rawValue start).2 ∧ (∃ done', done = used ++ done') ∧
        splitClosing ((rawValue start).2 ++ (trail ++ ['>', '>'] ++ after)) =
          some ((rawValue start).2 ++ trail, after) := by
  have hraw : (rawValue start).2 = afterWord start := by simp [rawValue, hopen]
  have hword : start = word start ++ afterWord start := (word_append_afterWord start).symm
  have hrun : splitClosing (word start ++ (afterWord start ++ (trail ++ ['>', '>'] ++ after))) =
      some (word start ++ (afterWord start ++ trail), after) := by
    rw [← List.append_assoc, ← List.append_assoc (word start), ← hword]
    exact h
  have hplaceRun : word start ++ (afterWord start ++ (trail ++ ['>', '>'] ++ after)) =
      done ++ ['>', '>'] ++ left := by
    rw [← List.append_assoc, ← hword]
    exact hplace
  rcases run_cases hrun with ⟨hpass, hbehind⟩ | ⟨text, behind, htext, hne, hmarked, hpass⟩
  · rw [hraw]
    exact .inr ⟨word start, hword, hpass done left hplaceRun, hbehind⟩
  · refine .inl ⟨text, behind, _, htext, hne, ?_, hmarked, hpass done left hplaceRun⟩
    rw [← List.append_assoc text, ← htext, ← List.append_assoc (word start), ← hword]

/-- The search for the end of a call has come to these parameters, and `front` is all before
them. -/
structure SearchAt (cs body front params trail after : List Char) : Prop where
  eq : cs = front ++ (params ++ (trail ++ ['>', '>'] ++ after))
  blank : ∀ c ∈ trail, isBlank c
  search : splitClosing (params ++ (trail ++ ['>', '>'] ++ after)) = some (params ++ trail, after)
  values : ∀ front' start, ValueAt params front' start → ArgumentAt body (front ++ front') start

namespace SearchAt

variable {cs body front params trail after : List Char}

theorem next (h : SearchAt cs body front params trail after) {c : Char} {rest used : List Char}
    (hskip : skipBlanks params = c :: rest)
    (hused : params = used ++ (rawValue (splitName (c :: rest)).2).2)
    (hsearch : splitClosing ((rawValue (splitName (c :: rest)).2).2 ++
        (trail ++ ['>', '>'] ++ after)) =
      some ((rawValue (splitName (c :: rest)).2).2 ++ trail, after)) :
    SearchAt cs body (front ++ used) (rawValue (splitName (c :: rest)).2).2 trail after where
  eq := by
    rw [h.eq]
    conv_lhs => rw [hused]
    simp
  blank := h.blank
  search := hsearch
  values front' start hv := by
    rw [List.append_assoc]
    exact h.values _ _ (.later hskip hused hv)

theorem first_cases (h : SearchAt cs body front params trail after) {c : Char} {rest : List Char}
    (hskip : skipBlanks params = c :: rest) {done left : List Char}
    (hplace : params ++ (trail ++ ['>', '>'] ++ after) = done ++ ['>', '>'] ++ left) :
    InValue body (front ++ done) ∨ Misled cs body (front ++ done) ∨
      ∃ used done', params = used ++ (rawValue (splitName (c :: rest)).2).2 ∧
        done = used ++ done' ∧
        splitClosing ((rawValue (splitName (c :: rest)).2).2 ++ (trail ++ ['>', '>'] ++ after)) =
          some ((rawValue (splitName (c :: rest)).2).2 ++ trail, after) := by
  obtain ⟨lead, hlead, hmarks⟩ := exists_before_value hskip
  have harg := h.values _ _ (.first hskip hlead)
  have hcs := h.eq
  have hsearch := h.search
  generalize (splitName (c :: rest)).2 = start at hlead harg ⊢
  subst hlead
  rw [List.append_assoc] at hplace hcs hsearch
  rw [List.append_assoc lead] at hsearch
  obtain ⟨done, rfl, hstart⟩ := place_of_not_mem (not_mem_of_not_startsMark hmarks) hplace
  have hvalue := run_of_not_startsMark hmarks hsearch
  have hbehind : ∀ used, start = used ++ (rawValue start).2 → (∃ done', done = used ++ done') →
      ∃ used' done', lead ++ start = used' ++ (rawValue start).2 ∧
        lead ++ done = used' ++ done' := by
    rintro used hused ⟨done', rfl⟩
    refine ⟨lead ++ used, done', ?_, (List.append_assoc ..).symm⟩
    rw [List.append_assoc, ← hused]
  cases hopen : opening? start with
  | some parts =>
    obtain ⟨e, inside⟩ := parts
    obtain ⟨used, hused, ⟨part, rfl, hpart⟩ | ⟨hdone, hgo⟩⟩ :=
      enclosed_cases hopen h.blank hvalue hstart
    · exact .inl ⟨_, _, part, .mk harg hopen, by simp, hpart⟩
    · obtain ⟨used', done', hused', hdone'⟩ := hbehind used hused hdone
      exact .inr (.inr ⟨used', done', hused', hdone', hgo⟩)
  | none =>
    obtain ⟨text, behind, rest, htext, hne, hrest, hmarked, hlen⟩ | ⟨used, hused, hdone, hgo⟩ :=
      bare_cases hopen hvalue hstart
    · refine .inr (.inl ⟨front ++ lead, text, behind, rest, htext ▸ .value harg hopen, hne, ?_,
        hmarked, ?_⟩)
      · rw [hcs, hrest]
        simp
      · simp only [List.length_append]
        omega
    · obtain ⟨used', done', hused', hdone'⟩ := hbehind used hused hdone
      exact .inr (.inr ⟨used', done', hused', hdone', hgo⟩)

theorem inValue_or_misled (h : SearchAt cs body front params trail after) {done left : List Char}
    (hplace : params ++ (trail ++ ['>', '>'] ++ after) = done ++ ['>', '>'] ++ left)
    (hlt : done.length < (params ++ trail).length) :
    InValue body (front ++ done) ∨ Misled cs body (front ++ done) := by
  induction params using parseParams_induction generalizing front done with
  | nil params hskip =>
    have hparams : ∀ c ∈ params, isBlank c := List.dropWhile_eq_nil_iff.1 hskip
    have hblank : '>' ∉ params ++ trail :=
      not_mem_of_isBlank fun c hc => (List.mem_append.1 hc).elim (hparams c) (h.blank c)
    have hplace' : params ++ trail ++ (['>', '>'] ++ after) = done ++ ['>', '>'] ++ left := by
      simpa using hplace
    obtain ⟨done', rfl, -⟩ := place_of_not_mem hblank hplace'
    simp only [List.length_append] at hlt
    omega
  | cons params c rest hskip ih =>
    rcases h.first_cases hskip hplace with hin | hmisled | ⟨used, done', hused, rfl, hgo⟩
    · exact .inl hin
    · exact .inr hmisled
    · have hnext := h.next hskip hused hgo
      generalize (rawValue (splitName (c :: rest)).2).2 = behind at hused ih hnext
      subst hused
      rw [← List.append_assoc]
      refine ih hnext ?_ ?_
      · simpa using hplace
      · simp only [List.length_append] at hlt ⊢
        omega

end SearchAt

theorem exists_bodyParts {body name params : List Char}
    (h : callParts? body = some (name, params)) :
    ∃ lead trail, BodyParts body lead name params trail := by
  have hparts := h
  simp only [callParts?] at h
  split at h
  · cases h
  · obtain ⟨rfl, rfl⟩ := Prod.mk.inj (Option.some.inj h)
    refine ⟨body.takeWhile isBlank, ((skipBlanks body).reverse.takeWhile isBlank).reverse, ?_, ?_,
      hparts⟩
    · rw [List.append_assoc (body.takeWhile isBlank), word_append_afterWord, trim,
        List.append_assoc, ← List.reverse_append, List.takeWhile_append_dropWhile,
        List.reverse_reverse, skipBlanks, List.takeWhile_append_dropWhile]
    · intro c hc
      rcases List.mem_append.1 hc with hc | hc
      · exact List.mem_takeWhile_imp hc
      · exact List.mem_takeWhile_imp (List.mem_reverse.1 hc)

/-- A call that is read ends at the first `>>` that is in none of its values, unless a mark in its
name or in a bare value misled the search before. -/
theorem closing_of_callHere {cs after : List Char} {c : Call}
    (h : callHere? ('<' :: '<' :: cs) = some (c, after)) :
    ∃ body, cs = body ++ ['>', '>'] ++ after ∧ parseCall? body = some c ∧
      ∀ done left, cs = done ++ ['>', '>'] ++ left → done.length < body.length →
        InValue body done ∨ Misled cs body done := by
  obtain ⟨body, hcs, hsearch, hcall⟩ := callHere_eq_some h
  obtain rfl : cs = body ++ ['>', '>'] ++ after := by simpa using hcs
  obtain ⟨⟨name, params⟩, hparts, -⟩ := Option.map_eq_some_iff.1 hcall
  obtain ⟨lead, trail, hbody⟩ := exists_bodyParts hparts
  refine ⟨body, rfl, hcall, fun done left hplace hlt => ?_⟩
  have hlead : ∀ c ∈ lead, startsMark c = false := fun c hc =>
    startsMark_of_isBlank (hbody.blank c (List.mem_append_left _ hc))
  have hcs : body ++ ['>', '>'] ++ after =
      lead ++ (name ++ (params ++ (trail ++ ['>', '>'] ++ after))) := by
    rw [hbody.eq]
    simp
  have hlen : body.length = lead.length + name.length + (params ++ trail).length := by
    rw [hbody.eq]
    simp only [List.length_append]
    omega
  have hname : splitClosing (name ++ (params ++ (trail ++ ['>', '>'] ++ after))) =
      some (name ++ (params ++ trail), after) := by
    refine run_of_not_startsMark hlead ?_
    rw [← hcs, hsearch, hbody.eq]
    simp
  rw [hcs] at hplace ⊢
  obtain ⟨done, rfl, hdone⟩ := place_of_not_mem (not_mem_of_not_startsMark hlead) hplace
  rcases run_cases hname with ⟨hpass, hparams⟩ | ⟨text, behind, htext, hne, hmarked, hpass⟩
  · obtain ⟨done, rfl⟩ := hpass done left hdone
    have hat : SearchAt _ body (lead ++ name) params trail after :=
      ⟨(List.append_assoc ..).symm, fun c hc => hbody.blank c (List.mem_append_right _ hc),
        hparams, fun front start hv => .mk hbody hv⟩
    rw [← List.append_assoc lead name done]
    have hplaceParams : params ++ (trail ++ ['>', '>'] ++ after) = done ++ ['>', '>'] ++ left := by
      simpa using hdone
    refine hat.inValue_or_misled hplaceParams ?_
    simp only [List.length_append] at hlt hlen ⊢
    omega
  · refine .inr ⟨lead, text, behind, _, htext ▸ .name hbody, hne, ?_, hmarked, ?_⟩
    · rw [htext]
      simp
    · have hlt' := hpass done left hdone
      simp only [List.length_append]
      omega

theorem closing_of_callHere_quoted :
    ∃ body, "echo \"a >> b\">> c".toList = body ++ ['>', '>'] ++ " c".toList ∧
      parseCall? body = some ⟨"echo", [.literal none "a >> b"]⟩ ∧
      ∀ done left, "echo \"a >> b\">> c".toList = done ++ ['>', '>'] ++ left →
        done.length < body.length →
          InValue body done ∨ Misled "echo \"a >> b\">> c".toList body done :=
  closing_of_callHere (by with_unfolding_all rfl)

theorem ValueAt.first_or_later {cs rest front start : List Char} {c : Char}
    (h : ValueAt cs front start) (hskip : skipBlanks cs = c :: rest) :
    start = (splitName (c :: rest)).2 ∨
      ∃ front', ValueAt (rawValue (splitName (c :: rest)).2).2 front' start := by
  cases h with
  | first hskip' =>
    cases hskip.symm.trans hskip'
    exact .inl rfl
  | later hskip' _ hlater =>
    cases hskip.symm.trans hskip'
    exact .inr ⟨_, hlater⟩

theorem callHere_quotes_in_words :
    callHere? "<<echo a\"b >> c\">>".toList =
        some (⟨"echo", [.literal none "a\"b", .literal none ">>", .literal none "c\""]⟩, []) ∧
      ¬ InValue "echo a\"b >> c\"".toList "echo a\"b ".toList := by
  refine ⟨by with_unfolding_all rfl, ?_⟩
  rintro ⟨front, text, part, ⟨⟨hbody, hv⟩, hopen⟩, -, -⟩
  have hparts : callParts? "echo a\"b >> c\"".toList =
      some ("echo".toList, " a\"b >> c\"".toList) := by decide +kernel
  obtain ⟨-, rfl⟩ := Prod.mk.inj (Option.some.inj (hbody.parts.symm.trans hparts))
  have hfirst : skipBlanks " a\"b >> c\"".toList = "a\"b >> c\"".toList := by decide +kernel
  have hsecond : skipBlanks (rawValue "a\"b >> c\"".toList).2 = ">> c\"".toList := by
    decide +kernel
  have hthird : skipBlanks (rawValue ">> c\"".toList).2 = "c\"".toList := by decide +kernel
  have hend : skipBlanks (rawValue "c\"".toList).2 = [] := by decide +kernel
  obtain rfl | ⟨_, hv⟩ := hv.first_or_later hfirst
  · cases hopen
  obtain rfl | ⟨_, hv⟩ := hv.first_or_later hsecond
  · cases hopen
  obtain rfl | ⟨_, hv⟩ := hv.first_or_later hthird
  · cases hopen
  cases hv with
  | first hskip => cases hend.symm.trans hskip
  | later hskip => cases hend.symm.trans hskip

end Notebook.Markup
