import Notebook.Note.Basic
import Notebook.Proofs.Calendar

/-! # Compact dates are read as they are written

A text of seventeen digits is cut into columns, and each column is as wide as the field that is
written there. So what is written is read back, and what can be read is what would be written.
-/

namespace Notebook

namespace Text

structure IsRun (width : Nat) (cs : List Char) : Prop where
  length : cs.length = width
  digits : ∀ c ∈ cs, isAsciiDigit c

variable {width width' n : Nat} {c : Char} {cs cs' : List Char}

theorem isAsciiDigit_iff : isAsciiDigit c ↔ 48 ≤ c.toNat ∧ c.toNat ≤ 57 := by
  simp only [isAsciiDigit, Bool.and_eq_true, decide_eq_true_eq, Char.le_def,
    UInt32.le_iff_toNat_le]
  rfl

theorem isAsciiDigit_digitChar (h : n < 10) : isAsciiDigit (Nat.digitChar n) := by
  rw [isAsciiDigit_iff, Nat.toNat_digitChar_of_lt_ten h]
  omega

theorem digitValue_digitChar (h : n < 10) : digitValue (Nat.digitChar n) = n := by
  rw [digitValue, Nat.toNat_digitChar_of_lt_ten h]
  omega

theorem digitValue_lt (h : isAsciiDigit c) : digitValue c < 10 := by
  rw [isAsciiDigit_iff] at h
  unfold digitValue
  omega

theorem digitChar_digitValue (h : isAsciiDigit c) : Nat.digitChar (digitValue c) = c := by
  have hlt := digitValue_lt h
  rw [isAsciiDigit_iff] at h
  apply Char.toNat_inj.1
  rw [Nat.toNat_digitChar_of_lt_ten hlt]
  unfold digitValue
  omega

theorem decimalValue_concat (cs : List Char) (c : Char) :
    decimalValue (cs ++ [c]) = 10 * decimalValue cs + digitValue c := by
  rw [decimalValue, List.foldl_append]
  rfl

theorem IsRun.append (h : IsRun width cs) (h' : IsRun width' cs') :
    IsRun (width + width') (cs ++ cs') where
  length := by rw [List.length_append, h.length, h'.length]
  digits c hc := (List.mem_append.1 hc).elim (h.digits c) (h'.digits c)

theorem IsRun.split (width width' : Nat) (h : IsRun (width + width') cs) :
    ∃ front back, IsRun width front ∧ IsRun width' back ∧ front ++ back = cs := by
  have hlength := h.length
  refine ⟨cs.take width, cs.drop width, ⟨?_, ?_⟩, ⟨?_, ?_⟩, List.take_append_drop width cs⟩
  · rw [List.length_take]
    omega
  · exact fun c hc => h.digits c (List.mem_of_mem_take hc)
  · rw [List.length_drop]
    omega
  · exact fun c hc => h.digits c (List.mem_of_mem_drop hc)

theorem IsRun.concat (h : IsRun (width + 1) cs) :
    ∃ front c, IsRun width front ∧ isAsciiDigit c ∧ cs = front ++ [c] := by
  obtain ⟨front, back, hfront, hback, rfl⟩ := h.split width 1
  obtain ⟨c, rfl⟩ := List.length_eq_one_iff.1 hback.length
  exact ⟨front, c, hfront, hback.digits c List.mem_cons_self, rfl⟩

theorem IsRun.decimalValue_lt (h : IsRun width cs) : decimalValue cs < 10 ^ width := by
  induction width generalizing cs with
  | zero =>
    rw [List.length_eq_zero_iff.1 h.length]
    exact Nat.one_pos
  | succ width ih =>
    obtain ⟨front, c, hfront, hc, rfl⟩ := h.concat
    have hlt := ih hfront
    have hdigit := digitValue_lt hc
    rw [decimalValue_concat, Nat.pow_succ]
    omega

end Text

namespace Stamp

open Text

variable {width n : Nat} {cs : List Char} {m m' : Moment}

theorem isRun_fixedDigits (width n : Nat) : IsRun width (fixedDigits width n) := by
  induction width generalizing n with
  | zero => exact ⟨rfl, by simp [fixedDigits]⟩
  | succ width ih =>
    have hlast : IsRun 1 [Nat.digitChar (n % 10)] := by
      refine ⟨rfl, ?_⟩
      rintro c hc
      rw [List.mem_singleton.1 hc]
      exact isAsciiDigit_digitChar (Nat.mod_lt n (by decide))
    exact (ih (n / 10)).append hlast

theorem decimalValue_fixedDigits (h : n < 10 ^ width) :
    decimalValue (fixedDigits width n) = n := by
  induction width generalizing n with
  | zero =>
    rw [Nat.lt_one_iff.1 h]
    rfl
  | succ width ih =>
    rw [Nat.pow_succ] at h
    have hfront : n / 10 < 10 ^ width := by omega
    rw [fixedDigits, decimalValue_concat, ih hfront,
      digitValue_digitChar (Nat.mod_lt n (by decide))]
    omega

theorem fixedDigits_decimalValue (h : IsRun width cs) :
    fixedDigits width (decimalValue cs) = cs := by
  induction width generalizing cs with
  | zero =>
    rw [List.length_eq_zero_iff.1 h.length]
    rfl
  | succ width ih =>
    obtain ⟨front, c, hfront, hc, rfl⟩ := h.concat
    have hdigit := digitValue_lt hc
    have hdiv : (10 * decimalValue front + digitValue c) / 10 = decimalValue front := by omega
    have hmod : (10 * decimalValue front + digitValue c) % 10 = digitValue c := by omega
    rw [decimalValue_concat, fixedDigits, hdiv, hmod, ih hfront, digitChar_digitValue hc]

/-- The digits of each field of a compact date. -/
structure Columns where
  year : List Char
  month : List Char
  day : List Char
  hour : List Char
  minute : List Char
  second : List Char
  milli : List Char

namespace Columns

variable {c : Columns}

def text (c : Columns) : List Char :=
  c.year ++ c.month ++ c.day ++ c.hour ++ c.minute ++ c.second ++ c.milli

/-- The numbers in the columns, whether or not there is such a moment. -/
def moment (c : Columns) : Moment where
  date := ⟨decimalValue c.year, decimalValue c.month, decimalValue c.day⟩
  hour := decimalValue c.hour
  minute := decimalValue c.minute
  second := decimalValue c.second
  milli := decimalValue c.milli

structure WellFormed (c : Columns) : Prop where
  year : IsRun 4 c.year
  month : IsRun 2 c.month
  day : IsRun 2 c.day
  hour : IsRun 2 c.hour
  minute : IsRun 2 c.minute
  second : IsRun 2 c.second
  milli : IsRun 3 c.milli

theorem WellFormed.isRun (h : c.WellFormed) : IsRun 17 c.text :=
  (((((h.year.append h.month).append h.day).append h.hour).append h.minute).append
    h.second).append h.milli

theorem exists_wellFormed (h : IsRun 17 cs) : ∃ c : Columns, c.WellFormed ∧ c.text = cs := by
  obtain ⟨_, milli, h₁, hmilli, rfl⟩ := h.split 14 3
  obtain ⟨_, second, h₂, hsecond, rfl⟩ := h₁.split 12 2
  obtain ⟨_, minute, h₃, hminute, rfl⟩ := h₂.split 10 2
  obtain ⟨_, hour, h₄, hhour, rfl⟩ := h₃.split 8 2
  obtain ⟨_, day, h₅, hday, rfl⟩ := h₄.split 6 2
  obtain ⟨year, month, hyear, hmonth, rfl⟩ := h₅.split 4 2
  exact ⟨⟨year, month, day, hour, minute, second, milli⟩,
    ⟨hyear, hmonth, hday, hhour, hminute, hsecond, hmilli⟩, rfl⟩

theorem WellFormed.ofDigits (h : c.WellFormed) : ofDigits c.text = c.moment := by
  obtain ⟨year, month, day, hour, minute, second, milli⟩ := c
  obtain ⟨a, b, d, e, rfl⟩ := List.length_eq_four.1 h.year.length
  obtain ⟨f, g, rfl⟩ := List.length_eq_two.1 h.month.length
  obtain ⟨i, j, rfl⟩ := List.length_eq_two.1 h.day.length
  obtain ⟨k, l, rfl⟩ := List.length_eq_two.1 h.hour.length
  obtain ⟨o, p, rfl⟩ := List.length_eq_two.1 h.minute.length
  obtain ⟨q, r, rfl⟩ := List.length_eq_two.1 h.second.length
  obtain ⟨s, t, u, rfl⟩ := List.length_eq_three.1 h.milli.length
  rfl

def ofMoment (m : Moment) : Columns where
  year := fixedDigits 4 m.date.year.toNat
  month := fixedDigits 2 m.date.month
  day := fixedDigits 2 m.date.day
  hour := fixedDigits 2 m.hour
  minute := fixedDigits 2 m.minute
  second := fixedDigits 2 m.second
  milli := fixedDigits 3 m.milli

theorem wellFormed_ofMoment (m : Moment) : (ofMoment m).WellFormed where
  year := isRun_fixedDigits 4 _
  month := isRun_fixedDigits 2 _
  day := isRun_fixedDigits 2 _
  hour := isRun_fixedDigits 2 _
  minute := isRun_fixedDigits 2 _
  second := isRun_fixedDigits 2 _
  milli := isRun_fixedDigits 3 _

end Columns

theorem yearDigits_of_le {year : Int} (h : 0 ≤ year) (h' : year ≤ 9999) :
    yearDigits year = fixedDigits 4 year.toNat := by
  simp [yearDigits, h, h']

namespace Columns

variable {c : Columns}

theorem text_ofMoment (h : 0 ≤ m.date.year) (h' : m.date.year ≤ 9999) :
    (ofMoment m).text = digits m := by
  rw [digits, yearDigits_of_le h h']
  rfl

theorem moment_ofMoment (hv : m.Valid) (h : 0 ≤ m.date.year) (h' : m.date.year ≤ 9999) :
    (ofMoment m).moment = m := by
  obtain ⟨hdate, hhour, hminute, hsecond, hmilli⟩ := hv
  have hyear : m.date.year.toNat < 10 ^ 4 := by omega
  have hmonth : m.date.month < 10 ^ 2 := hdate.month_le.trans_lt (by decide)
  have hday : m.date.day < 10 ^ 2 := hdate.day_le_31.trans_lt (by decide)
  have hhour : m.hour < 10 ^ 2 := hhour.trans (by decide)
  have hminute : m.minute < 10 ^ 2 := hminute.trans (by decide)
  have hsecond : m.second < 10 ^ 2 := hsecond.trans (by decide)
  have hmilli : m.milli < 10 ^ 3 := hmilli
  simp only [moment, ofMoment, decimalValue_fixedDigits hyear, decimalValue_fixedDigits hmonth,
    decimalValue_fixedDigits hday, decimalValue_fixedDigits hhour,
    decimalValue_fixedDigits hminute, decimalValue_fixedDigits hsecond,
    decimalValue_fixedDigits hmilli, Int.toNat_of_nonneg h]

theorem WellFormed.digits_moment (h : c.WellFormed) : digits c.moment = c.text := by
  have hlt : decimalValue c.year < 10 ^ 4 := h.year.decimalValue_lt
  have hyear : yearDigits c.moment.date.year = c.year := by
    change yearDigits (decimalValue c.year) = c.year
    rw [yearDigits_of_le (Int.natCast_nonneg _) (by omega), Int.toNat_natCast,
      fixedDigits_decimalValue h.year]
  rw [digits, hyear]
  simp only [moment, fixedDigits_decimalValue h.month, fixedDigits_decimalValue h.day,
    fixedDigits_decimalValue h.hour, fixedDigits_decimalValue h.minute,
    fixedDigits_decimalValue h.second, fixedDigits_decimalValue h.milli]
  rfl

/-- What is wrong with the columns of a text that cannot be read is never the milliseconds. -/
theorem WellFormed.valid_iff (h : c.WellFormed) :
    c.moment.Valid ↔ c.moment.date.Valid ∧ c.moment.hour < 24 ∧ c.moment.minute < 60 ∧
      c.moment.second < 60 := by
  constructor
  · intro hv
    exact ⟨hv.date, hv.hour, hv.minute, hv.second⟩
  · rintro ⟨hdate, hhour, hminute, hsecond⟩
    exact ⟨hdate, hhour, hminute, hsecond, h.milli.decimalValue_lt⟩

end Columns

theorem parse_of_wellFormed {c : Columns} (h : c.WellFormed) {text : String}
    (ht : c.text = text.toList) :
    parse text = if c.moment.isValid then some c.moment else none := by
  have hrun := h.isRun
  have hall : c.text.all isAsciiDigit := List.all_eq_true.2 hrun.digits
  simp only [parse, ← ht, hrun.length, hall, h.ofDigits]
  simp

theorem parse_format (hv : m.Valid) (h : 0 ≤ m.date.year) (h' : m.date.year ≤ 9999) :
    parse (format m) = some m := by
  have ht : (Columns.ofMoment m).text = (format m).toList := by
    rw [Columns.text_ofMoment h h', format, String.toList_ofList]
  rw [parse_of_wellFormed (Columns.wellFormed_ofMoment m) ht, Columns.moment_ofMoment hv h h',
    if_pos (Moment.isValid_iff.2 hv)]

theorem parse_format_eq_none (h : ¬ (0 ≤ m.date.year ∧ m.date.year ≤ 9999)) :
    parse (format m) = none := by
  have hsigned : yearDigits m.date.year = signedYear m.date.year := by
    rw [yearDigits, if_neg (by simpa using h)]
  have hall : (digits m).all isAsciiDigit = false := by
    rw [digits, hsigned, signedYear]
    split <;> rfl
  rw [parse, format, String.toList_ofList, hall]
  simp

theorem modified_withModified (note : Note) (m : Moment) :
    (note.withModified m).modified = parse (format m) := by
  rw [Note.modified, Note.withModified, Note.withField, Catalog.get?_insert, if_pos rfl,
    Option.bind_some]

/-- Instants are numbers of milliseconds before or after the start of 1970. If the year of an
instant has four digits and no sign, then its compact date has seventeen digits and is read as the
same instant, also from a note. Otherwise nothing is read from the note. A text of seventeen digits
is read exactly if there is a date and a time of day with the numbers in its columns, and then it
is the compact date of what is read. -/
theorem format_parse_roundtrip :
    (∀ n, (Moment.ofMillis n).Valid ∧ (Moment.ofMillis n).toMillis = n) ∧
    (∀ (m : Moment) (note : Note), m.Valid → Moment.ofMillis m.toMillis = m ∧
      (0 ≤ m.date.year ∧ m.date.year ≤ 9999 → IsRun 17 (format m).toList ∧
        parse (format m) = some m ∧ (note.withModified m).modified = some m) ∧
      (¬ (0 ≤ m.date.year ∧ m.date.year ≤ 9999) → (note.withModified m).modified = none)) ∧
    ∀ text : String, IsRun 17 text.toList →
      ∃ c : Columns, c.WellFormed ∧ c.text = text.toList ∧
        ((parse text).isSome ↔ c.moment.date.Valid ∧ c.moment.hour < 24 ∧ c.moment.minute < 60 ∧
          c.moment.second < 60) ∧
        ∀ m, parse text = some m → m = c.moment ∧ format m = text := by
  refine ⟨fun n => ⟨Moment.valid_ofMillis n, Moment.toMillis_ofMillis n⟩, ?_, ?_⟩
  · intro m note hv
    refine ⟨Moment.ofMillis_toMillis hv, ?_, ?_⟩
    · rintro ⟨h, h'⟩
      have hrun := (Columns.wellFormed_ofMoment m).isRun
      have hparse := parse_format hv h h'
      rw [Columns.text_ofMoment h h'] at hrun
      rw [format, String.toList_ofList, modified_withModified]
      exact ⟨hrun, hparse, hparse⟩
    · intro h
      rw [modified_withModified, parse_format_eq_none h]
  · intro text htext
    obtain ⟨c, hc, ht⟩ := Columns.exists_wellFormed htext
    have hparse := parse_of_wellFormed hc ht
    refine ⟨c, hc, ht, ?_, ?_⟩
    · rw [← hc.valid_iff, ← Moment.isValid_iff, hparse]
      split <;> simp_all
    · intro m hm
      rw [hparse] at hm
      split at hm
      · obtain rfl := Option.some.inj hm
        exact ⟨rfl, by rw [format, hc.digits_moment, ht, String.ofList_toList]⟩
      · cases hm

theorem format_parse_roundtrip_spring :
    Moment.toMillis ⟨⟨2012, 3, 4⟩, 5, 6, 7, 0⟩ = 1330837567000 ∧
      format ⟨⟨2012, 3, 4⟩, 5, 6, 7, 0⟩ = "20120304050607000" ∧
      (({ title := "Foo", text := "" } : Note).withModified ⟨⟨2012, 3, 4⟩, 5, 6, 7, 0⟩).modified =
        some ⟨⟨2012, 3, 4⟩, 5, 6, 7, 0⟩ := by
  have hv : Moment.Valid ⟨⟨2012, 3, 4⟩, 5, 6, 7, 0⟩ := Moment.isValid_iff.1 (by decide)
  obtain ⟨-, hwrite, -⟩ := format_parse_roundtrip
  obtain ⟨-, hyear, -⟩ := hwrite _ { title := "Foo", text := "" } hv
  exact ⟨by decide, by decide, (hyear (by decide)).2.2⟩

end Stamp

end Notebook
