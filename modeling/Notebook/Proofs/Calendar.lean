import Mathlib
import Notebook.Calendar

/-! # Moments and their numbers

The calendar has no gaps. Every day has one number and every number belongs to one day, and so it
is with moments and milliseconds, also before 1970 and before the year 1.
-/

namespace Notebook

namespace Date

theorem sum_monthLengths (year : Int) :
    (monthLengths year).sum = if isLeapYear year then 366 else 365 := by
  unfold monthLengths
  split <;> rfl

theorem isLeapYear_iff {year : Int} :
    isLeapYear year = true ↔ year % 4 = 0 ∧ (year % 100 ≠ 0 ∨ year % 400 = 0) := by
  simp [isLeapYear]

theorem daysBeforeYear_add_one (year : Int) :
    daysBeforeYear (year + 1) = daysBeforeYear year + (monthLengths year).sum := by
  rw [sum_monthLengths]
  unfold daysBeforeYear
  split
  · next h =>
    rw [isLeapYear_iff] at h
    omega
  · next h =>
    rw [isLeapYear_iff, not_and_or, not_or, not_not] at h
    omega

theorem strictMono_daysBeforeYear : StrictMono daysBeforeYear := by
  apply strictMono_int_of_lt_succ
  intro year
  have hpos : 365 ≤ (monthLengths year).sum := by
    rw [sum_monthLengths]
    split <;> decide
  rw [daysBeforeYear_add_one]
  omega

/-- The guess at the year of a day is corrected in the right direction. -/
theorem daysBeforeYear_yearOfDay (n : Int) :
    daysBeforeYear (yearOfDay n) ≤ n ∧ n < daysBeforeYear (yearOfDay n + 1) := by
  unfold yearOfDay
  dsimp only
  split
  · unfold daysBeforeYear at *
    omega
  · split
    · unfold daysBeforeYear at *
      omega
    · omega

theorem yearOfDay_eq {n year : Int} (h : daysBeforeYear year ≤ n)
    (h' : n < daysBeforeYear (year + 1)) : yearOfDay n = year := by
  obtain ⟨hn, hn'⟩ := daysBeforeYear_yearOfDay n
  have hle := strictMono_daysBeforeYear.lt_iff_lt.1 (hn.trans_lt h')
  have hge := strictMono_daysBeforeYear.lt_iff_lt.1 (h.trans_lt hn')
  omega

theorem monthAndDay_sum {lengths : List Nat} {i day : Nat} (hi : i < lengths.length)
    (hday : day < lengths[i]) (month : Nat) :
    monthAndDay month lengths ((lengths.take i).sum + day) = (month + i, day + 1) := by
  induction lengths generalizing i month with
  | nil => cases hi
  | cons length lengths ih =>
    cases i with
    | zero =>
      rw [List.getElem_cons_zero] at hday
      simp [monthAndDay, hday]
    | succ i =>
      have hskip : length + (lengths.take i).sum + day - length = (lengths.take i).sum + day := by
        omega
      rw [List.take_succ_cons, List.sum_cons, monthAndDay, if_neg (by omega), hskip,
        ih (Nat.lt_of_succ_lt_succ hi) hday]
      rw [Nat.add_right_comm, Nat.add_assoc]

theorem exists_month {lengths : List Nat} {n : Nat} (h : n < lengths.sum) :
    ∃ i day, ∃ hi : i < lengths.length, day < lengths[i] ∧ n = (lengths.take i).sum + day := by
  induction lengths generalizing n with
  | nil => cases h
  | cons length lengths ih =>
    rw [List.sum_cons] at h
    by_cases hn : n < length
    · exact ⟨0, n, Nat.succ_pos _, hn, by simp⟩
    · have hrest : n - length < lengths.sum := by omega
      obtain ⟨i, day, hi, hday, heq⟩ := ih hrest
      refine ⟨i + 1, day, Nat.succ_lt_succ hi, hday, ?_⟩
      rw [List.take_succ_cons, List.sum_cons]
      omega

theorem take_sum_add_lt {lengths : List Nat} {i day : Nat} (hi : i < lengths.length)
    (hday : day < lengths[i]) : (lengths.take i).sum + day < lengths.sum := by
  have hsum : (lengths.take (i + 1)).sum + (lengths.drop (i + 1)).sum = lengths.sum := by
    rw [← List.sum_append, List.take_append_drop]
  rw [List.take_add_one, List.getElem?_eq_getElem hi, List.sum_append] at hsum
  simp only [Option.toList_some, List.sum_singleton] at hsum
  omega

/-- A day that lies in a month and a month that lies in a year, both counted from zero. -/
structure Lies (year : Int) (i day : Nat) : Prop where
  month : i < (monthLengths year).length
  day : day < (monthLengths year)[i]

theorem Lies.valid {year : Int} {i day : Nat} (h : Lies year i day) :
    Valid ⟨year, 1 + i, day + 1⟩ where
  one_le_month := Nat.le_add_right 1 i
  month_le := by
    have hi : i < 12 := h.month
    change 1 + i ≤ 12
    omega
  one_le_day := Nat.le_add_left 1 day
  day_le := by
    rw [Nat.add_sub_cancel_left, List.getD_eq_getElem _ _ h.month]
    exact h.day

theorem Valid.exists_lies {d : Date} (h : d.Valid) :
    ∃ i day, Lies d.year i day ∧ d = ⟨d.year, 1 + i, day + 1⟩ := by
  obtain ⟨i, hi⟩ := Nat.exists_eq_add_of_le h.one_le_month
  obtain ⟨day, hday⟩ := Nat.exists_eq_add_of_le' h.one_le_day
  have hmonth : i < (monthLengths d.year).length := by
    have hle := h.month_le
    change i < 12
    omega
  have hlies := h.day_le
  rw [hi, Nat.add_sub_cancel_left, List.getD_eq_getElem _ _ hmonth, hday] at hlies
  exact ⟨i, day, ⟨hmonth, hlies⟩, by rw [← hi, ← hday]⟩

theorem Valid.day_le_31 {d : Date} (h : d.Valid) : d.day ≤ 31 := by
  obtain ⟨i, day, hlies, hd⟩ := h.exists_lies
  have hall : ∀ length ∈ monthLengths d.year, length ≤ 31 := by
    unfold monthLengths
    split <;> decide
  have hle := hall _ (List.getElem_mem hlies.month)
  have hlt := hlies.day
  rw [hd]
  exact hlt.trans_le hle

theorem dayNumber_eq (year : Int) (i day : Nat) :
    dayNumber ⟨year, 1 + i, day + 1⟩ = daysBeforeYear year - daysBeforeYear 1970 +
      (((monthLengths year).take i).sum + day : Nat) := by
  rw [dayNumber, ← List.sum_eq_foldl, Nat.add_sub_cancel_left, Nat.add_sub_cancel]

theorem Lies.ofDayNumber {year : Int} {i day : Nat} (h : Lies year i day) :
    ofDayNumber (dayNumber ⟨year, 1 + i, day + 1⟩) = ⟨year, 1 + i, day + 1⟩ := by
  have hlt := take_sum_add_lt h.month h.day
  have hnext := daysBeforeYear_add_one year
  have hyear : yearOfDay (dayNumber ⟨year, 1 + i, day + 1⟩ + daysBeforeYear 1970) = year := by
    rw [dayNumber_eq]
    apply yearOfDay_eq <;> omega
  have hrest : dayNumber ⟨year, 1 + i, day + 1⟩ + daysBeforeYear 1970 - daysBeforeYear year =
      (((monthLengths year).take i).sum + day : Nat) := by
    rw [dayNumber_eq]
    omega
  simp only [Date.ofDayNumber, hyear, hrest, Int.toNat_natCast, monthAndDay_sum h.month h.day]

theorem exists_lies (n : Int) :
    ∃ year i day, Lies year i day ∧ dayNumber ⟨year, 1 + i, day + 1⟩ = n := by
  obtain ⟨hle, hlt⟩ := daysBeforeYear_yearOfDay (n + daysBeforeYear 1970)
  generalize yearOfDay (n + daysBeforeYear 1970) = year at hle hlt
  rw [daysBeforeYear_add_one] at hlt
  obtain ⟨rest, hrest⟩ := Int.eq_ofNat_of_zero_le (Int.sub_nonneg_of_le hle)
  have hwithin : rest < (monthLengths year).sum := by omega
  obtain ⟨i, day, hi, hday, heq⟩ := exists_month hwithin
  refine ⟨year, i, day, ⟨hi, hday⟩, ?_⟩
  rw [dayNumber_eq, ← heq]
  omega

theorem ofDayNumber_dayNumber {d : Date} (h : d.Valid) : ofDayNumber d.dayNumber = d := by
  obtain ⟨i, day, hlies, hd⟩ := h.exists_lies
  rw [hd]
  exact hlies.ofDayNumber

theorem valid_ofDayNumber (n : Int) : (ofDayNumber n).Valid := by
  obtain ⟨year, i, day, hlies, rfl⟩ := exists_lies n
  rw [hlies.ofDayNumber]
  exact hlies.valid

theorem dayNumber_ofDayNumber (n : Int) : (ofDayNumber n).dayNumber = n := by
  obtain ⟨year, i, day, hlies, rfl⟩ := exists_lies n
  rw [hlies.ofDayNumber]

end Date

namespace Moment

theorem valid_ofMillis (n : Int) : (ofMillis n).Valid where
  date := Date.valid_ofDayNumber _
  hour := by simp only [ofMillis]; omega
  minute := by simp only [ofMillis]; omega
  second := by simp only [ofMillis]; omega
  milli := by simp only [ofMillis]; omega

theorem toMillis_ofMillis (n : Int) : (ofMillis n).toMillis = n := by
  simp only [toMillis, ofMillis, Date.dayNumber_ofDayNumber]
  omega

theorem ofMillis_toMillis {m : Moment} (h : m.Valid) : ofMillis m.toMillis = m := by
  obtain ⟨date, hour, minute, second, milli⟩ := m
  obtain ⟨hdate, hhour, hminute, hsecond, hmilli⟩ := h
  dsimp only at hdate hhour hminute hsecond hmilli
  simp only [ofMillis, toMillis, mk.injEq]
  have hday : ((((date.dayNumber * 24 + hour) * 60 + minute) * 60 + second) * 1000 + milli) /
      86400000 = date.dayNumber := by omega
  rw [hday, Date.ofDayNumber_dayNumber hdate]
  refine ⟨rfl, ?_, ?_, ?_, ?_⟩ <;> omega

end Moment

end Notebook
