/-! # The calendar

Days of the Gregorian calendar, extended to all years before and after its introduction, and
moments to the millisecond. A moment has a number: the milliseconds from the start of 1970 to it.
Numbers and valid moments determine each other.
-/

namespace Notebook

structure Date where
  year : Int
  month : Nat
  day : Nat
  deriving DecidableEq, Repr

namespace Date

def isLeapYear (year : Int) : Bool :=
  year % 4 = 0 && (year % 100 ≠ 0 || year % 400 = 0)

def monthLengths (year : Int) : List Nat :=
  [31, if isLeapYear year then 29 else 28, 31, 30, 31, 30, 31, 31, 30, 31, 30, 31]

structure Valid (d : Date) : Prop where
  one_le_month : 1 ≤ d.month
  month_le : d.month ≤ 12
  one_le_day : 1 ≤ d.day
  day_le : d.day ≤ (monthLengths d.year).getD (d.month - 1) 0

def isValid (d : Date) : Bool :=
  1 ≤ d.month && d.month ≤ 12 && 1 ≤ d.day &&
    d.day ≤ (monthLengths d.year).getD (d.month - 1) 0

theorem isValid_iff {d : Date} : d.isValid = true ↔ d.Valid := by
  simp only [isValid, Bool.and_eq_true, decide_eq_true_eq]
  exact ⟨fun ⟨⟨⟨a, b⟩, c⟩, e⟩ => ⟨a, b, c, e⟩, fun ⟨a, b, c, e⟩ => ⟨⟨⟨a, b⟩, c⟩, e⟩⟩

def daysBeforeYear (year : Int) : Int :=
  365 * (year - 1) + (year - 1) / 4 - (year - 1) / 100 + (year - 1) / 400

/-- The days from the start of 1970 to `d`. -/
def dayNumber (d : Date) : Int :=
  let daysOfMonths : Nat := ((monthLengths d.year).take (d.month - 1)).foldl (· + ·) 0
  daysBeforeYear d.year - daysBeforeYear 1970 + (daysOfMonths + (d.day - 1) : Nat)

/-- The year that contains the day `n` days after the start of year 1. The mean year length gives
a year that is off by at most one. -/
def yearOfDay (n : Int) : Int :=
  let guess := n * 400 / 146097 + 1
  if n < daysBeforeYear guess then guess - 1
  else if daysBeforeYear (guess + 1) ≤ n then guess + 1
  else guess

/-- The month, counted from `month`, and day that lie `n` days after the start of that month. -/
def monthAndDay (month : Nat) : List Nat → Nat → Nat × Nat
  | [], n => (month, n + 1)
  | length :: rest, n =>
    if n < length then (month, n + 1) else monthAndDay (month + 1) rest (n - length)

def ofDayNumber (n : Int) : Date :=
  let day := n + daysBeforeYear 1970
  let year := yearOfDay day
  let position := monthAndDay 1 (monthLengths year) (day - daysBeforeYear year).toNat
  ⟨year, position.1, position.2⟩

end Date

structure Moment where
  date : Date
  hour : Nat
  minute : Nat
  second : Nat
  milli : Nat
  deriving DecidableEq, Repr

namespace Moment

structure Valid (m : Moment) : Prop where
  date : m.date.Valid
  hour : m.hour < 24
  minute : m.minute < 60
  second : m.second < 60
  milli : m.milli < 1000

def isValid (m : Moment) : Bool :=
  m.date.isValid && m.hour < 24 && m.minute < 60 && m.second < 60 && m.milli < 1000

theorem isValid_iff {m : Moment} : m.isValid = true ↔ m.Valid := by
  simp only [isValid, Bool.and_eq_true, decide_eq_true_eq, Date.isValid_iff]
  exact ⟨fun ⟨⟨⟨⟨a, b⟩, c⟩, d⟩, e⟩ => ⟨a, b, c, d, e⟩,
    fun ⟨a, b, c, d, e⟩ => ⟨⟨⟨⟨a, b⟩, c⟩, d⟩, e⟩⟩

def toMillis (m : Moment) : Int :=
  (((m.date.dayNumber * 24 + m.hour) * 60 + m.minute) * 60 + m.second) * 1000 + m.milli

def ofMillis (n : Int) : Moment where
  date := Date.ofDayNumber (n / 86400000)
  hour := (n / 3600000 % 24).toNat
  minute := (n / 60000 % 60).toNat
  second := (n / 1000 % 60).toNat
  milli := (n % 1000).toNat

end Moment

end Notebook
