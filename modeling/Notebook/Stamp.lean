import Notebook.Calendar
import Notebook.Text.DecimalDigit
import Notebook.Text.Quoted

/-! # Compact dates

A moment as a run of digits: four for the year, two each for month, day, hour, minute and second,
and three for the milliseconds. Years that do not fit into four digits are written with a sign.
Reading takes digits only, so it refuses them.
-/

namespace Notebook.Stamp

open Text

def fixedDigits : Nat → Nat → List Char
  | 0, _ => []
  | width + 1, n => fixedDigits width (n / 10) ++ [Nat.digitChar (n % 10)]

def signedYear (year : Int) : List Char :=
  (if year < 0 then '-' else '+') ::
    if year.natAbs ≤ 9999 then fixedDigits 4 year.natAbs else Nat.toDigits 10 year.natAbs

def yearDigits (year : Int) : List Char :=
  if 0 ≤ year && year ≤ 9999 then fixedDigits 4 year.toNat else signedYear year

def digits (m : Moment) : List Char :=
  yearDigits m.date.year ++ fixedDigits 2 m.date.month ++ fixedDigits 2 m.date.day ++
    fixedDigits 2 m.hour ++ fixedDigits 2 m.minute ++ fixedDigits 2 m.second ++
    fixedDigits 3 m.milli

def format (m : Moment) : String :=
  String.ofList (digits m)

/-- The number in columns `start` to `stop`, zero where the text does not reach `stop`. -/
def column (cs : List Char) (start stop : Nat) : Nat :=
  if stop ≤ cs.length then decimalValue ((cs.take stop).drop start) else 0

def ofDigits (cs : List Char) : Moment where
  date := ⟨column cs 0 4, column cs 4 6, column cs 6 8⟩
  hour := column cs 8 10
  minute := column cs 10 12
  second := column cs 12 14
  milli := column cs 14 17

/-- Everything after the minutes may be missing, and digits after the milliseconds do not count. -/
def parse (text : String) : Option Moment :=
  let cs := text.toList
  if 12 ≤ cs.length && cs.all isAsciiDigit && (ofDigits cs).isValid then some (ofDigits cs)
  else none

def refusal (text : String) : String :=
  "invalid date field: " ++ quoted text

end Notebook.Stamp
