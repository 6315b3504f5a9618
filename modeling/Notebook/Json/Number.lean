import Notebook.Dyadic
import Notebook.Text.Number

/-! # The size of JSON numbers

A number is kept as a significand of 64 bits and a power of ten. Digits of the whole part that do
not fit only raise the power, and those of the fraction are dropped. The number is the product of
both in double precision, which must be finite.
-/

namespace Notebook.Json

structure Decimal where
  significand : Nat
  power : Int
  deriving DecidableEq, Repr

namespace Decimal

def append? (n : Nat) (digit : Char) : Option Nat :=
  let m := 10 * n + (digit.toNat - 48)
  if m ≤ Text.maxWord then some m else none

/-- The digits of a whole part. From the first that does not fit on they only count. -/
def appendWhole (n : Nat) : List Char → Decimal
  | [] => ⟨n, 0⟩
  | c :: cs =>
    match append? n c with
    | some m => appendWhole m cs
    | none => ⟨n, cs.length + 1⟩

/-- The digits of a fraction up to the first that does not fit. -/
def appendFraction (x : Decimal) : List Char → Decimal
  | [] => x
  | c :: cs =>
    match append? x.significand c with
    | some m => appendFraction ⟨m, x.power - 1⟩ cs
    | none => x

def ofDigits (whole fraction : List Char) (exponent : Int) : Decimal :=
  let x := (appendWhole 0 whole).appendFraction fraction
  { x with power := x.power + exponent }

/-- Whether the number is finite in double precision. The power of ten must be finite too. -/
def isFinite (x : Decimal) : Bool :=
  x.significand = 0 || x.power < 0 ||
    (x.power ≤ 308 &&
      (Dyadic.nearest x.significand 1).isProductFinite
        (Dyadic.nearest (Nat.pow 10 x.power.toNat) 1))

end Decimal

end Notebook.Json
