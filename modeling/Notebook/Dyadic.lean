/-! # Double precision

Numbers with a mantissa of 53 bits and a binary exponent, rounded exactly: to the nearest one, and
halfway to the one with the even mantissa. Exponents are not bounded here; a product that leaves
the range of double precision is told apart by a comparison.
-/

namespace Notebook

structure Dyadic where
  mantissa : Nat
  exponent : Int
  deriving DecidableEq, Repr

namespace Dyadic

/-- The nearest integer to a quotient. Halves go to the even neighbour. -/
def roundDiv (n d : Nat) : Nat :=
  let q := n / d
  let twice := 2 * (n % d)
  if d < twice || (twice = d && q % 2 = 1) then q + 1 else q

/-- The quotient rounded to 53 bits. It must not be zero. -/
def nearest (n d : Nat) : Dyadic :=
  let scaled (e : Int) := roundDiv (n <<< (-e).toNat) (d <<< e.toNat)
  let e : Int := (n.log2 : Int) - d.log2 - 52
  if (d <<< e.toNat) <<< 52 ≤ n <<< (-e).toNat then ⟨scaled e, e⟩
  else ⟨scaled (e - 1), e - 1⟩

def bits (x : Dyadic) : Nat :=
  if x.mantissa = 0 then 0 else (x.exponent + 1074).toNat <<< 52 + x.mantissa

def percent (x : Dyadic) : Dyadic :=
  if x.mantissa = 0 then x
  else nearest ((100 * x.mantissa) <<< x.exponent.toNat) (1 <<< (-x.exponent).toNat)

def tenths (x : Dyadic) : Nat :=
  roundDiv ((10 * x.mantissa) <<< x.exponent.toNat) (1 <<< (-x.exponent).toNat)

/-- The greatest double plus half its last place, the least value that rounds to infinity. -/
def limit : Nat :=
  1 <<< 1024 - 1 <<< 970

def isProductFinite (x y : Dyadic) : Bool :=
  let e := x.exponent + y.exponent
  (x.mantissa * y.mantissa) <<< e.toNat < limit <<< (-e).toNat

end Dyadic

end Notebook
