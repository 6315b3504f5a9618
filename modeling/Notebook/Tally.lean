import Notebook.Dyadic

/-! # Tallies

How often calls were expanded, how often a refresh expanded them again or passed them by, and how
many errors and recursions came up. The share of visits of a refresh that ended in an expansion
is a number in double precision, computed exactly.
-/

namespace Notebook

structure Tally where
  executions : Nat := 0
  reexecutions : Nat := 0
  forwards : Nat := 0
  errors : Nat := 0
  recursions : Nat := 0
  deriving DecidableEq, Repr

namespace Tally

/-- The share of expansions among the visits of refreshes, zero if there were none. -/
def rate (t : Tally) : Dyadic :=
  if t.reexecutions = 0 then ⟨0, 0⟩ else Dyadic.nearest t.reexecutions (t.reexecutions + t.forwards)

def rateDigits (t : Tally) : String :=
  let digits := Nat.toDigits 16 t.rate.bits
  String.ofList (List.replicate (16 - digits.length) '0' ++ digits)

def ratePercent (t : Tally) : String :=
  let n := t.rate.percent.tenths
  toString (n / 10) ++ "." ++ toString (n % 10) ++ "%"

def firstLine (t : Tally) : String :=
  "  Executions: " ++ toString t.executions ++ " | Re-executions: " ++ toString t.reexecutions ++
    " | Forwards: " ++ toString t.forwards ++ " | Re-execution Rate: " ++ t.ratePercent

def secondLine (t : Tally) : String :=
  "  Errors: " ++ toString t.errors ++ " | Recursions: " ++ toString t.recursions

def summary (t : Tally) : String :=
  t.firstLine ++ "\n" ++ t.secondLine ++ "\n"

end Tally

end Notebook
