/-! # Numbers as text

Numbers of 64 bits written in some base.
-/

namespace Notebook.Text

def maxWord : Nat := 0xFFFFFFFFFFFFFFFF

def digitValue? (base : Nat) (c : Char) : Option Nat :=
  let n? :=
    if '0' ≤ c && c ≤ '9' then some (c.toNat - 48)
    else if 'a' ≤ c && c ≤ 'z' then some (c.toNat - 87)
    else if 'A' ≤ c && c ≤ 'Z' then some (c.toNat - 55)
    else none
  n?.filter (· < base)

/-- A number of at most 64 bits with at least one digit. -/
def number? (base : Nat) (cs : List Char) : Option Nat := do
  let digits ← cs.mapM (digitValue? base)
  if digits.isEmpty then none
  else
    let n := digits.foldl (fun n d => base * n + d) 0
    if n ≤ maxWord then some n else none

def dropPlus : List Char → List Char
  | '+' :: cs => cs
  | cs => cs

end Notebook.Text
