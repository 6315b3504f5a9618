/-! # Ranges of code points

A class of characters as a table: the ranges of its code points, both ends included.
-/

namespace Notebook.Text

abbrev CodeRanges := List (Nat × Nat)

namespace CodeRanges

def contains (ranges : CodeRanges) (c : Char) : Bool :=
  ranges.any fun range => range.1 ≤ c.toNat && c.toNat ≤ range.2

def size (ranges : CodeRanges) : Nat :=
  ranges.foldl (fun n range => n + (range.2 + 1 - range.1)) 0

def isAscending : CodeRanges → Bool
  | a :: b :: rest => a.1 ≤ a.2 && a.2 + 1 < b.1 && isAscending (b :: rest)
  | [a] => a.1 ≤ a.2
  | [] => true

end CodeRanges

end Notebook.Text
