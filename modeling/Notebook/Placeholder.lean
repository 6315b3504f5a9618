import Notebook.Text.DecimalDigit
import Notebook.Text.Number

/-! # Placeholders

A placeholder is a dollar sign and the longest run of digits behind it, of which there is at
least one. The number counts the values from one. Where it names no value, the placeholder stays.
The inserted values are not searched again.
-/

namespace Notebook.Placeholder

open Text

/-- Numbers of more than 64 bits name no value. -/
def valueAt (values : List String) (digits : List Char) : Option String :=
  if digits.all isAsciiDigit then
    match decimalValue digits with
    | 0 => none
    | n + 1 => if n < Text.maxWord then values[n]? else none
  else none

def replacement (values : List String) (digits : List Char) : List Char :=
  match valueAt values digits with
  | some value => value.toList
  | none => '$' :: digits

def substituteChars (values : List String) (cs : List Char) : List Char :=
  match cs with
  | [] => []
  | c :: rest =>
    if c = '$' then
      replacement values (rest.takeWhile isDecimalDigit) ++
        substituteChars values (rest.dropWhile isDecimalDigit)
    else c :: substituteChars values rest
termination_by cs.length
decreasing_by
  · have := (List.dropWhile_sublist isDecimalDigit (l := rest)).length_le
    simp only [List.length_cons]
    omega
  · simp

def substitute (text : String) (values : List String) : String :=
  String.ofList (substituteChars values text.toList)

end Notebook.Placeholder
