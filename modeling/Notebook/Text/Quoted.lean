import Notebook.Text.Attached
import Notebook.Text.Hidden

/-! # Quoted text

Text between double quotes in which every character that would not show is written as an escape.
Four control characters, the quote and the backslash have escapes of their own. Any other
character that is hidden or attached is written with its code point in hexadecimal.
-/

namespace Notebook.Text

namespace Quoted

def isShown (c : Char) : Bool :=
  !(isHidden c || isAttached c)

def hexDigits (n : Nat) : List Char :=
  Nat.toDigits 16 n

def escape (c : Char) : List Char :=
  if c = '"' then ['\\', '"']
  else if c = '\\' then ['\\', '\\']
  else if c = '\n' then ['\\', 'n']
  else if c = '\r' then ['\\', 'r']
  else if c = '\t' then ['\\', 't']
  else if c = '\x00' then ['\\', '0']
  else if isShown c then [c]
  else ['\\', 'u', '\x7b'] ++ hexDigits c.toNat ++ ['\x7d']

end Quoted

def quoted (s : String) : String :=
  String.ofList (('"' :: s.toList.flatMap Quoted.escape) ++ ['"'])

end Notebook.Text
