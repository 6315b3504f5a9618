import Notebook.Json.Number

/-! # Reading JSON text

Readers run from left to right and stop at the first fault. A fault is one of three: the text is
malformed, it ends early, or it is well-formed so far but does not fit the expected shape.
Values under keys that nobody asks for are skipped; their text is held to the grammar only, so a
skipped number may be out of range and a skipped escape may name half of a surrogate pair.
-/

namespace Notebook.Json

inductive Fault where
  | malformed
  | truncated
  | mismatch
  deriving DecidableEq, Repr

abbrev Reader := StateT (List Char) (Except Fault)

namespace Reader

def isSpace (c : Char) : Bool :=
  c = ' ' || c = '\t' || c = '\n' || c = '\r'

/-- The next character that is no space, which stays unread. -/
def next? : Reader (Option Char) := do
  modify (List.dropWhile isSpace)
  return (← get).head?

def next : Reader Char := do
  let some c ← next? | throw .truncated
  return c

def advance : Reader Unit :=
  modify List.tail

def take? : Reader (Option Char) := do
  let c := (← get).head?
  advance
  return c

def literalRest : List Char → Reader Unit
  | [] => return
  | c :: cs => do
    let some d ← take? | throw .truncated
    if c = d then literalRest cs else throw .malformed

def hexValue? (c : Char) : Option Nat :=
  if '0' ≤ c && c ≤ '9' then some (c.toNat - 48)
  else if 'a' ≤ c && c ≤ 'f' then some (c.toNat - 87)
  else if 'A' ≤ c && c ≤ 'F' then some (c.toNat - 55)
  else none

/-- Four hexadecimal digits. The text ends early if fewer than four bytes are left. -/
def codeUnit : Reader Nat := do
  let cs := (← get).take 4
  if (String.ofList cs).utf8ByteSize < 4 then throw .truncated
  set ((← get).drop 4)
  match cs.mapM hexValue? with
  | some digits => return digits.foldl (fun n d => 16 * n + d) 0
  | none => throw .malformed

/-- The character of a `\u` escape. Above the first plane it takes two escapes, high half first. -/
def unicodeEscape : Reader Char := do
  let high ← codeUnit
  if 0xDC00 ≤ high && high ≤ 0xDFFF then throw .malformed
  if high < 0xD800 || 0xDBFF < high then return Char.ofNat high
  let some slash ← take? | throw .truncated
  if slash ≠ '\\' then throw .malformed
  let some u ← take? | throw .truncated
  if u ≠ 'u' then throw .malformed
  let low ← codeUnit
  if low < 0xDC00 || 0xDFFF < low then throw .malformed
  return Char.ofNat (0x10000 + (high - 0xD800) * 0x400 + (low - 0xDC00))

/-- The character of an escape after its backslash. A skipped string only counts digits. -/
def escaped (skipped : Bool) : Reader Char := do
  let some c ← take? | throw .truncated
  match c with
  | '"' | '\\' | '/' => return c
  | 'b' => return '\x08'
  | 'f' => return '\x0c'
  | 'n' => return '\n'
  | 'r' => return '\r'
  | 't' => return '\t'
  | 'u' => if skipped then do let _ ← codeUnit; return ' ' else unicodeEscape
  | _ => throw .malformed

def stringRest (skipped : Bool) : Nat → Reader (List Char)
  | 0 => throw .truncated
  | bound + 1 => do
    let some c ← take? | throw .truncated
    if c = '"' then return []
    else if c = '\\' then
      let d ← escaped skipped
      return d :: (← stringRest skipped bound)
    else if c.toNat < 0x20 then throw .malformed
    else return c :: (← stringRest skipped bound)

def stringHere (skipped : Bool) : Reader String := do
  advance
  return String.ofList (← stringRest skipped ((← get).length + 1))

def isDigit (c : Char) : Bool :=
  '0' ≤ c && c ≤ '9'

def digits : Reader (List Char) := do
  let cs ← get
  set (cs.dropWhile isDigit)
  return cs.takeWhile isDigit

def someDigits (skipped : Bool) : Reader (List Char) := do
  let run ← digits
  if run.isEmpty then
    if (← get).isEmpty && !skipped then throw .truncated else throw .malformed
  return run

def fraction (skipped : Bool) : Reader (List Char) := do
  if (← get).head? = some '.' then
    advance
    someDigits skipped
  else return []

def exponent (skipped : Bool) : Reader Int := do
  let c := (← get).head?
  if c = some 'e' || c = some 'E' then
    advance
    let sign := (← get).head?
    if sign = some '+' || sign = some '-' then advance
    let run ← someDigits skipped
    let size : Nat := run.foldl (fun n d => 10 * n + (d.toNat - 48)) 0
    return if sign = some '-' then -(size : Int) else (size : Int)
  else return 0

/-- A number. One that is not skipped must be finite as a double. -/
def number (skipped : Bool) : Reader Unit := do
  if (← get).head? = some '-' then advance
  let whole ← someDigits skipped
  if whole.head? = some '0' && 1 < whole.length then throw .malformed
  let part ← fraction skipped
  let power ← exponent skipped
  unless skipped || (Decimal.ofDigits whole part power).isFinite do throw .malformed

def scalar (skipped : Bool) (c : Char) : Reader Unit := do
  if c = 'n' then advance; literalRest ['u', 'l', 'l']
  else if c = 't' then advance; literalRest ['r', 'u', 'e']
  else if c = 'f' then advance; literalRest ['a', 'l', 's', 'e']
  else if c = '-' || isDigit c then number skipped
  else if c = '"' then let _ ← stringHere skipped
  else throw .malformed

/-- A value of the wrong kind: its scalar text must be well-formed to count as a mismatch. -/
def wrongKind (c : Char) : Reader α := do
  unless c = '[' || c = '\x7b' do scalar false c
  throw .mismatch

def colon : Reader Unit := do
  if (← next) = ':' then advance else throw .malformed

/-- Moves to the next item of an array; `false` at its end, which stays unread. -/
def hasItem (first : Bool) : Reader Bool := do
  let c ← next
  if c = ']' then return false
  if first then return true
  if c ≠ ',' then throw .malformed
  advance
  if (← next) = ']' then throw .malformed
  return true

def hasKey (first : Bool) : Reader Bool := do
  let c ← next
  if c = '\x7d' then return false
  if !first then
    if c ≠ ',' then throw .malformed
    advance
  if (← next) ≠ '"' then throw .malformed
  return true

mutual

def skipWithin : Nat → Reader Unit
  | 0 => throw .truncated
  | bound + 1 => do
    let c ← next
    if c = '[' then
      advance
      skipItems bound true
    else if c = '\x7b' then
      advance
      skipMembers bound true
    else scalar true c

def skipItems : Nat → Bool → Reader Unit
  | 0, _ => throw .truncated
  | bound + 1, first => do
    if ← hasItem first then
      skipWithin bound
      skipItems bound false
    else advance

def skipMembers : Nat → Bool → Reader Unit
  | 0, _ => throw .truncated
  | bound + 1, first => do
    if ← hasKey first then
      let _ ← stringHere true
      colon
      skipWithin bound
      skipMembers bound false
    else advance

end

def skip : Reader Unit := do
  skipWithin ((← get).length + 1)

def string : Reader String := do
  let c ← next
  if c = '"' then stringHere false else wrongKind c

def stringOrNull : Reader (Option String) := do
  if (← next?) = some 'n' then
    advance
    literalRest ['u', 'l', 'l']
    return none
  else return some (← string)

def membersWithin (member : σ → String → Reader σ) : Nat → Bool → σ → Reader σ
  | 0, _, _ => throw .truncated
  | bound + 1, first, s => do
    if ← hasKey first then
      let key ← stringHere false
      membersWithin member bound false (← member s key)
    else
      advance
      return s

/-- The members of an object whose opening brace comes next. `member` reads from the colon on. -/
def members (start : σ) (member : σ → String → Reader σ) : Reader σ := do
  advance
  membersWithin member ((← get).length + 1) true start

def itemsWithin (item : Reader α) : Nat → Bool → Reader (List α)
  | 0, _ => throw .truncated
  | bound + 1, first => do
    if ← hasItem first then
      let head ← item
      return head :: (← itemsWithin item bound false)
    else
      advance
      return []

def items (item : Reader α) : Reader (List α) := do
  advance
  itemsWithin item ((← get).length + 1) true

def whole (reader : Reader α) (text : String) : Except Fault α := do
  let (value, rest) ← reader.run text.toList
  if (rest.dropWhile isSpace).isEmpty then return value else throw .malformed

end Reader

end Notebook.Json
