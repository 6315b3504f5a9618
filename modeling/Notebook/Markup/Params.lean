import Notebook.Text.Blank
import Notebook.Text.Cut
import Notebook.Tree.Call

/-! # Parameters of a call

Parameters are separated by blanks. Each may begin with a name and a colon. A value stands in
double quotes, in double square brackets or in double braces, or it is a word. Text in braces is
a call. Nothing is refused: an enclosure without an end runs to the end of the text.
-/

namespace Notebook.Markup

open Text

inductive Enclosure where
  | quotes
  | brackets
  | braces
  deriving DecidableEq, Repr

def Enclosure.mark : Enclosure → List Char
  | .quotes => ['"']
  | .brackets => ['[', '[']
  | .braces => ['\x7b', '\x7b']

def Enclosure.closing : Enclosure → List Char
  | .quotes => ['"']
  | .brackets => [']', ']']
  | .braces => ['\x7d', '\x7d']

/-- The enclosure that opens at the start of the text, and the text after its opening mark. -/
def opening? : List Char → Option (Enclosure × List Char)
  | '"' :: cs => some (.quotes, cs)
  | '[' :: '[' :: cs => some (.brackets, cs)
  | '\x7b' :: '\x7b' :: cs => some (.braces, cs)
  | _ => none

theorem eq_append_of_opening {cs after : List Char} {e : Enclosure}
    (h : opening? cs = some (e, after)) : cs = e.mark ++ after := by
  unfold opening? at h
  split at h <;> grind [Enclosure.mark]

theorem length_opening {cs after : List Char} {e : Enclosure} (h : opening? cs = some (e, after)) :
    after.length < cs.length := by
  unfold opening? at h
  split at h <;> grind

inductive RawValue where
  | literal (text : List Char)
  | call (body : List Char)
  deriving DecidableEq, Repr

def rawValue (cs : List Char) : RawValue × List Char :=
  match opening? cs with
  | some (e, after) =>
    let parts := (cutAt e.closing after).getD (after, [])
    (if e = .braces then .call parts.1 else .literal parts.1, parts.2)
  | none => (.literal (word cs), afterWord cs)

def isNameChar (c : Char) : Bool :=
  ('a' ≤ c && c ≤ 'z') || ('A' ≤ c && c ≤ 'Z') || ('0' ≤ c && c ≤ '9') || c = '_' || c = '-'

def splitName (cs : List Char) : Option (List Char) × List Char :=
  let name := cs.takeWhile isNameChar
  match cs.dropWhile isNameChar with
  | ':' :: rest => if name.isEmpty then (none, cs) else (some name, rest)
  | _ => (none, cs)

def callParts? (body : List Char) : Option (List Char × List Char) :=
  let body := trim body
  if (word body).isEmpty then none else some (word body, afterWord body)

theorem length_splitName_le (cs : List Char) : (splitName cs).2.length ≤ cs.length := by
  have h := (List.dropWhile_sublist isNameChar (l := cs)).length_le
  simp only [splitName]
  split
  · next rest heq =>
    rw [heq, List.length_cons] at h
    split
    · simp
    · simp only
      omega
  · simp

theorem length_cutAt {mark cs before after : List Char}
    (h : cutAt mark cs = some (before, after)) :
    before.length + after.length ≤ cs.length := by
  have := congrArg List.length (eq_append_of_cutAt h)
  simp only [List.length_append] at this
  omega

theorem length_trim_le (cs : List Char) : (trim cs).length ≤ cs.length := by
  have h := (List.dropWhile_sublist isBlank (l := (skipBlanks cs).reverse)).length_le
  have := length_skipBlanks_le cs
  simp only [trim, List.length_reverse] at h ⊢
  omega

theorem length_callParts {body name params : List Char}
    (h : callParts? body = some (name, params)) : params.length ≤ body.length := by
  simp only [callParts?] at h
  split at h
  · simp at h
  · obtain ⟨-, rfl⟩ := Prod.mk.inj (Option.some.inj h)
    exact Nat.le_trans (length_afterWord_le _) (length_trim_le _)

/-- A value never takes less than the text that it is read from, unless that text is empty or
begins with a blank. -/
theorem length_rawValue_le (cs : List Char) : (rawValue cs).2.length ≤ cs.length := by
  simp only [rawValue]
  split
  · next e after h =>
    have := length_opening h
    cases hcut : cutAt e.closing after with
    | none => simp
    | some parts =>
      obtain ⟨inner, behind⟩ := parts
      have := length_cutAt hcut
      simp only [Option.getD_some]
      omega
  · exact length_afterWord_le cs

theorem length_rawValue_lt {c : Char} {cs : List Char} (hc : isBlank c = false) :
    (rawValue (c :: cs)).2.length < (c :: cs).length := by
  simp only [rawValue]
  split
  · next e after h =>
    have := length_opening h
    cases hcut : cutAt e.closing after with
    | none => simp
    | some parts =>
      obtain ⟨inner, behind⟩ := parts
      have := length_cutAt hcut
      simp only [Option.getD_some]
      omega
  · have := length_afterWord_le cs
    have hstep : afterWord (c :: cs) = afterWord cs := by simp [afterWord, hc]
    simp only [hstep, List.length_cons]
    omega

theorem length_rawValue_call {cs body rest : List Char} (h : rawValue cs = (.call body, rest)) :
    body.length < cs.length := by
  simp only [rawValue] at h
  split at h
  · next e after hopen =>
    have := length_opening hopen
    split at h
    · cases hcut : cutAt e.closing after with
      | none => simp_all
      | some parts =>
        obtain ⟨inner, behind⟩ := parts
        have := length_cutAt hcut
        simp only [hcut, Option.getD_some, Prod.mk.injEq, RawValue.call.injEq] at h
        obtain ⟨rfl, -⟩ := h
        omega
    · simp at h
  · simp at h

theorem splitName_eq_self {cs : List Char} (h : (splitName cs).1 = none) :
    (splitName cs).2 = cs := by
  simp only [splitName] at h ⊢
  split
  · split <;> simp_all
  · rfl

theorem length_splitName_lt {cs : List Char} (h : (splitName cs).1 ≠ none) :
    (splitName cs).2.length < cs.length := by
  have hle := (List.dropWhile_sublist isNameChar (l := cs)).length_le
  simp only [splitName] at h ⊢
  split
  · next rest heq =>
    rw [heq, List.length_cons] at hle
    split
    · simp_all
    · simp only
      omega
  · simp_all

/-- A parameter takes at least one character. -/
theorem length_rest_lt {c : Char} (hc : isBlank c = false) (cs : List Char) :
    (rawValue (splitName (c :: cs)).2).2.length < (c :: cs).length := by
  by_cases h : (splitName (c :: cs)).1 = none
  · rw [splitName_eq_self h]
    exact length_rawValue_lt hc
  · exact Nat.lt_of_le_of_lt (length_rawValue_le _) (length_splitName_lt h)

def parseParams (cs : List Char) : List Param :=
  match _hskip : skipBlanks cs with
  | [] => []
  | c :: rest =>
    let name := (splitName (c :: rest)).1.map String.ofList
    let param : Param :=
      match _hraw : rawValue (splitName (c :: rest)).2 with
      | (.literal text, _) => .literal name (String.ofList text)
      | (.call body, _) =>
        match _hparts : callParts? body with
        | none => .literal name ""
        | some (callee, params) => .call name (String.ofList callee) (parseParams params)
    param :: parseParams (rawValue (splitName (c :: rest)).2).2
termination_by cs.length
decreasing_by
  · have h1 := length_skipBlanks_le cs
    rw [_hskip] at h1
    have h2 := length_splitName_le (c :: rest)
    have h3 := length_rawValue_call _hraw
    have h4 := length_callParts _hparts
    omega
  · have h1 := length_skipBlanks_le cs
    rw [_hskip] at h1
    have h2 := length_rest_lt (isBlank_head_skipBlanks _hskip) rest
    omega

/-- The call with the given text between its brackets, unless it has no name. -/
def parseCall? (body : List Char) : Option Call :=
  (callParts? body).map fun parts => ⟨String.ofList parts.1, parseParams parts.2⟩

end Notebook.Markup
