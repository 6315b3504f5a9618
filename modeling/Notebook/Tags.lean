import Notebook.Text.Blank
import Notebook.Text.Cut

/-! # Tag lists

A tags field holds tags separated by blanks. A tag that contains blanks stands in double square
brackets. Reading never fails: brackets without an end run to the end of the field, and empty
tags are dropped.
-/

namespace Notebook.Tags

open Text

/-- One tag and the text after it. The text begins with the tag. -/
def first (cs : List Char) : List Char × List Char :=
  match cs with
  | '[' :: '[' :: rest =>
    match cutAt [']', ']'] rest with
    | some parts => parts
    | none => (rest, [])
  | _ => (word cs, afterWord cs)

theorem length_first_lt {c : Char} (h : isBlank c = false) (cs : List Char) :
    (first (c :: cs)).2.length < (c :: cs).length := by
  simp only [first]
  split
  · next rest heq =>
    split
    · next parts hcut =>
      obtain ⟨inner, behind⟩ := parts
      have := congrArg List.length (eq_append_of_cutAt hcut)
      simp_all
      omega
    · simp
  · have := length_afterWord_le cs
    have hstep : afterWord (c :: cs) = afterWord cs := by simp [afterWord, h]
    simp only [hstep, List.length_cons]
    omega

def split (cs : List Char) : List (List Char) :=
  match _hskip : skipBlanks cs with
  | [] => []
  | c :: rest => (first (c :: rest)).1 :: split (first (c :: rest)).2
termination_by cs.length
decreasing_by
  have h1 := length_first_lt (isBlank_head_skipBlanks _hskip) rest
  have h2 := length_skipBlanks_le cs
  rw [_hskip] at h2
  omega

def parse (field : String) : List String :=
  ((split field.toList).filter fun tag => !tag.isEmpty).map String.ofList

def formatTag (tag : String) : String :=
  if tag.toList.any isBlank then "[[" ++ tag ++ "]]" else tag

def format (tags : List String) : String :=
  " ".intercalate (tags.map formatTag)

end Notebook.Tags
