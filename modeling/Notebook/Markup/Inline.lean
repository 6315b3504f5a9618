import Notebook.Markup.Params
import Notebook.Tree.Node

/-! # Wikitext

Text with calls, bold and italic spans and line breaks. At each place the text either begins with
such a construct or goes on with a plain character. A mark whose construct has no end is plain.
-/

namespace Notebook.Markup

open Text

/-- The text up to the first `>>` that is outside of quotes, brackets and braces, and the text
after it. An opening mark without its closing mark encloses nothing. -/
def splitClosing (cs : List Char) : Option (List Char × List Char) :=
  match cs with
  | [] => none
  | '>' :: '>' :: rest => some ([], rest)
  | c :: rest =>
    match _hopen : opening? (c :: rest) with
    | some (e, after) =>
      match _hcut : cutAt e.closing after with
      | some (inner, behind) =>
        (splitClosing behind).map fun parts => (e.mark ++ inner ++ e.closing ++ parts.1, parts.2)
      | none => (splitClosing rest).map fun parts => (c :: parts.1, parts.2)
    | none => (splitClosing rest).map fun parts => (c :: parts.1, parts.2)
termination_by cs.length
decreasing_by
  · have := length_opening _hopen
    have := length_cutAt _hcut
    simp only [List.length_cons] at *
    omega
  · simp
  · simp

theorem eq_append_of_splitClosing {cs body after : List Char}
    (h : splitClosing cs = some (body, after)) : cs = body ++ '>' :: '>' :: after := by
  fun_induction splitClosing cs generalizing body with
  | case1 => simp at h
  | case2 rest => simp_all
  | case3 c rest _ e after' hopen inner behind hcut ih =>
    obtain ⟨⟨front, behind'⟩, hparts, heq⟩ := Option.map_eq_some_iff.1 h
    obtain ⟨rfl, rfl⟩ := Prod.mk.inj heq
    rw [eq_append_of_opening hopen, eq_append_of_cutAt hcut, ih hparts]
    simp
  | case4 c rest _ e after' hopen hcut ih =>
    obtain ⟨⟨front, behind'⟩, hparts, heq⟩ := Option.map_eq_some_iff.1 h
    obtain ⟨rfl, rfl⟩ := Prod.mk.inj heq
    simp [ih hparts]
  | case5 c rest _ hopen ih =>
    obtain ⟨⟨front, behind'⟩, hparts, heq⟩ := Option.map_eq_some_iff.1 h
    obtain ⟨rfl, rfl⟩ := Prod.mk.inj heq
    simp [ih hparts]

/-- The call at the start of the text, and the text after it. -/
def callHere? : List Char → Option (Call × List Char)
  | '<' :: '<' :: cs => do
    let (body, after) ← splitClosing cs
    let c ← parseCall? body
    return (c, after)
  | _ => none

inductive Emphasis where
  | strong
  | em
  deriving DecidableEq, Repr

def Emphasis.mark : Emphasis → List Char
  | .strong => ['\x27', '\x27']
  | .em => ['/', '/']

def Emphasis.tag : Emphasis → String
  | .strong => "strong"
  | .em => "em"

def spanHere? (e : Emphasis) (cs : List Char) : Option (List Char × List Char) :=
  if e.mark.isPrefixOf cs then cutAt e.mark (cs.drop 2) else none

inductive Construct where
  | call (c : Call)
  | span (e : Emphasis) (inner : List Char)
  | lineBreak
  deriving Repr

def construct? (cs : List Char) : Option (Construct × List Char) :=
  match callHere? cs with
  | some (c, after) => some (.call c, after)
  | none =>
    match spanHere? .strong cs with
    | some (inner, after) => some (.span .strong inner, after)
    | none =>
      match spanHere? .em cs with
      | some (inner, after) => some (.span .em inner, after)
      | none =>
        match cs with
        | '\n' :: after => some (.lineBreak, after)
        | _ => none

theorem length_callHere {cs after : List Char} {c : Call} (h : callHere? cs = some (c, after)) :
    after.length < cs.length := by
  unfold callHere? at h
  split at h
  · next rest =>
    obtain ⟨⟨body, behind⟩, hclosing, h⟩ := Option.bind_eq_some_iff.1 h
    obtain ⟨c', hc, h⟩ := Option.bind_eq_some_iff.1 h
    have := congrArg List.length (eq_append_of_splitClosing hclosing)
    simp_all
    omega
  · simp at h

theorem length_spanHere {e : Emphasis} {cs inner after : List Char}
    (h : spanHere? e cs = some (inner, after)) :
    inner.length < cs.length ∧ after.length < cs.length := by
  simp only [spanHere?] at h
  split at h
  · next hp =>
    obtain ⟨rest, rfl⟩ := List.isPrefixOf_iff_prefix.1 hp
    have h2 := length_cutAt h
    have hm : e.mark.length = 2 := by cases e <;> rfl
    simp only [List.length_drop, List.length_append, hm] at h2 ⊢
    omega
  · simp at h

theorem length_construct {cs after : List Char} {k : Construct}
    (h : construct? cs = some (k, after)) : after.length < cs.length := by
  unfold construct? at h
  split at h
  · next c behind hcall =>
    obtain ⟨-, rfl⟩ := Prod.mk.inj (Option.some.inj h)
    exact length_callHere hcall
  · split at h
    · next inner behind hspan =>
      obtain ⟨-, rfl⟩ := Prod.mk.inj (Option.some.inj h)
      exact (length_spanHere hspan).2
    · split at h
      · next inner behind hspan =>
        obtain ⟨-, rfl⟩ := Prod.mk.inj (Option.some.inj h)
        exact (length_spanHere hspan).2
      · split at h <;> simp_all

theorem length_inner {cs inner after : List Char} {e : Emphasis}
    (h : construct? cs = some (.span e inner, after)) : inner.length < cs.length := by
  unfold construct? at h
  split at h
  · simp at h
  · split at h
    · next inner' behind hspan =>
      have := (length_spanHere hspan).1
      simp_all
    · split at h
      · next inner' behind hspan =>
        have := (length_spanHere hspan).1
        simp_all
      · split at h <;> simp_all

/-- The longest part of the text at no place of which a construct begins, and the rest. -/
def plainRun : List Char → List Char × List Char
  | [] => ([], [])
  | c :: cs =>
    if (construct? (c :: cs)).isSome then ([], c :: cs)
    else
      let run := plainRun cs
      (c :: run.1, run.2)

theorem plainRun_append (cs : List Char) : (plainRun cs).1 ++ (plainRun cs).2 = cs := by
  induction cs with
  | nil => rfl
  | cons c cs ih =>
    simp only [plainRun]
    split
    · rfl
    · simp [ih]

def textNodes (run : List Char) : List Node :=
  if run.isEmpty then [] else [.text (String.ofList run)]

def parseChars (cs : List Char) : List Node :=
  textNodes (plainRun cs).1 ++
    match _h : construct? (plainRun cs).2 with
    | none => []
    | some (.call c, after) => .ofCall c :: parseChars after
    | some (.span e inner, after) => .plainElement e.tag (parseChars inner) :: parseChars after
    | some (.lineBreak, after) => .plainElement "br" [] :: parseChars after
termination_by cs.length
decreasing_by
  all_goals
    have hlen := congrArg List.length (plainRun_append cs)
    simp only [List.length_append] at hlen
    first
    | have := length_inner _h
      omega
    | have := length_construct _h
      omega

def parse (text : String) : List Node :=
  parseChars text.toList

/-- Plain text is one preformatted element, and nothing in it is markup. -/
def parsePlain (text : String) : List Node :=
  [.plainElement "pre" [.text text]]

end Notebook.Markup
