import Mathlib.Data.List.Chain
import Notebook.Markup.Inline
import Notebook.Proofs.Outline
import Notebook.Proofs.Text

/-! # What is read from a text is the text

A text consists of slices, one for each node that is read from it. What stands in a text node is
plain in the sense that nothing else could have been read at any place of it.
-/

namespace Notebook

namespace Node

def tag? : Node → Option String
  | element _ tag _ _ => some tag
  | _ => none

def isText : Node → Bool
  | text _ => true
  | _ => false

mutual

def written : Node → List Char
  | text s => s.toList
  | element _ tag _ children =>
    if tag = "br" then ['\n']
    else
      let mark := if tag = "strong" then Markup.Emphasis.strong.mark else Markup.Emphasis.em.mark
      mark ++ writtenList children ++ mark
  | call .. => []
  | error _ => []

def writtenList : List Node → List Char
  | [] => []
  | node :: nodes => written node ++ writtenList nodes

end

/-- What holds of the siblings at the top holds of all siblings further down. -/
def Everywhere (P : List Node → Prop) (nodes : List Node) : Prop :=
  P nodes ∧ ∀ node ∈ walkList nodes, P node.children

end Node

namespace Markup

open Text Node

/-- Something else than plain text begins here: a line break, a call that can be read, or emphasis
with a closing mark further on. -/
inductive Begins : List Char → Prop
  | lineBreak (after : List Char) : Begins ('\n' :: after)
  | call {cs : List Char} (h : (callHere? cs).isSome) : Begins cs
  | span (e : Emphasis) (inner after : List Char) :
      Begins (e.mark ++ inner ++ e.mark ++ after)

/-- A slice of the text before the rest, and the node that is read from it. The rest only matters
for where a call ends and for what is plain. -/
inductive Slice : List Char → List Char → Node → Prop
  | text {run rest : List Char} (hrun : run ≠ [])
      (hplain : ∀ done left, run = done ++ left → left ≠ [] → ¬ Begins (left ++ rest)) :
      Slice run rest (.text (String.ofList run))
  | lineBreak {rest : List Char} : Slice ['\n'] rest (.plainElement "br" [])
  | span {rest : List Char} (e : Emphasis) {inner : List Char} (h : ¬ e.mark <:+: inner) :
      Slice (e.mark ++ inner ++ e.mark) rest (.plainElement e.tag (parseChars inner))
  | call {rest body : List Char} {c : Call}
      (hend : splitClosing (body ++ ['>', '>'] ++ rest) = some (body, rest))
      (hc : parseCall? body = some c) :
      Slice (['<', '<'] ++ body ++ ['>', '>']) rest (.ofCall c)

inductive Slices : List Char → List Node → Prop
  | nil : Slices [] []
  | cons {slice rest : List Char} {node : Node} {nodes : List Node} (h : Slice slice rest node)
      (hrest : Slices rest nodes) : Slices (slice ++ rest) (node :: nodes)

/-- Siblings with texts that say something, on one line each, and are as long as possible. -/
structure Tidy (nodes : List Node) : Prop where
  texts : ∀ s, .text s ∈ nodes → s ≠ "" ∧ '\n' ∉ s.toList
  apart : nodes.IsChain fun a b => ¬ (a.isText ∧ b.isText)

/-- The nodes are what stands in the text, no more and no less. -/
structure Reading (cs : List Char) (nodes : List Node) : Prop where
  slices : Slices cs nodes
  tidy : Everywhere Tidy nodes
  /-- Emphasis has no emphasis of its own kind in it, however deep. -/
  nested : ∀ node ∈ walkList nodes, ∀ e : Emphasis, node.tag? = some e.tag →
    ∀ below ∈ walkList node.children, below.tag? ≠ some e.tag
  written : callsOf nodes = [] → writtenList nodes = cs

namespace Emphasis

theorem mark_ne_nil (e : Emphasis) : e.mark ≠ [] := by
  cases e <;> simp [mark]

theorem tag_injective {e e' : Emphasis} (h : e.tag = e'.tag) : e = e' := by
  cases e <;> cases e' <;> first | rfl | (revert h; decide)

theorem tag_ne_br (e : Emphasis) : e.tag ≠ "br" := by
  cases e <;> decide

end Emphasis

theorem spanHere_eq_some {e : Emphasis} {cs inner after : List Char}
    (h : spanHere? e cs = some (inner, after)) :
    cs = e.mark ++ inner ++ e.mark ++ after ∧ ¬ e.mark <:+: inner := by
  unfold spanHere? at h
  split at h
  · next hp =>
    obtain ⟨rest, rfl⟩ := List.isPrefixOf_iff_prefix.1 hp
    have hdrop : (e.mark ++ rest).drop 2 = rest := by cases e <;> rfl
    rw [hdrop] at h
    refine ⟨?_, not_infix_of_cutAt e.mark_ne_nil h⟩
    rw [eq_append_of_cutAt h]
    simp
  · cases h

theorem spanHere_append (e : Emphasis) (inner after : List Char) :
    spanHere? e (e.mark ++ inner ++ e.mark ++ after) ≠ none := by
  have hp : e.mark.isPrefixOf (e.mark ++ inner ++ e.mark ++ after) := by
    rw [List.isPrefixOf_iff_prefix, List.append_assoc, List.append_assoc]
    exact List.prefix_append ..
  have hdrop : (e.mark ++ inner ++ e.mark ++ after).drop 2 = inner ++ e.mark ++ after := by
    cases e <;> rfl
  rw [spanHere?, if_pos hp, hdrop, Ne, cutAt_eq_none e.mark_ne_nil, not_not]
  exact ⟨inner, after, rfl⟩

theorem callHere_eq_some {cs after : List Char} {c : Call}
    (h : callHere? cs = some (c, after)) :
    ∃ body, cs = ['<', '<'] ++ body ++ ['>', '>'] ++ after ∧
      splitClosing (body ++ ['>', '>'] ++ after) = some (body, after) ∧
      parseCall? body = some c := by
  unfold callHere? at h
  split at h
  · next rest =>
    obtain ⟨⟨body, behind⟩, hclosing, h⟩ := Option.bind_eq_some_iff.1 h
    obtain ⟨c', hc, h⟩ := Option.bind_eq_some_iff.1 h
    obtain ⟨rfl, rfl⟩ := Prod.mk.inj (Option.some.inj h)
    have heq := eq_append_of_splitClosing hclosing
    refine ⟨body, ?_, ?_, hc⟩
    · simp [heq]
    · rw [heq] at hclosing
      simpa using hclosing
  · cases h

def Construct.node : Construct → Node
  | call c => .ofCall c
  | span e inner => .plainElement e.tag (parseChars inner)
  | lineBreak => .plainElement "br" []

theorem construct_cases {cs after : List Char} {k : Construct}
    (h : construct? cs = some (k, after)) :
    (∃ c, k = .call c ∧ callHere? cs = some (c, after)) ∨
      (∃ e inner, k = .span e inner ∧ spanHere? e cs = some (inner, after)) ∨
      (k = .lineBreak ∧ cs = '\n' :: after) := by
  unfold construct? at h
  split at h
  · next c behind hcall =>
    obtain ⟨rfl, rfl⟩ := Prod.mk.inj (Option.some.inj h)
    exact .inl ⟨c, rfl, hcall⟩
  · split at h
    · next inner behind hspan =>
      obtain ⟨rfl, rfl⟩ := Prod.mk.inj (Option.some.inj h)
      exact .inr (.inl ⟨.strong, inner, rfl, hspan⟩)
    · split at h
      · next inner behind hspan =>
        obtain ⟨rfl, rfl⟩ := Prod.mk.inj (Option.some.inj h)
        exact .inr (.inl ⟨.em, inner, rfl, hspan⟩)
      · split at h
        · obtain ⟨rfl, rfl⟩ := Prod.mk.inj (Option.some.inj h)
          exact .inr (.inr ⟨rfl, rfl⟩)
        · cases h

theorem not_begins_of_construct {cs : List Char} (h : construct? cs = none) : ¬ Begins cs := by
  unfold construct? at h
  split at h
  · cases h
  · next hcall =>
    split at h
    · cases h
    · next hstrong =>
      split at h
      · cases h
      · next hem =>
        intro hb
        cases hb with
        | lineBreak after => cases h
        | call hc => simp [hcall] at hc
        | span e inner after =>
          cases e with
          | strong => exact spanHere_append .strong inner after hstrong
          | em => exact spanHere_append .em inner after hem

theorem slice_of_construct {cs after : List Char} {k : Construct}
    (h : construct? cs = some (k, after)) :
    ∃ slice, cs = slice ++ after ∧ Slice slice after k.node := by
  obtain ⟨c, rfl, hcall⟩ | ⟨e, inner, rfl, hspan⟩ | ⟨rfl, rfl⟩ := construct_cases h
  · obtain ⟨body, hcs, hend, hc⟩ := callHere_eq_some hcall
    exact ⟨_, hcs, .call hend hc⟩
  · obtain ⟨hcs, hinner⟩ := spanHere_eq_some hspan
    exact ⟨_, hcs, .span e hinner⟩
  · exact ⟨['\n'], rfl, .lineBreak⟩

theorem plainRun_rest (cs : List Char) :
    (plainRun cs).2 = [] ∨ (construct? (plainRun cs).2).isSome := by
  induction cs with
  | nil => exact .inl rfl
  | cons c cs ih =>
    rw [plainRun]
    split
    · next h => exact .inr h
    · exact ih

theorem plainRun_of_none {cs : List Char} (h : construct? (plainRun cs).2 = none) :
    plainRun cs = (cs, []) := by
  have hrest : (plainRun cs).2 = [] := by simpa [h] using plainRun_rest cs
  have happend := plainRun_append cs
  rw [hrest, List.append_nil] at happend
  exact Prod.ext happend hrest

theorem not_begins_plainRun (cs done left : List Char) (h : (plainRun cs).1 = done ++ left)
    (hl : left ≠ []) : ¬ Begins (left ++ (plainRun cs).2) := by
  induction cs generalizing done with
  | nil => simp_all [plainRun]
  | cons c cs ih =>
    rw [plainRun] at h ⊢
    split at h
    · simp_all
    · next hc =>
      rw [if_neg hc]
      cases done with
      | nil =>
        rw [List.nil_append] at h
        rw [← h, List.cons_append, plainRun_append]
        exact not_begins_of_construct (by simpa using hc)
      | cons d done => exact ih done (List.cons.inj h).2

theorem slices_textNodes {run rest : List Char} {nodes : List Node}
    (hplain : ∀ done left, run = done ++ left → left ≠ [] → ¬ Begins (left ++ rest))
    (h : Slices rest nodes) : Slices (run ++ rest) (textNodes run ++ nodes) := by
  cases run with
  | nil => exact h
  | cons c run => exact .cons (.text (by simp) hplain) h

theorem parseChars_of_none {cs : List Char} (h : construct? (plainRun cs).2 = none) :
    parseChars cs = textNodes cs := by
  rw [parseChars]
  split
  · rw [plainRun_of_none h, List.append_nil]
  all_goals simp_all

theorem parseChars_of_some {cs after : List Char} {k : Construct}
    (h : construct? (plainRun cs).2 = some (k, after)) :
    parseChars cs = textNodes (plainRun cs).1 ++ k.node :: parseChars after := by
  rw [parseChars]
  split
  · simp_all
  all_goals
    next heq =>
      obtain ⟨rfl, rfl⟩ := Prod.mk.inj (Option.some.inj (heq.symm.trans h))
      rfl

theorem parse_induction {P : List Char → Prop}
    (run : ∀ cs, construct? (plainRun cs).2 = none → P cs)
    (construct : ∀ cs k after, construct? (plainRun cs).2 = some (k, after) →
      (∀ e inner, k = .span e inner → P inner) → P after → P cs) (cs : List Char) : P cs := by
  induction cs using parseChars.induct with
  | case1 cs ihCall ihInner ihSpan ihBreak =>
    cases h : construct? (plainRun cs).2 with
    | none => exact run cs h
    | some p =>
      obtain ⟨k, after⟩ := p
      refine construct cs k after h ?_ ?_
      · rintro e inner rfl
        exact ihInner e inner after h
      · cases k with
        | call c => exact ihCall c after h
        | span e inner => exact ihSpan e inner after h
        | lineBreak => exact ihBreak after h

theorem slices_parseChars (cs : List Char) : Slices cs (parseChars cs) := by
  induction cs using parse_induction with
  | run cs h =>
    have hplain := not_begins_plainRun cs
    rw [plainRun_of_none h] at hplain
    have hslices := slices_textNodes hplain .nil
    rwa [List.append_nil, List.append_nil, ← parseChars_of_none h] at hslices
  | construct cs k after h _ ih =>
    obtain ⟨slice, hcs, hslice⟩ := slice_of_construct h
    have hrest : Slices (plainRun cs).2 (k.node :: parseChars after) := hcs ▸ .cons hslice ih
    have hslices := slices_textNodes (not_begins_plainRun cs) hrest
    rwa [plainRun_append, ← parseChars_of_some h] at hslices

theorem not_mem_plainRun (cs : List Char) : '\n' ∉ (plainRun cs).1 := by
  intro hn
  obtain ⟨done, left, h⟩ := List.append_of_mem hn
  exact not_begins_plainRun cs done _ h (by simp) (.lineBreak _)

theorem isText_node (k : Construct) : k.node.isText = false := by
  cases k <;> rfl

namespace Tidy

variable {nodes : List Node}

theorem nil : Tidy [] :=
  ⟨by simp, .nil⟩

theorem cons_of_not_text {node : Node} (h : Tidy nodes) (hn : node.isText = false) :
    Tidy (node :: nodes) := by
  refine ⟨fun s hs => ?_, List.isChain_cons.2 ⟨?_, h.apart⟩⟩
  · rcases List.mem_cons.1 hs with rfl | hs
    · cases hn
    · exact h.texts s hs
  · simp [hn]

theorem textNodes {run : List Char} (h : Tidy nodes) (hrun : '\n' ∉ run)
    (hhead : ∀ node ∈ nodes.head?, node.isText = false) : Tidy (textNodes run ++ nodes) := by
  cases run with
  | nil => exact h
  | cons c run =>
    refine ⟨fun s hs => ?_, List.isChain_cons.2 ⟨?_, h.apart⟩⟩
    · rcases List.mem_cons.1 hs with hs | hs
      · cases hs
        exact ⟨by simp, by simpa using hrun⟩
      · exact h.texts s hs
    · intro node hn
      simp [hhead node hn]

end Tidy

theorem tidy_parseChars (cs : List Char) : Tidy (parseChars cs) := by
  induction cs using parse_induction with
  | run cs h =>
    have htidy := Tidy.nil.textNodes (not_mem_plainRun cs) (by simp)
    rwa [plainRun_of_none h, List.append_nil, ← parseChars_of_none h] at htidy
  | construct cs k after h _ ih =>
    rw [parseChars_of_some h]
    refine (ih.cons_of_not_text (isText_node k)).textNodes (not_mem_plainRun cs) ?_
    simp [isText_node]

/-- A node in the tree of a text: what is below it is read from a part of the text, and its mark is
in the text, but not in the part. -/
structure Within (cs : List Char) (node : Node) (inner : List Char) : Prop where
  children : node.children = parseChars inner
  inside : inner <:+: cs
  mark : ∀ e : Emphasis, node.tag? = some e.tag → e.mark <:+: cs ∧ ¬ e.mark <:+: inner

theorem Within.mono {cs cs' inner : List Char} {node : Node} (h : Within cs node inner)
    (hcs : cs <:+: cs') : Within cs' node inner where
  children := h.children
  inside := h.inside.trans hcs
  mark e he := (h.mark e he).imp_left fun hm => hm.trans hcs

theorem within_nil {node : Node} (cs : List Char) (hc : node.children = [])
    (ht : ∀ e : Emphasis, node.tag? ≠ some e.tag) : Within cs node [] where
  children := by
    have hnil : parseChars [] = [] := parseChars_of_none rfl
    rw [hc, hnil]
  inside := List.nil_infix
  mark e he := absurd he (ht e)

theorem within_textNodes (cs run : List Char) :
    ∀ node ∈ walkList (textNodes run), ∃ inner, Within cs node inner := by
  intro node hn
  cases run with
  | nil => cases hn
  | cons c run =>
    obtain rfl := List.mem_singleton.1 hn
    exact ⟨[], within_nil cs rfl nofun⟩

theorem within_node {cs after : List Char} {k : Construct} (h : construct? cs = some (k, after))
    (ih : ∀ e inner, k = .span e inner →
      ∀ node ∈ walkList (parseChars inner), ∃ inner', Within inner node inner') :
    ∀ node ∈ k.node.walk, ∃ inner, Within cs node inner := by
  intro node hn
  obtain ⟨c, rfl, -⟩ | ⟨e, inner, rfl, hspan⟩ | ⟨rfl, -⟩ := construct_cases h
  · obtain rfl := List.mem_singleton.1 hn
    exact ⟨[], within_nil cs rfl nofun⟩
  · obtain ⟨rfl, hmark⟩ := spanHere_eq_some hspan
    have hinner : inner <:+: e.mark ++ inner ++ e.mark ++ after :=
      ⟨e.mark, e.mark ++ after, by simp⟩
    rcases List.mem_cons.1 hn with rfl | hn
    · refine ⟨inner, rfl, hinner, fun e' he' => ?_⟩
      obtain rfl := Emphasis.tag_injective (Option.some.inj he')
      exact ⟨⟨[], inner ++ e.mark ++ after, by simp⟩, hmark⟩
    · obtain ⟨inner', hwithin⟩ := ih e inner rfl node hn
      exact ⟨inner', hwithin.mono hinner⟩
  · obtain rfl := List.mem_singleton.1 hn
    refine ⟨[], within_nil _ rfl fun e he => e.tag_ne_br (Option.some.inj he).symm⟩

theorem exists_within (cs : List Char) :
    ∀ node ∈ walkList (parseChars cs), ∃ inner, Within cs node inner := by
  induction cs using parse_induction with
  | run cs h =>
    rw [parseChars_of_none h]
    exact within_textNodes cs _
  | construct cs k after h ihInner ih =>
    have hrest : (plainRun cs).2 <:+: cs := ⟨(plainRun cs).1, [], by simp [plainRun_append]⟩
    obtain ⟨slice, hslice, -⟩ := slice_of_construct h
    have hafter : after <:+: (plainRun cs).2 := ⟨slice, [], by simp [hslice]⟩
    rw [parseChars_of_some h, walkList_append]
    intro node hn
    rcases List.mem_append.1 hn with hn | hn
    · exact within_textNodes cs _ node hn
    · rcases List.mem_append.1 hn with hn | hn
      · obtain ⟨inner, hwithin⟩ := within_node h ihInner node hn
        exact ⟨inner, hwithin.mono hrest⟩
      · obtain ⟨inner, hwithin⟩ := ih node hn
        exact ⟨inner, hwithin.mono (hafter.trans hrest)⟩

theorem writtenList_append (nodes nodes' : List Node) :
    writtenList (nodes ++ nodes') = writtenList nodes ++ writtenList nodes' := by
  induction nodes with
  | nil => rfl
  | cons node nodes ih => rw [List.cons_append, writtenList, writtenList, ih, List.append_assoc]

theorem written_textNodes (run : List Char) : writtenList (textNodes run) = run := by
  cases run <;> simp [textNodes, writtenList, Node.written]

theorem written_node {cs after : List Char} {k : Construct} (h : construct? cs = some (k, after))
    (ih : ∀ e inner, k = .span e inner → callsOf (parseChars inner) = [] →
      writtenList (parseChars inner) = inner) (hnone : k.node.calls = []) :
    k.node.written ++ after = cs := by
  obtain ⟨c, rfl, -⟩ | ⟨e, inner, rfl, hspan⟩ | ⟨rfl, rfl⟩ := construct_cases h
  · cases hnone
  · obtain ⟨rfl, -⟩ := spanHere_eq_some hspan
    rw [Construct.node, plainElement, calls_element] at hnone
    have hinner := ih e inner rfl hnone
    cases e <;> simp [Construct.node, plainElement, Node.written, Emphasis.tag, hinner]
  · rfl

theorem written_parseChars (cs : List Char) (hnone : callsOf (parseChars cs) = []) :
    writtenList (parseChars cs) = cs := by
  induction cs using parse_induction with
  | run cs h => rw [parseChars_of_none h, written_textNodes]
  | construct cs k after h ihInner ih =>
    rw [parseChars_of_some h, callsOf_append, List.append_eq_nil_iff, callsOf_cons,
      List.append_eq_nil_iff] at hnone
    rw [parseChars_of_some h, writtenList_append, written_textNodes, writtenList, ih hnone.2.2,
      written_node h ihInner hnone.2.1, plainRun_append]

/-- Parsing loses nothing and makes nothing up. -/
theorem parse_reading (text : String) : Reading text.toList (parse text) where
  slices := slices_parseChars _
  tidy := by
    refine ⟨tidy_parseChars _, fun node hn => ?_⟩
    obtain ⟨inner, hwithin⟩ := exists_within _ node hn
    exact hwithin.children ▸ tidy_parseChars inner
  nested node hn e he below hbelow htag := by
    obtain ⟨inner, hwithin⟩ := exists_within _ node hn
    rw [hwithin.children] at hbelow
    obtain ⟨inner', hbelow⟩ := exists_within _ below hbelow
    exact (hwithin.mark e he).2 (hbelow.mark e htag).1
  written := written_parseChars _

theorem parse_reading_unfinished :
    writtenList (parse "''a //b''\n<< >>//") = "''a //b''\n<< >>//".toList :=
  (parse_reading "''a //b''\n<< >>//").written (by decide +kernel)

end Markup

end Notebook
