import Notebook.Proofs.Expansion.Indifference
import Notebook.Proofs.Numbering

/-! # Numbered forests

Numbering changes nothing but empty places for ids. A node that has none keeps it, and one that has
an empty place gets the id that is as far behind the first free one as there are empty places
before it. Where no place is empty, numbering changes nothing and draws nothing.
-/

namespace Notebook.Node

theorem slot?_unnumbered (node : Node) :
    node.unnumbered.slot? = node.slot?.map fun _ => none := by
  cases node <;> rfl

mutual

theorem walk_unnumbered (node : Node) : node.unnumbered.walk = node.walk.map unnumbered := by
  match node with
  | text _ => rfl
  | element id tag attributes children =>
    simp only [unnumbered, walk, List.map_cons, walkList_unnumberedList]
  | call id c trace content =>
    simp only [unnumbered, walk, List.map_cons, walkList_unnumberedList]
  | error _ => rfl

theorem walkList_unnumberedList (nodes : List Node) :
    walkList (unnumberedList nodes) = (walkList nodes).map unnumbered := by
  match nodes with
  | [] => rfl
  | node :: nodes =>
    simp only [unnumberedList, walkList, walk_unnumbered, walkList_unnumberedList, List.map_append]

end

theorem isSome_slot?_congr {node node' : Node} (h : node'.unnumbered = node.unnumbered) :
    node'.slot?.isSome = node.slot?.isSome := by
  have hslot := congrArg slot? h
  rw [slot?_unnumbered, slot?_unnumbered] at hslot
  simpa using congrArg Option.isSome hslot

/-- Where the places of a walk are filled in order, each of its nodes has the id that it had, or the
one that the empty places before it leave to it. -/
theorem slot?_of_fill {next : NodeId} {nodes numbered : List Node}
    (hshape : numbered.map unnumbered = nodes.map unnumbered)
    (hslots : numbered.filterMap slot? = (fill next (nodes.filterMap slot?)).map some) (i : Nat) :
    numbered[i]?.map slot? = nodes[i]?.map fun node => node.slot?.map fun slot =>
      some (slot.getD (next + ((nodes.take i).filterMap slot?).count none)) := by
  induction nodes generalizing next numbered i with
  | nil =>
    obtain rfl := List.map_eq_nil_iff.1 hshape
    rfl
  | cons node nodes ih =>
    obtain ⟨node', numbered, rfl, hnode, hshape⟩ := List.map_eq_cons_iff.1 hshape
    have hplace := isSome_slot?_congr hnode
    cases hslot : node.slot? with
    | none =>
      have hslot' : node'.slot? = none := by simpa [hslot] using hplace
      rw [List.filterMap_cons_none hslot', List.filterMap_cons_none hslot] at hslots
      cases i with
      | zero => simp [hslot, hslot']
      | succ i => simpa [hslot] using ih hshape hslots i
    | some slot =>
      obtain ⟨slot', hslot'⟩ := Option.isSome_iff_exists.1 (hplace.trans (by rw [hslot]; rfl))
      rw [List.filterMap_cons_some hslot', List.filterMap_cons_some hslot, fill,
        List.map_cons] at hslots
      obtain ⟨hfirst, hrest⟩ := List.cons.inj hslots
      cases i with
      | zero => simp [hslot, hslot', hfirst, claimId_fst]
      | succ i => simpa [hslot, claimId_snd] using ih hshape hrest i

theorem getElem?_walkList_assignList (next : NodeId) {nodes : List Node} {i : Nat} {node : Node}
    (h : (walkList nodes)[i]? = some node) :
    ∃ node', (walkList (assignList next nodes).1)[i]? = some node' ∧
      node'.unnumbered = node.unnumbered ∧
      node'.slot? = node.slot?.map fun slot =>
        some (slot.getD (next + (((walkList nodes).take i).filterMap slot?).count none)) := by
  have hshape : (walkList (assignList next nodes).1).map unnumbered =
      (walkList nodes).map unnumbered := by
    rw [← walkList_unnumberedList, ← walkList_unnumberedList, unnumberedList_assignList]
  have hslot := slot?_of_fill hshape (slotsOf_assignList next nodes).1 i
  have hnode := congrArg (·[i]?) hshape
  rw [h, Option.map_some, Option.map_eq_some_iff] at hslot
  obtain ⟨node', hnode', hslot⟩ := hslot
  refine ⟨node', hnode', ?_, hslot⟩
  simpa [h, hnode'] using hnode

mutual

theorem assign_of_full (next : NodeId) (node : Node) (h : none ∉ slotsOf [node]) :
    assign next node = (node, next) := by
  match node with
  | text _ => rfl
  | element none tag attributes children => simp [slotsOf_element] at h
  | element (some id) tag attributes children =>
    rw [slotsOf_element, List.mem_cons, not_or] at h
    simp only [assign, claimId, assignList_of_full next children h.2]
  | call none c trace content => simp [slotsOf_call] at h
  | call (some id) c trace content =>
    rw [slotsOf_call, List.mem_cons, not_or] at h
    simp only [assign, claimId, assignList_of_full next content h.2]
  | error _ => rfl

theorem assignList_of_full (next : NodeId) (nodes : List Node) (h : none ∉ slotsOf nodes) :
    assignList next nodes = (nodes, next) := by
  match nodes with
  | [] => rfl
  | node :: nodes =>
    rw [slotsOf_cons, List.mem_append, not_or] at h
    simp only [assignList, assign_of_full next node h.1, assignList_of_full next nodes h.2]

end

/-- Numbering keeps the ids that are there and all else, fills the empty places with the next ids in
the order of the walk, leaves all ids pairwise different, and has nothing to do a second time. -/
theorem assignList_fills_in_order {lo next : NodeId} {nodes : List Node}
    (h : Fresh lo next (idsOf nodes)) :
    unnumberedList (assignList next nodes).1 = unnumberedList nodes ∧
    (∀ (i : Nat) (node : Node), (walkList nodes)[i]? = some node →
      ∃ node' : Node, (walkList (assignList next nodes).1)[i]? = some node' ∧
        node'.unnumbered = node.unnumbered ∧
        node'.slot? = node.slot?.map fun slot =>
          some (slot.getD (next + (((walkList nodes).take i).filterMap slot?).count none))) ∧
    (assignList next nodes).2 = next + (slotsOf nodes).count none ∧
    Fresh lo (assignList next nodes).2 (idsOf (assignList next nodes).1) ∧
    ∀ later, assignList later (assignList next nodes).1 = ((assignList next nodes).1, later) := by
  refine ⟨unnumberedList_assignList next nodes, ?_, (slotsOf_assignList next nodes).2,
    fresh_assignList h, ?_⟩
  · intro i node hnode
    exact getElem?_walkList_assignList next hnode
  · intro later
    exact assignList_of_full later _ (not_mem_slotsOf_assignList next nodes)

theorem assignList_fills_in_order_mixed :
    let nodes := [
      plainElement "div" [call (some 2) ⟨"echo", []⟩ none [plainElement "b" [text "x"]], text "y"],
      ofCall ⟨"version", []⟩]
    Fresh 1 4 (idsOf nodes) ∧
      idsOf (assignList 4 nodes).1 = [4, 2, 5, 6] ∧ (assignList 4 nodes).2 = 7 ∧
      Fresh 1 7 (idsOf (assignList 4 nodes).1) ∧
      assignList 7 (assignList 4 nodes).1 = ((assignList 4 nodes).1, 7) := by
  intro nodes
  have hfresh : Fresh 1 4 (idsOf nodes) := ⟨by decide, by decide, by decide⟩
  obtain ⟨-, -, hnext, hids, hagain⟩ := assignList_fills_in_order hfresh
  exact ⟨hfresh, rfl, hnext, hids, hagain 7⟩

end Notebook.Node
