import Mathlib.Data.List.Nodup
import Notebook.Tree.Numbering

/-! # Ids of trees

The places for ids in trees are those of their elements and calls. Numbering fills the empty ones
in order, so ids that are new and pairwise different stay so.
-/

namespace Notebook

/-- The ids are pairwise different, and they are drawn from `lo` on and before `hi`. -/
structure Fresh (lo hi : Nat) (ids : List Nat) : Prop where
  le : lo ≤ hi
  nodup : ids.Nodup
  within : ∀ id ∈ ids, lo ≤ id ∧ id < hi

namespace Fresh

variable {lo mid hi : Nat} {ids ids' : List Nat}

theorem nil (h : lo ≤ hi) : Fresh lo hi [] :=
  ⟨h, .nil, List.forall_mem_nil _⟩

theorem range' (lo count : Nat) : Fresh lo (lo + count) (List.range' lo count) := by
  refine ⟨Nat.le_add_right .., List.nodup_range', fun id hid => ?_⟩
  rw [List.mem_range'_1] at hid
  exact hid

theorem append (h : Fresh lo mid ids) (h' : Fresh mid hi ids') : Fresh lo hi (ids ++ ids') := by
  constructor
  · exact Nat.le_trans h.le h'.le
  · refine h.nodup.append h'.nodup fun id hid hid' => ?_
    have hlt := (h.within id hid).2
    have hle := (h'.within id hid').1
    omega
  · intro id hid
    have hlo := h.le
    have hhi := h'.le
    rcases List.mem_append.1 hid with hid | hid
    · have hid := h.within id hid
      omega
    · have hid := h'.within id hid
      omega

theorem perm (h : Fresh lo hi ids) (hp : ids'.Perm ids) : Fresh lo hi ids' :=
  ⟨h.le, hp.nodup_iff.2 h.nodup, fun id hid => h.within id (hp.mem_iff.1 hid)⟩

theorem left (h : Fresh lo hi (ids ++ ids')) : Fresh lo hi ids :=
  ⟨h.le, h.nodup.of_append_left, fun id hid => h.within id (List.mem_append_left _ hid)⟩

theorem right (h : Fresh lo hi (ids ++ ids')) : Fresh lo hi ids' :=
  ⟨h.le, h.nodup.of_append_right, fun id hid => h.within id (List.mem_append_right _ hid)⟩

theorem later (h : Fresh lo mid ids) (hle : mid ≤ hi) : Fresh lo hi ids := by
  simpa using h.append (nil hle)

end Fresh

namespace Node

/-- The place for an id in an element or a call. -/
def slot? : Node → Option (Option NodeId)
  | element id .. => some id
  | call id .. => some id
  | _ => none

def slotsOf (nodes : List Node) : List (Option NodeId) :=
  (walkList nodes).filterMap slot?

def idsOf (nodes : List Node) : List NodeId :=
  (walkList nodes).filterMap id?

def ids (node : Node) : List NodeId :=
  idsOf [node]

theorem slotsOf_cons (node : Node) (nodes : List Node) :
    slotsOf (node :: nodes) = slotsOf [node] ++ slotsOf nodes := by
  simp [slotsOf, walkList]

theorem slotsOf_element (id : Option NodeId) (tag : String) (attributes : Attributes)
    (children : List Node) :
    slotsOf [element id tag attributes children] = id :: slotsOf children := by
  simp only [slotsOf, walkList, walk, List.append_nil]
  exact List.filterMap_cons_some rfl

theorem slotsOf_call (id : Option NodeId) (c : Call) (trace : Option Trace)
    (content : List Node) : slotsOf [call id c trace content] = id :: slotsOf content := by
  simp only [slotsOf, walkList, walk, List.append_nil]
  exact List.filterMap_cons_some rfl

theorem idsOf_eq_slotsOf (nodes : List Node) : idsOf nodes = (slotsOf nodes).filterMap id := by
  unfold idsOf slotsOf
  rw [List.filterMap_filterMap]
  congr
  funext node
  cases node <;> rfl

@[simp] theorem idsOf_nil : idsOf [] = [] := rfl

@[simp] theorem idsOf_cons (node : Node) (nodes : List Node) :
    idsOf (node :: nodes) = node.ids ++ idsOf nodes := by
  simp [idsOf, ids, walkList]

theorem idsOf_eq_flatMap (nodes : List Node) : idsOf nodes = nodes.flatMap ids := by
  induction nodes with
  | nil => rfl
  | cons node nodes ih => rw [idsOf_cons, ih, List.flatMap_cons]

@[simp] theorem ids_text (s : String) : (text s).ids = [] := rfl

@[simp] theorem ids_error (e : RenderError) : (error e).ids = [] := rfl

@[simp] theorem ids_element (id : Option NodeId) (tag : String) (attributes : Attributes)
    (children : List Node) :
    (element id tag attributes children).ids = id.toList ++ idsOf children := by
  rw [ids, idsOf_eq_slotsOf, slotsOf_element, idsOf_eq_slotsOf]
  cases id <;> rfl

@[simp] theorem ids_call (id : Option NodeId) (c : Call) (trace : Option Trace)
    (content : List Node) : (call id c trace content).ids = id.toList ++ idsOf content := by
  rw [ids, idsOf_eq_slotsOf, slotsOf_call, idsOf_eq_slotsOf]
  cases id <;> rfl

/-- Fills the empty places with the ids from `next` on. -/
def fill (next : NodeId) : List (Option NodeId) → List NodeId
  | [] => []
  | id :: slots => (claimId id next).1 :: fill (claimId id next).2 slots

theorem claimId_fst (id : Option NodeId) (next : NodeId) : (claimId id next).1 = id.getD next := by
  cases id <;> rfl

theorem claimId_snd (id : Option NodeId) (next : NodeId) (slots : List (Option NodeId)) :
    (claimId id next).2 + slots.count none = next + (id :: slots).count none := by
  cases id with
  | none =>
    rw [List.count_cons_self, Nat.add_comm _ 1, ← Nat.add_assoc]
    rfl
  | some n =>
    rw [List.count_cons_of_ne (by simp)]
    rfl

theorem fill_append (next : NodeId) (slots slots' : List (Option NodeId)) :
    fill next (slots ++ slots') = fill next slots ++ fill (next + slots.count none) slots' := by
  induction slots generalizing next with
  | nil => rfl
  | cons id slots ih =>
    rw [List.cons_append, fill, fill, ih, List.cons_append, claimId_snd]

/-- The ids that are there stay, and those from `next` on join them. -/
theorem perm_fill (next : NodeId) (slots : List (Option NodeId)) :
    (fill next slots).Perm (slots.filterMap id ++ List.range' next (slots.count none)) := by
  induction slots generalizing next with
  | nil => rfl
  | cons id slots ih =>
    cases id with
    | none =>
      rw [List.count_cons_self, List.range'_succ]
      exact ((ih (next + 1)).cons next).trans List.perm_middle.symm
    | some n =>
      rw [List.count_cons_of_ne (by simp)]
      exact (ih next).cons n

mutual

/-- Numbering fills the empty places in order, and goes on behind the last id that it has given. -/
theorem slotsOf_assign (next : NodeId) (node : Node) :
    slotsOf [(assign next node).1] = (fill next (slotsOf [node])).map some ∧
      (assign next node).2 = next + (slotsOf [node]).count none := by
  match node with
  | text _ => exact ⟨rfl, rfl⟩
  | element id tag attributes children =>
    obtain ⟨hslots, hnext⟩ := slotsOf_assignList (claimId id next).2 children
    rw [assign, slotsOf_element, slotsOf_element, ← claimId_snd, hslots]
    exact ⟨rfl, hnext⟩
  | call id c trace content =>
    obtain ⟨hslots, hnext⟩ := slotsOf_assignList (claimId id next).2 content
    rw [assign, slotsOf_call, slotsOf_call, ← claimId_snd, hslots]
    exact ⟨rfl, hnext⟩
  | error _ => exact ⟨rfl, rfl⟩

theorem slotsOf_assignList (next : NodeId) (nodes : List Node) :
    slotsOf (assignList next nodes).1 = (fill next (slotsOf nodes)).map some ∧
      (assignList next nodes).2 = next + (slotsOf nodes).count none := by
  match nodes with
  | [] => exact ⟨rfl, rfl⟩
  | node :: nodes =>
    obtain ⟨hhead, hmid⟩ := slotsOf_assign next node
    obtain ⟨htail, hnext⟩ := slotsOf_assignList (assign next node).2 nodes
    rw [slotsOf_cons node nodes, fill_append, List.count_append, List.map_append, ← hmid]
    constructor
    · rw [assignList, slotsOf_cons, hhead, htail]
    · rw [assignList, hnext, hmid, Nat.add_assoc]

end

theorem not_mem_slotsOf_assignList (next : NodeId) (nodes : List Node) :
    none ∉ slotsOf (assignList next nodes).1 := by
  simp [(slotsOf_assignList next nodes).1]

theorem idsOf_assignList (next : NodeId) (nodes : List Node) :
    idsOf (assignList next nodes).1 = fill next (slotsOf nodes) := by
  rw [idsOf_eq_slotsOf, (slotsOf_assignList next nodes).1, List.filterMap_map]
  exact List.filterMap_some

theorem fresh_assignList {lo next : NodeId} {nodes : List Node}
    (h : Fresh lo next (idsOf nodes)) :
    Fresh lo (assignList next nodes).2 (idsOf (assignList next nodes).1) := by
  rw [idsOf_assignList, (slotsOf_assignList next nodes).2]
  have hp := perm_fill next (slotsOf nodes)
  rw [← idsOf_eq_slotsOf] at hp
  exact (h.append (.range' next _)).perm hp

end Node

end Notebook
