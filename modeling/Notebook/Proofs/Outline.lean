import Notebook.Tree.Numbering
import Notebook.Proofs.Binding

/-! # Outlines of trees

The outline of a tree leaves out its ids and the classes of its transclusion frames. The
skeleton also leaves out what a call stands for if there are calls among its parameters.
-/

namespace Notebook

namespace Attributes

/-- The attributes without the classes of a transclusion frame. -/
def unmarked (attributes : Attributes) : Attributes :=
  if (attributes.get? Transclude.targetAttribute).isSome then { attributes with classes := [] }
  else attributes

theorem unmarked_of_frame {attributes : Attributes}
    (h : (attributes.other.get? Transclude.targetAttribute).isSome) :
    attributes.unmarked = ⟨[], attributes.other⟩ :=
  if_pos h

theorem unmarked_of_not_frame {attributes : Attributes}
    (h : ¬ (attributes.other.get? Transclude.targetAttribute).isSome) :
    attributes.unmarked = attributes :=
  if_neg h

@[simp] theorem unmarked_unmarked (attributes : Attributes) :
    attributes.unmarked.unmarked = attributes.unmarked := by
  by_cases h : (attributes.other.get? Transclude.targetAttribute).isSome
  · rw [unmarked_of_frame h]
    exact unmarked_of_frame h
  · rw [unmarked_of_not_frame h, unmarked_of_not_frame h]

@[simp] theorem other_toggle (attributes : Attributes) (name : String) (on : Bool) :
    (attributes.toggle name on).other = attributes.other := by
  unfold toggle withClass
  split
  · split <;> rfl
  · rfl

@[simp] theorem other_unmarked (attributes : Attributes) :
    attributes.unmarked.other = attributes.other := by
  unfold unmarked
  split <;> rfl

theorem unmarked_toggle {attributes : Attributes}
    (h : (attributes.other.get? Transclude.targetAttribute).isSome) (name : String) (on : Bool) :
    (attributes.toggle name on).unmarked = attributes.unmarked := by
  rw [unmarked_of_frame h, unmarked_of_frame (by rwa [other_toggle]), other_toggle]

end Attributes

namespace Node

mutual

def outline : Node → Node
  | text s => text s
  | element _ tag attributes children =>
    element none tag attributes.unmarked (outlineList children)
  | call _ c trace content => call none c trace (outlineList content)
  | error e => error e

def outlineList : List Node → List Node
  | [] => []
  | node :: nodes => outline node :: outlineList nodes

end

mutual

def skeleton : Node → Node
  | text s => text s
  | element _ tag attributes children =>
    element none tag attributes.unmarked (skeletonList children)
  | call _ c trace content =>
    if c.isLiteral then call none c trace (skeletonList content) else call none c none []
  | error e => error e

def skeletonList : List Node → List Node
  | [] => []
  | node :: nodes => skeleton node :: skeletonList nodes

end

def call? : Node → Option Call
  | call _ c _ _ => some c
  | _ => none

def callsOf (nodes : List Node) : List Call :=
  (walkList nodes).filterMap call?

def calls (node : Node) : List Call :=
  callsOf [node]

mutual

/-- The calls in a tree that do not stand below other calls. -/
def outerCalls : Node → List Call
  | text _ => []
  | element _ _ _ children => outerCallsOf children
  | call _ c _ _ => [c]
  | error _ => []

def outerCallsOf : List Node → List Call
  | [] => []
  | node :: nodes => outerCalls node ++ outerCallsOf nodes

end

theorem walkList_append (nodes nodes' : List Node) :
    walkList (nodes ++ nodes') = walkList nodes ++ walkList nodes' := by
  induction nodes with
  | nil => rfl
  | cons node nodes ih => rw [List.cons_append, walkList, walkList, ih, List.append_assoc]

theorem callsOf_append (nodes nodes' : List Node) :
    callsOf (nodes ++ nodes') = callsOf nodes ++ callsOf nodes' := by
  rw [callsOf, walkList_append, List.filterMap_append]
  rfl

theorem callsOf_cons (node : Node) (nodes : List Node) :
    callsOf (node :: nodes) = node.calls ++ callsOf nodes := by
  simp [callsOf, calls, walkList]

@[simp] theorem calls_element (id : Option NodeId) (tag : String) (attributes : Attributes)
    (children : List Node) : (element id tag attributes children).calls = callsOf children := by
  simp only [callsOf, calls, walkList, walk, List.append_nil]
  exact List.filterMap_cons_none rfl

@[simp] theorem calls_call (id : Option NodeId) (c : Call) (trace : Option Trace)
    (content : List Node) : (call id c trace content).calls = c :: callsOf content := by
  simp only [callsOf, calls, walkList, walk, List.append_nil]
  exact List.filterMap_cons_some rfl

mutual

@[simp] theorem outline_assign (next : NodeId) (node : Node) :
    (assign next node).1.outline = node.outline := by
  match node with
  | text _ => rfl
  | element id tag attributes children =>
    simp only [assign, outline, outlineList_assignList]
  | call id c trace content =>
    simp only [assign, outline, outlineList_assignList]
  | error _ => rfl

@[simp] theorem outlineList_assignList (next : NodeId) (nodes : List Node) :
    outlineList (assignList next nodes).1 = outlineList nodes := by
  match nodes with
  | [] => rfl
  | node :: nodes =>
    simp only [assignList, outlineList, outline_assign, outlineList_assignList]

end

theorem outlineList_eq_map (nodes : List Node) : outlineList nodes = nodes.map outline := by
  induction nodes with
  | nil => rfl
  | cons node nodes ih => simp only [outlineList, ih, List.map_cons]

theorem outline_mem {node : Node} {nodes : List Node} (h : node ∈ nodes) :
    node.outline ∈ outlineList nodes := by
  rw [outlineList_eq_map]
  exact List.mem_map_of_mem h

mutual

theorem walk_outline (node : Node) : node.outline.walk = node.walk.map outline := by
  match node with
  | text _ => rfl
  | element id tag attributes children =>
    simp only [outline, walk, walkList_outlineList, List.map_cons]
  | call id c trace content =>
    simp only [outline, walk, walkList_outlineList, List.map_cons]
  | error _ => rfl

theorem walkList_outlineList (nodes : List Node) :
    walkList (outlineList nodes) = (walkList nodes).map outline := by
  match nodes with
  | [] => rfl
  | node :: nodes =>
    simp only [outlineList, walkList, walk_outline, walkList_outlineList, List.map_append]

end

theorem calls_outline (node : Node) : node.outline.calls = node.calls := by
  have hcall : ∀ node : Node, node.outline.call? = node.call? := fun node => by cases node <;> rfl
  simp only [calls, callsOf, walkList, List.append_nil, walk_outline, List.filterMap_map]
  exact congrArg (List.filterMap · _) (funext hcall)

mutual

@[simp] theorem plainText_outline (node : Node) : node.outline.plainText = node.plainText := by
  match node with
  | text _ => rfl
  | element id tag attributes children =>
    simp only [outline, plainText, plainTextList_outlineList]
  | call id c trace content => simp only [outline, plainText, plainTextList_outlineList]
  | error _ => rfl

@[simp] theorem plainTextList_outlineList (nodes : List Node) :
    plainTextList (outlineList nodes) = plainTextList nodes := by
  match nodes with
  | [] => rfl
  | node :: nodes =>
    simp only [outlineList, plainTextList, plainText_outline, plainTextList_outlineList]

end

mutual

@[simp] theorem skeleton_outline (node : Node) : node.outline.skeleton = node.skeleton := by
  match node with
  | text _ => rfl
  | element id tag attributes children =>
    simp only [outline, skeleton, skeletonList_outlineList, Attributes.unmarked_unmarked]
  | call id c trace content => simp only [outline, skeleton, skeletonList_outlineList]
  | error _ => rfl

@[simp] theorem skeletonList_outlineList (nodes : List Node) :
    skeletonList (outlineList nodes) = skeletonList nodes := by
  match nodes with
  | [] => rfl
  | node :: nodes =>
    simp only [outlineList, skeletonList, skeleton_outline, skeletonList_outlineList]

end

mutual

theorem skeleton_eq_outline (node : Node) (h : ∀ c ∈ node.calls, c.isLiteral) :
    node.skeleton = node.outline := by
  match node with
  | text _ => rfl
  | element id tag attributes children =>
    rw [calls_element] at h
    simp only [skeleton, outline, skeletonList_eq_outlineList children h]
  | call id c trace content =>
    rw [calls_call, List.forall_mem_cons] at h
    simp only [skeleton, outline, if_pos h.1, skeletonList_eq_outlineList content h.2]
  | error _ => rfl

theorem skeletonList_eq_outlineList (nodes : List Node) (h : ∀ c ∈ callsOf nodes, c.isLiteral) :
    skeletonList nodes = outlineList nodes := by
  match nodes with
  | [] => rfl
  | node :: nodes =>
    rw [callsOf_cons, List.forall_mem_append] at h
    simp only [skeletonList, outlineList, skeleton_eq_outline node h.1,
      skeletonList_eq_outlineList nodes h.2]

end

mutual

theorem literal_of_skeleton (node : Node) (h : ∀ c ∈ node.skeleton.calls, c.isLiteral) :
    ∀ c ∈ node.calls, c.isLiteral := by
  match node with
  | text s => exact h
  | element id tag attributes children =>
    rw [skeleton, calls_element] at h
    rw [calls_element]
    exact literal_of_skeletonList children h
  | call id c trace content =>
    rw [skeleton] at h
    split at h
    · next hc =>
      rw [calls_call, List.forall_mem_cons] at h
      rw [calls_call, List.forall_mem_cons]
      exact ⟨hc, literal_of_skeletonList content h.2⟩
    · next hc =>
      rw [calls_call, List.forall_mem_cons] at h
      exact absurd h.1 hc
  | error e => exact h

theorem literal_of_skeletonList (nodes : List Node)
    (h : ∀ c ∈ callsOf (skeletonList nodes), c.isLiteral) :
    ∀ c ∈ callsOf nodes, c.isLiteral := by
  match nodes with
  | [] => exact h
  | node :: nodes =>
    rw [skeletonList, callsOf_cons, List.forall_mem_append] at h
    rw [callsOf_cons, List.forall_mem_append]
    exact ⟨literal_of_skeleton node h.1, literal_of_skeletonList nodes h.2⟩

end

/-- What a tree without calls among parameters shows can be told from its skeleton. -/
theorem outline_eq_of_skeleton {node node' : Node} (h : node.skeleton = node'.skeleton)
    (hl : ∀ c ∈ node'.calls, c.isLiteral) : node.outline = node'.outline := by
  have hl' : ∀ c ∈ node.calls, c.isLiteral := by
    refine literal_of_skeleton node ?_
    rwa [h, skeleton_eq_outline node' hl, calls_outline]
  rw [← skeleton_eq_outline node hl', ← skeleton_eq_outline node' hl, h]

variable {node : Node} {nodes : List Node}

theorem call?_skeleton (node : Node) : node.skeleton.call? = node.call? := by
  cases node with
  | call id c trace content =>
    simp only [skeleton]
    split <;> rfl
  | _ => rfl

theorem eq_text_of_skeleton {s : String} (h : node.skeleton = (text s).skeleton) :
    node = text s := by
  cases node with
  | call id c trace content =>
    simp only [skeleton] at h
    split at h <;> cases h
  | text => exact h
  | element => cases h
  | error => cases h

theorem eq_error_of_skeleton {e : RenderError} (h : node.skeleton = (error e).skeleton) :
    node = error e := by
  cases node with
  | call id c trace content =>
    simp only [skeleton] at h
    split at h <;> cases h
  | text => cases h
  | element => cases h
  | error => exact h

theorem eq_element_of_skeleton {id : Option NodeId} {tag : String} {attributes : Attributes}
    {children : List Node} (h : node.skeleton = (element id tag attributes children).skeleton) :
    ∃ id' attributes' children', node = element id' tag attributes' children' ∧
      attributes'.unmarked = attributes.unmarked ∧
      skeletonList children' = skeletonList children := by
  cases node with
  | call id c trace content =>
    simp only [skeleton] at h
    split at h <;> cases h
  | text => cases h
  | element id' tag' attributes' children' =>
    simp only [skeleton, element.injEq, true_and] at h
    obtain ⟨rfl, ha, hc⟩ := h
    exact ⟨id', attributes', children', rfl, ha, hc⟩
  | error => cases h

theorem eq_call_of_skeleton {id : Option NodeId} {c : Call} {trace : Option Trace}
    {content : List Node} (h : node.skeleton = (call id c trace content).skeleton) :
    ∃ id' trace' content', node = call id' c trace' content' ∧
      (c.isLiteral → trace' = trace ∧ skeletonList content' = skeletonList content) := by
  have hc := congrArg call? h
  rw [call?_skeleton, call?_skeleton] at hc
  cases node with
  | call id' c' trace' content' =>
    obtain rfl := Option.some.inj hc
    refine ⟨id', trace', content', rfl, fun hl => ?_⟩
    simp only [skeleton, if_pos hl, call.injEq, true_and] at h
    exact h
  | text => cases hc
  | element => cases hc
  | error => cases hc

theorem eq_nil_of_skeletonList (h : skeletonList nodes = skeletonList []) : nodes = [] := by
  cases nodes with
  | nil => rfl
  | cons node nodes => cases h

theorem eq_cons_of_skeletonList {first : Node} {rest : List Node}
    (h : skeletonList nodes = skeletonList (first :: rest)) :
    ∃ first' rest', nodes = first' :: rest' ∧ first'.skeleton = first.skeleton ∧
      skeletonList rest' = skeletonList rest := by
  cases nodes with
  | nil => cases h
  | cons first' rest' =>
    simp only [skeletonList, List.cons.injEq] at h
    exact ⟨first', rest', rfl, h⟩

end Node

end Notebook
