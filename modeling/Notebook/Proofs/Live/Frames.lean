import Notebook.Proofs.Frames
import Notebook.Proofs.Live.Locality

/-! # Frames in live trees

However often a live tree has been refreshed, its frames tell the chains and the scopes of the
calls in them, and the guard has struck exactly where it had to.
-/

namespace Notebook

open Transclude (Mark mark?)

/-- Where a node of a tree is: the call whose content it is part of, if its parent is a call, and
the marks of the frames around it, innermost first. -/
structure Place where
  owner : Option (Call × Option Trace) := none
  frames : List Mark := []

namespace Place

def inElement (place : Place) (attributes : Attributes) : Place where
  frames := (mark? attributes).toList ++ place.frames

def inCall (place : Place) (c : Call) (trace : Option Trace) : Place where
  owner := some (c, trace)
  frames := place.frames

end Place

namespace Node

mutual

def placed (place : Place) : Node → List (Place × Node)
  | text s => [(place, text s)]
  | element id tag attributes children =>
    (place, element id tag attributes children) ::
      placedList (place.inElement attributes) children
  | call id c trace content =>
    (place, call id c trace content) :: placedList (place.inCall c trace) content
  | error e => [(place, error e)]

def placedList (place : Place) : List Node → List (Place × Node)
  | [] => []
  | node :: nodes => placed place node ++ placedList place nodes

end

mutual

/-- Every node of a tree has its place. -/
theorem map_snd_placed (place : Place) (node : Node) :
    (node.placed place).map Prod.snd = node.walk := by
  match node with
  | text _ => rfl
  | element id tag attributes children =>
    simp only [placed, walk, List.map_cons, map_snd_placedList]
  | call id c trace content =>
    simp only [placed, walk, List.map_cons, map_snd_placedList]
  | error _ => rfl

theorem map_snd_placedList (place : Place) (nodes : List Node) :
    (placedList place nodes).map Prod.snd = walkList nodes := by
  match nodes with
  | [] => rfl
  | node :: nodes =>
    simp only [placedList, walkList, List.map_append, map_snd_placed, map_snd_placedList]

end

theorem forall_mem_placedList {place : Place} {P : Place × Node → Prop} {nodes : List Node}
    (h : ∀ node ∈ nodes, ∀ x ∈ node.placed place, P x) : ∀ x ∈ placedList place nodes, P x := by
  induction nodes with
  | nil => exact List.forall_mem_nil _
  | cons node nodes ih =>
    rw [List.forall_mem_cons] at h
    exact List.forall_mem_append.2 ⟨h.1, ih h.2⟩

end Node

def Node.frame? : Node → Option Mark
  | element _ _ attributes _ => mark? attributes
  | _ => none

/-- The frames of the place tell the context. -/
structure Place.Tells (place : Place) (context : Context) : Prop where
  chain : context.chain = place.frames.map Mark.template
  scope : context.scope.getD "" = (place.frames.head?.map Mark.target).getD ""

namespace Node

variable {W : Context → Call → Option Title → Prop}

/-- The frames around a call tell the context in which it was expanded. A frame is what a call
stands for, and the guard has seen to its children. -/
def IsPlaced (W : Context → Call → Option Title → Prop) (place : Place) : Node → Prop
  | call _ _ trace _ => ∃ t, trace = some t ∧ place.Tells t.context
  | element _ _ attributes children => ∀ mark, mark? attributes = some mark →
    ∃ d t template, place.owner = some (d, some t) ∧ W t.context d template ∧
      mark.template = template.getD "" ∧ Transclude.Guarded template t.context.chain children
  | _ => True

theorem Stands.isPlaced {owner : Option Call} {context : Context} {node : Node}
    (h : node.Stands W owner context) {place : Place} (ht : place.Tells context)
    (ho : ∀ d, owner = some d → ∃ reads, place.owner = some (d, some ⟨reads, context⟩)) :
    ∀ x ∈ node.placed place, x.2.IsPlaced W x.1 := by
  induction h generalizing place with
  | text => exact List.forall_mem_singleton.2 trivial
  | error => exact List.forall_mem_singleton.2 trivial
  | element hm _ ih =>
    refine List.forall_mem_cons.2 ⟨fun mark hmark => ?_, forall_mem_placedList fun child hc =>
      ih child hc ?_ fun _ hd => nomatch hd⟩
    · rw [hm] at hmark
      cases hmark
    · unfold Place.inElement
      rw [hm]
      exact ⟨ht.chain, ht.scope⟩
  | frame hm hw hchain hg _ ih =>
    refine List.forall_mem_cons.2 ⟨fun mark hmark => ?_, forall_mem_placedList fun child hc =>
      ih child hc ?_ fun _ hd => nomatch hd⟩
    · obtain ⟨reads, howner⟩ := ho _ rfl
      rw [hm] at hmark
      obtain rfl := Option.some.inj hmark
      exact ⟨_, _, _, howner, hw, rfl, hg⟩
    · unfold Place.inElement
      rw [hm]
      exact ⟨by rw [hchain, ht.chain]; rfl, rfl⟩
  | call _ ih =>
    refine List.forall_mem_cons.2 ⟨⟨_, rfl, ht⟩, forall_mem_placedList fun child hc =>
      ih child hc ⟨ht.chain, ht.scope⟩ ?_⟩
    rintro _ ⟨⟩
    exact ⟨_, rfl⟩

end Node

namespace Expand

variable {env : Env} {batch : Batch} {W : Context → Call → Option Title → Prop}

theorem RenewedList.error_mem {nodes nodes' : List Node} {pairs : List (Node × Node)}
    (h : RenewedList env batch nodes nodes' pairs) {e : RenderError} (he : .error e ∈ nodes') :
    .error e ∈ nodes := by
  induction nodes generalizing nodes' pairs with
  | nil =>
    cases h
    cases he
  | cons node nodes ih =>
    obtain _ | ⟨h, hs⟩ := h
    rcases List.mem_cons.1 he with rfl | he
    · cases h
      exact List.mem_cons_self
    · exact List.mem_cons_of_mem _ (ih hs he)

theorem RenewedList.eq_error {e : RenderError} {nodes' : List Node} {pairs : List (Node × Node)}
    (h : RenewedList env batch [.error e] nodes' pairs) : nodes' = [.error e] := by
  obtain _ | ⟨⟨⟩, ⟨⟩⟩ := h
  rfl

theorem guarded_of_renewed {template : Option Title} {chain : Chain}
    {children children' : List Node} {pairs : List (Node × Node)}
    (hg : Transclude.Guarded template chain children)
    (h : RenewedList env batch children children' pairs) :
    Transclude.Guarded template chain children' where
  recursion title ht hc := by
    rw [hg.recursion title ht hc] at h
    exact h.eq_error
  content hc title he := hg.content hc title (h.error_mem he)

theorem stands_of_remarked {owner : Option Call} {context : Context} {c : Call}
    {below content : List Node} (h : Remarked env c below content)
    (hs : ∀ node ∈ below, node.Stands W owner context) :
    ∀ node ∈ content, node.Stands W owner context := by
  unfold Remarked at h
  split at h
  · rw [h]
    rw [List.forall_mem_cons] at hs ⊢
    exact ⟨hs.1.toggle _ _, hs.2⟩
  · exact h ▸ hs

mutual

theorem Renewed.stands (hr : env.rules.parsers.IsBuiltin)
    (hW : ∀ context c template, env.scene.Resolves context c template → W context c template)
    {node node' : Node} {pairs : List (Node × Node)} (h : Renewed env batch node node' pairs)
    {owner : Option Call} {context : Context} (hs : node.Stands W owner context) :
    node'.Stands W owner context := by
  match h with
  | .text => exact hs
  | .error => exact hs
  | .element hc =>
    cases hs with
    | element hm hbelow => exact .element hm (hc.stands hr hW hbelow)
    | frame hm hw hchain hg hbelow =>
      exact .frame hm hw hchain (guarded_of_renewed hg hc) (hc.stands hr hW hbelow)
  | .stale _ hx _ =>
    cases hs with
    | call _ =>
      exact .call fun node hn => .of_outline (hx.stands hr hW _ (Node.outline_mem hn))
  | .passed _ hc hm =>
    cases hs with
    | call hbelow => exact .call (stands_of_remarked hm (hc.stands hr hW hbelow))
termination_by structural h

theorem RenewedList.stands (hr : env.rules.parsers.IsBuiltin)
    (hW : ∀ context c template, env.scene.Resolves context c template → W context c template)
    {nodes nodes' : List Node} {pairs : List (Node × Node)}
    (h : RenewedList env batch nodes nodes' pairs) {owner : Option Call} {context : Context}
    (hs : ∀ node ∈ nodes, node.Stands W owner context) :
    ∀ node ∈ nodes', node.Stands W owner context := by
  match h with
  | .nil => exact hs
  | .cons hfirst hrest =>
    rw [List.forall_mem_cons] at hs ⊢
    exact ⟨hfirst.stands hr hW hs.1, hrest.stands hr hW hs.2⟩
termination_by structural h

end

end Expand

namespace LiveTree

variable {κ : Type} {s : StoreId} {c : Call} {past : List Scene} {lib : Library κ}
  {tree : LiveTree}

/-- In one of the scenes, the transclusion has resolved the template. -/
def Resolved (past : List Scene) (context : Context) (d : Call) (template : Option Title) : Prop :=
  ∃ scene ∈ past, scene.Resolves context d template

theorem resolved_cons {context : Context} {d : Call} {template : Option Title} {scene : Scene}
    (h : Resolved past context d template) : Resolved (scene :: past) context d template := by
  obtain ⟨scene', hs, hresolves⟩ := h
  exact ⟨scene', List.mem_cons_of_mem _ hs, hresolves⟩

theorem resolved_self {context : Context} {d : Call} {template : Option Title} {scene : Scene}
    (h : scene.Resolves context d template) : Resolved (scene :: past) context d template :=
  ⟨scene, List.mem_cons_self, h⟩

theorem Grown.stands (h : Grown s c past lib tree)
    (hp : ∀ scene ∈ past, scene.rules.parsers.IsBuiltin) :
    tree.root.Stands (Resolved past) none {} := by
  refine (h.induct_renewed (P := fun past root =>
    (∀ scene ∈ past, scene.rules.parsers.IsBuiltin) → root.Stands (Resolved past) none {})
    (fun env root hshows hp => ?_) (fun env past batch root root' pairs ih hrenewed hp => ?_)
    (fun scene past root ih hp => ?_)).2 hp
  · have hholds : root.outline.Holds (Resolved [env.scene]) {} :=
      hshows.holds (hp _ List.mem_cons_self) fun _ _ _ => resolved_self
    exact .of_outline (Scene.stands_of_parsed (.call c) hshows hholds)
  · rw [List.forall_mem_cons] at hp
    exact hrenewed.stands hp.1 (fun _ _ _ => resolved_self)
      ((ih hp.2).mono fun _ _ _ => resolved_cons)
  · rw [List.forall_mem_cons] at hp
    exact (ih hp.2).mono fun _ _ _ => resolved_cons

theorem Resolved.isSome_eq {context : Context} {d : Call} {template template' : Option Title}
    (h : Resolved past context d template) (h' : Resolved past context d template') :
    template.isSome = template'.isSome := by
  obtain ⟨_, -, hresolves⟩ := h
  obtain ⟨_, -, hresolves'⟩ := h'
  exact hresolves.isSome_eq hresolves'

/-- In a live tree that has seen built-in parsers only, the chain of a call lists the templates of
the frames around it, and its scope is the target of the innermost one. A frame is what a
transclusion stands for. If its template is in the chain, and not because there is none, it has
the error that says so as its only child. If its template is not in the chain, it has no such
child. -/
theorem Grown.chain_eq_frames (h : Grown s c past lib tree)
    (hp : ∀ scene ∈ past, scene.rules.parsers.IsBuiltin) :
    (∀ place id d trace content, (place, Node.call id d trace content) ∈ tree.root.placed {} →
      ∃ t, trace = some t ∧
        t.context.chain.reverse = place.frames.reverse.map Mark.template ∧
        t.context.scope.getD "" = (place.frames.head?.map Mark.target).getD "") ∧
    ∀ place id tag attributes children mark,
      (place, Node.element id tag attributes children) ∈ tree.root.placed {} →
      mark? attributes = some mark →
      ∃ d t, place.owner = some (d, some t) ∧
        (∃ template, Resolved past t.context d template ∧ mark.template = template.getD "") ∧
        ((∃ title, Resolved past t.context d (some title)) → mark.template ∈ t.context.chain →
          children = [.error (.transclusionRecursion mark.template)]) ∧
        (mark.template ∉ t.context.chain →
          ∀ title, .error (.transclusionRecursion title) ∉ children) := by
  have hplaced : ∀ x ∈ tree.root.placed {}, x.2.IsPlaced (Resolved past) x.1 :=
    (h.stands hp).isPlaced ⟨rfl, rfl⟩ fun _ hd => nomatch hd
  refine ⟨fun place id d trace content hm => ?_,
    fun place id tag attributes children mark hm hmark => ?_⟩
  · obtain ⟨t, ht, htells⟩ := hplaced _ hm
    exact ⟨t, ht, by rw [htells.chain, List.map_reverse], htells.scope⟩
  · obtain ⟨d, t, template, howner, hresolved, htemplate, hg⟩ := hplaced _ hm mark hmark
    refine ⟨d, t, howner, ⟨template, hresolved, htemplate⟩, ?_, htemplate ▸ hg.content⟩
    rintro ⟨other, hother⟩ hc
    obtain ⟨title, rfl⟩ := Option.isSome_iff_exists.1 (hresolved.isSome_eq hother)
    rw [htemplate] at hc ⊢
    exact hg.recursion title rfl hc

theorem isBuiltin_parsers_notebook {notes : List Saved} {store : Store Unit}
    (hs : (notebook notes).store? 0 = some store) : store.parsers.IsBuiltin := by
  obtain ⟨store', hs', -, hparsers⟩ := store?_notebook notes
  obtain rfl := Option.some.inj (hs'.symm.trans hs)
  rw [hparsers]
  exact Store.isBuiltin_parsers_installBuiltins ParserTable.isBuiltin_empty

theorem chain_eq_frames_loop :
    ∃ tree lib, render loop 0 (transclusion "A") = some (tree, lib) ∧
      (∀ place id d trace content, (place, Node.call id d trace content) ∈ tree.root.placed {} →
        ∃ t, trace = some t ∧ t.context.chain.reverse ∈ [[], ["A"], ["A", "B"]]) ∧
      ∃ place id tag attributes,
        (place, Node.element id tag attributes [.error (.transclusionRecursion "A")]) ∈
          tree.root.placed {} := by
  have hb : loop.IsBuiltin 0 := isBuiltin_notebook _
  obtain ⟨tree, lib, h⟩ := exists_render hb (transclusion "A")
  obtain ⟨store, hs, hmacros⟩ := hb
  obtain ⟨hchains, hguard⟩ := (Grown.render hs hmacros h).chain_eq_frames
    (List.forall_mem_singleton.2 (isBuiltin_parsers_notebook hs))
  refine ⟨tree, lib, h, fun place id d trace content hm => ?_, ?_⟩
  · have hframes : (render loop 0 (transclusion "A")).map (fun r =>
        (r.1.root.placed {}).all fun x => x.2.call?.isNone ||
          [[], ["A"], ["A", "B"]].contains (x.1.frames.reverse.map Mark.template)) =
            some true := by
      decide +kernel
    simp only [h, Option.map_some, Option.some.injEq, List.all_eq_true] at hframes
    obtain ⟨t, ht, hchain, -⟩ := hchains place id d trace content hm
    exact ⟨t, ht, by simpa [hchain, Node.call?] using hframes _ hm⟩
  · have hframe : (render loop 0 (transclusion "A")).map (fun r =>
        (r.1.root.placed {}).any fun x => x.2.frame? = some ⟨"A", "A"⟩ &&
          (x.1.owner.bind Prod.snd).any fun t => t.context.chain.contains "A") = some true := by
      decide +kernel
    simp only [h, Option.map_some, Option.some.injEq, List.any_eq_true, Bool.and_eq_true,
      decide_eq_true_eq] at hframe
    obtain ⟨⟨place, node⟩, hm, hmark, hc⟩ := hframe
    cases node with
    | element id tag attributes children =>
      obtain ⟨d, t, howner, ⟨template, hresolved, htemplate⟩, hrecursion, -⟩ :=
        hguard place id tag attributes children _ hm hmark
      have htitle : template = some "A" := by
        cases template with
        | none => exact absurd htemplate (by decide)
        | some title => exact congrArg some htemplate.symm
      have hmem : "A" ∈ t.context.chain := by simpa [howner] using hc
      obtain rfl := hrecursion ⟨"A", htitle ▸ hresolved⟩ hmem
      exact ⟨place, id, tag, attributes, hm⟩
    | _ => cases hmark

end LiveTree

end Notebook
