import Notebook.Proofs.Expansion.Depth

/-! # States make no difference

Two expansions agree if they come to the same up to ids, or both to nothing, whatever states they
start from. Where every macro agrees with itself, so does every expansion: neither the ids that
were drawn, nor what was counted, nor what was parsed before can be seen in what it gives.
-/

namespace Notebook

namespace Node

mutual

def unnumbered : Node → Node
  | text s => text s
  | element _ tag attributes children => element none tag attributes (unnumberedList children)
  | call _ c trace content => call none c trace (unnumberedList content)
  | error e => error e

def unnumberedList : List Node → List Node
  | [] => []
  | node :: nodes => unnumbered node :: unnumberedList nodes

end

mutual

@[simp] theorem unnumbered_assign (next : NodeId) (node : Node) :
    (assign next node).1.unnumbered = node.unnumbered := by
  match node with
  | text _ => rfl
  | element id tag attributes children =>
    simp only [assign, unnumbered, unnumberedList_assignList]
  | call id c trace content =>
    simp only [assign, unnumbered, unnumberedList_assignList]
  | error _ => rfl

@[simp] theorem unnumberedList_assignList (next : NodeId) (nodes : List Node) :
    unnumberedList (assignList next nodes).1 = unnumberedList nodes := by
  match nodes with
  | [] => rfl
  | node :: nodes =>
    simp only [assignList, unnumberedList, unnumbered_assign, unnumberedList_assignList]

end

mutual

@[simp] theorem plainText_unnumbered (node : Node) :
    node.unnumbered.plainText = node.plainText := by
  match node with
  | text _ => rfl
  | element id tag attributes children =>
    simp only [unnumbered, plainText, plainTextList_unnumberedList]
  | call id c trace content => simp only [unnumbered, plainText, plainTextList_unnumberedList]
  | error _ => rfl

@[simp] theorem plainTextList_unnumberedList (nodes : List Node) :
    plainTextList (unnumberedList nodes) = plainTextList nodes := by
  match nodes with
  | [] => rfl
  | node :: nodes =>
    simp only [unnumberedList, plainTextList, plainText_unnumbered, plainTextList_unnumberedList]

end

end Node

namespace Expand

open Node (unnumberedList)

variable {env : Env} {α β γ δ : Type}

/-- From whatever states the programs start, they come to what looks the same, or both to
nothing. -/
def Agree (view : α → γ) (x y : Expand env α) : Prop :=
  ∀ p p', (x.run p).map (fun r => view r.1) = (y.run p').map (fun r => view r.1)

theorem agree_pure {view : α → γ} {a a' : α} (h : view a = view a') :
    Agree view (pure a : Expand env α) (pure a') :=
  fun _ _ => congrArg some h

theorem agree_failure (view : α → γ) : Agree view (failure : Expand env α) failure :=
  fun _ _ => rfl

theorem agree_modifyGet {view : α → γ} {f f' : Progress env → α × Progress env}
    (h : ∀ p p', view (f p).1 = view (f' p').1) :
    Agree view (modifyGet f : Expand env α) (modifyGet f') :=
  fun p p' => congrArg some (h p p')

theorem Agree.bind {view : α → γ} {view' : β → δ} {x y : Expand env α} {f g : α → Expand env β}
    (h : Agree view x y) (hf : ∀ a a', view a = view a' → Agree view' (f a) (g a')) :
    Agree view' (x >>= f) (y >>= g) := by
  intro p p'
  change ((x.run p).bind fun r => (f r.1).run r.2).map _ =
    ((y.run p').bind fun r => (g r.1).run r.2).map _
  have hxy := h p p'
  cases hx : x.run p with
  | none =>
    rw [hx, Option.map_none, eq_comm, Option.map_eq_none_iff] at hxy
    rw [hxy]
    rfl
  | some r =>
    rw [hx, Option.map_some, eq_comm, Option.map_eq_some_iff] at hxy
    obtain ⟨r', hy, hview⟩ := hxy
    rw [hy]
    exact hf r.1 r'.1 hview.symm r.2 r'.2

theorem Agree.exists_run {view : α → γ} {x y : Expand env α} {a : α} (h : Agree view x y)
    (hx : Yields x a) (p : Progress env) : ∃ a' q, y.run p = some (a', q) ∧ view a' = view a := by
  obtain ⟨p₀, q₀, hx⟩ := hx
  have hxy := h p₀ p
  rw [hx, Option.map_some, eq_comm, Option.map_eq_some_iff] at hxy
  obtain ⟨⟨a', q⟩, hy, hview⟩ := hxy
  exact ⟨a', q, hy, hview⟩

theorem Agree.total {view : α → γ} {x : Expand env α} {a : α} (h : Agree view x x)
    (hx : Yields x a) : Total x := by
  intro p
  obtain ⟨a', q, hrun, -⟩ := h.exists_run hx p
  exact ⟨a', q, hrun⟩

theorem agree_of_yields {x : Expand env α} {a : α} (ht : Total x) (h : ∀ b, Yields x b → b = a) :
    Agree id x x := by
  intro p p'
  obtain ⟨b, q, hb⟩ := ht p
  obtain ⟨b', q', hb'⟩ := ht p'
  rw [hb, hb', h b ⟨p, q, hb⟩, h b' ⟨p', q', hb'⟩]
  rfl

/-- How nodes are expanded depends on nothing but the context and, up to ids, the nodes. -/
def Blind (nested : Nested env) : Prop :=
  ∀ context nodes nodes', unnumberedList nodes = unnumberedList nodes' →
    Agree unnumberedList (nested context nodes) (nested context nodes')

/-- What a body comes to depends on the notes, the parsers and, up to ids, on what becomes of the
nodes that it has expanded. -/
def Determined (env : Env) (body : Body) : Prop :=
  ∀ nested : Nested env, Blind nested →
    Agree (Except.map unnumberedList) (runBody nested body) (runBody nested body)

def Result.view (r : Result) : Reads × List Node :=
  (r.reads, unnumberedList r.content)

theorem agree_modify (f : Progress env → Progress env) :
    Agree id (modify f : Expand env Unit) (modify f) :=
  agree_modifyGet fun _ _ => rfl

theorem agree_idOrFresh (i i' : Option NodeId) :
    Agree (fun _ => ()) (idOrFresh i : Expand env NodeId) (idOrFresh i') :=
  fun _ _ => by cases i <;> cases i' <;> rfl

theorem agree_assign {nodes nodes' : List Node}
    (h : unnumberedList nodes = unnumberedList nodes') :
    Agree unnumberedList (assign nodes : Expand env _) (assign nodes') := by
  refine agree_modifyGet fun p p' => ?_
  rw [Node.unnumberedList_assignList, Node.unnumberedList_assignList, h]

theorem agree_failed (reads : Reads) (e : RenderError) :
    Agree Result.view (failed reads e : Expand env Result) (failed reads e) :=
  (agree_modify _).bind fun _ _ _ => agree_pure rfl

theorem agree_settle {reads : Reads} {callee : String}
    {outcome outcome' : Except Failure (List Node)}
    (h : outcome.map unnumberedList = outcome'.map unnumberedList) :
    Agree Result.view (settle reads callee outcome : Expand env Result)
      (settle reads callee outcome') := by
  cases outcome with
  | ok nodes =>
    cases outcome' with
    | ok nodes' =>
      refine (agree_assign (Except.ok.inj h)).bind fun a a' ha => agree_pure ?_
      rw [Result.view, Result.view, ha]
    | error f => cases h
  | error f =>
    cases outcome' with
    | ok nodes' => cases h
    | error f' =>
      cases h
      exact agree_failed _ _

section Builtin

variable {nested : Nested env} {context : Context}

theorem agree_fetch (args : Arguments) (title : Title) :
    Agree id (fetch args title : Expand env _) (fetch args title) :=
  agree_of_yields (total_fetch args title) fun _ => yields_fetch

theorem agree_frame (page : PageSettings) (target template : Option Title)
    {content content' : List Node} (h : unnumberedList content = unnumberedList content') :
    Agree (Except.map unnumberedList)
      (runBody nested (Transclude.frame page target template content))
      (runBody nested (Transclude.frame page target template content')) := by
  rw [runBody_frame, runBody_frame]
  refine agree_pure ?_
  simp only [Except.map, unnumberedList, Node.unnumbered, h]

theorem determined_transclude (args : Arguments) :
    Determined env (Transclude.body env.page args context) := by
  intro nested hn
  obtain ⟨-, hbody⟩ | ⟨title, -, ⟨-, hbody⟩ | ⟨-, hbody⟩⟩ := transclude_cases env context args
  · rw [hbody]
    exact agree_frame _ _ _ rfl
  · rw [hbody]
    exact (agree_modify _).bind fun _ _ _ => agree_frame _ _ _ rfl
  · rw [hbody]
    refine (agree_fetch args title).bind fun r r' hr => ?_
    obtain rfl : r = r' := hr
    cases r with
    | error message => exact agree_pure rfl
    | ok nodes => exact (hn _ _ _ rfl).bind fun _ _ h => agree_frame _ _ _ h

theorem determined_of_isCustom {m : Macro} (hm : m.isCustom = false) (args : Arguments)
    (context : Context) : Determined env (m.body env.page args context) := by
  obtain rfl | ⟨text, hbody, -⟩ := transclude_or_text hm env context args
  · exact determined_transclude args
  · intro nested _
    rw [hbody]
    exact agree_pure rfl

end Builtin

end Expand

/-- Arguments that calls can have: those of a call that binds, with texts for the calls among
them. -/
def Scene.Supplies (scene : Scene) (m : Macro) (args : Arguments) : Prop :=
  ∃ c b texts, scene.Bound c m b ∧ args = b.withTexts texts

/-- An execution of the macro comes to this, if calls in it may nest deep enough. -/
def Env.Executes (env : Env) (m : Macro) (args : Arguments) (context : Context)
    (outcome : Except Failure (List Node)) : Prop :=
  ∃ depth, Expand.Yields (Expand.runBody (Expand.expandList (Expand.expandWithin depth))
    (m.body env.page args context) : Expand env _) outcome

/-- The macros depend on their arguments, their context and the notes alone, and they come to an
end. They may fail and break off. -/
structure Env.Tame (env : Env) : Prop where
  determined : ∀ m args context, env.scene.Supplies m args →
    Expand.Determined env (m.body env.page args context)
  ends : ∀ m args context, env.scene.Supplies m args → ∃ outcome,
    env.Executes m args context outcome

namespace Expand

open Node (unnumbered unnumberedList)

variable {env : Env}

section Calls

variable {nested : Nested env} {context : Context}

theorem agree_runDeferred {cs : List Call}
    (h : ∀ c ∈ cs, Agree Result.view (expandCall nested context c) (expandCall nested context c)) :
    Agree id (runDeferred (cs.map (deferCall nested context)))
      (runDeferred (cs.map (deferCall nested context))) := by
  induction cs with
  | nil => exact agree_pure rfl
  | cons c cs ih =>
    have hc : Agree id (deferCall nested context c).run (deferCall nested context c).run := by
      refine (agree_idOrFresh none none).bind fun _ _ _ => (agree_modify _).bind fun _ _ _ => ?_
      refine (h c List.mem_cons_self).bind fun r r' hr => agree_pure ?_
      obtain ⟨hreads, hcontent⟩ := Prod.mk.inj hr
      rw [← Node.plainTextList_unnumberedList r.content, hcontent, hreads,
        Node.plainTextList_unnumberedList]
    refine hc.bind fun first first' hfirst => ?_
    obtain rfl : first = first' := hfirst
    refine (ih fun d hd => h d (List.mem_cons_of_mem _ hd)).bind fun rest rest' hrest => ?_
    obtain rfl : rest = rest' := hrest
    exact agree_pure rfl

theorem agree_expandCall (h : env.Tame) (hn : Blind nested) (c : Call) :
    Agree Result.view (expandCall nested context c) (expandCall nested context c) := by
  refine expandCall_induction (P := fun _ x => Agree Result.view x x) ?unknown ?unbound ?bound c
  case unknown => exact fun _ _ => agree_failed _ _
  case unbound => exact fun _ _ _ _ _ => agree_failed _ _
  case bound =>
    intro c m b hbound ih
    refine (agree_runDeferred ih).bind fun read read' hread => ?_
    obtain rfl : read = read' := hread
    have hbody := h.determined m _ context ⟨c, b, read.2, hbound, rfl⟩ nested hn
    exact hbody.bind fun _ _ houtcome => agree_settle houtcome

end Calls

section Nodes

variable {expand : Context → Call → Expand env Result}
  (h : ∀ context c, Agree Result.view (expand context c) (expand context c))
include h

theorem compositional_agree (context : Context) :
    Compositional expand context
      (fun node x => ∀ node', node.unnumbered = node'.unnumbered →
        Agree unnumbered x (expandNode expand context node'))
      fun nodes xs => ∀ nodes', unnumberedList nodes = unnumberedList nodes' →
        Agree unnumberedList xs (expandList expand context nodes') where
  text s node' hn := by
    cases node' with
    | text s' => exact agree_pure hn
    | _ => cases hn
  error e node' hn := by
    cases node' with
    | error e' => exact agree_pure hn
    | _ => cases hn
  element id tag attributes children hchildren node' hn := by
    cases node' with
    | element id' tag' attributes' children' =>
      simp only [unnumbered, Node.element.injEq, true_and] at hn
      obtain ⟨rfl, rfl, hn⟩ := hn
      refine (agree_idOrFresh id id').bind fun _ _ _ => ?_
      refine (hchildren children' hn).bind fun a a' ha => agree_pure ?_
      simp only [unnumbered, ha]
    | _ => cases hn
  call id c trace content node' hn := by
    cases node' with
    | call id' c' trace' content' =>
      simp only [unnumbered, Node.call.injEq, true_and] at hn
      obtain ⟨rfl, -⟩ := hn
      refine (agree_idOrFresh id id').bind fun _ _ _ => (agree_modify _).bind fun _ _ _ => ?_
      refine (h context c).bind fun r r' hr => agree_pure ?_
      obtain ⟨hreads, hcontent⟩ := Prod.mk.inj hr
      simp only [unnumbered, hreads, hcontent]
    | _ => cases hn
  nil nodes' hn := by
    cases nodes' with
    | nil => exact agree_pure rfl
    | cons => cases hn
  cons node nodes hnode hnodes nodes' hn := by
    cases nodes' with
    | nil => cases hn
    | cons node' nodes' =>
      obtain ⟨hfirst, hrest⟩ := List.cons.inj hn
      refine (hnode node' hfirst).bind fun a a' ha => ?_
      refine (hnodes nodes' hrest).bind fun b b' hb => agree_pure ?_
      simp only [unnumberedList, ha, hb]

theorem agree_expandNode (context : Context) {node node' : Node}
    (hn : node.unnumbered = node'.unnumbered) :
    Agree unnumbered (expandNode expand context node) (expandNode expand context node') :=
  (compositional_agree h context).expandNode node node' hn

theorem agree_expandList (context : Context) {nodes nodes' : List Node}
    (hn : unnumberedList nodes = unnumberedList nodes') :
    Agree unnumberedList (expandList expand context nodes) (expandList expand context nodes') :=
  (compositional_agree h context).expandList nodes nodes' hn

end Nodes

theorem agree_expandWithin (h : env.Tame) (depth : Nat) (context : Context) (c : Call) :
    Agree Result.view (expandWithin depth context c : Expand env Result)
      (expandWithin depth context c) := by
  induction depth generalizing context c with
  | zero => exact agree_failure _
  | succ depth ih =>
    exact agree_expandCall h (fun context _ _ hn => agree_expandList ih context hn) c

end Expand

end Notebook
