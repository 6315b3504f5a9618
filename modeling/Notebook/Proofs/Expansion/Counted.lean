import Notebook.Proofs.Frames
import Notebook.Proofs.Live.Refresh

/-! # The tally of an expansion can be read off its result

A call counts as one execution where it is expanded, and it stays in the tree. An error counts
where it is put into the tree. So the calls and the errors of a tree tell the tally, as long as no
call has been expanded only for its text.
-/

namespace Notebook

namespace Tally

def add (t u : Tally) : Tally where
  executions := t.executions + u.executions
  reexecutions := t.reexecutions + u.reexecutions
  forwards := t.forwards + u.forwards
  errors := t.errors + u.errors
  recursions := t.recursions + u.recursions

instance : Add Tally := ⟨add⟩

theorem add_def (t u : Tally) : t + u =
    ⟨t.executions + u.executions, t.reexecutions + u.reexecutions, t.forwards + u.forwards,
      t.errors + u.errors, t.recursions + u.recursions⟩ := rfl

end Tally

/-- What there is to count in a tree, and how many visits a refresh has made. -/
structure Census where
  calls : List Call := []
  errors : List RenderError := []
  reexecuted : Nat := 0
  forwarded : Nat := 0

namespace Census

def append (a b : Census) : Census :=
  ⟨a.calls ++ b.calls, a.errors ++ b.errors, a.reexecuted + b.reexecuted,
    a.forwarded + b.forwarded⟩

instance : Append Census := ⟨append⟩

theorem append_def (a b : Census) : a ++ b =
    ⟨a.calls ++ b.calls, a.errors ++ b.errors, a.reexecuted + b.reexecuted,
      a.forwarded + b.forwarded⟩ := rfl

/-- Recursions are not among the errors. -/
def tally (c : Census) : Tally where
  executions := c.calls.length
  reexecutions := c.reexecuted
  forwards := c.forwarded
  errors := c.errors.countP fun e => !e.isRecursion
  recursions := c.errors.countP RenderError.isRecursion

@[simp] theorem add_tally_nil (t : Tally) : t + tally {} = t := rfl

theorem add_tally_append (t : Tally) (a b : Census) :
    t + (a ++ b).tally = t + a.tally + b.tally := by
  simp [Tally.add_def, tally, append_def, Nat.add_assoc]

def IsLiteral (c : Census) : Prop :=
  ∀ d ∈ c.calls, d.isLiteral

theorem isLiteral_append {a b : Census} : (a ++ b).IsLiteral ↔ a.IsLiteral ∧ b.IsLiteral :=
  List.forall_mem_append

/-- The tally has grown from `base` by what the census tells, if all calls in it are literal. -/
def Explains (c : Census) (base now : Tally) : Prop :=
  c.IsLiteral → now = base + c.tally

end Census

namespace Node

def census (nodes : List Node) : Census where
  calls := callsOf nodes
  errors := errors nodes

theorem errors_append (nodes nodes' : List Node) :
    errors (nodes ++ nodes') = errors nodes ++ errors nodes' := by
  rw [errors, walkList_append, List.filterMap_append]
  rfl

theorem census_cons (node : Node) (nodes : List Node) :
    census (node :: nodes) = census [node] ++ census nodes := by
  rw [← List.singleton_append, census, callsOf_append, errors_append]
  rfl

theorem census_element (id : Option NodeId) (tag : String) (attributes : Attributes)
    (children : List Node) : census [element id tag attributes children] = census children := by
  simp only [census, callsOf, errors, walkList, walk, List.append_nil]
  rw [List.filterMap_cons_none rfl, List.filterMap_cons_none rfl]

theorem census_call (id : Option NodeId) (c : Call) (trace : Option Trace)
    (content : List Node) :
    census [call id c trace content] = { calls := [c] } ++ census content := by
  have hcalls : callsOf [call id c trace content] = c :: callsOf content :=
    calls_call id c trace content
  have herrors : errors [call id c trace content] = errors content := by
    simp only [errors, walkList, walk, List.append_nil]
    exact List.filterMap_cons_none rfl
  rw [census, hcalls, herrors]
  rfl

theorem census_outlineList (nodes : List Node) : census (outlineList nodes) = census nodes := by
  have hcall : call? ∘ outline = call? := funext fun node => by cases node <;> rfl
  have herror : error? ∘ outline = error? := funext fun node => by cases node <;> rfl
  simp only [census, callsOf, errors, walkList_outlineList, List.filterMap_map, hcall, herror]

theorem census_assignList (next : NodeId) (nodes : List Node) :
    census (assignList next nodes).1 = census nodes := by
  rw [← census_outlineList, outlineList_assignList, census_outlineList]

end Node

namespace Expand

open Node (census)

variable {env : Env} {α β : Type}

/-- If the given census explains the tally before the program runs, then that of its value does
when it ends. -/
def Counts (given : Census) (x : Expand env α) (census : α → Census) : Prop :=
  ∀ base p a q, x.run p = some (a, q) → given.Explains base p.tally →
    (census a).Explains base q.tally

variable {given : Census} {census' : α → Census}

theorem counts_pure (a : α) (h : census' a = given) :
    Counts given (pure a : Expand env α) census' := by
  intro base p b q hrun hg
  cases hrun
  rw [h]
  exact hg

theorem Counts.bind {x : Expand env α} {f : α → Expand env β} {census'' : β → Census}
    (hx : Counts given x census') (hf : ∀ a, Yields x a → Counts (census' a) (f a) census'') :
    Counts given (x >>= f) census'' := by
  intro base p b r hrun hg
  obtain ⟨⟨a, q⟩, ha, hb⟩ := Option.bind_eq_some_iff.1 hrun
  exact hf a ⟨p, q, ha⟩ base q b r hb (hx base p a q ha hg)

theorem Counts.congr {x : Expand env α} {census'' : α → Census} (h : Counts given x census')
    (heq : ∀ a, Yields x a → census'' a = census' a) : Counts given x census'' := by
  intro base p a q hrun hg
  rw [heq a ⟨p, q, hrun⟩]
  exact h base p a q hrun hg

theorem Counts.after {x : Expand env α} (h : Counts {} x census') (given : Census) :
    Counts given x fun a => given ++ census' a := by
  intro base p a q hrun hg hliteral
  obtain ⟨hgiven, hvalue⟩ := Census.isLiteral_append.1 hliteral
  rw [Census.add_tally_append, ← hg hgiven]
  exact h p.tally p a q hrun (fun _ => (Census.add_tally_nil _).symm) hvalue

theorem counts_of_not_isLiteral {x : Expand env α}
    (h : ∀ a, Yields x a → ¬ (census' a).IsLiteral) : Counts given x census' :=
  fun _ p a q hrun _ hliteral => absurd hliteral (h a ⟨p, q, hrun⟩)

theorem counts_modifyGet {f : Progress env → α × Progress env}
    (h : ∀ p, (f p).2.tally = p.tally) (given : Census) :
    Counts given (modifyGet f : Expand env α) fun _ => given := by
  intro base p a q hrun hg
  obtain rfl : q = (f p).2 := congrArg Prod.snd (Option.some.inj hrun).symm
  rw [h]
  exact hg

theorem counts_modifyTally {f : Tally → Tally} {c : Census} (h : ∀ t, f t = t + c.tally) :
    Counts {} (modifyTally f : Expand env Unit) fun _ => c := by
  intro base p a q hrun hg _
  cases hrun
  have hbase := hg (List.forall_mem_nil _)
  rw [Census.add_tally_nil] at hbase
  rw [← hbase]
  exact h p.tally

theorem counts_idOrFresh (id : Option NodeId) :
    Counts given (idOrFresh id : Expand env NodeId) fun _ => given := by
  cases id with
  | none => exact counts_modifyGet (fun _ => rfl) given
  | some n => exact counts_pure n rfl

theorem counts_countExecution (c : Call) :
    Counts {} (countExecution : Expand env Unit) fun _ => { calls := [c] } :=
  counts_modifyTally fun _ => rfl

theorem counts_countRecursion (title : Title) :
    Counts {} (countRecursion : Expand env Unit)
      fun _ => census [.error (.transclusionRecursion title)] :=
  counts_modifyTally fun _ => rfl

theorem counts_failed (reads : Reads) {e : RenderError} (h : e.isRecursion = false) :
    Counts {} (failed reads e : Expand env _) fun r => census r.content := by
  have herror : Counts {} (countError : Expand env Unit) fun _ => census [.error e] := by
    apply counts_modifyTally
    intro t
    cases e <;> first | rfl | cases h
  exact herror.bind fun _ _ => counts_pure _ rfl

theorem counts_settle (reads : Reads) (callee : String) (nodes : List Node) :
    Counts (census nodes) (settle reads callee (.ok nodes) : Expand env _)
      fun r => census r.content := by
  apply (counts_modifyGet (fun _ => rfl) _).bind
  intro numbered hy
  obtain ⟨p, rfl⟩ := hy.modifyGet
  exact counts_pure _ (Node.census_assignList p.nextId nodes)

variable {nested : Nested env} {context : Context} {reads : Reads} {callee : String}

theorem counts_fetch (args : Arguments) (title : Title) :
    Counts given (fetch args title : Expand env _) fun _ => given := by
  unfold fetch
  split
  · split
    · exact (counts_modifyGet (fun _ => rfl) given).bind fun _ _ => counts_pure _ rfl
    · exact counts_pure _ rfl
  · split
    · apply counts_modifyGet
      intro p
      split <;> rfl
    · exact counts_pure _ rfl

theorem counts_frame (page : PageSettings) (target template : Option Title)
    (content : List Node) :
    Counts (census content)
      (runBody nested (Transclude.frame page target template content) >>= settle reads callee)
      fun r => census r.content := by
  rw [runBody_frame, pure_bind, ← Node.census_element]
  exact counts_settle _ _ _

section Bodies

variable (hp : env.rules.parsers.IsBuiltin)
  (hn : ∀ inner nodes, (∀ node ∈ nodes, node.Parsed) → Counts {} (nested inner nodes) census)
include hp hn

theorem counts_transclude (args : Arguments) :
    Counts {} (runBody nested (Transclude.body env.page args context) >>= settle reads callee)
      fun r => census r.content := by
  obtain ⟨-, hbody⟩ | ⟨title, -, ⟨-, hbody⟩ | ⟨-, hbody⟩⟩ := transclude_cases env context args
  · rw [hbody]
    exact counts_frame _ _ _ []
  · rw [hbody, bind_assoc]
    exact (counts_countRecursion title).bind fun _ _ => counts_frame _ _ _ _
  · rw [hbody, bind_assoc]
    apply (counts_fetch args title).bind
    intro r hr
    have hbuiltin : env.scene.rules.parsers.IsBuiltin := hp
    obtain ⟨nodes, hsource, hparsed⟩ := Scene.source_builtin hbuiltin args title
    obtain rfl := (yields_fetch hr).trans hsource
    rw [proceed, runBody, bind_assoc]
    exact (hn _ nodes hparsed).bind fun content _ => counts_frame _ _ _ content

theorem counts_body {m : Macro} (hm : m.isCustom = false) (args : Arguments) :
    Counts {} (runBody nested (m.body env.page args context) >>= settle reads callee)
      fun r => census r.content := by
  obtain rfl | ⟨text, hbody, -⟩ := transclude_or_text hm env context args
  · exact counts_transclude hp hn args
  · rw [hbody, pure_bind]
    cases text <;> exact counts_settle _ _ _

end Bodies

theorem counts_expandCall (hb : env.macros.IsBuiltin) (hp : env.rules.parsers.IsBuiltin)
    (hn : ∀ inner nodes, (∀ node ∈ nodes, node.Parsed) → Counts {} (nested inner nodes) census)
    {c : Call} (hc : c.isLiteral) :
    Counts {} (expandCall nested context c) fun r => census r.content := by
  refine expandCall_induction (P := fun c x => c.isLiteral → Counts {} x fun r => census r.content)
    ?unknown ?unbound ?bound c hc
  case unknown => exact fun _ _ _ => counts_failed _ rfl
  case unbound => exact fun _ _ _ _ he _ => counts_failed _ (Macro.isRecursion_of_bindCall he)
  case bound =>
    intro c m b hbound _ hc
    rw [calls_of_isLiteral hbound hc]
    exact counts_body hp hn (hb _ _ hbound.installed) _

section Nodes

/-- What a literal call is expanded to explains the tally. -/
def CountsCalls (expand : Context → Call → Expand env Result) : Prop :=
  ∀ context c, c.isLiteral → Counts {} (expand context c) fun r => census r.content

variable {expand : Context → Call → Expand env Result} (h : CountsCalls expand)
include h

/-- A call counts for itself and for what it is expanded to, whatever it was before. -/
theorem counts_expandNode_call (context : Context) (id : Option NodeId) (c : Call)
    (trace : Option Trace) (content : List Node) :
    Counts {} (expandNode expand context (.call id c trace content)) fun node => census [node] := by
  by_cases hc : c.isLiteral
  · apply (counts_idOrFresh id).bind
    intro n _
    apply (counts_countExecution c).bind
    intro _ _
    apply ((h context c hc).after _).bind
    intro r _
    exact counts_pure _ (Node.census_call _ _ _ _)
  · apply counts_of_not_isLiteral
    intro node hy hliteral
    obtain ⟨n, r, -, -, rfl⟩ := eq_of_expandNode_call hy
    rw [Node.census_call, Census.isLiteral_append] at hliteral
    exact hc (hliteral.1 c List.mem_cons_self)

theorem compositional_counts (context : Context) :
    Compositional expand context
      (fun node x => node.Parsed → Counts {} x fun node => census [node])
      fun nodes xs => (∀ node ∈ nodes, node.Parsed) → Counts {} xs census where
  text s _ := counts_pure _ rfl
  error e hp := nomatch hp
  element id tag attributes children hchildren hp := by
    have hparsed : ∀ child ∈ children, child.Parsed := by
      cases hp with
      | element hparsed => exact hparsed
    apply (counts_idOrFresh id).bind
    intro n _
    apply (hchildren hparsed).bind
    intro below _
    exact counts_pure _ (Node.census_element _ _ _ _)
  call id c trace content _ := counts_expandNode_call h context id c trace content
  nil _ := counts_pure _ rfl
  cons node nodes hnode hnodes hp := by
    obtain ⟨hfirst, hrest⟩ := List.forall_mem_cons.1 hp
    apply (hnode hfirst).bind
    intro first _
    apply ((hnodes hrest).after _).bind
    intro rest _
    exact counts_pure _ (Node.census_cons first rest)

theorem counts_expandNode (context : Context) (node : Node) (hp : node.Parsed) :
    Counts {} (expandNode expand context node) fun node => census [node] :=
  (compositional_counts h context).expandNode node hp

theorem counts_expandList (context : Context) (nodes : List Node)
    (hp : ∀ node ∈ nodes, node.Parsed) :
    Counts {} (expandList expand context nodes) census :=
  (compositional_counts h context).expandList nodes hp

end Nodes

theorem countsCalls_expandWithin (hb : env.macros.IsBuiltin) (hp : env.rules.parsers.IsBuiltin)
    (depth : Nat) : CountsCalls (expandWithin depth : Context → Call → Expand env Result) := by
  induction depth with
  | zero => exact fun _ _ _ _ p a q hrun _ => nomatch hrun
  | succ depth ih => exact fun _ _ hc => counts_expandCall hb hp (counts_expandList ih) hc

theorem countsCalls_expand (hb : env.macros.IsBuiltin) (hp : env.rules.parsers.IsBuiltin) :
    CountsCalls (expand : Context → Call → Expand env Result) :=
  countsCalls_expandWithin hb hp env.maxDepth

end Expand

end Notebook
