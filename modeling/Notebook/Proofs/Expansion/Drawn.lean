import Notebook.Proofs.Expansion.Sound
import Notebook.Proofs.Numbering

/-! # Expansion draws new ids

Parsers leave all ids out. So where all macros are built in, the ids of what an expansion gives
are those that it has drawn, each for one place. It may draw more, for calls among parameters.
-/

namespace Notebook

/-- What the parsers give has no ids. -/
def ParseRules.LeavesIds (rules : ParseRules) : Prop :=
  ∀ type text nodes, rules.parse type text = .ok nodes → Node.idsOf nodes = []

theorem Scene.idsOf_source (scene : Scene) (h : scene.rules.LeavesIds) {args : Arguments}
    {template : Title} {nodes : List Node} (hs : scene.source args template = .ok nodes) :
    Node.idsOf nodes = [] := by
  cases hn : scene.note? template with
  | none =>
    rw [source_missing hn] at hs
    cases hs
    rfl
  | some note =>
    by_cases hw : args.contains "with"
    · rw [source_filled hn hw] at hs
      exact h _ _ _ hs
    · rw [source_whole hn hw] at hs
      exact h _ _ _ hs

namespace Expand

open Node (ids idsOf)

variable {env : Env} {α β : Type}

/-- If the given ids have been drawn before the program runs, then those of its value have been
drawn when it ends. -/
def Draws (given : List Nat) (x : Expand env α) (ids : α → List Nat) : Prop :=
  ∀ lo p a q, x.run p = some (a, q) → Fresh lo p.nextId given → Fresh lo q.nextId (ids a)

theorem draws_pure {given : List Nat} {ids : α → List Nat} (a : α) (h : ids a = given) :
    Draws given (pure a : Expand env α) ids := by
  intro lo p b q hrun hg
  cases hrun
  exact h ▸ hg

theorem Draws.bind {given : List Nat} {x : Expand env α} {f : α → Expand env β}
    {ids : α → List Nat} {ids' : β → List Nat} (hx : Draws given x ids)
    (hf : ∀ a, Yields x a → Draws (ids a) (f a) ids') : Draws given (x >>= f) ids' := by
  intro lo p b r hrun hg
  obtain ⟨⟨a, q⟩, ha, hb⟩ := Option.bind_eq_some_iff.1 hrun
  exact hf a ⟨p, q, ha⟩ lo q b r hb (hx lo p a q ha hg)

/-- What is drawn next is behind all that has been drawn before. -/
theorem Draws.after {x : Expand env α} {ids : α → List Nat} (h : Draws [] x ids)
    (given : List Nat) : Draws given x fun a => given ++ ids a :=
  fun _ p a q hrun hg => hg.append (h p.nextId p a q hrun (.nil (Nat.le_refl _)))

theorem Draws.discard {x : Expand env α} {ids : α → List Nat} (h : Draws [] x ids)
    (given : List Nat) : Draws given x fun _ => given :=
  fun _ p a q hrun hg => hg.later (h p.nextId p a q hrun (.nil (Nat.le_refl _))).le

theorem draws_modifyGet {f : Progress env → α × Progress env}
    (h : ∀ p, (f p).2.nextId = p.nextId) (given : List Nat) :
    Draws given (modifyGet f : Expand env α) fun _ => given := by
  intro lo p a q hrun hg
  obtain rfl : q = (f p).2 := congrArg Prod.snd (Option.some.inj hrun).symm
  exact (h p).symm ▸ hg

theorem draws_freshId : Draws [] (freshId : Expand env NodeId) fun id => [id] := by
  intro lo p id q hrun hg
  cases hrun
  exact hg.append (.range' p.nextId 1)

theorem draws_assign (nodes : List Node) :
    Draws (idsOf nodes) (assign nodes : Expand env _) idsOf := by
  intro lo p numbered q hrun hg
  cases hrun
  exact Node.fresh_assignList hg

theorem draws_failed (reads : Reads) (e : RenderError) :
    Draws [] (failed reads e : Expand env _) fun r => idsOf r.content :=
  (draws_modifyGet (fun _ => rfl) []).bind fun _ _ => draws_pure _ rfl

def outcomeIds : Except Failure (List Node) → List Nat
  | .ok nodes => idsOf nodes
  | .error _ => []

theorem draws_settle (reads : Reads) (callee : String) (outcome : Except Failure (List Node)) :
    Draws (outcomeIds outcome) (settle reads callee outcome : Expand env _)
      fun r => idsOf r.content := by
  cases outcome with
  | ok nodes => exact (draws_assign nodes).bind fun _ _ => draws_pure _ rfl
  | error f => exact draws_failed _ _

variable {nested : Nested env} {context : Context}

section Bodies

theorem draws_fetch (args : Arguments) (title : Title) (given : List Nat) :
    Draws given (fetch args title : Expand env _) fun _ => given := by
  unfold fetch
  split
  · split
    · exact (draws_modifyGet (fun _ => rfl) given).bind fun _ _ => draws_pure _ rfl
    · exact draws_pure _ rfl
  · split
    · refine draws_modifyGet (fun p => ?_) given
      split <;> rfl
    · exact draws_pure _ rfl

theorem draws_frame (page : PageSettings) (target template : Option Title)
    (content : List Node) :
    Draws (idsOf content) (runBody nested (Transclude.frame page target template content))
      outcomeIds := by
  rw [runBody_frame]
  exact draws_pure _ (by simp [outcomeIds])

variable (hr : env.rules.LeavesIds)
  (hn : ∀ inner nodes, idsOf nodes = [] → Draws [] (nested inner nodes) idsOf)
include hr hn

theorem draws_transclude (args : Arguments) :
    Draws [] (runBody nested (Transclude.body env.page args context)) outcomeIds := by
  obtain ⟨-, hbody⟩ | ⟨title, -, ⟨-, hbody⟩ | ⟨-, hbody⟩⟩ := transclude_cases env context args
  · rw [hbody]
    exact draws_frame _ _ _ []
  · rw [hbody]
    exact (draws_modifyGet (fun _ => rfl) []).bind fun _ _ => draws_frame _ _ _ [_]
  · rw [hbody]
    refine (draws_fetch args title []).bind fun r hf => ?_
    cases r with
    | error message => exact draws_pure _ rfl
    | ok nodes =>
      have hnodes := env.scene.idsOf_source hr (yields_fetch hf).symm
      exact (hn _ nodes hnodes).bind fun content _ => draws_frame _ _ _ content

theorem draws_runBody {m : Macro} (hm : m.isCustom = false) (args : Arguments) :
    Draws [] (runBody nested (m.body env.page args context)) outcomeIds := by
  obtain rfl | ⟨text, hbody, -⟩ := transclude_or_text hm env context args
  · exact draws_transclude hr hn args
  · rw [hbody]
    exact draws_pure _ (by cases text <;> rfl)

end Bodies

theorem draws_runDeferred {cs : List Call}
    (h : ∀ c ∈ cs, Draws [] (expandCall nested context c) fun r => idsOf r.content) :
    Draws [] (runDeferred (cs.map (deferCall nested context))) fun _ => [] := by
  induction cs with
  | nil => exact draws_pure _ rfl
  | cons c cs ih =>
    have hc : Draws [] (deferCall nested context c).run fun _ => [] := by
      refine (draws_freshId.discard []).bind fun _ _ => ?_
      refine (draws_modifyGet (fun _ => rfl) []).bind fun _ _ => ?_
      exact ((h c List.mem_cons_self).discard []).bind fun _ _ => draws_pure _ rfl
    refine hc.bind fun _ _ => Draws.bind ?_ fun _ _ => draws_pure _ rfl
    exact ih fun d hd => h d (List.mem_cons_of_mem _ hd)

theorem draws_expandCall (hb : env.macros.IsBuiltin) (hr : env.rules.LeavesIds)
    (hn : ∀ inner nodes, idsOf nodes = [] → Draws [] (nested inner nodes) idsOf) (c : Call) :
    Draws [] (expandCall nested context c) fun r => idsOf r.content := by
  refine expandCall_induction (P := fun _ x => Draws [] x fun r => idsOf r.content)
    ?unknown ?unbound ?bound c
  case unknown => exact fun _ _ => draws_failed _ _
  case unbound => exact fun _ _ _ _ _ => draws_failed _ _
  case bound =>
    intro c m b hbound ih
    refine (draws_runDeferred ih).bind fun _ _ => ?_
    refine (draws_runBody hr hn (hb _ _ hbound.installed) _).bind fun _ _ => ?_
    exact draws_settle _ _ _

section Nodes

variable {expand : Context → Call → Expand env Result}
  (h : ∀ context c, Draws [] (expand context c) fun r => idsOf r.content)
include h

theorem compositional_draws (context : Context) :
    Compositional expand context (fun node x => node.ids = [] → Draws [] x ids)
      fun nodes xs => idsOf nodes = [] → Draws [] xs idsOf where
  text s _ := draws_pure _ rfl
  error e _ := draws_pure _ rfl
  element id tag attributes children hchildren hi := by
    rw [Node.ids_element, List.append_eq_nil_iff, Option.toList_eq_nil_iff] at hi
    obtain ⟨rfl, hi⟩ := hi
    refine draws_freshId.bind fun id _ => ?_
    refine ((hchildren hi).after [id]).bind fun below _ => ?_
    exact draws_pure _ (by simp)
  call id c trace content hi := by
    rw [Node.ids_call, List.append_eq_nil_iff, Option.toList_eq_nil_iff] at hi
    obtain ⟨rfl, hi⟩ := hi
    refine draws_freshId.bind fun id _ => ?_
    refine (draws_modifyGet (fun _ => rfl) [id]).bind fun _ _ => ?_
    exact ((h context c).after [id]).bind fun r _ => draws_pure _ (by simp)
  nil _ := draws_pure _ rfl
  cons node nodes hnode hnodes hi := by
    rw [Node.idsOf_cons, List.append_eq_nil_iff] at hi
    refine (hnode hi.1).bind fun first _ => ?_
    refine ((hnodes hi.2).after first.ids).bind fun rest _ => ?_
    exact draws_pure _ (by simp)

theorem draws_expandNode (context : Context) (node : Node) (hi : node.ids = []) :
    Draws [] (expandNode expand context node) ids :=
  (compositional_draws h context).expandNode node hi

theorem draws_expandList (context : Context) (nodes : List Node) (hi : idsOf nodes = []) :
    Draws [] (expandList expand context nodes) idsOf :=
  (compositional_draws h context).expandList nodes hi

end Nodes

theorem draws_expandWithin (hb : env.macros.IsBuiltin) (hr : env.rules.LeavesIds) (depth : Nat)
    (context : Context) (c : Call) :
    Draws [] (expandWithin depth context c : Expand env Result) fun r => idsOf r.content := by
  induction depth generalizing context c with
  | zero => exact fun _ p a q hrun _ => nomatch hrun
  | succ depth ih => exact draws_expandCall hb hr (draws_expandList ih) c

theorem draws_expand (hb : env.macros.IsBuiltin) (hr : env.rules.LeavesIds) (context : Context)
    (c : Call) : Draws [] (expand context c : Expand env Result) fun r => idsOf r.content :=
  draws_expandWithin hb hr env.maxDepth context c

end Expand

end Notebook
