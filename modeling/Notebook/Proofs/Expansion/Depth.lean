import Notebook.Proofs.Expansion.Total

/-! # More depth changes nothing

An expansion that has a result within some depth has the same result within every greater depth.
Where all macros are built in, each level transcludes a title that resolves and was not yet in
the chain. So from the number of such titles on, the depth makes no difference.
-/

namespace Notebook.Expand

variable {env : Env} {α β : Type}

/-- Whatever the first program comes to, the second comes to as well. -/
def Refines (x y : Expand env α) : Prop :=
  ∀ p r, x.run p = some r → y.run p = some r

theorem Refines.refl (x : Expand env α) : Refines x x :=
  fun _ _ h => h

theorem Refines.bind {x y : Expand env α} {f g : α → Expand env β} (h : Refines x y)
    (hf : ∀ a, Refines (f a) (g a)) : Refines (x >>= f) (y >>= g) := by
  intro p r hr
  obtain ⟨⟨a, q⟩, hx, hr⟩ := Option.bind_eq_some_iff.1 hr
  exact Option.bind_eq_some_iff.2 ⟨(a, q), h p _ hx, hf a q r hr⟩

theorem refines_failure (y : Expand env α) : Refines failure y := by
  intro p r h
  cases h

theorem Refines.run_eq {x y : Expand env α} (h : Refines x y) (hx : Total x)
    (p : Progress env) : x.run p = y.run p := by
  obtain ⟨a, q, hr⟩ := hx p
  rw [hr, h p _ hr]

theorem Refines.total {x y : Expand env α} (h : Refines x y) (hx : Total x) : Total y := by
  intro p
  obtain ⟨a, q, hrun⟩ := hx p
  exact ⟨a, q, h p _ hrun⟩

variable {nested nested' : Nested env} {context : Context}

theorem refines_runBody (hn : ∀ inner nodes, Refines (nested inner nodes) (nested' inner nodes))
    (body : Body) : Refines (runBody nested body) (runBody nested' body) := by
  induction body with
  | done nodes => exact .refl _
  | fail e => exact .refl _
  | panic message => exact .refl _
  | lookup title next ih => exact ih _
  | parse type text next ih =>
    simp only [runBody]
    refine (Refines.refl _).bind fun r => ?_
    cases r with
    | ok nodes => exact ih nodes
    | error message => exact .refl _
  | parseNote title next ih =>
    simp only [runBody]
    cases env.lookup title with
    | none => exact ih none
    | some saved =>
      refine (Refines.refl _).bind fun r => ?_
      cases r with
      | ok nodes => exact ih (some nodes)
      | error message => exact .refl _
  | expand inner nodes next ih => exact (hn inner nodes).bind ih
  | recursion next ih => exact (Refines.refl _).bind fun _ => ih
  | executions next ih => exact (Refines.refl _).bind fun p => ih p.tally.executions

theorem refines_runDeferred {cs : List Call}
    (h : ∀ c ∈ cs, Refines (expandCall nested context c) (expandCall nested' context c)) :
    Refines (runDeferred (cs.map (deferCall nested context)))
      (runDeferred (cs.map (deferCall nested' context))) := by
  induction cs with
  | nil =>
    rw [List.map_nil, List.map_nil]
    exact .refl _
  | cons c cs ih =>
    have hc : Refines (deferCall nested context c).run (deferCall nested' context c).run := by
      refine (Refines.refl _).bind fun _ => (Refines.refl _).bind fun _ => ?_
      exact (h c List.mem_cons_self).bind fun _ => .refl _
    refine hc.bind fun _ => Refines.bind ?_ fun _ => .refl _
    exact ih fun d hd => h d (List.mem_cons_of_mem _ hd)

theorem refines_expandCall
    (hn : ∀ inner nodes, Refines (nested inner nodes) (nested' inner nodes)) (c : Call) :
    Refines (expandCall nested context c) (expandCall nested' context c) := by
  refine expandCall_induction (P := fun c x => Refines x (expandCall nested' context c))
    ?unknown ?unbound ?bound c
  case unknown =>
    intro c hm
    rw [expandCall_unknown hm]
    exact .refl _
  case unbound =>
    intro c m e hm he
    rw [expandCall_unbound hm he]
    exact .refl _
  case bound =>
    intro c m b hbound ih
    rw [expandCall_bound hbound]
    exact (refines_runDeferred ih).bind fun _ => (refines_runBody hn _).bind fun _ => .refl _

section Nodes

variable {expand expand' : Context → Call → Expand env Result}
  (h : ∀ context c, Refines (expand context c) (expand' context c))
include h

theorem compositional_refines (context : Context) :
    Compositional expand context (fun node x => Refines x (expandNode expand' context node))
      fun nodes xs => Refines xs (expandList expand' context nodes) where
  text s := .refl _
  error e := .refl _
  element id tag attributes children hchildren := by
    refine (Refines.refl _).bind fun _ => ?_
    exact hchildren.bind fun _ => .refl _
  call id c trace content := by
    refine (Refines.refl _).bind fun _ => (Refines.refl _).bind fun _ => ?_
    exact (h context c).bind fun _ => .refl _
  nil := .refl _
  cons node nodes hnode hnodes := hnode.bind fun _ => hnodes.bind fun _ => .refl _

theorem refines_expandNode (context : Context) (node : Node) :
    Refines (expandNode expand context node) (expandNode expand' context node) :=
  (compositional_refines h context).expandNode node

theorem refines_expandList (context : Context) (nodes : List Node) :
    Refines (expandList expand context nodes) (expandList expand' context nodes) :=
  (compositional_refines h context).expandList nodes

end Nodes

theorem refines_expandWithin {depth depth' : Nat} (hle : depth ≤ depth') (context : Context)
    (c : Call) : Refines (expandWithin depth context c : Expand env Result)
      (expandWithin depth' context c) := by
  induction depth generalizing depth' context c with
  | zero => exact refines_failure _
  | succ depth ih =>
    obtain ⟨depth', rfl⟩ : ∃ n, depth' = n + 1 := Nat.exists_eq_add_one.2 (by omega)
    have hlevel := ih (Nat.le_of_succ_le_succ hle)
    exact refines_expandCall (refines_expandList hlevel) c

theorem refines_body {depth depth' : Nat} (hle : depth ≤ depth') (body : Body) :
    Refines (runBody (expandList (expandWithin depth)) body : Expand env _)
      (runBody (expandList (expandWithin depth')) body) :=
  refines_runBody (refines_expandList (refines_expandWithin hle)) body

/-- An expansion outside of all templates nests no deeper than there are titles that resolve. -/
theorem run_expandNode_expandWithin (hb : env.macros.IsBuiltin) (hc : env.IsCounted)
    {depth : Nat} (hd : env.titleCount < depth) (scope : Option Title) (node : Node)
    (p : Progress env) :
    (expandNode (expandWithin depth) ⟨[], scope⟩ node).run p =
      (expandNode expand ⟨[], scope⟩ node).run p := by
  have hexpand : (expand : Context → Call → Expand env Result) = expandWithin env.maxDepth := rfl
  have htotal : ∀ depth', env.titleCount < depth' →
      Total (expandNode (expandWithin depth') ⟨[], scope⟩ node : Expand env Node) := by
    intro depth' hd'
    obtain ⟨titles, hlength, ht⟩ := hc
    refine total_expandNode node fun c _ =>
      total_expandWithin (descending_of_isBuiltin hb) ht ?_ c
    have hle : (outside titles []).length ≤ titles.length := List.length_filter_le _ _
    dsimp only
    omega
  have hrefines : ∀ {d d'}, d ≤ d' →
      Refines (expandNode (expandWithin d) ⟨[], scope⟩ node : Expand env Node)
        (expandNode (expandWithin d') ⟨[], scope⟩ node) :=
    fun hle => refines_expandNode (refines_expandWithin hle) _ node
  rw [hexpand]
  rcases Nat.le_total depth env.maxDepth with hle | hle
  · exact (hrefines hle).run_eq (htotal depth hd) p
  · refine ((hrefines hle).run_eq (htotal env.maxDepth ?_) p).symm
    exact env.titleCount_lt_maxDepth

end Notebook.Expand
