import Notebook.Proofs.Expansion.Sound

/-! # Expansion comes to an end

Where all macros are built in, each level of an expansion adds to the chain a title that
resolves and was not there. So no expansion nests deeper than it may.
-/

namespace Notebook

/-- The titles that resolve are no more than the environment counts. -/
def Env.IsCounted (env : Env) : Prop :=
  ∃ titles : List Title, titles.length ≤ env.titleCount ∧
    ∀ title, (env.note? title).isSome → title ∈ titles

theorem Env.titleCount_lt_maxDepth (env : Env) : env.titleCount < env.maxDepth := by
  have hmul := Nat.le_mul_of_pos_right (env.titleCount + 1)
    (Nat.succ_pos (env.macros.values.filter Macro.isCustom).length)
  rw [Nat.succ_eq_add_one] at hmul
  unfold maxDepth
  omega

def outside (titles chain : List Title) : List Title :=
  titles.filter fun t => !chain.contains t

theorem length_outside_cons {titles chain : List Title} {title : Title} (ht : title ∈ titles)
    (hc : ¬ chain.contains title) :
    (outside titles (title :: chain)).length < (outside titles chain).length := by
  have hf : outside titles (title :: chain) =
      (outside titles chain).filter fun t => !decide (t = title) := by
    simp [outside, List.filter_filter]
  rw [hf, List.length_filter_lt_length_iff_exists]
  refine ⟨title, List.mem_filter.2 ⟨ht, by simpa using hc⟩, by simp⟩

namespace Expand

variable {env : Env} {α β : Type}

/-- The program comes to something from each state. -/
def Total (x : Expand env α) : Prop :=
  ∀ p, ∃ a q, x.run p = some (a, q)

theorem Total.yields {x : Expand env α} (h : Total x) : ∃ a, Yields x a := by
  obtain ⟨a, q, h⟩ := h {}
  exact ⟨a, {}, q, h⟩

theorem total_pure (a : α) : Total (pure a : Expand env α) :=
  fun p => ⟨a, p, rfl⟩

theorem Total.bind {x : Expand env α} {f : α → Expand env β} (hx : Total x)
    (hf : ∀ a, Total (f a)) : Total (x >>= f) := by
  intro p
  obtain ⟨a, q, ha⟩ := hx p
  obtain ⟨b, r, hb⟩ := hf a q
  exact ⟨b, r, Option.bind_eq_some_iff.2 ⟨(a, q), ha, hb⟩⟩

theorem total_modifyGet (f : Progress env → α × Progress env) :
    Total (modifyGet f : Expand env α) :=
  fun p => ⟨(f p).1, (f p).2, rfl⟩

theorem total_idOrFresh (id : Option NodeId) : Total (idOrFresh id : Expand env NodeId) := by
  cases id with
  | none => exact total_modifyGet _
  | some n => exact total_pure n

theorem total_parse (type : Option String) (text : String) :
    Total (parse type text : Expand env _) :=
  (total_modifyGet _).bind fun _ => total_pure _

theorem total_failed (reads : Reads) (e : RenderError) :
    Total (failed reads e : Expand env Result) :=
  (total_modifyGet _).bind fun _ => total_pure _

theorem total_settle (reads : Reads) (callee : String) (outcome : Except Failure (List Node)) :
    Total (settle reads callee outcome : Expand env Result) := by
  cases outcome with
  | ok nodes => exact (total_modifyGet _).bind fun _ => total_pure _
  | error f => exact total_failed _ _

variable {nested : Nested env} {context : Context}

/-- What a body asks to be expanded has a result: nothing at all, or a template that resolves and
is not in the chain. -/
structure Descends (nested : Nested env) (context : Context) : Prop where
  nil : ∀ inner, Total (nested inner [])
  template : ∀ title scope nodes, (env.note? title).isSome → ¬ context.chain.contains title →
    Total (nested ⟨title :: context.chain, scope⟩ nodes)

theorem total_fetch (args : Arguments) (title : Title) :
    Total (fetch args title : Expand env _) := by
  unfold fetch
  split
  · split
    · exact total_parse _ _
    · exact total_pure _
  · split
    · exact total_modifyGet _
    · exact total_pure _

theorem total_runBody_frame (page : PageSettings) (target template : Option Title)
    (content : List Node) :
    Total (runBody nested (Transclude.frame page target template content)) := by
  rw [runBody_frame]
  exact total_pure _

theorem total_runBody_transclude (hd : Descends nested context) (args : Arguments) :
    Total (runBody nested (Transclude.body env.page args context)) := by
  obtain ⟨-, hbody⟩ | ⟨title, -, ⟨-, hbody⟩ | ⟨hc, hbody⟩⟩ := transclude_cases env context args
  · rw [hbody]
    exact total_runBody_frame _ _ _ _
  · rw [hbody]
    exact (total_modifyGet _).bind fun _ => total_runBody_frame _ _ _ _
  · rw [hbody]
    cases ht : env.note? title with
    | none =>
      rw [fetch_missing ht, pure_bind]
      exact (hd.nil _).bind fun _ => total_runBody_frame _ _ _ _
    | some note =>
      refine (total_fetch args title).bind fun r => ?_
      cases r with
      | error message => exact total_pure _
      | ok nodes =>
        have hresolves : (env.note? title).isSome := Option.isSome_of_eq_some ht
        exact (hd.template title _ nodes hresolves hc).bind fun _ => total_runBody_frame _ _ _ _

theorem total_runBody {m : Macro} (hm : m.isCustom = false) (hd : Descends nested context)
    (args : Arguments) : Total (runBody nested (m.body env.page args context)) := by
  obtain rfl | ⟨text, hbody, -⟩ := transclude_or_text hm env context args
  · exact total_runBody_transclude hd args
  · rw [hbody]
    exact total_pure _

/-- Each macro comes to an end where what it may ask for does. -/
def Descending (env : Env) : Prop :=
  ∀ name m, env.macros.get? name = some m → ∀ (nested : Nested env) (context : Context),
    Descends nested context → ∀ args, Total (runBody nested (m.body env.page args context))

theorem descending_of_isBuiltin (hb : env.macros.IsBuiltin) : Descending env :=
  fun name m hm _ _ hd args => total_runBody (hb name m hm) hd args

theorem total_runDeferred {cs : List Call}
    (h : ∀ c ∈ cs, Total (expandCall nested context c)) :
    Total (runDeferred (cs.map (deferCall nested context))) := by
  induction cs with
  | nil => exact total_pure _
  | cons c cs ih =>
    have hc : Total (deferCall nested context c).run := by
      refine (total_modifyGet _).bind fun _ => (total_modifyGet _).bind fun _ => ?_
      exact (h c List.mem_cons_self).bind fun _ => total_pure _
    refine hc.bind fun _ => Total.bind ?_ fun _ => total_pure _
    exact ih fun d hd => h d (List.mem_cons_of_mem _ hd)

theorem total_expandCall (he : Descending env) (hd : Descends nested context) (c : Call) :
    Total (expandCall nested context c) := by
  refine expandCall_induction (P := fun _ x => Total x) ?unknown ?unbound ?bound c
  case unknown => exact fun _ _ => total_failed _ _
  case unbound => exact fun _ _ _ _ _ => total_failed _ _
  case bound =>
    intro c m b hbound ih
    refine (total_runDeferred ih).bind fun _ => ?_
    refine (he _ _ hbound.installed _ _ hd _).bind fun _ => ?_
    exact total_settle _ _ _

section Nodes

variable {expand : Context → Call → Expand env Result}

theorem compositional_total (context : Context) :
    Compositional expand context
      (fun node x => (∀ c ∈ node.outerCalls, Total (expand context c)) → Total x)
      fun nodes xs => (∀ c ∈ Node.outerCallsOf nodes, Total (expand context c)) → Total xs where
  text s _ := total_pure _
  error e _ := total_pure _
  element id tag attributes children hchildren h := by
    refine (total_idOrFresh id).bind fun _ => ?_
    exact (hchildren h).bind fun _ => total_pure _
  call id c trace content h := by
    refine (total_idOrFresh id).bind fun _ => (total_modifyGet _).bind fun _ => ?_
    exact (h c (List.mem_singleton.2 rfl)).bind fun _ => total_pure _
  nil _ := total_pure _
  cons node nodes hnode hnodes h := by
    obtain ⟨hfirst, hrest⟩ := List.forall_mem_append.1 h
    refine (hnode hfirst).bind fun _ => ?_
    exact (hnodes hrest).bind fun _ => total_pure _

theorem total_expandNode (node : Node) (h : ∀ c ∈ node.outerCalls, Total (expand context c)) :
    Total (expandNode expand context node) :=
  (compositional_total context).expandNode node h

theorem total_expandList (nodes : List Node)
    (h : ∀ c ∈ Node.outerCallsOf nodes, Total (expand context c)) :
    Total (expandList expand context nodes) :=
  (compositional_total context).expandList nodes h

end Nodes

/-- A level of depth for each title that may still join the chain is enough. -/
theorem total_expandWithin (he : Descending env) {titles : List Title}
    (ht : ∀ title, (env.note? title).isSome → title ∈ titles) {depth : Nat} {context : Context}
    (hdepth : (outside titles context.chain).length < depth) (c : Call) :
    Total (expandWithin depth context c : Expand env Result) := by
  induction depth generalizing context c with
  | zero => exact absurd hdepth (Nat.not_lt_zero _)
  | succ depth ih =>
    have hd : Descends (expandList (expandWithin depth) : Nested env) context := by
      refine ⟨fun _ => total_pure _, fun title scope nodes hs hc => ?_⟩
      have hlt := length_outside_cons (ht title hs) hc
      exact total_expandList nodes fun c _ => ih (by dsimp only; omega) c
    exact total_expandCall he hd c

theorem total_expand (hb : env.macros.IsBuiltin) (hc : env.IsCounted) (context : Context)
    (c : Call) : Total (expand context c : Expand env Result) := by
  obtain ⟨titles, hlength, ht⟩ := hc
  refine total_expandWithin (descending_of_isBuiltin hb) ht ?_ c
  have hle : (outside titles context.chain).length ≤ titles.length := List.length_filter_le _ _
  have hlt := env.titleCount_lt_maxDepth
  omega

end Expand

end Notebook
