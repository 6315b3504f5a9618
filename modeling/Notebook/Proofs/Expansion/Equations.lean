import Notebook.Proofs.Meaning

/-! # Equations of expansion

The expansion of a call in terms of the calls among its parameters, and what a program can come
to, step by step. What is true of the expansion of calls and of nodes is shown by induction on
them.
-/

namespace Notebook.Expand

variable {env : Env} {α β : Type}

/-- The value is what the program comes to from some state. -/
def Yields (x : Expand env α) (a : α) : Prop :=
  ∃ p q, x.run p = some (a, q)

theorem yields_pure {a b : α} : Yields (pure a : Expand env α) b ↔ b = a := by
  constructor
  · rintro ⟨p, q, h⟩
    cases h
    rfl
  · rintro rfl
    exact ⟨{}, {}, rfl⟩

theorem Yields.bind {x : Expand env α} {f : α → Expand env β} {b : β} (h : Yields (x >>= f) b) :
    ∃ a, Yields x a ∧ Yields (f a) b := by
  obtain ⟨p, r, h⟩ := h
  obtain ⟨⟨a, q⟩, hx, hf⟩ := Option.bind_eq_some_iff.1 h
  exact ⟨a, ⟨p, q, hx⟩, ⟨q, r, hf⟩⟩

theorem not_yields_failure {a : α} : ¬ Yields (failure : Expand env α) a := by
  rintro ⟨p, q, h⟩
  cases h

theorem Yields.modifyGet {f : Progress env → α × Progress env} {a : α}
    (h : Yields (modifyGet f : Expand env α) a) : ∃ p, a = (f p).1 := by
  obtain ⟨p, q, h⟩ := h
  exact ⟨p, congrArg Prod.fst (Option.some.inj h).symm⟩

theorem eq_of_failed {reads : Reads} {e : RenderError} {r : Result}
    (h : Yields (failed reads e : Expand env Result) r) : r = ⟨reads, [.error e]⟩ := by
  obtain ⟨_, _, h⟩ := h.bind
  exact yields_pure.1 h

def deferCall (nested : Nested env) (context : Context) (c : Call) : Deferred env where
  callee := c.name
  run := do
    let _ ← freshId
    countExecution
    let result ← expandCall nested context c
    return (result.reads, Node.plainTextList result.content)

theorem deferList_eq (nested : Nested env) (context : Context) (params : List Param) :
    deferList nested context params =
      (params.map Param.supplied).map (Supplied.map (deferCall nested context)) := by
  induction params with
  | nil => rfl
  | cons param params ih =>
    simp only [deferList, List.map_cons, ih]
    cases param <;> rfl

def settle (reads : Reads) (callee : String) : Except Failure (List Node) → Expand env Result
  | .ok nodes => do return ⟨reads, ← assign nodes⟩
  | .error f => failed reads (f.toError callee)

theorem eq_of_settle {reads : Reads} {callee : String} {outcome : Except Failure (List Node)}
    {r : Result} (h : Yields (settle reads callee outcome : Expand env Result) r) :
    (∃ nodes next, outcome = .ok nodes ∧ r = ⟨reads, (Node.assignList next nodes).1⟩) ∨
      ∃ f, outcome = .error f ∧ r = ⟨reads, [.error (f.toError callee)]⟩ := by
  cases outcome with
  | ok nodes =>
    obtain ⟨numbered, hn, hr⟩ := h.bind
    obtain rfl := yields_pure.1 hr
    obtain ⟨p, rfl⟩ := hn.modifyGet
    exact .inl ⟨nodes, p.nextId, rfl, rfl⟩
  | error f => exact .inr ⟨f, rfl, eq_of_failed h⟩

variable {nested : Nested env} {context : Context} {c : Call} {m : Macro} {b : Binding Call}

theorem eq_of_runDeferred_cons {cs : List Call} {read : Reads × List String}
    (h : Yields (runDeferred ((c :: cs).map (deferCall nested context))) read) :
    ∃ r rest, Yields (expandCall nested context c) r ∧
      Yields (runDeferred (cs.map (deferCall nested context))) rest ∧
      read = (r.reads.merge rest.1, Node.plainTextList r.content :: rest.2) := by
  obtain ⟨first, hfirst, h⟩ := h.bind
  obtain ⟨rest, hrest, h⟩ := h.bind
  obtain rfl := yields_pure.1 h
  obtain ⟨_, _, hfirst⟩ := hfirst.bind
  obtain ⟨_, _, hfirst⟩ := hfirst.bind
  obtain ⟨r, hr, hfirst⟩ := hfirst.bind
  obtain rfl := yields_pure.1 hfirst
  exact ⟨r, rest, hr, hrest, rfl⟩

theorem expandCall_unknown (h : env.macros.get? c.name = none) :
    expandCall nested context c = failed .none (.unknownMacro c.name) := by
  simp only [expandCall, expandSupplied, h]

theorem bind_deferList (m : Macro) (nested : Nested env) (context : Context) (c : Call) :
    m.signature.bind c.name (showArgument Deferred.callee) (deferList nested context c.params) =
      (m.bindCall c).map (Binding.mapCalls (deferCall nested context)) := by
  rw [deferList_eq]
  exact Signature.bind_map (Argument.showArgument_map fun _ => rfl) _ _ _

theorem expandCall_unbound {e : RenderError} (hm : env.macros.get? c.name = some m)
    (he : m.bindCall c = .error e) : expandCall nested context c = failed .none e := by
  simp only [expandCall, expandSupplied, hm, bind_deferList, he, Except.map]

theorem hidesReads_mapCalls {κ μ : Type} (signature : Signature) (f : κ → μ) (b : Binding κ) :
    hidesReads signature (b.mapCalls f) = hidesReads signature b := by
  simp [hidesReads]

theorem ownReads_mapCalls {κ μ : Type} (m : Macro) (f : κ → μ) (b : Binding κ)
    (context : Context) : m.ownReads (b.mapCalls f) context = m.ownReads b context := by
  simp only [Macro.ownReads, hidesReads_mapCalls, Binding.mapCalls_mapCalls]

theorem withTexts_mapCalls {κ μ : Type} (f : κ → μ) (b : Binding κ) (texts : List String) :
    Binding.withTexts (b.mapCalls f) texts = b.withTexts texts := by
  simp only [Binding.withTexts, Binding.fill_mapCalls, Binding.mapCalls_mapCalls]

/-- First the calls among the parameters run, then the body. -/
theorem expandCall_bound (hb : env.scene.Bound c m b) :
    expandCall nested context c = (do
      let read ← runDeferred (b.calls.map (deferCall nested context))
      let outcome ← runBody nested (m.body env.page (b.withTexts read.2) context)
      settle ((m.ownReads b context).merge read.1) c.name outcome) := by
  have hm : env.macros.get? c.name = some m := hb.installed
  simp only [expandCall, expandSupplied, hm, bind_deferList, hb.binds, Except.map, expandBound,
    Binding.calls_mapCalls]
  refine bind_congr fun read => ?_
  have ha := withTexts_mapCalls (deferCall nested context) b read.2
  have ho := ownReads_mapCalls m (deferCall nested context) b context
  rw [← ha, ← ho]
  refine bind_congr fun outcome => ?_
  cases outcome <;> rfl

/-- What holds where a call comes to an error, and carries over to a call from those among its
parameters, holds of the expansion of every call. -/
theorem expandCall_induction {P : Call → Expand env Result → Prop}
    (unknown : ∀ c, env.macros.get? c.name = none → P c (failed .none (.unknownMacro c.name)))
    (unbound : ∀ c m e, env.macros.get? c.name = some m → m.bindCall c = .error e →
      P c (failed .none e))
    (bound : ∀ c m b, env.scene.Bound c m b → (∀ d ∈ b.calls, P d (expandCall nested context d)) →
      P c (do
        let read ← runDeferred (b.calls.map (deferCall nested context))
        let outcome ← runBody nested (m.body env.page (b.withTexts read.2) context)
        settle ((m.ownReads b context).merge read.1) c.name outcome))
    (c : Call) : P c (expandCall nested context c) := by
  induction c using Call.nestedInduction with
  | h c ih =>
    cases hm : env.macros.get? c.name with
    | none =>
      rw [expandCall_unknown hm]
      exact unknown c hm
    | some m =>
      cases he : m.bindCall c with
      | error e =>
        rw [expandCall_unbound hm he]
        exact unbound c m e hm he
      | ok b =>
        have hbound : env.scene.Bound c m b := ⟨hm, he⟩
        rw [expandCall_bound hbound]
        exact bound c m b hbound fun d hd => ih d (Macro.mem_nested_of_bindCall he hd)

theorem yields_idOrFresh {id : Option NodeId} {n : NodeId}
    (h : Yields (idOrFresh id : Expand env NodeId) n) : ∀ i, id = some i → n = i := by
  rintro i rfl
  exact yields_pure.1 h

/-- What is said of nodes and of the programs that expand them carries over from the parts of a
node to the node. -/
structure Compositional (expand : Context → Call → Expand env Result) (context : Context)
    (P : Node → Expand env Node → Prop) (Q : List Node → Expand env (List Node) → Prop) :
    Prop where
  text : ∀ s, P (.text s) (pure (.text s))
  error : ∀ e, P (.error e) (pure (.error e))
  element : ∀ id tag attributes children, Q children (expandList expand context children) →
    P (.element id tag attributes children) (do
      let n ← idOrFresh id
      let below ← expandList expand context children
      return .element (some n) tag attributes below)
  call : ∀ id c trace content,
    P (.call id c trace content) (do
      let n ← idOrFresh id
      countExecution
      let r ← expand context c
      return .call (some n) c (some ⟨r.reads, context⟩) r.content)
  nil : Q [] (pure [])
  cons : ∀ node nodes, P node (expandNode expand context node) →
    Q nodes (expandList expand context nodes) →
    Q (node :: nodes) (do
      let first ← expandNode expand context node
      let rest ← expandList expand context nodes
      return first :: rest)

section Nodes

variable {expand : Context → Call → Expand env Result}
  {P : Node → Expand env Node → Prop} {Q : List Node → Expand env (List Node) → Prop}

mutual

theorem Compositional.expandNode (h : Compositional expand context P Q) (node : Node) :
    P node (expandNode expand context node) := by
  match node with
  | .text s => exact h.text s
  | .error e => exact h.error e
  | .element id tag attributes children =>
    exact h.element id tag attributes children (h.expandList children)
  | .call id c trace content => exact h.call id c trace content

theorem Compositional.expandList (h : Compositional expand context P Q) (nodes : List Node) :
    Q nodes (expandList expand context nodes) := by
  match nodes with
  | [] => exact h.nil
  | node :: nodes => exact h.cons node nodes (h.expandNode node) (h.expandList nodes)

end

/-- What is said of nodes and of what they become carries over from the parts of a node to the
node. -/
structure Relating (expand : Context → Call → Expand env Result) (context : Context)
    (R : Node → Node → Prop) (S : List Node → List Node → Prop) : Prop where
  text : ∀ s, R (.text s) (.text s)
  error : ∀ e, R (.error e) (.error e)
  element : ∀ {id n tag attributes children below}, (∀ i, id = some i → n = i) →
    S children below →
    R (.element id tag attributes children) (.element (some n) tag attributes below)
  call : ∀ {id n c trace content r}, (∀ i, id = some i → n = i) → Yields (expand context c) r →
    R (.call id c trace content) (.call (some n) c (some ⟨r.reads, context⟩) r.content)
  nil : S [] []
  cons : ∀ {node nodes first rest}, R node first → S nodes rest →
    S (node :: nodes) (first :: rest)

variable {R : Node → Node → Prop} {S : List Node → List Node → Prop}

theorem Relating.compositional (h : Relating expand context R S) :
    Compositional expand context (fun node x => ∀ shown, Yields x shown → R node shown)
      fun nodes xs => ∀ shown, Yields xs shown → S nodes shown where
  text s shown hy := yields_pure.1 hy ▸ h.text s
  error e shown hy := yields_pure.1 hy ▸ h.error e
  element id tag attributes children hchildren shown hy := by
    obtain ⟨n, hn, hy⟩ := hy.bind
    obtain ⟨below, hbelow, hy⟩ := hy.bind
    obtain rfl := yields_pure.1 hy
    exact h.element (yields_idOrFresh hn) (hchildren below hbelow)
  call id c trace content shown hy := by
    obtain ⟨n, hn, hy⟩ := hy.bind
    obtain ⟨_, _, hy⟩ := hy.bind
    obtain ⟨r, hr, hy⟩ := hy.bind
    obtain rfl := yields_pure.1 hy
    exact h.call (yields_idOrFresh hn) hr
  nil shown hy := yields_pure.1 hy ▸ h.nil
  cons node nodes hnode hnodes shown hy := by
    obtain ⟨first, hfirst, hy⟩ := hy.bind
    obtain ⟨rest, hrest, hy⟩ := hy.bind
    obtain rfl := yields_pure.1 hy
    exact h.cons (hnode first hfirst) (hnodes rest hrest)

theorem Relating.of_expandNode (h : Relating expand context R S) {node shown : Node}
    (hy : Yields (expandNode expand context node) shown) : R node shown :=
  h.compositional.expandNode node shown hy

theorem Relating.of_expandList (h : Relating expand context R S) {nodes shown : List Node}
    (hy : Yields (expandList expand context nodes) shown) : S nodes shown :=
  h.compositional.expandList nodes shown hy

end Nodes

end Notebook.Expand
