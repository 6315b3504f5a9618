import Notebook.Live.Refresh
import Notebook.Proofs.Agreement
import Notebook.Proofs.Expansion.Total

/-! # A refresh keeps up with changes

If a batch has every title that resolves to something else than before, a refresh turns what the
old scene shows into what the new one does. That is so as far as the skeleton goes, and calls
that have no calls among their parameters are in it with all that they stand for. What is true
of the refresh of every part is true of the refresh of a tree.
-/

namespace Notebook

namespace Scene

/-- Whatever differs between two scenes is in the batch. -/
structure ChangesIn (batch : Batch) (scene scene' : Scene) : Prop where
  rules : scene.rules = scene'.rules
  macros : scene.macros = scene'.macros
  notes : ∀ t, scene.note? t ≠ scene'.note? t → batch.contains t

theorem ChangesIn.agreesOn {batch : Batch} {scene scene' : Scene} {reads : Reads}
    (h : ChangesIn batch scene scene') (hr : reads.hasChanged batch = false) :
    AgreesOn reads scene scene' := by
  refine ⟨h.rules, h.macros, fun t ht => ?_⟩
  by_cases hn : scene.note? t = scene'.note? t
  · exact hn
  · have hc : reads.hasChanged batch := Reads.hasChanged_iff.2 ⟨t, h.notes t hn, ht⟩
    simp [hr] at hc

theorem plan_transclude (scene : Scene) (callee : String) (context : Context) (args : Arguments) :
    (∃ inner target template nodes, scene.plan callee context args .transclude =
      ⟨inner, [Transclude.blankFrame target template nodes]⟩) ∨
    ∃ e, scene.plan callee context args .transclude = ⟨context, [.error e]⟩ := by
  unfold plan
  dsimp only
  cases Transclude.template args context with
  | none => exact .inl ⟨_, _, _, _, rfl⟩
  | some title =>
    dsimp only
    split
    · exact .inl ⟨_, _, _, _, rfl⟩
    · cases scene.source args title with
      | ok nodes => exact .inl ⟨_, _, _, _, rfl⟩
      | error message => exact .inr ⟨_, rfl⟩

end Scene

namespace Expand

open Node (skeletonList)

variable {env : Env}

theorem skeletonList_remark {target template : Option Title} {nodes shown below : List Node}
    {context : Context}
    (hs : env.scene.ShowsList context [Transclude.blankFrame target template nodes] shown)
    (h : skeletonList below = skeletonList shown) :
    skeletonList (Transclude.remark env below) = skeletonList shown := by
  obtain _ | ⟨_ | _ | ⟨hinner⟩, ⟨⟩⟩ := hs
  obtain ⟨first, rest, rfl, hfirst, hrest⟩ := Node.eq_cons_of_skeletonList h
  obtain ⟨id, attributes, children, rfl, ha, hc⟩ := Node.eq_element_of_skeleton hfirst
  have hframe : (attributes.other.get? Transclude.targetAttribute).isSome := by
    rw [← Attributes.other_unmarked, ha]
    simp [Transclude.get?_blankAttributes]
  simp only [Transclude.remark, skeletonList, Node.skeleton, Attributes.unmarked_toggle hframe,
    ha, hc, hrest]

theorem skeletonList_touch {m : Macro} (hm : m.isCustom = false) {callee : String}
    {context : Context} {args : Arguments} {shown below : List Node}
    (hs : env.scene.ShowsList (env.scene.plan callee context args m).context
      (env.scene.plan callee context args m).nodes shown)
    (h : skeletonList below = skeletonList shown) :
    skeletonList (m.touch env below) = skeletonList shown := by
  cases m with
  | transclude =>
    rcases env.scene.plan_transclude callee context args with ⟨_, _, _, _, hp⟩ | ⟨e, hp⟩
    · rw [hp] at hs
      exact skeletonList_remark hs h
    · rw [hp] at hs
      obtain _ | ⟨⟨⟩, ⟨⟩⟩ := hs
      obtain ⟨first, rest, rfl, hfirst, -⟩ := Node.eq_cons_of_skeletonList h
      obtain rfl := Node.eq_error_of_skeleton hfirst
      exact h
  | view => exact h
  | echo => exact h
  | version => exact h
  | custom c => simp [Macro.isCustom] at hm

theorem touch_of_unknown {c : Call} (hm : env.macros.get? c.name = none) (content : List Node) :
    touch env c content = content := by
  simp only [touch, hm]

theorem touch_of_installed {c : Call} {m : Macro} (hm : env.macros.get? c.name = some m)
    (content : List Node) : touch env c content = m.touch env content := by
  simp only [touch, hm]

theorem touch_error {c : Call} (hb : env.macros.IsBuiltin) (e : RenderError) :
    touch env c [.error e] = [.error e] := by
  cases hm : env.macros.get? c.name with
  | none => exact touch_of_unknown hm _
  | some m =>
    rw [touch_of_installed hm]
    cases m with
    | custom c => simpa [Macro.isCustom] using hb _ _ hm
    | _ => rfl

theorem calls_of_isLiteral {scene : Scene} {c : Call} {m : Macro} {b : Binding Call}
    (hb : scene.Bound c m b) (hc : c.isLiteral) : b.calls = [] := by
  rw [Call.isLiteral, List.isEmpty_iff] at hc
  refine List.eq_nil_iff_forall_not_mem.2 fun d hd => ?_
  simpa [hc] using Macro.mem_nested_of_bindCall hb.binds hd

theorem exists_expands (hb : env.macros.IsBuiltin) (hc : env.IsCounted) (context : Context)
    (c : Call) : ∃ reads content, env.scene.Expands context c reads content := by
  obtain ⟨r, hr⟩ := (total_expand hb hc context c).yields
  exact ⟨_, _, expands_of_expandWithin hb _ context c r hr⟩

theorem eq_of_expandNode_call {expand : Context → Call → Expand env Result} {context : Context}
    {id : Option NodeId} {c : Call} {trace : Option Trace} {content : List Node} {fresh : Node}
    (h : Yields (expandNode expand context (.call id c trace content)) fresh) :
    ∃ n r, Yields (idOrFresh id : Expand env NodeId) n ∧ Yields (expand context c) r ∧
      fresh = .call (some n) c (some ⟨r.reads, context⟩) r.content := by
  obtain ⟨n, hn, h⟩ := h.bind
  obtain ⟨_, _, h⟩ := h.bind
  obtain ⟨r, hr, h⟩ := h.bind
  obtain rfl := yields_pure.1 h
  exact ⟨n, r, hn, hr, rfl⟩

theorem eq_of_reexpand {id : Option NodeId} {c : Call} {trace : Option Trace}
    {content : List Node} {context : Context} {out : Node × RefreshLog}
    (h : Yields (reexpand (.call id c trace content) context : Expand env _) out) :
    ∃ n r, Yields (idOrFresh id : Expand env NodeId) n ∧
      Yields (expand context c : Expand env Result) r ∧
      out = (.call (some n) c (some ⟨r.reads, context⟩) r.content,
        { reexecuted := 1
          events := content.map SinkEvent.unmount ++
            r.content.map (SinkEvent.mount (some n)) }) := by
  obtain ⟨fresh, hfresh, h⟩ := h.bind
  obtain ⟨_, _, h⟩ := h.bind
  obtain rfl := yields_pure.1 h
  obtain ⟨n, r, hn, hr, rfl⟩ := eq_of_expandNode_call hfresh
  exact ⟨n, r, hn, hr, rfl⟩

theorem yields_reexpand (hb : env.macros.IsBuiltin) {id : Option NodeId} {c : Call}
    {trace : Option Trace} {content : List Node} {context : Context} {out : Node × RefreshLog}
    (h : Yields (reexpand (.call id c trace content) context : Expand env _) out) :
    ∃ id' reads fresh, out.1 = .call id' c (some ⟨reads, context⟩) fresh ∧
      env.scene.Expands context c reads (Node.outlineList fresh) := by
  obtain ⟨n, r, -, hr, rfl⟩ := eq_of_reexpand h
  exact ⟨some n, r.reads, r.content, rfl, expands_of_expandWithin hb _ context c r hr⟩

/-- What is said of nodes and of the programs that refresh them carries over from the parts of a
node to the node, be it expanded anew or passed by. -/
structure CompositionalRefresh (env : Env) (batch : Batch)
    (P : Node → Expand env (Node × RefreshLog) → Prop)
    (Q : List Node → Expand env (List Node × RefreshLog) → Prop) : Prop where
  text : ∀ s, P (.text s) (pure (.text s, {}))
  error : ∀ e, P (.error e) (pure (.error e, {}))
  element : ∀ id tag attributes children, Q children (refreshList batch children) →
    P (.element id tag attributes children) (do
      let (below, log) ← refreshList batch children
      return (.element id tag attributes below, log))
  stale : ∀ id c trace content, isStale batch trace →
    P (.call id c trace content) (reexpand (.call id c trace content) (placeOf trace))
  passed : ∀ id c trace content, isStale batch trace = false →
    Q content (refreshList batch content) →
    P (.call id c trace content) (do
      countForward
      let (below, log) ← refreshList batch content
      return (.call id c trace (touch env c below),
        { forwarded := 1, events := touchEvents env batch c content } ++ log))
  nil : Q [] (pure ([], {}))
  cons : ∀ node nodes, P node (refreshNode batch node) → Q nodes (refreshList batch nodes) →
    Q (node :: nodes) (do
      let (first, log) ← refreshNode batch node
      let (rest, more) ← refreshList batch nodes
      return (first :: rest, log ++ more))

section Walks

variable {batch : Batch} {P : Node → Expand env (Node × RefreshLog) → Prop}
  {Q : List Node → Expand env (List Node × RefreshLog) → Prop}

mutual

theorem CompositionalRefresh.refreshNode (h : CompositionalRefresh env batch P Q) (node : Node) :
    P node (refreshNode batch node) := by
  match node with
  | .text s => exact h.text s
  | .error e => exact h.error e
  | .element id tag attributes children =>
    exact h.element id tag attributes children (h.refreshList children)
  | .call id c trace content =>
    rw [Expand.refreshNode]
    split
    · next hs => exact h.stale id c trace content hs
    · next hs => exact h.passed id c trace content (by simpa using hs) (h.refreshList content)

theorem CompositionalRefresh.refreshList (h : CompositionalRefresh env batch P Q)
    (nodes : List Node) : Q nodes (refreshList batch nodes) := by
  match nodes with
  | [] => exact h.nil
  | node :: nodes => exact h.cons node nodes (h.refreshNode node) (h.refreshList nodes)

end

/-- What is said of nodes and of what a refresh makes of them carries over from the parts of a node
to the node. -/
structure RelatingRefresh (env : Env) (batch : Batch) (R : Node → Node × RefreshLog → Prop)
    (S : List Node → List Node × RefreshLog → Prop) : Prop where
  text : ∀ s, R (.text s) (.text s, {})
  error : ∀ e, R (.error e) (.error e, {})
  element : ∀ {id tag attributes children below}, S children below →
    R (.element id tag attributes children) (.element id tag attributes below.1, below.2)
  stale : ∀ {id c trace content out}, isStale batch trace →
    Yields (reexpand (.call id c trace content) (placeOf trace) : Expand env _) out →
    R (.call id c trace content) out
  passed : ∀ {id c trace content below}, isStale batch trace = false →
    Yields (refreshList batch content : Expand env _) below → S content below →
    R (.call id c trace content) (.call id c trace (touch env c below.1),
      { forwarded := 1, events := touchEvents env batch c content } ++ below.2)
  nil : S [] ([], {})
  cons : ∀ {node nodes first rest}, R node first → S nodes rest →
    S (node :: nodes) (first.1 :: rest.1, first.2 ++ rest.2)

variable {R : Node → Node × RefreshLog → Prop} {S : List Node → List Node × RefreshLog → Prop}

theorem RelatingRefresh.compositional (h : RelatingRefresh env batch R S) :
    CompositionalRefresh env batch (fun node x => ∀ out, Yields x out → R node out)
      fun nodes xs => ∀ out, Yields xs out → S nodes out where
  text s out hy := yields_pure.1 hy ▸ h.text s
  error e out hy := yields_pure.1 hy ▸ h.error e
  element id tag attributes children hchildren out hy := by
    obtain ⟨below, hbelow, hy⟩ := hy.bind
    obtain rfl := yields_pure.1 hy
    exact h.element (hchildren below hbelow)
  stale id c trace content hs out hy := h.stale hs hy
  passed id c trace content hs hcontent out hy := by
    obtain ⟨_, _, hy⟩ := hy.bind
    obtain ⟨below, hbelow, hy⟩ := hy.bind
    obtain rfl := yields_pure.1 hy
    exact h.passed hs hbelow (hcontent below hbelow)
  nil out hy := yields_pure.1 hy ▸ h.nil
  cons node nodes hnode hnodes out hy := by
    obtain ⟨first, hfirst, hy⟩ := hy.bind
    obtain ⟨rest, hrest, hy⟩ := hy.bind
    obtain rfl := yields_pure.1 hy
    exact h.cons (hnode first hfirst) (hnodes rest hrest)

theorem RelatingRefresh.of_refreshNode (h : RelatingRefresh env batch R S) {node : Node}
    {out : Node × RefreshLog} (hy : Yields (refreshNode batch node : Expand env _) out) :
    R node out :=
  h.compositional.refreshNode node out hy

end Walks

theorem compositionalRefresh_total (hb : env.macros.IsBuiltin) (hc : env.IsCounted)
    (batch : Batch) :
    CompositionalRefresh env batch (fun _ x => Total x) fun _ xs => Total xs where
  text _ := total_pure _
  error _ := total_pure _
  element _ _ _ _ hchildren := hchildren.bind fun _ => total_pure _
  stale id c trace content _ := by
    refine (total_expandNode _ fun c _ => total_expand hb hc _ c).bind fun _ => ?_
    exact (total_modifyGet _).bind fun _ => total_pure _
  passed _ _ _ _ _ hcontent :=
    (total_modifyGet _).bind fun _ => hcontent.bind fun _ => total_pure _
  nil := total_pure _
  cons _ _ hnode hnodes := hnode.bind fun _ => hnodes.bind fun _ => total_pure _

theorem total_refreshNode (hb : env.macros.IsBuiltin) (hc : env.IsCounted) (batch : Batch)
    (node : Node) : Total (refreshNode batch node : Expand env (Node × RefreshLog)) :=
  (compositionalRefresh_total hb hc batch).refreshNode node

theorem yields_refreshNode_call {batch : Batch} {id : Option NodeId} {c : Call}
    {trace : Option Trace} {content : List Node} {out : Node × RefreshLog}
    (h : Yields (refreshNode batch (.call id c trace content) : Expand env _) out) :
    (isStale batch trace ∧
      Yields (reexpand (.call id c trace content) (placeOf trace) : Expand env _) out) ∨
    isStale batch trace = false ∧ ∃ below : List Node × RefreshLog,
      Yields (refreshList batch content : Expand env _) below ∧
        out = (.call id c trace (touch env c below.1),
          { forwarded := 1, events := touchEvents env batch c content } ++ below.2) := by
  rw [refreshNode] at h
  split at h
  · next hs => exact .inl ⟨hs, h⟩
  · next hs =>
    obtain ⟨_, _, h⟩ := h.bind
    obtain ⟨below, hbelow, h⟩ := h.bind
    obtain rfl := yields_pure.1 h
    exact .inr ⟨by simpa using hs, below, hbelow, rfl⟩

theorem refreshList_error {batch : Batch} {e : RenderError} {below : List Node × RefreshLog}
    (h : Yields (refreshList batch [.error e] : Expand env _) below) : below.1 = [.error e] := by
  obtain ⟨first, hfirst, h⟩ := h.bind
  obtain ⟨rest, hrest, h⟩ := h.bind
  obtain rfl := yields_pure.1 hfirst
  obtain rfl := yields_pure.1 hrest
  obtain rfl := yields_pure.1 h
  rfl

theorem touch_refreshList_error (hb : env.macros.IsBuiltin) {batch : Batch} {c : Call}
    {e : RenderError} {content : List Node}
    (hl : skeletonList content = skeletonList [.error e]) {below : List Node × RefreshLog}
    (h : Yields (refreshList batch content : Expand env _) below) :
    touch env c below.1 = [.error e] := by
  obtain ⟨first, rest, rfl, hfirst, hrest⟩ := Node.eq_cons_of_skeletonList hl
  obtain rfl := Node.eq_error_of_skeleton hfirst
  obtain rfl := Node.eq_nil_of_skeletonList hrest
  rw [refreshList_error h, touch_error hb]

theorem call?_of_refreshNode (hb : env.macros.IsBuiltin) {batch : Batch} {id : Option NodeId}
    {c : Call} {trace : Option Trace} {content : List Node} {out : Node × RefreshLog}
    (h : Yields (refreshNode batch (.call id c trace content) : Expand env _) out) :
    ∃ id' trace' content', out.1 = .call id' c trace' content' := by
  rcases yields_refreshNode_call h with ⟨-, h⟩ | ⟨-, below, -, rfl⟩
  · obtain ⟨id', reads, fresh, hout, -⟩ := yields_reexpand hb h
    exact ⟨_, _, _, hout⟩
  · exact ⟨_, _, _, rfl⟩

section Upkeep

variable {batch : Batch} {scene₀ : Scene}

mutual

/-- What a call stands for, as far as it has read nothing that changed. -/
theorem expands_of_refreshList (hb : env.macros.IsBuiltin) (hcount : env.IsCounted)
    (hch : scene₀.ChangesIn batch env.scene) {context : Context} {c : Call} {reads : Reads}
    {shown : List Node} (hs : scene₀.Expands context c reads shown) (hc : c.isLiteral)
    (hr : reads.hasChanged batch = false) {content : List Node}
    (hl : skeletonList content = skeletonList shown) {below : List Node × RefreshLog}
    (h : Yields (refreshList batch content : Expand env _) below) :
    ∃ shown', env.scene.Expands context c reads shown' ∧
      skeletonList (touch env c below.1) = skeletonList shown' := by
  match hs with
  | .unknown hm =>
    rw [touch_refreshList_error hb hl h]
    exact ⟨_, .unknown (hch.macros ▸ hm), rfl⟩
  | .unbound hm he =>
    rw [touch_refreshList_error hb hl h]
    exact ⟨_, .unbound (hch.macros ▸ hm) he, rfl⟩
  | @Scene.Expands.bound _ _ c m b _ texts _ hbound ht hplan =>
    have hcalls := calls_of_isLiteral hbound hc
    -- The macro has read nothing that changed, so it makes the same plan in both scenes.
    have hown : (m.ownReads b context).hasChanged batch = false :=
      Reads.hasChanged_eq_false_of_le (Reads.le_merge_left _ _) hr
    have hp := Scene.plan_congr (hch.agreesOn hown) c.name texts
    have hbound' := hbound.congr hch.macros
    obtain ⟨shown', hs', hl'⟩ := showsList_of_refreshList hb hcount hch hplan hl h
    rw [hp] at hs'
    refine ⟨shown', .bound hbound' ?_ hs', ?_⟩
    · rw [hcalls] at ht ⊢
      cases ht
      exact .nil
    · rw [touch_of_installed hbound'.installed]
      exact skeletonList_touch (hb _ _ hbound'.installed) hs' hl'
termination_by structural hs

theorem shows_of_refreshNode (hb : env.macros.IsBuiltin) (hcount : env.IsCounted)
    (hch : scene₀.ChangesIn batch env.scene) {context : Context} {node shown : Node}
    (hs : scene₀.Shows context node shown) {live : Node} (hl : live.skeleton = shown.skeleton)
    {out : Node × RefreshLog} (h : Yields (refreshNode batch live : Expand env _) out) :
    ∃ shown', env.scene.Shows context node shown' ∧ out.1.skeleton = shown'.skeleton := by
  match hs with
  | .text =>
    obtain rfl := Node.eq_text_of_skeleton hl
    obtain rfl := yields_pure.1 h
    exact ⟨_, .text, rfl⟩
  | .error =>
    obtain rfl := Node.eq_error_of_skeleton hl
    obtain rfl := yields_pure.1 h
    exact ⟨_, .error, rfl⟩
  | .element hchildren =>
    obtain ⟨id', attributes', children', rfl, ha, hc⟩ := Node.eq_element_of_skeleton hl
    obtain ⟨below, hbelow, h⟩ := h.bind
    obtain rfl := yields_pure.1 h
    obtain ⟨shown', hs', hl'⟩ := showsList_of_refreshList hb hcount hch hchildren hc hbelow
    refine ⟨_, .element hs', ?_⟩
    simp only [Node.skeleton, ha, hl', Attributes.unmarked_unmarked]
  | @Scene.Shows.call _ _ _ c _ _ _ _ hcall =>
    obtain ⟨id', trace', content', rfl, htrace⟩ := Node.eq_call_of_skeleton hl
    by_cases hc : c.isLiteral
    · obtain ⟨rfl, hcontent⟩ := htrace hc
      rcases yields_refreshNode_call h with ⟨-, h⟩ | ⟨hstale, below, hbelow, rfl⟩
      · obtain ⟨_, reads', fresh, hout, hfresh⟩ := yields_reexpand hb h
        refine ⟨_, .call hfresh, ?_⟩
        rw [hout]
        simp only [Node.skeleton, if_pos hc, placeOf, Node.skeletonList_outlineList]
      · obtain ⟨shown', hs', hl'⟩ :=
          expands_of_refreshList hb hcount hch hcall hc hstale hcontent hbelow
        refine ⟨_, .call hs', ?_⟩
        simp only [Node.skeleton, if_pos hc, hl']
    · -- The skeleton leaves out what this call stands for, whatever the refresh has done.
      obtain ⟨reads', content, hs'⟩ := exists_expands hb hcount context c
      obtain ⟨_, _, _, hout⟩ := call?_of_refreshNode hb h
      refine ⟨_, .call hs', ?_⟩
      rw [hout]
      simp only [Node.skeleton, if_neg hc]
termination_by structural hs

theorem showsList_of_refreshList (hb : env.macros.IsBuiltin) (hcount : env.IsCounted)
    (hch : scene₀.ChangesIn batch env.scene) {context : Context} {nodes shown : List Node}
    (hs : scene₀.ShowsList context nodes shown) {live : List Node}
    (hl : skeletonList live = skeletonList shown) {out : List Node × RefreshLog}
    (h : Yields (refreshList batch live : Expand env _) out) :
    ∃ shown', env.scene.ShowsList context nodes shown' ∧
      skeletonList out.1 = skeletonList shown' := by
  match hs with
  | .nil =>
    obtain rfl := Node.eq_nil_of_skeletonList hl
    obtain rfl := yields_pure.1 h
    exact ⟨_, .nil, rfl⟩
  | .cons hfirst hrest =>
    obtain ⟨first, rest, rfl, hlfirst, hlrest⟩ := Node.eq_cons_of_skeletonList hl
    obtain ⟨_, hyfirst, h⟩ := h.bind
    obtain ⟨_, hyrest, h⟩ := h.bind
    obtain rfl := yields_pure.1 h
    obtain ⟨shown', hs', hl'⟩ := shows_of_refreshNode hb hcount hch hfirst hlfirst hyfirst
    obtain ⟨rest', hsrest', hlrest'⟩ :=
      showsList_of_refreshList hb hcount hch hrest hlrest hyrest
    exact ⟨_, .cons hs' hsrest', by simp only [skeletonList, hl', hlrest']⟩
termination_by structural hs

end

end Upkeep

end Expand

end Notebook
