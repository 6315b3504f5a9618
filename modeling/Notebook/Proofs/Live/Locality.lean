import Notebook.Proofs.Live.Growth

/-! # A refresh works where it has to

A refresh expands anew exactly the outermost calls that have read something in the batch. What
lies outside of them stays as it is, up to the marks of frames whose targets have come or gone.
The report and the events tell of nothing else.
-/

namespace Notebook

namespace Attributes

variable {attributes : Attributes} {name : String} {on : Bool}

theorem toggle_of_not_toggles (h : attributes.toggles name on = false) :
    attributes.toggle name on = attributes := by
  cases on with
  | true =>
    have hc : attributes.hasClass name = true := by simpa [toggles] using h
    simp [toggle, hc]
  | false =>
    have hc : name ∉ attributes.classes := by simpa [toggles, hasClass] using h
    have hf : attributes.classes.filter (· ≠ name) = attributes.classes :=
      List.filter_eq_self.2 fun other ho => by
        simpa using fun heq : other = name => hc (heq ▸ ho)
    simp only [toggle, hf, Bool.false_eq_true, if_false]

theorem classes_toggle_ne (h : attributes.toggles name on) :
    (attributes.toggle name on).classes ≠ attributes.classes := by
  cases on with
  | true =>
    have hc : attributes.hasClass name = false := by simpa [toggles] using h
    simp [toggle, hc, withClass]
  | false =>
    have hc : name ∈ attributes.classes := by simpa [toggles, hasClass] using h
    intro heq
    have hmem : name ∈ attributes.classes.filter (· ≠ name) := by
      rw [show attributes.classes.filter (· ≠ name) = attributes.classes from heq]
      exact hc
    simp at hmem

end Attributes

namespace Node

def isStale (batch : Batch) : Node → Bool
  | call _ _ (some t) _ => t.reads.hasChanged batch
  | _ => false

mutual

/-- The calls of a tree that do not stand below stale ones, parents before children. -/
def met (batch : Batch) : Node → List Node
  | text _ => []
  | element _ _ _ children => metList batch children
  | call id c trace content =>
    call id c trace content ::
      if isStale batch (call id c trace content) then [] else metList batch content
  | error _ => []

def metList (batch : Batch) : List Node → List Node
  | [] => []
  | node :: nodes => met batch node ++ metList batch nodes

end

mutual

theorem exists_stale_met (batch : Batch) (node : Node) :
    (∃ below ∈ node.met batch, below.isStale batch) ↔ ∃ below ∈ node.walk, below.isStale batch := by
  match node with
  | text s => simp [met, walk, isStale]
  | element id tag attributes children =>
    have hself : (element id tag attributes children).isStale batch = false := rfl
    simp [met, walk, hself, exists_stale_metList batch children]
  | call id c trace content =>
    simp only [met, walk, List.exists_mem_cons_iff]
    by_cases hs : (call id c trace content).isStale batch
    · simp [hs]
    · simp [hs, exists_stale_metList batch content]
  | error e => simp [met, walk, isStale]

theorem exists_stale_metList (batch : Batch) (nodes : List Node) :
    (∃ below ∈ metList batch nodes, below.isStale batch) ↔
      ∃ below ∈ walkList nodes, below.isStale batch := by
  match nodes with
  | [] => rfl
  | node :: nodes =>
    simp only [metList, walkList, List.mem_append, or_and_right, exists_or,
      exists_stale_met batch node, exists_stale_metList batch nodes]

end

end Node

namespace Expand

open Node (outlineList)

/-- The content of a call that is passed by, when all below it is up to date: the frame of a
transclusion is marked as its target is missing by now, and nothing else happens. -/
def Remarked (env : Env) (c : Call) (below content : List Node) : Prop :=
  match env.macros.get? c.name, below with
  | some .transclude, .element id tag attributes children :: rest =>
    content = .element id tag
      (attributes.toggle env.page.missingClass (Transclude.isMissing env attributes)) children ::
        rest
  | _, _ => content = below

mutual

/-- The one tree becomes the other when the outermost stale calls are expanded anew where they
stand. The pairs are the calls that do not stand below stale ones, before and after. -/
inductive Renewed (env : Env) (batch : Batch) : Node → Node → List (Node × Node) → Prop
  | text {s : String} : Renewed env batch (.text s) (.text s) []
  | error {e : RenderError} : Renewed env batch (.error e) (.error e) []
  | element {id : NodeId} {tag : String} {attributes : Attributes} {children children' : List Node}
      {pairs : List (Node × Node)} (h : RenewedList env batch children children' pairs) :
      Renewed env batch (.element (some id) tag attributes children)
        (.element (some id) tag attributes children') pairs
  | stale {id : NodeId} {c : Call} {t : Trace} {content content' : List Node} {reads : Reads}
      (hs : t.reads.hasChanged batch)
      (hx : env.scene.Expands t.context c reads (outlineList content'))
      (hl : ∀ node ∈ Node.walkList content', node.IsLive) :
      Renewed env batch (.call (some id) c (some t) content)
        (.call (some id) c (some ⟨reads, t.context⟩) content')
        [(.call (some id) c (some t) content,
          .call (some id) c (some ⟨reads, t.context⟩) content')]
  | passed {id : NodeId} {c : Call} {t : Trace} {content below content' : List Node}
      {pairs : List (Node × Node)} (hs : t.reads.hasChanged batch = false)
      (h : RenewedList env batch content below pairs) (hm : Remarked env c below content') :
      Renewed env batch (.call (some id) c (some t) content) (.call (some id) c (some t) content')
        ((.call (some id) c (some t) content, .call (some id) c (some t) content') :: pairs)

inductive RenewedList (env : Env) (batch : Batch) :
    List Node → List Node → List (Node × Node) → Prop
  | nil : RenewedList env batch [] [] []
  | cons {node node' : Node} {nodes nodes' : List Node} {pairs pairs' : List (Node × Node)}
      (h : Renewed env batch node node' pairs)
      (hs : RenewedList env batch nodes nodes' pairs') :
      RenewedList env batch (node :: nodes) (node' :: nodes') (pairs ++ pairs')

end

/-- What an output hears of a call, given before and after: if it was stale, that all its children
are gone and the new ones are there, and otherwise that the classes of its frame have changed, if
they have. -/
def eventsOf (batch : Batch) (pair : Node × Node) : List SinkEvent :=
  if pair.1.isStale batch then
    pair.1.children.map SinkEvent.unmount ++
      pair.2.children.map (SinkEvent.mount pair.2.id?)
  else
    match pair.1.children, pair.2.children with
    | .element id tag attributes children :: _, .element _ _ attributes' _ :: _ =>
      if attributes'.classes = attributes.classes then []
      else [.refresh (.element id tag attributes' children) batch.titles]
    | _, _ => []

def logOf (batch : Batch) (pairs : List (Node × Node)) : RefreshLog where
  reexecuted := pairs.countP fun pair => pair.1.isStale batch
  forwarded := pairs.countP fun pair => !pair.1.isStale batch
  events := pairs.flatMap (eventsOf batch)

theorem logOf_append (batch : Batch) (pairs pairs' : List (Node × Node)) :
    logOf batch (pairs ++ pairs') = logOf batch pairs ++ logOf batch pairs' := by
  simp only [logOf, List.countP_append, List.flatMap_append]
  rfl

variable {env : Env} {batch : Batch}

theorem plainTextList_of_remarked {c : Call} {below content : List Node}
    (h : Remarked env c below content) :
    Node.plainTextList content = Node.plainTextList below := by
  unfold Remarked at h
  split at h
  · rw [h]
    rfl
  · rw [h]

mutual

theorem Renewed.map_fst {node node' : Node} {pairs : List (Node × Node)}
    (h : Renewed env batch node node' pairs) : pairs.map Prod.fst = node.met batch := by
  match h with
  | .text => rfl
  | .error => rfl
  | .element hs => exact hs.map_fst
  | .stale hs hx hl => simp only [Node.met, Node.isStale, hs, if_true, List.map_cons, List.map_nil]
  | .passed hs h hm =>
    simp only [Node.met, Node.isStale, hs, Bool.false_eq_true, if_false, List.map_cons, h.map_fst]
termination_by structural h

theorem RenewedList.map_fst {nodes nodes' : List Node} {pairs : List (Node × Node)}
    (h : RenewedList env batch nodes nodes' pairs) :
    pairs.map Prod.fst = Node.metList batch nodes := by
  match h with
  | .nil => rfl
  | .cons h hs => simp only [Node.metList, List.map_append, h.map_fst, hs.map_fst]
termination_by structural h

end

mutual

theorem Renewed.plainText_eq {node node' : Node} {pairs : List (Node × Node)}
    (h : Renewed env batch node node' pairs) (hp : ∀ pair ∈ pairs, ¬ pair.1.isStale batch) :
    node'.plainText = node.plainText := by
  match h with
  | .text => rfl
  | .error => rfl
  | .element hs => simp only [Node.plainText, hs.plainText_eq hp]
  | .stale hs hx hl => exact absurd hs (hp _ List.mem_cons_self)
  | .passed hs h hm =>
    rw [List.forall_mem_cons] at hp
    simp only [Node.plainText, plainTextList_of_remarked hm, h.plainText_eq hp.2]
termination_by structural h

theorem RenewedList.plainText_eq {nodes nodes' : List Node} {pairs : List (Node × Node)}
    (h : RenewedList env batch nodes nodes' pairs)
    (hp : ∀ pair ∈ pairs, ¬ pair.1.isStale batch) :
    Node.plainTextList nodes' = Node.plainTextList nodes := by
  match h with
  | .nil => rfl
  | .cons h hs =>
    rw [List.forall_mem_append] at hp
    simp only [Node.plainTextList, h.plainText_eq hp.1, hs.plainText_eq hp.2]
termination_by structural h

end

theorem isLive_of_remarked {c : Call} {below content : List Node}
    (h : Remarked env c below content) (hl : ∀ node ∈ Node.walkList below, node.IsLive) :
    ∀ node ∈ Node.walkList content, node.IsLive := by
  unfold Remarked at h
  split at h
  · obtain ⟨⟨hid, -⟩, hrest⟩ := List.forall_mem_cons.1 hl
    rw [h]
    exact List.forall_mem_cons.2 ⟨⟨hid, trivial⟩, hrest⟩
  · exact h ▸ hl

mutual

theorem Renewed.isLive {node node' : Node} {pairs : List (Node × Node)}
    (h : Renewed env batch node node' pairs) : ∀ below ∈ node'.walk, below.IsLive := by
  match h with
  | .text => exact List.forall_mem_singleton.2 (Node.isLive_text _)
  | .error => exact List.forall_mem_singleton.2 (Node.isLive_error _)
  | .element hs => exact List.forall_mem_cons.2 ⟨⟨rfl, trivial⟩, hs.isLive⟩
  | .stale hs hx hl => exact List.forall_mem_cons.2 ⟨⟨rfl, rfl⟩, hl⟩
  | .passed hs h hm =>
    exact List.forall_mem_cons.2 ⟨⟨rfl, rfl⟩, isLive_of_remarked hm h.isLive⟩
termination_by structural h

theorem RenewedList.isLive {nodes nodes' : List Node} {pairs : List (Node × Node)}
    (h : RenewedList env batch nodes nodes' pairs) :
    ∀ below ∈ Node.walkList nodes', below.IsLive := by
  match h with
  | .nil => exact List.forall_mem_nil _
  | .cons h hs => exact List.forall_mem_append.2 ⟨h.isLive, hs.isLive⟩
termination_by structural h

end

theorem remarked_touch (hb : env.macros.IsBuiltin) (c : Call) (below : List Node) :
    Remarked env c below (touch env c below) := by
  unfold Remarked
  cases hm : env.macros.get? c.name with
  | none => exact touch_of_unknown hm below
  | some m =>
    rw [touch_of_installed hm]
    cases m with
    | transclude =>
      cases below with
      | nil => rfl
      | cons node rest => cases node <;> rfl
    | custom c => simpa [Macro.isCustom] using hb _ _ hm
    | _ => rfl

theorem touchEvents_transclude {c : Call} (hm : env.macros.get? c.name = some .transclude)
    (id : Option NodeId) (tag : String) (attributes : Attributes) (children rest : List Node) :
    touchEvents env batch c (.element id tag attributes children :: rest) =
      if attributes.toggles env.page.missingClass (Transclude.isMissing env attributes) then
        [.refresh (.element id tag (attributes.toggle env.page.missingClass
          (Transclude.isMissing env attributes)) children) batch.titles]
      else [] := by
  simp only [touchEvents, hm, Macro.touches, Transclude.remarks]
  rfl

theorem touchEvents_of_not_transclude (hb : env.macros.IsBuiltin) {c : Call}
    (hm : env.macros.get? c.name ≠ some .transclude) (batch : Batch) (content : List Node) :
    touchEvents env batch c content = [] ∧ touch env c content = content := by
  unfold touchEvents touch
  cases hc : env.macros.get? c.name with
  | none => exact ⟨rfl, rfl⟩
  | some m =>
    cases m with
    | transclude => exact absurd hc hm
    | custom c => simpa [Macro.isCustom] using hb _ _ hc
    | _ => exact ⟨rfl, rfl⟩

/-- The event for a frame comes before what is below it is refreshed, and it comes exactly if the
classes of the frame are others afterwards. -/
theorem touchEvents_eq (hb : env.macros.IsBuiltin) {id : NodeId} {c : Call} {t : Trace}
    {content below : List Node} {pairs : List (Node × Node)}
    (hs : t.reads.hasChanged batch = false) (h : RenewedList env batch content below pairs) :
    touchEvents env batch c content =
      eventsOf batch (.call (some id) c (some t) content,
        .call (some id) c (some t) (touch env c below)) := by
  simp only [eventsOf, Node.isStale, hs, Bool.false_eq_true, if_false, Node.children]
  by_cases hm : env.macros.get? c.name = some .transclude
  · rw [touch_of_installed hm]
    cases h with
    | nil => simp only [touchEvents, hm, Macro.touches, Transclude.remarks]; rfl
    | cons h hs =>
      cases h with
      | element h =>
        rw [touchEvents_transclude hm]
        simp only [Macro.touch, Transclude.remark]
        split
        · next ht => exact (if_neg (Attributes.classes_toggle_ne ht)).symm
        · next ht =>
          rw [Bool.not_eq_true] at ht
          rw [Attributes.toggle_of_not_toggles ht]
          exact (if_pos rfl).symm
      | _ => simp only [touchEvents, hm, Macro.touches, Transclude.remarks]; rfl
  · rw [(touchEvents_of_not_transclude hb hm batch content).1,
      (touchEvents_of_not_transclude hb hm batch below).2]
    cases h with
    | nil => rfl
    | cons h hs =>
      cases h with
      | element h => exact (if_pos rfl).symm
      | _ => rfl

theorem relatingRefresh_renewed (hb : env.macros.IsBuiltin) :
    RelatingRefresh env batch
      (fun node out => (∀ below ∈ node.walk, below.IsLive) →
        ∃ pairs, Renewed env batch node out.1 pairs ∧ out.2 = logOf batch pairs)
      fun nodes out => (∀ below ∈ Node.walkList nodes, below.IsLive) →
        ∃ pairs, RenewedList env batch nodes out.1 pairs ∧ out.2 = logOf batch pairs where
  text _ _ := ⟨[], .text, rfl⟩
  error _ _ := ⟨[], .error, rfl⟩
  element hchildren hl := by
    obtain ⟨⟨hid, -⟩, hbelow⟩ := List.forall_mem_cons.1 hl
    obtain ⟨id, rfl⟩ := Option.isSome_iff_exists.1 hid
    obtain ⟨pairs, hpairs, hlog⟩ := hchildren hbelow
    exact ⟨pairs, .element hpairs, hlog⟩
  stale hs h hl := by
    obtain ⟨⟨hid, htrace⟩, -⟩ := List.forall_mem_cons.1 hl
    obtain ⟨id, rfl⟩ := Option.isSome_iff_exists.1 hid
    obtain ⟨t, rfl⟩ := Option.isSome_iff_exists.1 htrace
    obtain ⟨n, r, hn, hr, rfl⟩ := eq_of_reexpand h
    obtain rfl := yields_pure.1 hn
    have hx := expands_of_expandWithin hb _ _ _ _ hr
    refine ⟨_, .stale hs hx (isLive_of_expand hb hr), ?_⟩
    simp only [logOf, List.countP_singleton, List.flatMap_singleton, eventsOf, Node.isStale,
      show t.reads.hasChanged batch = true from hs]
    rfl
  passed {id c trace content below} hs _ hcontent hl := by
    obtain ⟨⟨hid, htrace⟩, hinner⟩ := List.forall_mem_cons.1 hl
    obtain ⟨id, rfl⟩ := Option.isSome_iff_exists.1 hid
    obtain ⟨t, rfl⟩ := Option.isSome_iff_exists.1 htrace
    obtain ⟨pairs, hpairs, hlog⟩ := hcontent hinner
    refine ⟨_, .passed hs hpairs (remarked_touch hb c below.1), ?_⟩
    rw [hlog, touchEvents_eq hb hs hpairs, ← List.singleton_append, logOf_append]
    simp only [logOf, List.countP_singleton, List.flatMap_singleton, Node.isStale,
      show t.reads.hasChanged batch = false from hs]
    rfl
  nil _ := ⟨[], .nil, rfl⟩
  cons hnode hnodes hl := by
    obtain ⟨hfirst, hrest⟩ := List.forall_mem_append.1 hl
    obtain ⟨pairs, hpairs, hlog⟩ := hnode hfirst
    obtain ⟨pairs', hpairs', hlog'⟩ := hnodes hrest
    exact ⟨pairs ++ pairs', .cons hpairs hpairs', by rw [logOf_append, ← hlog, ← hlog']⟩

theorem renewed_of_refreshNode (hb : env.macros.IsBuiltin) (node : Node)
    (hl : ∀ below ∈ node.walk, below.IsLive) (out : Node × RefreshLog)
    (h : Yields (refreshNode batch node : Expand env _) out) :
    ∃ pairs, Renewed env batch node out.1 pairs ∧ out.2 = logOf batch pairs :=
  (relatingRefresh_renewed hb).of_refreshNode h hl

theorem countP_fst {p : Node → Bool} (pairs : List (Node × Node)) :
    pairs.countP (fun pair => p pair.1) = (pairs.map Prod.fst).countP p := by
  rw [List.countP_map]
  rfl

end Expand

namespace LiveTree

open Expand (Renewed eventsOf)

variable {κ : Type} {s : StoreId} {c : Call} {past : List Scene} {lib : Library κ}
  {tree : LiveTree} {batch : Batch}

/-- Everything in a live tree is live, and what is true of the outline of a rendered tree and kept
where the outermost stale calls are expanded anew holds of it. -/
theorem Grown.induct_renewed {P : List Scene → Node → Prop}
    (hrender : ∀ (env : Env) root, env.scene.Shows {} (.ofCall c) root.outline →
      P [env.scene] root)
    (hrefresh : ∀ (env : Env) past batch root root' pairs, P past root →
      Renewed env batch root root' pairs → P (env.scene :: past) root')
    (hidle : ∀ scene past root, P past root → P (scene :: past) root)
    (h : Grown s c past lib tree) :
    (∀ node ∈ tree.root.walk, node.IsLive) ∧ P past tree.root := by
  refine h.induct_root (P := fun past root => (∀ node ∈ root.walk, node.IsLive) ∧ P past root)
    (fun env root hb hy => ⟨?_, hrender env root (Expand.shows_of_expand hb hy)⟩)
    (fun env past batch root out hb ih hy => ?_)
    (fun scene past root ih => ⟨ih.1, hidle scene past root ih.2⟩)
  · obtain ⟨n, r, -, hr, rfl⟩ := Expand.eq_of_expandNode_call hy
    exact List.forall_mem_cons.2 ⟨⟨rfl, rfl⟩, Expand.isLive_of_expand hb hr⟩
  · obtain ⟨pairs, hpairs, -⟩ := Expand.renewed_of_refreshNode hb root ih.1 out hy
    exact ⟨hpairs.isLive, hrefresh env past batch root out.1 pairs ih.2 hpairs⟩

theorem Grown.isLive (h : Grown s c past lib tree) : ∀ node ∈ tree.root.walk, node.IsLive :=
  (h.induct_renewed (P := fun _ _ => True) (fun _ _ _ => trivial)
    (fun _ _ _ _ _ _ _ _ => trivial) (fun _ _ _ _ => trivial)).1

/-- A refresh with changes turns a live tree into the one in which the outermost stale calls are
expanded anew. It counts these and the other calls that it meets, tells of each what has changed,
and keeps the text of the tree if none is stale. -/
theorem Grown.refresh_locality (h : Grown s c past lib tree) (hb : batch.isEmpty = false) :
    ∃ store log tree' lib' pairs, lib.store? s = some store ∧
      tree.refresh lib batch = some (log, tree', lib') ∧
      Renewed (lib.env s store) batch tree.root tree'.root pairs ∧
      pairs.map Prod.fst = tree.root.met batch ∧
      log.reexecuted = (tree.root.met batch).countP (Node.isStale batch) ∧
      log.forwarded = (tree.root.met batch).countP (fun node => !node.isStale batch) ∧
      log.events = pairs.flatMap (eventsOf batch) ∧
      (log.reexecuted = 0 → tree'.text = tree.text) := by
  obtain ⟨rfl, hbuiltin⟩ := h.store
  obtain ⟨log, tree', lib', hr⟩ := exists_refresh hbuiltin batch
  obtain ⟨store, hs, -, hrun⟩ := refresh_eq_some hb hr
  obtain ⟨pairs, hpairs, rfl⟩ := Expand.renewed_of_refreshNode (hbuiltin.of_store? hs) tree.root
    h.isLive (tree'.root, log) (Library.runOn_eq_some hrun).1
  have hfst := hpairs.map_fst
  refine ⟨store, _, tree', lib', pairs, hs, hr, hpairs, hfst, ?_, ?_, rfl, fun hzero => ?_⟩
  · rw [← hfst, ← Expand.countP_fst]
    rfl
  · rw [← hfst, ← Expand.countP_fst]
    rfl
  · exact hpairs.plainText_eq (List.countP_eq_zero.1 hzero)

def page : Library Unit :=
  notebook [⟨0, { title := "Page", text := "<<tiddler X>>|<<tiddler Y>>" }⟩,
    ⟨1, { title := "X", text := "x1" }⟩, ⟨2, { title := "Y", text := "y1" }⟩]

theorem refresh_locality_page :
    ∃ tree lib, render page 0 (transclusion "Page") = some (tree, lib) ∧
      ∃ log tree' lib', tree.refresh (lib.edit 0 (.add { title := "Y", text := "y2" }))
          (Batch.record ∅ "Y" .modified) = some (log, tree', lib') ∧
        log.reexecuted = 1 ∧ log.forwarded = 2 := by
  have hb : page.IsBuiltin 0 := isBuiltin_notebook _
  obtain ⟨tree, lib, h⟩ := exists_render hb (transclusion "Page")
  obtain ⟨store₀, hs, hmacros⟩ := hb
  have hgrown := Grown.render hs hmacros h
  have hchanges : (Batch.record ∅ "Y" .modified).isEmpty = false := rfl
  have hedited := hgrown.store.2.edit 0 (.add { title := "Y", text := "y2" })
  obtain ⟨store, log, tree', lib', pairs, -, hr, -, -, hreexecuted, hforwarded, -⟩ :=
    (hgrown.change hedited).refresh_locality hchanges
  have hmet : (render page 0 (transclusion "Page")).map (fun r =>
      let met := r.1.root.met (Batch.record ∅ "Y" .modified)
      (met.countP (Node.isStale (Batch.record ∅ "Y" .modified)),
        met.countP fun node => !node.isStale (Batch.record ∅ "Y" .modified))) = some (1, 2) := by
    decide +kernel
  simp only [h, Option.map_some, Option.some.injEq, Prod.mk.injEq] at hmet
  exact ⟨tree, lib, h, log, tree', lib', hr, hreexecuted.trans hmet.1, hforwarded.trans hmet.2⟩

end LiveTree

end Notebook
