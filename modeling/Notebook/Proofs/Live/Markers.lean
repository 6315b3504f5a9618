import Notebook.Proofs.Arguments
import Notebook.Proofs.Expansion.Markers
import Notebook.Proofs.Live.Locality

/-! # Refreshed frames are marked as new ones

A refresh marks the frame of a call that it passes by, and an expansion marks the frame that it
makes. The one looks at the attributes of the frame and the other at the arguments of the call.
They agree unless the target is the empty title, or the two classes are the same.
-/

namespace Notebook

namespace Transclude

variable {env : Env} {page : PageSettings} {target template : Option Title} {marked : Bool}

theorem toggle_frameAttributes (hne : page.frameClass ≠ page.missingClass) (on : Bool) :
    (frameAttributes page target template marked).toggle page.missingClass on =
      frameAttributes page target template on := by
  cases marked <;> cases on <;>
    simp [frameAttributes, Attributes.toggle, Attributes.hasClass, Attributes.withClass,
      Attributes.withAttribute, hne, hne.symm]

theorem isMissing_frameAttributes (h : target = some "" → env.scene.note? "" = none) :
    isMissing env (frameAttributes page target template marked) =
      (target.bind env.scene.note?).isNone := by
  have hget : (frameAttributes page target template marked).get? targetAttribute =
      some (target.getD "") := by
    rw [Attributes.get?, other_frameAttributes, get?_blankAttributes]
  rw [isMissing, hget]
  cases target with
  | none => rfl
  | some title =>
    simp only [Option.getD_some, Option.bind_some]
    by_cases ht : title = ""
    · subst ht
      simp [h rfl]
    · simp [ht, Env.scene]

theorem MarkedBy.toggle {scene : Scene} {attributes : Attributes}
    (h : MarkedBy scene page target template attributes)
    (hne : page.frameClass ≠ page.missingClass) :
    MarkedBy env.scene page target template
      (attributes.toggle page.missingClass (isMissing env attributes)) := by
  obtain ⟨marked, rfl, -⟩ := h
  exact ⟨_, toggle_frameAttributes hne _, isMissing_frameAttributes⟩

end Transclude

namespace Expand

variable {env : Env} {batch : Batch} {scene : Scene}

theorem refreshList_frame {id : Option NodeId} {tag : String} {attributes : Attributes}
    {children : List Node} {below : List Node × RefreshLog}
    (h : Yields (refreshList batch [.element id tag attributes children] : Expand env _) below) :
    ∃ children', below.1 = [.element id tag attributes children'] := by
  obtain ⟨first, hfirst, h⟩ := h.bind
  obtain ⟨rest, hrest, h⟩ := h.bind
  obtain ⟨inner, -, hfirst⟩ := hfirst.bind
  obtain rfl := yields_pure.1 hfirst
  obtain rfl := yields_pure.1 hrest
  obtain rfl := yields_pure.1 h
  exact ⟨_, rfl⟩

theorem hasFrame_touch (hb : env.macros.IsBuiltin) {page : PageSettings} {c : Call}
    {below : List Node} (h : ∀ node ∈ Node.walkList below, node.HasFrame scene page) :
    ∀ node ∈ Node.walkList (touch env c below), node.HasFrame scene page := by
  have hm := remarked_touch hb c below
  unfold Remarked at hm
  split at hm
  · rw [hm]
    obtain ⟨-, hrest⟩ := List.forall_mem_cons.1 h
    exact List.forall_mem_cons.2 ⟨trivial, hrest⟩
  · rwa [hm]

/-- A call that is passed by keeps its frame, and its marks are those of the new scene. -/
theorem hasFrame_of_passed (hb : env.macros.IsBuiltin) (hch : scene.ChangesIn batch env.scene)
    (he : batch.isEmpty = false) {id : Option NodeId} {c : Call} {t : Trace} {content : List Node}
    (h : (Node.call id c (some t) content).HasFrame scene env.page)
    (hs : t.reads.hasChanged batch = false) {below : List Node × RefreshLog}
    (hy : Yields (refreshList batch content : Expand env _) below) :
    (Node.call id c (some t) (touch env c below.1)).HasFrame env.scene env.page := by
  obtain ⟨e, rfl⟩ | ⟨m, b, hbound, hframe⟩ := h
  · rw [refreshList_error hy, touch_error hb]
    exact .inl ⟨e, rfl⟩
  · have hbound' := hbound.congr hch.macros
    refine .inr ⟨m, b, hbound', ?_⟩
    rintro rfl
    obtain ⟨read, texts, htexts, hreads, ⟨nodes, hplan⟩, fid, attributes, children, rfl, hmarked⟩ :=
      hframe rfl
    -- What the call has read by itself has not changed, so no call among its parameters hides it.
    have hown : (Macro.ownReads .transclude b t.context).hasChanged batch = false :=
      Reads.hasChanged_eq_false_of_le hreads hs
    have hhides : hidesReads Macro.transclude.signature b = false := by
      rw [Bool.eq_false_iff]
      intro hhides
      rw [Macro.ownReads, if_pos hhides, Reads.hasChanged, he] at hown
      cases hown
    have hcalls := Transclude.calls_eq_nil hbound.binds hhides
    obtain ⟨children', hbelow⟩ := refreshList_frame hy
    refine ⟨read, texts, ?_, hreads, ⟨nodes, ?_⟩, fid, _, children', ?_, fun hne =>
      (hmarked hne).toggle hne⟩
    · rw [hcalls] at htexts ⊢
      cases htexts
      exact .nil
    · rw [← Scene.plan_congr (hch.agreesOn hown), hplan]
    · rw [hbelow, touch_of_installed hbound'.installed]
      rfl

theorem relatingRefresh_hasFrame (hb : env.macros.IsBuiltin)
    (hch : scene.ChangesIn batch env.scene) (he : batch.isEmpty = false) :
    RelatingRefresh env batch
      (fun node out => (∀ below ∈ node.walk, below.HasFrame scene env.page) →
        ∀ below ∈ out.1.walk, below.HasFrame env.scene env.page)
      fun nodes out => (∀ below ∈ Node.walkList nodes, below.HasFrame scene env.page) →
        ∀ below ∈ Node.walkList out.1, below.HasFrame env.scene env.page where
  text _ _ := List.forall_mem_singleton.2 trivial
  error _ _ := List.forall_mem_singleton.2 trivial
  element hchildren h :=
    List.forall_mem_cons.2 ⟨trivial, hchildren (List.forall_mem_cons.1 h).2⟩
  stale _ hy _ := by
    obtain ⟨n, r, -, hr, rfl⟩ := eq_of_reexpand hy
    obtain ⟨hnew, hinner⟩ := hasFrames_of_expandWithin hb _ _ _ _ hr
    exact List.forall_mem_cons.2 ⟨hnew _, hinner⟩
  passed {id c trace content below} hs hbelow hcontent h := by
    obtain ⟨hcall, hinner⟩ := List.forall_mem_cons.1 h
    refine List.forall_mem_cons.2 ⟨?_, hasFrame_touch hb (hcontent hinner)⟩
    cases trace with
    | none => trivial
    | some t => exact hasFrame_of_passed hb hch he hcall hs hbelow
  nil _ := List.forall_mem_nil _
  cons hnode hnodes h := by
    obtain ⟨hfirst, hrest⟩ := List.forall_mem_append.1 h
    exact List.forall_mem_append.2 ⟨hnode hfirst, hnodes hrest⟩

end Expand

namespace Expand

variable {env : Env} {context : Context} {c : Call} {b : Binding Call}

theorem content_of_expand (hb : env.macros.IsBuiltin) (hbound : env.scene.Bound c .transclude b)
    {read : Reads} {texts : List String} (htexts : env.scene.Texts context b.calls read texts)
    (hplan : ∃ nodes, (env.scene.plan c.name context (b.withTexts texts) .transclude).nodes =
      [Transclude.blankFrame (Transclude.target (b.withTexts texts) context)
        (Transclude.template (b.withTexts texts) context) nodes])
    {r : Result} (h : Yields (expand context c : Expand env Result) r) :
    ∃ id children, r.content = [.element id "div" (Transclude.frameAttributes env.page
      (Transclude.target (b.withTexts texts) context)
      (Transclude.template (b.withTexts texts) context)
      (isMissing env (Transclude.target (b.withTexts texts) context))) children] := by
  rw [expand_bound hbound] at h
  obtain ⟨read', hread, h⟩ := h.bind
  obtain ⟨outcome, hbody, h⟩ := h.bind
  obtain ⟨-, rfl⟩ := htexts.unique (texts_of_argumentTexts hb hread)
  obtain ⟨-, id, children, -, hcontent⟩ | ⟨message, herror, -⟩ :=
    framed_of_transclude hbody h
  · exact ⟨id, children, hcontent⟩
  · obtain ⟨nodes, hnodes⟩ := hplan
    rw [herror] at hnodes
    cases hnodes

end Expand

namespace LiveTree

open Expand (Yields expandNode refreshNode)

variable {κ : Type} {s : StoreId} {c : Call} {seen : Title → Option Note} {lib : Library κ}
  {tree : LiveTree} {batch : Batch}

/-- What a rendering makes true of the root of a tree and a refresh with all changes keeps holds of
each live tree, in the scene of its last refresh. -/
theorem Live.induct_root {P : Scene → PageSettings → Node → Prop}
    (hrender : ∀ (env : Env) root, env.macros.IsBuiltin →
      Yields (expandNode Expand.expand {} (.ofCall c) : Expand env Node) root →
      P env.scene env.page root)
    (hrefresh : ∀ (env : Env) scene batch root out, env.macros.IsBuiltin →
      scene.ChangesIn batch env.scene → batch.isEmpty = false → P scene env.page root →
      Yields (refreshNode batch root : Expand env _) out → P env.scene env.page out.1)
    (h : Live s c seen lib tree) :
    ∃ store, lib.store? s = some store ∧
      P (Library.sceneWith seen store) store.settings tree.root := by
  induction h with
  | @render lib lib' tree hb h =>
    obtain ⟨store, hs, -, hrun⟩ := render_eq_some h
    obtain ⟨cache, ht⟩ := Library.store?_runOn hs hrun
    have hget : lib.get s = lib'.get s := funext fun t => (Library.sameNotes_runOn hs hrun).get s t
    have hroot := hrender _ _ (hb.of_store? hs) (Library.runOn_eq_some hrun).1
    rw [Library.scene_env, hget] at hroot
    exact ⟨{ store with cache := cache }, by rw [ht, if_pos rfl], hroot⟩
  | change _ hr ih =>
    obtain ⟨store, hs, hroot⟩ := ih
    obtain ⟨store', hs', hsettings, hparsers, hmacros⟩ := Library.exists_store?_of_rules? hs hr
    refine ⟨store', hs', ?_⟩
    rwa [Library.sceneWith, Store.rules, hsettings, hparsers, hmacros]
  | @refresh seen lib lib' tree tree' batch log h hc hr ih =>
    obtain ⟨store, hs, hroot⟩ := ih
    by_cases he : batch.isEmpty
    · rw [LiveTree.refresh, if_pos he] at hr
      cases hr
      exact ⟨store, hs, get_eq_of_isEmpty hc he ▸ hroot⟩
    · have hup := h.upheld
      obtain ⟨store', hs', -, hrun⟩ := refresh_eq_some (by simpa using he) hr
      obtain ⟨_, root, nextId, tally⟩ := tree
      obtain rfl : s = _ := hup.store.symm
      obtain rfl := Option.some.inj (hs.symm.trans hs')
      obtain ⟨cache, ht⟩ := Library.store?_runOn hs hrun
      have hget : lib.get s = lib'.get s :=
        funext fun t => (Library.sameNotes_runOn hs hrun).get s t
      have hroot' := hrefresh _ _ _ _ (tree'.root, log) (hup.isBuiltin.of_store? hs)
        (sceneWith_changesIn hc) (by simpa using he) hroot (Library.runOn_eq_some hrun).1
      rw [Library.scene_env, hget] at hroot'
      exact ⟨{ store with cache := cache }, by rw [ht, if_pos rfl], hroot'⟩

theorem Live.hasFrame (h : Live s c seen lib tree) : ∃ store, lib.store? s = some store ∧
    ∀ node ∈ tree.root.walk, node.HasFrame (Library.sceneWith seen store) store.settings :=
  h.induct_root
    (P := fun scene page root => ∀ node ∈ root.walk, node.HasFrame scene page)
    (fun _ root hb hy => Expand.hasFrame_of_expandNode
      (Expand.hasFrames_of_expandWithin hb _) {} (.ofCall c) root hy)
    (fun _ _ _ _ _ hb hch he hroot hy =>
      (Expand.relatingRefresh_hasFrame hb hch he).of_refreshNode hy hroot)

/-- An expansion of the node in the context gives a call whose content is one frame with these
attributes, whatever id and tally it starts from. -/
def Frames (lib : Library κ) (s : StoreId) (store : Store κ) (context : Context) (node : Node)
    (attributes : Attributes) : Prop :=
  ∀ nextId tally, ∃ id d trace fid children nextId' tally' lib',
    lib.runOn s store nextId tally (expandNode Expand.expand context node) =
      some (.call id d trace [.element fid "div" attributes children], nextId', tally', lib')

/-- What the tree shows of transclusions is what expansions of them give by now: each is a frame,
and it has the attributes of the one in the tree. Nothing is said of the attributes where the two
classes are the same, or where the target is the empty title and there is a note for it. -/
def FramesCurrent (lib : Library κ) (s : StoreId) (store : Store κ) (tree : LiveTree) : Prop :=
  ∀ id d t fid tag attributes children rest,
    Node.call id d (some t) (.element fid tag attributes children :: rest) ∈ tree.root.walk →
    store.macros.get? d.name = some .transclude →
    ∃ target template fresh, fresh = Transclude.frameAttributes store.settings target template
        (target.bind (lib.get s)).isNone ∧
      Frames lib s store t.context
        (.call id d (some t) (.element fid tag attributes children :: rest)) fresh ∧
      (store.settings.frameClass ≠ store.settings.missingClass →
        (target = some "" → lib.get s "" = none) → attributes = fresh)

theorem Live.framesCurrent {store : Store κ} (h : Live s c (lib.get s) lib tree)
    (hs : lib.store? s = some store) : FramesCurrent lib s store tree := by
  have hb := h.upheld.isBuiltin.of_store? hs
  obtain ⟨store', hs', hframes⟩ := h.hasFrame
  obtain rfl := Option.some.inj (hs.symm.trans hs')
  intro id d t fid tag attributes children rest hmem hm
  obtain ⟨e, he⟩ | ⟨m, b, hbound, hframe⟩ := hframes _ hmem
  · cases he
  · obtain rfl : m = .transclude := Option.some.inj (hbound.installed.symm.trans hm)
    obtain ⟨read, texts, htexts, -, hplan, fid, attributes, children, heq, hmarked⟩ := hframe rfl
    cases heq
    refine ⟨Transclude.target (b.withTexts texts) t.context,
      Transclude.template (b.withTexts texts) t.context, _, rfl, fun nextId tally => ?_,
      fun hne htarget => ?_⟩
    · have ht : Expand.Total (expandNode Expand.expand t.context
          (.call id d (some t) [.element fid "div" attributes children]) :
            Expand (lib.env s store) Node) :=
        Expand.total_expandNode _ fun c _ =>
          Expand.total_expand hb (lib.env_isCounted s store) t.context c
      obtain ⟨node, nextId', tally', lib', hrun⟩ := Library.exists_runOn ht nextId tally
      obtain ⟨n, -, hy⟩ := (Library.runOn_eq_some hrun).1.bind
      obtain ⟨_, _, hy⟩ := hy.bind
      obtain ⟨r, hr, hy⟩ := hy.bind
      obtain rfl := Expand.yields_pure.1 hy
      rw [← Library.scene_env] at hbound htexts hplan
      obtain ⟨fid', children', hcontent⟩ := Expand.content_of_expand hb hbound htexts hplan hr
      rw [hcontent] at hrun
      exact ⟨_, _, _, fid', children', nextId', tally', lib', hrun⟩
    · obtain ⟨marked, rfl, hmark⟩ := hmarked hne
      rw [hmark htarget]
      rfl

/-- After a refresh with all changes, the frames of all transclusions are current, whether the
refresh has expanded them anew or passed them by. -/
theorem Live.framesCurrent_of_refresh (h : Live s c seen lib tree)
    (hc : ∀ t, lib.get s t ≠ seen t → batch.contains t) :
    ∃ log tree' lib' store, tree.refresh lib batch = some (log, tree', lib') ∧
      lib'.store? s = some store ∧ FramesCurrent lib' s store tree' := by
  have hup := h.upheld
  have hb := hup.isBuiltin
  rw [← hup.store] at hb
  obtain ⟨log, tree', lib', hr⟩ := exists_refresh hb batch
  have hlive := h.refresh hc hr
  obtain ⟨store, hs, -⟩ := hlive.hasFrame
  exact ⟨log, tree', lib', store, hr, hs, hlive.framesCurrent hs⟩

def frameClasses (tree : LiveTree) : List String :=
  match tree.root.children with
  | .element _ _ attributes _ :: _ => attributes.classes
  | _ => []

def templated : Library Unit :=
  notebook [⟨0, { title := "t", text := "x" }⟩]

def framedCall : Call :=
  ⟨"tiddler", [.named "target" "a", .named "template" "t"]⟩

/-- The call has read nothing but its template. So it is passed by when its target is added, and
its frame loses the mark. -/
theorem framesCurrent_added :
    ∃ tree lib log tree' lib' store, render templated 0 framedCall = some (tree, lib) ∧
      tree.refresh (lib.edit 0 addedNote) (Batch.record ∅ "a" .added) = some (log, tree', lib') ∧
      log.reexecuted = 0 ∧ tree.frameClasses = ["tw-tiddler-frame", "tw-tiddler-missing"] ∧
      tree'.frameClasses = ["tw-tiddler-frame"] ∧
      lib'.store? 0 = some store ∧ FramesCurrent lib' 0 store tree' := by
  have hb : templated.IsBuiltin 0 := isBuiltin_notebook _
  obtain ⟨tree, lib, h⟩ := exists_render hb framedCall
  have hlive : Live 0 framedCall (lib.get 0) lib tree := .render hb h
  obtain ⟨log, tree', lib', store, hr, hs, hframes⟩ :=
    (hlive.edit 0 addedNote).framesCurrent_of_refresh fun _ =>
      contains_of_get_edit .added
  have hr : tree.refresh (lib.edit 0 addedNote) (Batch.record ∅ "a" .added) =
      some (log, tree', lib') := hr
  have hcomputed : ((render templated 0 framedCall).bind fun r =>
      (r.1.refresh (r.2.edit 0 addedNote) (Batch.record ∅ "a" .added)).map fun r' =>
        (r'.1.reexecuted, r.1.frameClasses, r'.2.1.frameClasses)) =
      some (0, ["tw-tiddler-frame", "tw-tiddler-missing"], ["tw-tiddler-frame"]) := by
    decide +kernel
  simp only [h, hr, Option.bind_some, Option.map_some, Option.some.injEq, Prod.mk.injEq]
    at hcomputed
  obtain ⟨hpassed, hmarked, hunmarked⟩ := hcomputed
  exact ⟨tree, lib, log, tree', lib', store, h, hr, hpassed, hmarked, hunmarked, hs, hframes⟩

def untitled : Library Unit :=
  notebook [⟨0, { title := "", text := "x" }⟩]

def oneClass : Library Unit :=
  { stores := [({ settings := { frameClass := "m", missingClass := "m" } } :
      Store Unit).installBuiltins.put ⟨0, { title := "A", text := "x" }⟩] }

/-- The tree has another class list than a rendering after a refresh for a change elsewhere. -/
def Drifts (lib : Library Unit) (title : Title) : Prop :=
  ∃ tree lib₁ log tree' lib₂ fresh lib₃, render lib 0 (transclusion title) = some (tree, lib₁) ∧
    tree.refresh lib₁ (Batch.record ∅ "X" .modified) = some (log, tree', lib₂) ∧
    render lib₂ 0 (transclusion title) = some (fresh, lib₃) ∧
    tree'.frameClasses ≠ fresh.frameClasses

/-- A refresh takes the empty title for no title, and it takes the only class away from a frame
whose target is there. -/
theorem drifts_empty_and_shared : Drifts untitled "" ∧ Drifts oneClass "A" := by
  have hrun : ∀ lib title, (do
      let (tree, lib₁) ← render lib 0 (transclusion title)
      let (_, tree', lib₂) ← tree.refresh lib₁ (Batch.record ∅ "X" .modified)
      let (fresh, _) ← render lib₂ 0 (transclusion title)
      return decide (tree'.frameClasses ≠ fresh.frameClasses)) = some true →
      Drifts lib title := by
    intro lib title h
    obtain ⟨⟨tree, lib₁⟩, hrender, h⟩ := Option.bind_eq_some_iff.1 h
    obtain ⟨⟨log, tree', lib₂⟩, hrefresh, h⟩ := Option.bind_eq_some_iff.1 h
    obtain ⟨⟨fresh, lib₃⟩, hfresh, h⟩ := Option.bind_eq_some_iff.1 h
    exact ⟨_, _, _, _, _, _, _, hrender, hrefresh, hfresh, of_decide_eq_true (Option.some.inj h)⟩
  exact ⟨hrun _ _ (by decide +kernel), hrun _ _ (by decide +kernel)⟩

end LiveTree

end Notebook
