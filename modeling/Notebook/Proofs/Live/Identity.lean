import Notebook.Proofs.Expansion.Drawn
import Notebook.Proofs.Live.Frames
import Notebook.Proofs.Live.Handles

/-! # The ids of live trees

An element or a call keeps its id as long as it is part of a live tree, and no other ever has the
same one. An output that follows the events of all refreshes has mounted just the ids of the tree.
-/

namespace Notebook

namespace Expand

open Node (ids idsOf)

variable {env : Env} {batch : Batch}

theorem idsOf_of_remarked {c : Call} {below content : List Node}
    (h : Remarked env c below content) : idsOf content = idsOf below := by
  unfold Remarked at h
  split at h
  · rw [h]
    simp
  · rw [h]

theorem hearAll?_touchEvents (hb : env.macros.IsBuiltin) {c : Call} {content : List Node}
    (hl : ∀ node ∈ Node.walkList content, node.IsNumbered) {handles : Handles}
    (hm : ∀ id ∈ idsOf content, id ∈ handles.mounted) :
    handles.hearAll? (touchEvents env batch c content) = some handles := by
  by_cases hc : env.macros.get? c.name = some .transclude
  · match content with
    | .element id tag attributes children :: rest =>
      rw [touchEvents_transclude hc]
      split
      · obtain ⟨hid, -⟩ := List.forall_mem_cons.1 hl
        refine Handles.hearAll?_cons (if_pos ⟨hid, fun id' hid' => hm id' ?_⟩) rfl
        rw [Node.idsOf_cons]
        exact List.mem_append_left _ (by simpa using hid')
      · rfl
    | [] | .text _ :: _ | .call .. :: _ | .error _ :: _ =>
      simp only [touchEvents, hc, Macro.touches, Transclude.remarks]
      rfl
  · rw [(touchEvents_of_not_transclude hb hc batch content).1]
    rfl

theorem draws_reexpand (hb : env.macros.IsBuiltin) (hr : env.rules.LeavesIds) (n : NodeId)
    (c : Call) (trace : Option Trace) (content : List Node) (context : Context) :
    Draws [] (reexpand (.call (some n) c trace content) context : Expand env _)
      fun out => idsOf out.1.children := by
  have hnode : Draws [] (expandNode expand context (.call (some n) c trace content) :
      Expand env Node) fun fresh => idsOf fresh.children := by
    have hid : Draws [] (idOrFresh (some n) : Expand env NodeId) fun _ => [] := draws_pure n rfl
    refine hid.bind fun _ _ => ?_
    refine (draws_modifyGet (fun _ => rfl) []).bind fun _ _ => ?_
    exact (draws_expand hb hr context c).bind fun r _ => draws_pure _ rfl
  refine hnode.bind fun fresh _ => ?_
  exact (draws_modifyGet (fun _ => rfl) _).bind fun _ _ => draws_pure _ rfl

theorem handover_reexpand (hb : env.macros.IsBuiltin) (hr : env.rules.LeavesIds) {n : NodeId}
    {c : Call} {trace : Option Trace} {content : List Node} {context : Context} {first : Nat}
    {p q : Progress env} {out : Node × RefreshLog}
    (hf : Fresh first p.nextId (Node.call (some n) c trace content).ids)
    (h : (reexpand (.call (some n) c trace content) context).run p = some (out, q)) :
    Handover p.nextId q.nextId (Node.call (some n) c trace content).ids out.1.ids
      out.2.events := by
  have hnew := draws_reexpand hb hr n c trace content context p.nextId p out q h
    (.nil (Nat.le_refl _))
  obtain ⟨m, r, hm, -, rfl⟩ := eq_of_reexpand ⟨p, q, h⟩
  obtain rfl := yields_pure.1 hm
  rw [Node.ids_call] at hf ⊢
  rw [Node.ids_call]
  exact .replace hf hnew

theorem handover_touch (hb : env.macros.IsBuiltin) {n : NodeId} {c : Call} {content : List Node}
    (hl : ∀ below ∈ Node.walkList content, below.IsNumbered) (hn : ([n] ++ idsOf content).Nodup)
    (lo : Nat) : Handover lo lo ([n] ++ idsOf content) ([n] ++ idsOf content)
      (touchEvents env batch c content) :=
  .keep hn fun _ hm => hearAll?_touchEvents hb hl (List.forall_mem_append.1 hm).2

/-- A refresh hands ids over: those of calls that are expanded anew, and of everything else to
themselves. A frame is reported before what is below it is refreshed, while all its ids are
mounted. -/
theorem compositionalRefresh_handover (hb : env.macros.IsBuiltin) (hr : env.rules.LeavesIds) :
    CompositionalRefresh env batch
      (fun node x => (∀ below ∈ node.walk, below.IsNumbered) → ∀ {first p out q},
        x.run p = some (out, q) → Fresh first p.nextId node.ids →
        Handover p.nextId q.nextId node.ids out.1.ids out.2.events)
      fun nodes xs => (∀ below ∈ Node.walkList nodes, below.IsNumbered) → ∀ {first p out q},
        xs.run p = some (out, q) → Fresh first p.nextId (idsOf nodes) →
        Handover p.nextId q.nextId (idsOf nodes) (idsOf out.1) out.2.events where
  text _ _ _ _ _ _ h _ := by
    cases h
    exact .refl _ .nil
  error _ _ _ _ _ _ h _ := by
    cases h
    exact .refl _ .nil
  element id tag attributes children hchildren hl first p out q h hf := by
    obtain ⟨hid, hbelow⟩ := List.forall_mem_cons.1 hl
    obtain ⟨n, rfl⟩ := Option.isSome_iff_exists.1 hid
    obtain ⟨⟨below, q'⟩, hrun, h⟩ := Option.bind_eq_some_iff.1 h
    cases h
    rw [Node.ids_element] at hf ⊢
    rw [Node.ids_element]
    exact (hchildren hbelow hrun hf.right).frame_left hf
  stale id c trace content _ hl first p out q h hf := by
    obtain ⟨hid, -⟩ := List.forall_mem_cons.1 hl
    obtain ⟨n, rfl⟩ := Option.isSome_iff_exists.1 hid
    exact handover_reexpand hb hr hf h
  passed id c trace content _ hcontent hl first p out q h hf := by
    obtain ⟨hid, hinner⟩ := List.forall_mem_cons.1 hl
    obtain ⟨n, rfl⟩ := Option.isSome_iff_exists.1 hid
    obtain ⟨⟨below, q'⟩, hrun, h⟩ := Option.bind_eq_some_iff.1 h
    cases h
    rw [Node.ids_call] at hf ⊢
    rw [Node.ids_call, idsOf_of_remarked (remarked_touch hb c below.1)]
    exact (handover_touch hb hinner hf.nodup _).trans
      ((hcontent hinner hrun hf.right).frame_left hf)
  nil _ _ _ _ _ h _ := by
    cases h
    exact .refl _ .nil
  cons node nodes hnode hnodes hl first p out q h hf := by
    obtain ⟨hlfirst, hlrest⟩ := List.forall_mem_append.1 hl
    obtain ⟨⟨first', q₁⟩, hfirst, h⟩ := Option.bind_eq_some_iff.1 h
    obtain ⟨⟨rest, q₂⟩, hrest, h⟩ := Option.bind_eq_some_iff.1 h
    cases h
    rw [Node.idsOf_cons] at hf ⊢
    rw [Node.idsOf_cons]
    have hhead := hnode hlfirst hfirst hf.left
    have hmid := hf.right.later hhead.le
    exact hhead.append hf (hnodes hlrest hrest hmid)

end Expand

theorem Node.Parsed.ids {node : Node} (h : node.Parsed) : node.ids = [] := by
  induction h with
  | text s => rfl
  | call c => rfl
  | element _ ih =>
    rw [Node.ids_element, Node.idsOf_eq_flatMap]
    exact List.flatMap_eq_nil_iff.2 ih

theorem ParseRules.leavesIds {rules : ParseRules} (h : rules.parsers.IsBuiltin) :
    rules.LeavesIds := by
  intro type text nodes hparse
  obtain ⟨nodes', hparse', hparsed⟩ := rules.parse_builtin h type text
  obtain rfl := Except.ok.inj (hparse.symm.trans hparse')
  rw [Node.idsOf_eq_flatMap]
  exact List.flatMap_eq_nil_iff.2 fun node hn => (hparsed node hn).ids

namespace Library

variable {κ : Type} {lib lib' : Library κ} {s : StoreId} {store : Store κ}

/-- The store with this number has only built-in macros, and its parsers leave all ids out. -/
def IsRegular (lib : Library κ) (s : StoreId) : Prop :=
  ∃ store, lib.store? s = some store ∧ store.macros.IsBuiltin ∧ store.rules.LeavesIds

theorem IsRegular.isBuiltin (h : lib.IsRegular s) : lib.IsBuiltin s := by
  obtain ⟨store, hs, hb, -⟩ := h
  exact ⟨store, hs, hb⟩

theorem IsRegular.of_store? (h : lib.IsRegular s) (hs : lib.store? s = some store) :
    store.macros.IsBuiltin ∧ store.rules.LeavesIds :=
  of_exists_store? h hs

theorem IsRegular.of_rules? (h : lib.IsRegular s) (hr : lib'.rules? s = lib.rules? s) :
    lib'.IsRegular s := by
  obtain ⟨store, hs, hb, hleaves⟩ := h
  obtain ⟨store', hs', hsettings, hparsers, hmacros⟩ := exists_store?_of_rules? hs hr
  refine ⟨store', hs', hmacros ▸ hb, ?_⟩
  rwa [Store.rules, hsettings, hparsers]

theorem IsRegular.edit (h : lib.IsRegular s) (t : StoreId) (e : Edit) :
    (lib.edit t e).IsRegular s :=
  h.of_rules? (rules?_edit lib t e s)

variable {α : Type} {nextId nextId' : NodeId} {tally tally' : Tally}
  {x : Expand (lib.env s store) α} {a : α}

theorem IsRegular.runOn (hs : lib.store? s = some store) (h : lib.IsRegular s)
    (hrun : lib.runOn s store nextId tally x = some (a, nextId', tally', lib')) :
    lib'.IsRegular s := by
  have hstore := h.of_store? hs
  exact exists_store?_runOn (fun _ => hstore) hs hrun

theorem exists_run_of_runOn
    (h : lib.runOn s store nextId tally x = some (a, nextId', tally', lib')) :
    ∃ p q, p.nextId = nextId ∧ q.nextId = nextId' ∧ x.run p = some (a, q) := by
  obtain ⟨⟨b, q⟩, hx, h⟩ := Option.bind_eq_some_iff.1 h
  cases h
  exact ⟨_, q, rfl, rfl, hx⟩

end Library

namespace LiveTree

open Handles (hearAll? hearAll?_append hearAll?_cons)

variable {κ : Type} {s : StoreId} {c : Call} {lib lib₀ lib₁ : Library κ} {tree tree₁ : LiveTree}
  {events : List SinkEvent}

/-- What becomes of a live tree and its library, with the events of the refreshes in between. The
library may change in any way that leaves the tree's store regular. -/
inductive Course (s : StoreId) (lib : Library κ) (tree : LiveTree) :
    List SinkEvent → Library κ → LiveTree → Prop
  | start : Course s lib tree [] lib tree
  | change {events : List SinkEvent} {lib₁ lib₂ : Library κ} {tree₁ : LiveTree}
      (h : Course s lib tree events lib₁ tree₁) (hr : lib₂.IsRegular s) :
      Course s lib tree events lib₂ tree₁
  | refresh {events : List SinkEvent} {lib₁ lib₂ : Library κ} {tree₁ tree₂ : LiveTree}
      {batch : Batch} {log : RefreshLog} (h : Course s lib tree events lib₁ tree₁)
      (hr : tree₁.refresh lib₁ batch = some (log, tree₂, lib₂)) :
      Course s lib tree (events ++ log.events) lib₂ tree₂

/-- A live tree on a regular store, all of whose ids it has drawn itself. -/
structure Identified (s : StoreId) (c : Call) (lib : Library κ) (tree : LiveTree) : Prop where
  grown : ∃ past, Grown s c past lib tree
  regular : lib.IsRegular s
  fresh : Fresh 1 tree.nextId tree.root.ids

theorem Identified.render (hr : lib₀.IsRegular s)
    (h : render lib₀ s c = some (tree, lib)) : Identified s c lib tree := by
  obtain ⟨store, hs, -, hrun⟩ := render_eq_some h
  obtain ⟨hb, hleaves⟩ := hr.of_store? hs
  refine ⟨⟨_, .render hs hb h⟩, hr.runOn hs hrun, ?_⟩
  obtain ⟨p, q, hp, hq, hx⟩ := Library.exists_run_of_runOn hrun
  have hexpand : ∀ context d, Expand.Draws [] (Expand.expand context d :
      Expand (lib₀.env s store) _) fun r => Node.idsOf r.content :=
    Expand.draws_expand hb hleaves
  have hroot := Expand.draws_expandNode hexpand {} (.ofCall c) rfl
  rw [← hq]
  refine hroot 1 p tree.root q hx (.nil ?_)
  exact Nat.le_of_eq hp.symm

theorem Identified.isNumbered (h : Identified s c lib tree) :
    ∀ node ∈ tree.root.walk, node.IsNumbered := by
  obtain ⟨past, hgrown⟩ := h.grown
  exact fun node hn => (hgrown.isLive node hn).numbered

theorem Identified.refresh {batch : Batch} {log : RefreshLog} (h : Identified s c lib tree)
    (hr : tree.refresh lib batch = some (log, tree₁, lib₁)) :
    Identified s c lib₁ tree₁ ∧
      Handover tree.nextId tree₁.nextId tree.root.ids tree₁.root.ids log.events := by
  by_cases he : batch.isEmpty
  · rw [LiveTree.refresh, if_pos he] at hr
    cases hr
    exact ⟨h, .refl _ h.fresh.nodup⟩
  · obtain ⟨past, hgrown⟩ := h.grown
    obtain ⟨store, hs, -, hrun⟩ := refresh_eq_some (by simpa using he) hr
    obtain ⟨t, root, nextId, tally⟩ := tree
    obtain rfl : t = s := hgrown.store.1
    obtain ⟨hb, hleaves⟩ := h.regular.of_store? hs
    obtain ⟨p, q, hp, hq, hx⟩ := Library.exists_run_of_runOn hrun
    have hfresh : Fresh 1 p.nextId root.ids := hp ▸ h.fresh
    have hover := (Expand.compositionalRefresh_handover hb hleaves).refreshNode root
      h.isNumbered hx hfresh
    rw [hp, hq] at hover
    exact ⟨⟨⟨_, hgrown.refresh hs hr⟩, h.regular.runOn hs hrun, hover.fresh h.fresh⟩, hover⟩

theorem Course.handover (hi : Identified s c lib tree) (h : Course s lib tree events lib₁ tree₁) :
    Identified s c lib₁ tree₁ ∧
      Handover tree.nextId tree₁.nextId tree.root.ids tree₁.root.ids events := by
  induction h with
  | start => exact ⟨hi, .refl _ hi.fresh.nodup⟩
  | change _ hr ih =>
    obtain ⟨⟨⟨past, hgrown⟩, -, hfresh⟩, hover⟩ := ih
    exact ⟨⟨⟨past, hgrown.change hr.isBuiltin⟩, hr, hfresh⟩, hover⟩
  | refresh _ hr ih =>
    obtain ⟨hnext, hover⟩ := ih.1.refresh hr
    exact ⟨hnext, ih.2.trans hover⟩

/-- An id that is gone from a live tree does not come back. -/
theorem Course.not_mem_ids {lib₂ : Library κ} {tree₂ : LiveTree} {events' : List SinkEvent}
    (hi : Identified s c lib tree) (h : Course s lib tree events lib₁ tree₁)
    (h' : Course s lib₁ tree₁ events' lib₂ tree₂) {id : NodeId} (hid : id ∈ tree.root.ids)
    (hgone : id ∉ tree₁.root.ids) : id ∉ tree₂.root.ids := by
  obtain ⟨hi₁, hover⟩ := h.handover hi
  obtain ⟨-, hover'⟩ := h'.handover hi₁
  have hlt := (hi.fresh.within id hid).2
  intro hback
  rcases hover'.source id hback with hmem | ⟨hle, -⟩
  · exact hgone hmem
  · exact Nat.not_le.2 (Nat.lt_of_lt_of_le hlt hover.le) hle

/-- An output that has heard of nothing else can follow the mount of a live tree, what becomes of
it, and its unmount. -/
theorem Course.heard (hi : Identified s c lib tree)
    (h : Course s lib tree events lib₁ tree₁) :
    ∃ ever, hearAll? {} (tree.mount ++ events) = some ⟨tree₁.root.ids.toFinset, ever⟩ ∧
      hearAll? ⟨tree₁.root.ids.toFinset, ever⟩ tree₁.unmount = some ⟨∅, ever⟩ := by
  obtain ⟨-, hover⟩ := h.handover hi
  have hmount : hearAll? {} tree.mount =
      some ⟨∅ ∪ tree.root.ids.toFinset, ∅ ∪ tree.root.ids.toFinset⟩ :=
    hearAll?_cons (if_pos ⟨rfl, hi.fresh.nodup, fun _ _ => Finset.notMem_empty _⟩) rfl
  have hlt : ∀ id ∈ ∅ ∪ tree.root.ids.toFinset, id < tree.nextId := by
    intro id hid
    rw [Finset.empty_union, List.mem_toFinset] at hid
    exact (hi.fresh.within id hid).2
  obtain ⟨ever, hheard, -⟩ := hover.heard ∅ _ (fun _ _ => Finset.notMem_empty _)
    (fun _ hid => absurd hid (Finset.notMem_empty _)) hlt
  have hunmount : Handles.hear? ⟨∅ ∪ tree₁.root.ids.toFinset, ever⟩ (.unmount tree₁.root) =
      some ⟨∅, ever⟩ := Handles.hear?_unmount fun _ _ => Finset.notMem_empty _
  rw [Finset.empty_union] at hheard hunmount
  exact ⟨ever, hearAll?_append hmount hheard, hearAll?_cons hunmount rfl⟩

/-- Every call can be rendered, and whatever becomes of the tree and its library, the elements and
calls of the tree have ids, which are pairwise different, and no id comes back that is gone. An
output can follow the mount of the tree, the events of all refreshes so far and an unmount. Before
the unmount, just the ids of the tree are mounted, and after it none. -/
theorem exists_render_identified (hr : lib₀.IsRegular s) (c : Call) :
    ∃ tree lib, render lib₀ s c = some (tree, lib) ∧
      ∀ events lib₁ tree₁, Course s lib tree events lib₁ tree₁ →
        (∀ node ∈ tree₁.root.walk, node.IsNumbered) ∧ Fresh 1 tree₁.nextId tree₁.root.ids ∧
        (∃ ever, hearAll? {} (tree.mount ++ events) = some ⟨tree₁.root.ids.toFinset, ever⟩ ∧
          hearAll? {} (tree.mount ++ events ++ tree₁.unmount) = some ⟨∅, ever⟩) ∧
        (∀ batch, ∃ log tree₂ lib₂, tree₁.refresh lib₁ batch = some (log, tree₂, lib₂)) ∧
        ∀ events' lib₂ tree₂ events'' lib₃ tree₃, Course s lib₁ tree₁ events' lib₂ tree₂ →
          Course s lib₂ tree₂ events'' lib₃ tree₃ →
          ∀ id ∈ tree₁.root.ids, id ∉ tree₂.root.ids → id ∉ tree₃.root.ids := by
  obtain ⟨tree, lib, h⟩ := exists_render hr.isBuiltin c
  have hi := Identified.render hr h
  refine ⟨tree, lib, h, fun events lib₁ tree₁ hcourse => ?_⟩
  obtain ⟨hi₁, -⟩ := hcourse.handover hi
  obtain ⟨ever, hheard, hunmount⟩ := hcourse.heard hi
  refine ⟨hi₁.isNumbered, hi₁.fresh, ⟨ever, hheard, hearAll?_append hheard hunmount⟩, ?_, ?_⟩
  · obtain ⟨past, hgrown⟩ := hi₁.grown
    intro batch
    exact exists_refresh (hgrown.store.1.symm ▸ hi₁.regular.isBuiltin) batch
  · intro events' lib₂ tree₂ events'' lib₃ tree₃ hlater hlater' id hid hgone
    exact hlater.not_mem_ids hi₁ hlater' hid hgone

theorem isRegular_notebook (notes : List Saved) : (notebook notes).IsRegular 0 := by
  obtain ⟨store, hs, hb⟩ := isBuiltin_notebook notes
  exact ⟨store, hs, hb, ParseRules.leavesIds (isBuiltin_parsers_notebook hs)⟩

theorem exists_render_identified_page :
    ∃ tree lib, render page 0 (transclusion "Page") = some (tree, lib) ∧
      tree.root.ids = [1, 6, 2, 3, 4, 5] ∧
      ∃ log tree' lib', tree.refresh (lib.edit 0 (.add { title := "Y", text := "y2" }))
          (Batch.record ∅ "Y" .modified) = some (log, tree', lib') ∧
        tree'.root.ids = [1, 6, 2, 3, 4, 7] ∧
        (∃ ever, hearAll? {} (tree.mount ++ log.events) = some ⟨{1, 6, 2, 3, 4, 7}, ever⟩) ∧
        ∀ events lib₂ tree₂, Course 0 lib' tree' events lib₂ tree₂ → 5 ∉ tree₂.root.ids := by
  have hregular : page.IsRegular 0 := isRegular_notebook _
  obtain ⟨tree, lib, h, hcourse⟩ := exists_render_identified hregular (transclusion "Page")
  have hedit : Course 0 lib tree [] (lib.edit 0 (.add { title := "Y", text := "y2" })) tree :=
    .change .start ((Identified.render hregular h).regular.edit 0 _)
  obtain ⟨-, -, -, hrefresh, -⟩ := hcourse _ _ _ hedit
  obtain ⟨log, tree', lib', hr⟩ := hrefresh (Batch.record ∅ "Y" .modified)
  have hids : (render page 0 (transclusion "Page")).map (fun r => (r.1.root.ids,
      (r.1.refresh (r.2.edit 0 (.add { title := "Y", text := "y2" }))
        (Batch.record ∅ "Y" .modified)).map fun r' => r'.2.1.root.ids)) =
      some ([1, 6, 2, 3, 4, 5], some [1, 6, 2, 3, 4, 7]) := by
    decide +kernel
  simp only [h, hr, Option.map_some, Option.some.injEq, Prod.mk.injEq] at hids
  have hnow : Course 0 lib tree log.events lib' tree' := .refresh hedit hr
  obtain ⟨-, -, ⟨ever, hheard, -⟩, -⟩ := hcourse _ _ _ hnow
  obtain ⟨-, -, -, -, hgone⟩ := hcourse _ _ _ .start
  refine ⟨tree, lib, h, hids.1, log, tree', lib', hr, hids.2, ⟨ever, ?_⟩,
    fun events lib₂ tree₂ hlater => ?_⟩
  · rw [hheard, hids.2]
    rfl
  · exact hgone _ _ _ _ _ _ hnow hlater 5 (by simp [hids.1]) (by simp [hids.2])

end LiveTree

end Notebook
