import Notebook.Proofs.Expansion.Counted
import Notebook.Proofs.Live.Frames

/-! # The tally of a live tree accounts for its calls and errors

After a rendering the tally can be read off the tree. A refresh adds to it what can be read off
the calls that it has expanded anew, and how many calls it has met.
-/

namespace Notebook

namespace Node

mutual

/-- What has become of the outermost stale calls of a tree, where the new tree is what a refresh
has made of the old one. -/
def remade (batch : Batch) : Node → Node → List Node
  | element _ _ _ children, element _ _ _ children' => remadeList batch children children'
  | call _ _ trace content, call id c trace' content' =>
    if Expand.isStale batch trace then [call id c trace' content']
    else remadeList batch content content'
  | _, _ => []

def remadeList (batch : Batch) : List Node → List Node → List Node
  | node :: nodes, node' :: nodes' => remade batch node node' ++ remadeList batch nodes nodes'
  | _, _ => []

end

end Node

namespace Expand

open Node (census remade remadeList callsOf errors)

variable {env : Env} {batch : Batch}

theorem remadeList_of_remarked {c : Call} {below content : List Node}
    (h : Remarked env c below content) (nodes : List Node) :
    remadeList batch nodes content = remadeList batch nodes below := by
  unfold Remarked at h
  split at h
  · rw [h]
    cases nodes with
    | nil => rfl
    | cons node nodes => cases node <;> rfl
  · rw [h]

theorem relatingRefresh_remade (hb : env.macros.IsBuiltin) :
    RelatingRefresh env batch
      (fun node out => (remade batch node out.1).length = out.2.reexecuted)
      fun nodes out => (remadeList batch nodes out.1).length = out.2.reexecuted where
  text _ := rfl
  error _ := rfl
  element hchildren := hchildren
  stale hs h := by
    obtain ⟨n, r, -, -, rfl⟩ := eq_of_reexpand h
    rw [remade, if_pos hs]
    rfl
  passed {id c trace content below} hs _ hcontent := by
    rw [remade, if_neg (by simp [hs]), remadeList_of_remarked (remarked_touch hb c below.1),
      hcontent]
    exact (Nat.zero_add _).symm
  nil := rfl
  cons hnode hnodes := by
    rw [remadeList, List.length_append, hnode, hnodes]
    rfl

theorem length_remade (hb : env.macros.IsBuiltin) {node : Node} {out : Node × RefreshLog}
    (h : Yields (refreshNode batch node : Expand env _) out) :
    (remade batch node out.1).length = out.2.reexecuted :=
  (relatingRefresh_remade hb).of_refreshNode h

/-- What there is to count in a refresh: what it has remade, and the calls that it has met. -/
def visited (fresh : List Node) (log : RefreshLog) : Census where
  calls := callsOf fresh
  errors := errors fresh
  reexecuted := log.reexecuted
  forwarded := log.forwarded

theorem visited_append (fresh fresh' : List Node) (log log' : RefreshLog) :
    visited (fresh ++ fresh') (log ++ log') = visited fresh log ++ visited fresh' log' := by
  rw [visited, Node.callsOf_append, Node.errors_append]
  rfl

theorem counts_countReexecution :
    Counts {} (countReexecution : Expand env Unit) fun _ => { reexecuted := 1 } :=
  counts_modifyTally fun _ => rfl

theorem counts_countForward :
    Counts {} (countForward : Expand env Unit) fun _ => { forwarded := 1 } :=
  counts_modifyTally fun _ => rfl

theorem counts_reexpand (hb : env.macros.IsBuiltin) (hp : env.rules.parsers.IsBuiltin)
    (id : Option NodeId) (c : Call) (trace : Option Trace) (content : List Node)
    (context : Context) :
    Counts {} (reexpand (.call id c trace content) context : Expand env _)
      fun out => visited [out.1] out.2 := by
  have hcalls := countsCalls_expand hb hp
  apply (counts_expandNode_call hcalls context id c trace content).bind
  intro fresh _
  apply (counts_countReexecution.after _).bind
  intro _ _
  apply counts_pure
  simp [visited, census, Census.append_def]

theorem compositionalRefresh_counts (hb : env.macros.IsBuiltin)
    (hp : env.rules.parsers.IsBuiltin) :
    CompositionalRefresh env batch
      (fun node x => Counts {} x fun out => visited (remade batch node out.1) out.2)
      fun nodes xs => Counts {} xs fun out => visited (remadeList batch nodes out.1) out.2 where
  text _ := counts_pure _ rfl
  error _ := counts_pure _ rfl
  element id tag attributes children hchildren := by
    apply hchildren.bind
    intro below _
    exact counts_pure _ rfl
  stale id c trace content hs := by
    apply (counts_reexpand hb hp id c trace content _).congr
    intro out hy
    obtain ⟨n, r, -, -, rfl⟩ := eq_of_reexpand hy
    rw [remade, if_pos hs]
  passed id c trace content hs hcontent := by
    apply counts_countForward.bind
    intro _ _
    apply (hcontent.after _).bind
    intro below _
    apply counts_pure
    rw [remade, if_neg (by simp [hs]), remadeList_of_remarked (remarked_touch hb c below.1)]
    exact visited_append [] _ _ _
  nil := counts_pure _ rfl
  cons node nodes hnode hnodes := by
    apply hnode.bind
    intro first _
    apply (hnodes.after _).bind
    intro rest _
    exact counts_pure _ (visited_append _ _ _ _)

theorem counts_refreshNode (hb : env.macros.IsBuiltin) (hp : env.rules.parsers.IsBuiltin)
    (node : Node) :
    Counts {} (refreshNode batch node : Expand env _)
      fun out => visited (remade batch node out.1) out.2 :=
  (compositionalRefresh_counts hb hp).refreshNode node

end Expand

namespace Library

variable {κ : Type} {lib lib' : Library κ} {s : StoreId} {store : Store κ}

def IsStandard (lib : Library κ) (s : StoreId) : Prop :=
  ∃ store, lib.store? s = some store ∧ store.macros.IsBuiltin ∧ store.parsers.IsBuiltin

theorem IsStandard.isBuiltin (h : lib.IsStandard s) : lib.IsBuiltin s := by
  obtain ⟨store, hs, hb, -⟩ := h
  exact ⟨store, hs, hb⟩

theorem IsStandard.of_store? (h : lib.IsStandard s) (hs : lib.store? s = some store) :
    store.macros.IsBuiltin ∧ store.parsers.IsBuiltin :=
  of_exists_store? h hs

theorem IsStandard.edit (h : lib.IsStandard s) (t : StoreId) (e : Edit) :
    (lib.edit t e).IsStandard s := by
  obtain ⟨store, hs, hb, hp⟩ := h
  obtain ⟨store', hs', -, hparsers, hmacros⟩ :=
    exists_store?_of_rules? hs (rules?_edit lib t e s)
  exact ⟨store', hs', hmacros ▸ hb, hparsers ▸ hp⟩

variable {α : Type} {nextId nextId' : NodeId} {tally tally' : Tally}
  {x : Expand (lib.env s store) α} {a : α}

theorem IsStandard.runOn (hs : lib.store? s = some store) (h : lib.IsStandard s)
    (hrun : lib.runOn s store nextId tally x = some (a, nextId', tally', lib')) :
    lib'.IsStandard s := by
  have hstore := h.of_store? hs
  exact exists_store?_runOn (fun _ => hstore) hs hrun

theorem explains_runOn {census : α → Census} (hx : Expand.Counts {} x census)
    (hrun : lib.runOn s store nextId tally x = some (a, nextId', tally', lib')) :
    (census a).Explains tally tally' := by
  obtain ⟨⟨b, q⟩, hx', hrun⟩ := Option.bind_eq_some_iff.1 hrun
  cases hrun
  exact hx tally _ a _ hx' fun _ => (Census.add_tally_nil tally).symm

end Library

namespace LiveTree

open Expand (visited)
open Node (census remade)

variable {κ : Type} {s : StoreId} {c : Call} {lib lib' : Library κ} {tree tree' : LiveTree}
  {batch : Batch} {log : RefreshLog}

theorem explains_render (h : lib.IsStandard s) (hr : render lib s c = some (tree, lib')) :
    lib'.IsStandard s ∧ (census [tree.root]).Explains {} tree.tally := by
  obtain ⟨store, hs, -, hrun⟩ := render_eq_some hr
  obtain ⟨hb, hp⟩ := h.of_store? hs
  have hcalls : Expand.CountsCalls (Expand.expand : _ → _ → Expand (lib.env s store) _) :=
    Expand.countsCalls_expand hb hp
  have hcounts := Expand.counts_expandNode hcalls {} (.ofCall c) (.call c)
  have hexplains := Library.explains_runOn hcounts hrun
  exact ⟨h.runOn hs hrun, hexplains⟩

theorem explains_refresh (h : lib.IsStandard tree.store) (hb : batch.isEmpty = false)
    (hr : tree.refresh lib batch = some (log, tree', lib')) :
    lib'.IsStandard tree.store ∧ (remade batch tree.root tree'.root).length = log.reexecuted ∧
      (visited (remade batch tree.root tree'.root) log).Explains tree.tally tree'.tally := by
  obtain ⟨store, hs, -, hrun⟩ := refresh_eq_some hb hr
  obtain ⟨hmacros, hparsers⟩ := h.of_store? hs
  have hcounts : Expand.Counts {}
      (Expand.refreshNode batch tree.root : Expand (lib.env tree.store store) _)
      fun out => visited (remade batch tree.root out.1) out.2 :=
    Expand.counts_refreshNode hmacros hparsers tree.root
  have hlength := Expand.length_remade hmacros (Library.runOn_eq_some hrun).1
  have hexplains := Library.explains_runOn hcounts hrun
  exact ⟨h.runOn hs hrun, hlength, hexplains⟩

/-- On a standard store every call can be rendered, and the tree explains the tally: it has as many
calls as were executed, and so for its errors. Every live tree on the store can be refreshed, and
the calls that are expanded anew, together with what the refresh reports, explain how the tally has
grown. Without changes nothing is counted. -/
theorem tally_accounts (h : lib.IsStandard s) (c : Call) :
    (∃ tree lib', render lib s c = some (tree, lib') ∧ tree.store = s ∧ lib'.IsStandard s ∧
      (census [tree.root]).Explains {} tree.tally) ∧
    ∀ (tree : LiveTree) (batch : Batch), tree.store = s →
      (batch.isEmpty → tree.refresh lib batch = some ({}, tree, lib)) ∧
      (batch.isEmpty = false →
        ∃ log tree' lib', tree.refresh lib batch = some (log, tree', lib') ∧ tree'.store = s ∧
          lib'.IsStandard s ∧ (remade batch tree.root tree'.root).length = log.reexecuted ∧
          (visited (remade batch tree.root tree'.root) log).Explains tree.tally tree'.tally) := by
  constructor
  · obtain ⟨tree, lib', hr⟩ := exists_render h.isBuiltin c
    obtain ⟨store, -, hstore, -⟩ := render_eq_some hr
    exact ⟨tree, lib', hr, hstore, explains_render h hr⟩
  · rintro tree batch rfl
    constructor
    · intro hb
      exact if_pos hb
    · intro hb
      obtain ⟨log, tree', lib', hr⟩ := exists_refresh h.isBuiltin batch
      obtain ⟨store, -, hstore, -⟩ := refresh_eq_some hb hr
      exact ⟨log, tree', lib', hr, hstore, explains_refresh h hb hr⟩

theorem isStandard_notebook (notes : List Saved) : (notebook notes).IsStandard 0 := by
  obtain ⟨store, hs, hb⟩ := isBuiltin_notebook notes
  exact ⟨store, hs, hb, isBuiltin_parsers_notebook hs⟩

def editOfY : Edit :=
  .add { title := "Y", text := "<<tiddler Y>><<nope>>" }

theorem tally_accounts_page :
    ∃ tree lib, render page 0 (transclusion "Page") = some (tree, lib) ∧
      tree.tally = { executions := 3 } ∧
      ∃ log tree' lib', tree.refresh (lib.edit 0 editOfY) (Batch.record ∅ "Y" .modified) =
          some (log, tree', lib') ∧
        tree'.tally = ⟨6, 1, 2, 1, 1⟩ := by
  have hpage : page.IsStandard 0 := isStandard_notebook _
  obtain ⟨⟨tree, lib, h, hstore, hstandard, htally⟩, -⟩ :=
    tally_accounts hpage (transclusion "Page")
  have hrendered : (render page 0 (transclusion "Page")).map (fun r =>
      ((census [r.1.root]).calls.all Call.isLiteral, (census [r.1.root]).tally)) =
        some (true, { executions := 3 }) := by
    decide +kernel
  simp only [h, Option.map_some, Option.some.injEq, Prod.mk.injEq, List.all_eq_true] at hrendered
  have hthree : tree.tally = { executions := 3 } := by
    rw [htally hrendered.1, hrendered.2]
    rfl
  obtain ⟨-, hrefresh⟩ := tally_accounts (hstandard.edit 0 editOfY) (transclusion "Page")
  obtain ⟨log, tree', lib', hr, -, -, -, htally'⟩ :=
    (hrefresh tree (Batch.record ∅ "Y" .modified) hstore).2 rfl
  have hrefreshed : ((render page 0 (transclusion "Page")).bind fun r =>
      (r.1.refresh (r.2.edit 0 editOfY) (Batch.record ∅ "Y" .modified)).map fun q =>
        let c := visited (remade (Batch.record ∅ "Y" .modified) r.1.root q.2.1.root) q.1
        (c.calls.all Call.isLiteral, c.tally)) = some (true, ⟨3, 1, 2, 1, 1⟩) := by
    decide +kernel
  simp only [h, Option.bind_some, hr, Option.map_some, Option.some.injEq, Prod.mk.injEq,
    List.all_eq_true] at hrefreshed
  refine ⟨tree, lib, h, hthree, log, tree', lib', hr, ?_⟩
  rw [htally' hrefreshed.1, hrefreshed.2, hthree]
  rfl

end LiveTree

end Notebook
