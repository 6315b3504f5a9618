import Notebook.Proofs.Live.Chains
import Notebook.Proofs.Numbering

/-! # How live trees grow

A live tree is rendered once and then refreshed, any number of times, with any batches and with
any changes of the library in between. Everything in it has been expanded, so all its elements
and calls have ids, and all its calls have traces.
-/

namespace Notebook

namespace Node

def IsNumbered : Node → Prop
  | element id .. => id.isSome
  | call id .. => id.isSome
  | _ => True

def IsTraced : Node → Prop
  | call _ _ trace _ => trace.isSome
  | _ => True

theorem isNumbered_iff {node : Node} : node.IsNumbered ↔ node.slot? ≠ some none := by
  cases node <;> simp [IsNumbered, slot?, Option.isSome_iff_ne_none]

theorem numbered_assignList (next : NodeId) (nodes : List Node) :
    ∀ below ∈ walkList (assignList next nodes).1, below.IsNumbered := by
  intro below hbelow
  refine isNumbered_iff.2 fun hslot => not_mem_slotsOf_assignList next nodes ?_
  exact List.mem_filterMap.2 ⟨below, hbelow, hslot⟩

theorem isTraced_of_hasChain {Q : Chain → Prop} {node : Node} (h : node.HasChain Q) :
    node.IsTraced := by
  cases node with
  | call id c trace content =>
    obtain ⟨t, ht, -⟩ := h
    exact Option.isSome_of_eq_some ht
  | _ => trivial

/-- The node is part of a live tree. -/
structure IsLive (node : Node) : Prop where
  numbered : node.IsNumbered
  traced : node.IsTraced

theorem isLive_text (s : String) : (text s).IsLive := ⟨trivial, trivial⟩

theorem isLive_error (e : RenderError) : (error e).IsLive := ⟨trivial, trivial⟩

end Node

namespace Expand

variable {env : Env} {context : Context}

theorem numbered_of_settle {reads : Reads} {callee : String}
    {outcome : Except Failure (List Node)} {r : Result}
    (h : Yields (settle reads callee outcome : Expand env _) r) :
    ∀ node ∈ Node.walkList r.content, node.IsNumbered := by
  cases outcome with
  | ok nodes =>
    obtain ⟨numbered, hn, hr⟩ := h.bind
    obtain rfl := yields_pure.1 hr
    obtain ⟨p, rfl⟩ := hn.modifyGet
    exact Node.numbered_assignList _ nodes
  | error f =>
    obtain ⟨_, _, hr⟩ := h.bind
    obtain rfl := yields_pure.1 hr
    exact List.forall_mem_singleton.2 trivial

theorem numbered_of_failed {reads : Reads} {e : RenderError} {r : Result}
    (h : Yields (failed reads e : Expand env _) r) :
    ∀ node ∈ Node.walkList r.content, node.IsNumbered := by
  have hsettle : Yields (settle reads "" (.error (.error e)) : Expand env _) r := h
  exact numbered_of_settle hsettle

theorem numbered_of_expandCall {nested : Nested env} {c : Call} {r : Result}
    (h : Yields (expandCall nested context c) r) :
    ∀ node ∈ Node.walkList r.content, node.IsNumbered := by
  cases hm : env.macros.get? c.name with
  | none => exact numbered_of_failed (expandCall_unknown hm ▸ h)
  | some m =>
    cases he : m.bindCall c with
    | error e => exact numbered_of_failed (expandCall_unbound hm he ▸ h)
    | ok b =>
      rw [expandCall_bound ⟨hm, he⟩] at h
      obtain ⟨_, _, h⟩ := h.bind
      obtain ⟨_, _, h⟩ := h.bind
      exact numbered_of_settle h

theorem numbered_of_expand {c : Call} {r : Result}
    (h : Yields (expand context c : Expand env Result) r) :
    ∀ node ∈ Node.walkList r.content, node.IsNumbered :=
  numbered_of_expandCall h

theorem isLive_of_expand (hb : env.macros.IsBuiltin) {c : Call} {r : Result}
    (h : Yields (expand context c : Expand env Result) r) :
    ∀ node ∈ Node.walkList r.content, node.IsLive := by
  have hexpands := expands_of_expandWithin hb _ context c r h
  have hchains := hexpands.chains (Q := fun _ => True) (fun _ _ _ _ _ => trivial) trivial
  rw [Node.walkList_outlineList, List.forall_mem_map] at hchains
  intro node hn
  exact ⟨numbered_of_expand h node hn,
    Node.isTraced_of_hasChain (Node.hasChain_outline.1 (hchains node hn))⟩

end Expand

namespace Library

variable {κ : Type} {lib lib' : Library κ} {s : StoreId} {store : Store κ}

theorem of_exists_store? {P : Store κ → Prop}
    (h : ∃ store, lib.store? s = some store ∧ P store) (hs : lib.store? s = some store) :
    P store := by
  obtain ⟨store', hs', hp⟩ := h
  exact Option.some.inj (hs'.symm.trans hs) ▸ hp

theorem exists_store?_runOn {α : Type} {nextId nextId' : NodeId} {tally tally' : Tally}
    {x : Expand (lib.env s store) α} {a : α} {P : Store κ → Prop}
    (hp : ∀ cache, P { store with cache := cache }) (hs : lib.store? s = some store)
    (h : lib.runOn s store nextId tally x = some (a, nextId', tally', lib')) :
    ∃ store', lib'.store? s = some store' ∧ P store' := by
  obtain ⟨cache, ht⟩ := store?_runOn hs h
  exact ⟨{ store with cache := cache }, by rw [ht, if_pos rfl], hp cache⟩

theorem isBuiltin_runOn {α : Type} {nextId nextId' : NodeId} {tally tally' : Tally}
    {x : Expand (lib.env s store) α} {a : α} (hs : lib.store? s = some store)
    (hb : store.macros.IsBuiltin)
    (h : lib.runOn s store nextId tally x = some (a, nextId', tally', lib')) :
    lib'.IsBuiltin s :=
  exists_store?_runOn (fun _ => hb) hs h

theorem IsBuiltin.of_store? (h : lib.IsBuiltin s) (hs : lib.store? s = some store) :
    store.macros.IsBuiltin :=
  of_exists_store? h hs

theorem IsBuiltin.edit (h : lib.IsBuiltin s) (t : StoreId) (e : Edit) :
    (lib.edit t e).IsBuiltin s := by
  obtain ⟨store, hs, hb⟩ := h
  obtain ⟨store', hs', -, -, hm⟩ := exists_store?_of_rules? hs (rules?_edit lib t e s)
  exact ⟨store', hs', hm ▸ hb⟩

end Library

namespace LiveTree

open Expand (Yields expandNode refreshNode)

variable {κ : Type} {s : StoreId} {c : Call} {past : List Scene} {lib : Library κ}
  {tree : LiveTree}

/-- A live tree of a call, with the scenes in which it was rendered and refreshed, the latest
first. In between the library may change in any way that leaves the macros of the tree's store
built in. -/
inductive Grown (s : StoreId) (c : Call) : List Scene → Library κ → LiveTree → Prop
  | render {lib lib' : Library κ} {store : Store κ} {tree : LiveTree}
      (hs : lib.store? s = some store) (hb : store.macros.IsBuiltin)
      (h : render lib s c = some (tree, lib')) : Grown s c [(lib.env s store).scene] lib' tree
  | change {past : List Scene} {lib lib' : Library κ} {tree : LiveTree}
      (h : Grown s c past lib tree) (hb : lib'.IsBuiltin s) : Grown s c past lib' tree
  | refresh {past : List Scene} {lib lib' : Library κ} {store : Store κ}
      {tree tree' : LiveTree} {batch : Batch} {log : RefreshLog} (h : Grown s c past lib tree)
      (hs : lib.store? s = some store)
      (hr : tree.refresh lib batch = some (log, tree', lib')) :
      Grown s c ((lib.env s store).scene :: past) lib' tree'

theorem Grown.store (h : Grown s c past lib tree) : tree.store = s ∧ lib.IsBuiltin s := by
  induction h with
  | render hs hb h =>
    obtain ⟨store, hs', hstore, hrun⟩ := render_eq_some h
    obtain rfl := Option.some.inj (hs.symm.trans hs')
    exact ⟨hstore, Library.isBuiltin_runOn hs hb hrun⟩
  | change _ hb ih => exact ⟨ih.1, hb⟩
  | @refresh _ lib lib' store tree tree' batch log _ hs hr ih =>
    obtain ⟨hstore, hb⟩ := ih
    by_cases he : batch.isEmpty
    · rw [LiveTree.refresh, if_pos he] at hr
      cases hr
      exact ⟨hstore, hb⟩
    · obtain ⟨store', hs', hstore', hrun⟩ := refresh_eq_some (by simpa using he) hr
      rw [hstore] at hs' hrun
      obtain rfl := Option.some.inj (hs.symm.trans hs')
      exact ⟨hstore'.trans hstore, Library.isBuiltin_runOn hs (hb.of_store? hs) hrun⟩

theorem Live.grown {seen : Title → Option Note} (h : Live s c seen lib tree) :
    ∃ past, Grown s c past lib tree := by
  induction h with
  | @render lib lib' tree hb h =>
    obtain ⟨store, hs, hbuiltin⟩ := hb
    exact ⟨_, .render hs hbuiltin h⟩
  | change h hr ih =>
    obtain ⟨past, hg⟩ := ih
    exact ⟨past, hg.change (h.upheld.change hr).isBuiltin⟩
  | refresh h hc hr ih =>
    obtain ⟨past, hg⟩ := ih
    obtain ⟨store, hs, -⟩ := h.upheld.isBuiltin
    exact ⟨_, hg.refresh hs hr⟩

/-- What a rendering makes true of the root of a tree and every refresh keeps holds of each live
tree. -/
theorem Grown.induct_root {P : List Scene → Node → Prop}
    (hrender : ∀ (env : Env) root, env.macros.IsBuiltin →
      Yields (expandNode Expand.expand {} (.ofCall c) : Expand env Node) root →
      P [env.scene] root)
    (hrefresh : ∀ (env : Env) past batch root out, env.macros.IsBuiltin → P past root →
      Yields (refreshNode batch root : Expand env _) out → P (env.scene :: past) out.1)
    (hidle : ∀ scene past root, P past root → P (scene :: past) root)
    (h : Grown s c past lib tree) : P past tree.root := by
  induction h with
  | render hs hb h =>
    obtain ⟨store, hs', -, hrun⟩ := render_eq_some h
    obtain rfl := Option.some.inj (hs.symm.trans hs')
    exact hrender _ _ hb (Library.runOn_eq_some hrun).1
  | change _ _ ih => exact ih
  | @refresh _ lib lib' store tree tree' batch log h hs hr ih =>
    by_cases he : batch.isEmpty
    · rw [LiveTree.refresh, if_pos he] at hr
      cases hr
      exact hidle _ _ _ ih
    · obtain ⟨hstore, hb⟩ := h.store
      obtain ⟨store', hs', -, hrun⟩ := refresh_eq_some (by simpa using he) hr
      obtain ⟨t, root, nextId, tally⟩ := tree
      obtain rfl : t = s := hstore
      obtain rfl := Option.some.inj (hs.symm.trans hs')
      exact hrefresh _ _ _ _ (tree'.root, log) (hb.of_store? hs) ih
        (Library.runOn_eq_some hrun).1

end LiveTree

end Notebook
