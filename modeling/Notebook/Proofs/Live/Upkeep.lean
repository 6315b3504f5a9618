import Notebook.Proofs.Live.Refresh
import Notebook.Proofs.Store.Edits
import Notebook.Proofs.Store.Titles

/-! # Live trees stay up to date

A live tree is rendered once and then refreshed, any number of times and with any changes of the
library in between. If each batch has what changed since the refresh before, the tree shows what
a tree would that is rendered anew.
-/

namespace Notebook

variable {κ : Type} {s : StoreId} {c : Call}

namespace Library

variable {lib lib' : Library κ}

def IsBuiltin (lib : Library κ) (s : StoreId) : Prop :=
  ∃ store, lib.store? s = some store ∧ store.macros.IsBuiltin

def sceneWith (seen : Title → Option Note) (store : Store κ) : Scene :=
  ⟨seen, store.rules, store.macros⟩

theorem scene_env (lib : Library κ) (s : StoreId) (store : Store κ) :
    (lib.env s store).scene = sceneWith (lib.get s) store := rfl

variable {α : Type} {store : Store κ} {nextId nextId' : NodeId} {tally tally' : Tally}
  {x : Expand (lib.env s store) α} {a : α}

theorem runOn_eq_some (h : lib.runOn s store nextId tally x = some (a, nextId', tally', lib')) :
    Expand.Yields x a ∧ ∃ cache counts, lib' =
      { lib.update s fun _ => { store with cache := cache } with parseCounts := counts } := by
  obtain ⟨⟨b, p⟩, hx, hr⟩ := Option.bind_eq_some_iff.1 h
  cases hr
  exact ⟨⟨_, p, hx⟩, p.cache, p.parseCounts, rfl⟩

theorem exists_runOn (hx : Expand.Total x) (nextId : NodeId) (tally : Tally) :
    ∃ a nextId' tally' lib',
      lib.runOn s store nextId tally x = some (a, nextId', tally', lib') := by
  obtain ⟨a, p, h⟩ := hx ⟨nextId, tally, store.cache, lib.parseCounts⟩
  exact ⟨a, p.nextId, p.tally, _, Option.bind_eq_some_iff.2 ⟨(a, p), h, rfl⟩⟩

theorem store?_runOn (hs : lib.store? s = some store)
    (h : lib.runOn s store nextId tally x = some (a, nextId', tally', lib')) :
    ∃ cache, ∀ t, lib'.store? t =
      if s = t then some { store with cache := cache } else lib.store? t := by
  obtain ⟨-, cache, counts, rfl⟩ := runOn_eq_some h
  refine ⟨cache, fun t => ?_⟩
  change (lib.update s _).store? t = _
  rw [store?_update]
  split
  · next ht => rw [← ht, hs, Option.map_some]
  · rfl

theorem sameNotes_runOn (hs : lib.store? s = some store)
    (h : lib.runOn s store nextId tally x = some (a, nextId', tally', lib')) :
    SameNotes lib lib' := by
  obtain ⟨cache, ht⟩ := store?_runOn hs h
  obtain ⟨-, cache', counts, rfl⟩ := runOn_eq_some h
  refine ⟨fun t => ?_, fun t => ?_, (maxDepth_update lib s _).symm⟩
  · rw [ht]
    split
    · next heq => rw [← heq, hs]; rfl
    · rfl
  · rw [fallbacks, fallbacks, ht]
    split
    · next heq => rw [← heq, hs]; rfl
    · rfl

end Library

namespace LiveTree

/-- How a live tree of a call comes about, with the notes that titles resolved to when it was last
rendered or refreshed. In between a library may change in any way that does not touch the rules of
the tree's store. A batch may have more than what changed. -/
inductive Live (s : StoreId) (c : Call) : (Title → Option Note) → Library κ → LiveTree → Prop
  | render {lib lib' : Library κ} {tree : LiveTree} (hb : lib.IsBuiltin s)
      (h : render lib s c = some (tree, lib')) : Live s c (lib'.get s) lib' tree
  | change {seen : Title → Option Note} {lib lib' : Library κ} {tree : LiveTree}
      (h : Live s c seen lib tree) (hr : lib'.rules? s = lib.rules? s) : Live s c seen lib' tree
  | refresh {seen : Title → Option Note} {lib lib' : Library κ} {tree tree' : LiveTree}
      {batch : Batch} {log : RefreshLog} (h : Live s c seen lib tree)
      (hc : ∀ t, lib.get s t ≠ seen t → batch.contains t)
      (hr : tree.refresh lib batch = some (log, tree', lib')) : Live s c (lib'.get s) lib' tree'

/-- The tree has the skeleton of what its call stands for with the given notes. -/
structure Upheld (s : StoreId) (c : Call) (seen : Title → Option Note) (lib : Library κ)
    (tree : LiveTree) : Prop where
  store : tree.store = s
  shows : ∃ store, lib.store? s = some store ∧ store.macros.IsBuiltin ∧
    ∃ shown, (Library.sceneWith seen store).Shows {} (.ofCall c) shown ∧
      tree.root.skeleton = shown.skeleton

section

variable {lib lib' : Library κ} {seen : Title → Option Note} {tree tree' : LiveTree}
  {batch : Batch} {log : RefreshLog}

theorem render_eq_some (h : render lib s c = some (tree, lib')) :
    ∃ store, lib.store? s = some store ∧ tree.store = s ∧
      lib.runOn s store 1 {} (Expand.expandNode Expand.expand {} (.ofCall c)) =
        some (tree.root, tree.nextId, tree.tally, lib') := by
  obtain ⟨store, hs, h⟩ := Option.bind_eq_some_iff.1 h
  obtain ⟨⟨root, nextId, tally, lib₁⟩, hrun, h⟩ := Option.bind_eq_some_iff.1 h
  cases h
  exact ⟨store, hs, rfl, hrun⟩

theorem exists_render (hb : lib.IsBuiltin s) (c : Call) :
    ∃ tree lib', render lib s c = some (tree, lib') := by
  obtain ⟨store, hs, hbuiltin⟩ := hb
  have ht : Expand.Total (Expand.expandNode Expand.expand {} (.ofCall c) :
      Expand (lib.env s store) Node) :=
    Expand.total_expandNode _ fun c _ =>
      Expand.total_expand hbuiltin (lib.env_isCounted s store) {} c
  obtain ⟨root, nextId, tally, lib', h⟩ := Library.exists_runOn ht 1 {}
  refine ⟨⟨s, root, nextId, tally⟩, lib', ?_⟩
  simp [render, hs, h]

theorem refresh_eq_some (hb : batch.isEmpty = false)
    (h : tree.refresh lib batch = some (log, tree', lib')) :
    ∃ store, lib.store? tree.store = some store ∧ tree'.store = tree.store ∧
      lib.runOn tree.store store tree.nextId tree.tally (Expand.refreshNode batch tree.root) =
        some ((tree'.root, log), tree'.nextId, tree'.tally, lib') := by
  rw [refresh, if_neg (by simp [hb])] at h
  obtain ⟨store, hs, h⟩ := Option.bind_eq_some_iff.1 h
  obtain ⟨⟨⟨root, log'⟩, nextId, tally, lib₁⟩, hrun, h⟩ := Option.bind_eq_some_iff.1 h
  cases h
  exact ⟨store, hs, rfl, hrun⟩

theorem exists_refresh (hb : lib.IsBuiltin tree.store) (batch : Batch) :
    ∃ log tree' lib', tree.refresh lib batch = some (log, tree', lib') := by
  obtain ⟨store, hs, hbuiltin⟩ := hb
  by_cases he : batch.isEmpty
  · exact ⟨_, _, _, if_pos he⟩
  · have ht : Expand.Total (Expand.refreshNode batch tree.root :
        Expand (lib.env tree.store store) _) :=
      Expand.total_refreshNode hbuiltin (lib.env_isCounted tree.store store) batch _
    obtain ⟨⟨root, log⟩, nextId, tally, lib', h⟩ :=
      Library.exists_runOn ht tree.nextId tree.tally
    refine ⟨log, { tree with root, nextId, tally }, lib', ?_⟩
    rw [refresh, if_neg he]
    simp [hs, h]

theorem Upheld.isBuiltin (h : Upheld s c seen lib tree) : lib.IsBuiltin s := by
  obtain ⟨store, hs, hb, -⟩ := h.shows
  exact ⟨store, hs, hb⟩

theorem Upheld.render (hb : lib.IsBuiltin s) (h : render lib s c = some (tree, lib')) :
    Upheld s c (lib'.get s) lib' tree := by
  obtain ⟨store, hs, hstore, hrun⟩ := render_eq_some h
  obtain ⟨store', hs', hbuiltin⟩ := hb
  obtain rfl := Option.some.inj (hs.symm.trans hs')
  obtain ⟨cache, ht⟩ := Library.store?_runOn hs hrun
  have hget : lib.get s = lib'.get s := funext fun t => (Library.sameNotes_runOn hs hrun).get s t
  have hshows := Expand.shows_of_expand hbuiltin (Library.runOn_eq_some hrun).1
  rw [Library.scene_env, hget] at hshows
  have hs₁ : lib'.store? s = some { store with cache := cache } := by rw [ht, if_pos rfl]
  exact ⟨hstore, _, hs₁, hbuiltin, _, hshows, (Node.skeleton_outline _).symm⟩

theorem Upheld.change (h : Upheld s c seen lib tree) (hr : lib'.rules? s = lib.rules? s) :
    Upheld s c seen lib' tree := by
  obtain ⟨store, hs, hb, shown, hshows, hroot⟩ := h.shows
  obtain ⟨store', hs', hsettings, hparsers, hmacros⟩ := Library.exists_store?_of_rules? hs hr
  refine ⟨h.store, store', hs', hmacros ▸ hb, shown, ?_, hroot⟩
  rwa [Library.sceneWith, Store.rules, hsettings, hparsers, hmacros]

theorem sceneWith_changesIn {store : Store κ} (hc : ∀ t, lib.get s t ≠ seen t → batch.contains t) :
    (Library.sceneWith seen store).ChangesIn batch (lib.env s store).scene :=
  ⟨rfl, rfl, fun t ht => hc t (Ne.symm ht)⟩

theorem get_eq_of_isEmpty (hc : ∀ t, lib.get s t ≠ seen t → batch.contains t)
    (he : batch.isEmpty) : lib.get s = seen := by
  funext t
  by_contra ht
  exact Catalog.exists_contains_iff.1 ⟨t, hc t ht⟩ (Catalog.isEmpty_iff.1 he)

theorem Upheld.refresh (h : Upheld s c seen lib tree)
    (hc : ∀ t, lib.get s t ≠ seen t → batch.contains t)
    (hr : tree.refresh lib batch = some (log, tree', lib')) :
    Upheld s c (lib'.get s) lib' tree' := by
  obtain ⟨store, hs, hb, shown, hshows, hroot⟩ := h.shows
  by_cases he : batch.isEmpty
  · rw [LiveTree.refresh, if_pos he] at hr
    cases hr
    rwa [get_eq_of_isEmpty hc he]
  · obtain ⟨store', hs', hstore, hrun⟩ := refresh_eq_some (by simpa using he) hr
    obtain ⟨root, nextId, tally⟩ := tree
    obtain rfl : s = _ := h.store.symm
    obtain rfl := Option.some.inj (hs.symm.trans hs')
    obtain ⟨cache, ht⟩ := Library.store?_runOn hs hrun
    have hget : lib.get s = lib'.get s := funext fun t => (Library.sameNotes_runOn hs hrun).get s t
    obtain ⟨shown', hshows', hroot'⟩ := Expand.shows_of_refreshNode hb (lib.env_isCounted s store)
      (sceneWith_changesIn hc) hshows hroot (Library.runOn_eq_some hrun).1
    rw [Library.scene_env, hget] at hshows'
    have hs₁ : lib'.store? s = some { store with cache := cache } := by rw [ht, if_pos rfl]
    exact ⟨hstore, _, hs₁, hb, shown', hshows', hroot'⟩

theorem Live.upheld (h : Live s c seen lib tree) : Upheld s c seen lib tree := by
  induction h with
  | render hb h => exact .render hb h
  | change _ hr ih => exact ih.change hr
  | refresh _ hc hr ih => exact ih.refresh hc hr

/-- A live tree that is refreshed with all that changed is the tree that a new rendering gives:
calls, reads, chains, scopes, text and structure are the same. Only ids and the classes of
transclusion frames may differ, and calls must not stand among parameters. -/
theorem Live.refresh_eq_render (h : Live s c seen lib tree)
    (hc : ∀ t, lib.get s t ≠ seen t → batch.contains t) :
    ∃ log tree' lib' fresh lib'', tree.refresh lib batch = some (log, tree', lib') ∧
      LiveTree.render lib' s c = some (fresh, lib'') ∧
      ((∀ d ∈ tree'.root.calls, d.isLiteral) → (∀ d ∈ fresh.root.calls, d.isLiteral) →
        tree'.root.outline = fresh.root.outline) := by
  have hup := h.upheld
  have hb := hup.isBuiltin
  rw [← hup.store] at hb
  obtain ⟨log, tree', lib', hr⟩ := exists_refresh hb batch
  have hup' := hup.refresh hc hr
  obtain ⟨fresh, lib'', hfresh⟩ := exists_render hup'.isBuiltin c
  refine ⟨log, tree', lib', fresh, lib'', hr, hfresh, fun hlive hlit => ?_⟩
  obtain ⟨store, hs, hb', shown, hshows, hroot⟩ := hup'.shows
  obtain ⟨store', hs', -, hrun⟩ := render_eq_some hfresh
  obtain rfl := Option.some.inj (hs.symm.trans hs')
  have hshows' := Expand.shows_of_expand hb' (Library.runOn_eq_some hrun).1
  obtain rfl := hshows.unique hshows'
  rw [← Node.skeleton_eq_outline _ hlive, ← Node.skeleton_eq_outline _ hlit, hroot,
    Node.skeleton_outline]

theorem Live.edit (h : Live s c seen lib tree) (t : StoreId) (e : Edit) :
    Live s c seen (lib.edit t e) tree :=
  h.change (Library.rules?_edit lib t e s)

end

def emptyNotebook : Library Unit :=
  { stores := [({} : Store Unit).installBuiltins] }

theorem isBuiltin_emptyNotebook : emptyNotebook.IsBuiltin 0 :=
  ⟨_, rfl, Store.isBuiltin_installBuiltins MacroTable.isBuiltin_empty⟩

theorem contains_of_get_edit {lib : Library κ} {s u : StoreId} {e : Edit} (kind : ChangeKind)
    {t : Title} (h : (lib.edit s e).get u t ≠ lib.get u t) :
    (Batch.record ∅ e.title kind).contains t := by
  by_cases ht : t = e.title
  · simp [ht, Batch.record, Catalog.contains]
  · exact absurd (congrArg (Option.map Saved.note) (Library.lookup_edit_of_ne ht u)) h

def addedNote : Edit :=
  .add { title := "a", text := "x" }

theorem refresh_eq_render_added :
    ∃ tree lib log tree' lib' fresh lib'',
      render emptyNotebook 0 (transclusion "a") = some (tree, lib) ∧
      tree.refresh (lib.edit 0 addedNote) (Batch.record ∅ "a" .added) = some (log, tree', lib') ∧
      render lib' 0 (transclusion "a") = some (fresh, lib'') ∧
      tree'.root.outline = fresh.root.outline ∧ tree.text = "" ∧ tree'.text = "x" := by
  obtain ⟨tree, lib, h⟩ := exists_render isBuiltin_emptyNotebook (transclusion "a")
  have hlive : Live 0 (transclusion "a") (lib.get 0) lib tree :=
    .render isBuiltin_emptyNotebook h
  obtain ⟨log, tree', lib', fresh, lib'', hr, hfresh, heq⟩ :=
    (hlive.edit 0 addedNote).refresh_eq_render fun _ => contains_of_get_edit .added
  have hcomputed : ((render emptyNotebook 0 (transclusion "a")).bind fun r =>
      (r.1.refresh (r.2.edit 0 addedNote) (Batch.record ∅ "a" .added)).bind fun r' =>
        (render r'.2.2 0 (transclusion "a")).map fun r'' =>
          (r'.2.1.root.calls.all Call.isLiteral, r''.1.root.calls.all Call.isLiteral,
            r.1.text, r'.2.1.text)) = some (true, true, "", "x") := by
    decide +kernel
  have hr : tree.refresh (lib.edit 0 addedNote) (Batch.record ∅ "a" .added) =
      some (log, tree', lib') := hr
  simp only [h, hr, hfresh, Option.bind_some, Option.map_some, Option.some.injEq, Prod.mk.injEq,
    List.all_eq_true] at hcomputed
  obtain ⟨hlit, hlit', htext, htext'⟩ := hcomputed
  exact ⟨tree, lib, log, tree', lib', fresh, lib'', h, hr, hfresh, heq hlit hlit', htext, htext'⟩

end LiveTree

end Notebook
