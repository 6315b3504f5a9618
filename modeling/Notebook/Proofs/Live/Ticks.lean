import Notebook.CommandLine.Reply
import Notebook.Proofs.Opening
import Notebook.Proofs.Live.Locality
import Notebook.Proofs.Store.Pending

/-! # A watch shows what is new

A watch writes the clock note at each tick and has its tree refreshed for that change alone. It
shows the tree again exactly if a call in it has read the clock note, and what it has shown last
is always what a new rendering would show.
-/

namespace Notebook

namespace Library

variable {κ : Type} {lib lib' : Library κ} {s : StoreId} {store : Store κ}
  {α : Type} {nextId nextId' : NodeId} {tally tally' : Tally} {x : Expand (lib.env s store) α}
  {a : α}

theorem sameLinks_runOn (hs : lib.store? s = some store)
    (h : lib.runOn s store nextId tally x = some (a, nextId', tally', lib')) :
    SameLinks lib lib' := by
  have hsame := sameNotes_runOn hs h
  obtain ⟨cache, ht⟩ := store?_runOn hs h
  refine ⟨hsame.fallbacks, fun t => ?_, hsame.maxDepth⟩
  rw [overlays, overlays, ht]
  split
  · next heq => rw [← heq, hs]; rfl
  · rfl

end Library

namespace LiveTree

variable {κ : Type} {s : StoreId} {c : Call} {seen : Title → Option Note} {lib : Library κ}
  {tree : LiveTree}

theorem Live.text_eq_render (h : Live s c (lib.get s) lib tree) :
    ∃ fresh lib', LiveTree.render lib s c = some (fresh, lib') ∧
      ((∀ d ∈ fresh.root.calls, d.isLiteral) → tree.text = fresh.text) := by
  have hup := h.upheld
  obtain ⟨fresh, lib', hfresh⟩ := exists_render hup.isBuiltin c
  refine ⟨fresh, lib', hfresh, fun hlit => ?_⟩
  obtain ⟨store, hs, hb, shown, hshows, hroot⟩ := hup.shows
  obtain ⟨store', hs', -, hrun⟩ := render_eq_some hfresh
  obtain rfl := Option.some.inj (hs.symm.trans hs')
  have hshows' := Expand.shows_of_expand hb (Library.runOn_eq_some hrun).1
  obtain rfl := hshows.unique hshows'
  rw [Node.skeleton_outline] at hroot
  rw [text, text, ← Node.plainText_outline, Node.outline_eq_of_skeleton hroot hlit,
    Node.plainText_outline]

/-- A call in the tree has read the title. -/
def HasRead (tree : LiveTree) (title : Title) : Prop :=
  ∃ id d t content, Node.call id d (some t) content ∈ tree.root.walk ∧ t.reads.Covers title

theorem exists_stale_iff (tree : LiveTree) (title : Title) (kind : ChangeKind) :
    (∃ node ∈ tree.root.walk, node.isStale (Batch.record ∅ title kind)) ↔ tree.HasRead title := by
  have hcontains : ∀ t, Catalog.contains (Batch.record ∅ title kind) t ↔ t = title := by
    intro t
    simp only [Batch.record, Catalog.contains, Catalog.get?_insert]
    split <;> simp_all
  have hchanged : ∀ reads : Reads,
      reads.hasChanged (Batch.record ∅ title kind) ↔ reads.Covers title := by
    intro reads
    simp only [Reads.hasChanged_iff, hcontains, exists_eq_left]
  constructor
  · rintro ⟨node, hmem, hs⟩
    cases node with
    | call id d trace content =>
      cases trace with
      | none => cases hs
      | some t => exact ⟨id, d, t, content, hmem, (hchanged _).1 hs⟩
    | text | element | error => cases hs
  · rintro ⟨id, d, t, content, hmem, hreads⟩
    exact ⟨_, hmem, (hchanged _).2 hreads⟩

/-- A refresh for one title expands something anew exactly if a call has read the title, and
otherwise it keeps the text. -/
theorem Live.refresh_title (h : Live s c seen lib tree) (title : Title) (kind : ChangeKind) :
    ∃ log tree' lib', tree.refresh lib (Batch.record ∅ title kind) = some (log, tree', lib') ∧
      (log.reexecuted = 0 ↔ ¬ tree.HasRead title) ∧
      (log.reexecuted = 0 → tree'.text = tree.text) := by
  obtain ⟨past, hg⟩ := h.grown
  have hbatch : (Batch.record ∅ title kind).isEmpty = false := rfl
  obtain ⟨store, log, tree', lib', pairs, -, hr, -, -, hcount, -, -, htext⟩ :=
    hg.refresh_locality hbatch
  refine ⟨log, tree', lib', hr, ?_, htext⟩
  rw [← exists_stale_iff tree title kind, ← Node.exists_stale_met, hcount, List.countP_eq_zero]
  simp

end LiveTree

namespace Bus

variable {κ σ : Type} {bus : Bus κ} {listeners : List (Listener κ)} {l : Listener κ}

theorem AtRest.checkIn_checkOut (h : bus.AtRest listeners) :
    (bus.checkOut.checkIn listeners).AtRest listeners := by
  refine ⟨?_, rfl, rfl⟩
  simp [checkIn, checkOut, h.removed]

theorem flush_eq_of_atRest {access : Access σ κ} {invoke : Listener κ → Batch → σ → σ} {s : σ}
    (h : (access.get s).AtRest [l]) (hp : (access.get s).pending.isEmpty = false)
    (hl : l.filter.isMatch (access.get s).pending)
    (hout : access.get (access.modify checkOut s) = (access.get s).checkOut) :
    flush access invoke s = ((access.get s).pending, access.modify (checkIn [l])
      (invoke l (access.get s).pending (access.modify checkOut s))) := by
  have hremoved : (access.get (access.modify checkOut s)).removed = [] := by
    rw [hout]
    exact h.removed
  simp [flush, dispatch, h.dispatching, h.listeners_eq, hp, hl, hremoved]

end Bus

namespace Library

variable {κ : Type} {lib lib' : Library κ} {s : StoreId}

theorem SameButBuses.get (h : SameButBuses lib lib') (t : StoreId) : lib.get t = lib'.get t := by
  funext title
  exact congrArg (Option.map Saved.note)
    (lookup_congr h.fallbacks h.length (fun u => h.own? u title))

theorem Linked.get_edit_add (h : lib.Linked) (hs : s < lib.stores.length) (note : Note) :
    (lib.edit s (.add note)).get s note.title = some note := by
  have hlinks := sameLinks_edit lib s (.add note)
  have hown := own?_edit_self (e := .add note) hs
  rw [get, (h.of_sameLinks hlinks).lookup_eq (hlinks.length ▸ hs)]
  simp only [Edit.title] at hown
  rw [hown]
  rfl

end Library

namespace LiveTree

variable {κ : Type} {lib lib' : Library κ} {store : Store κ} {tree tree' : LiveTree}
  {batch : Batch} {log : RefreshLog}

theorem library_of_refresh (hs : lib.store? tree.store = some store)
    (hb : batch.isEmpty = false) (h : tree.refresh lib batch = some (log, tree', lib')) :
    Library.SameLinks lib lib' ∧ Library.SameNotes lib lib' ∧
      ∃ cache, lib'.store? tree.store = some { store with cache := cache } := by
  obtain ⟨store', hs', -, hrun⟩ := refresh_eq_some hb h
  obtain rfl := Option.some.inj (hs.symm.trans hs')
  obtain ⟨cache, ht⟩ := Library.store?_runOn hs hrun
  exact ⟨Library.sameLinks_runOn hs hrun, Library.sameNotes_runOn hs hrun, cache,
    by rw [ht, if_pos rfl]⟩

end LiveTree

namespace Watch

open LiveTree (Live transclusion)
open Library (SameButBuses)

variable {notebook : OpenNotebook} {title : Title} {w : Watch}

/-- The watch of a title in a notebook, between two ticks. -/
structure Watching (notebook : OpenNotebook) (title : Title) (w : Watch) : Prop where
  store : w.store = notebook.store
  clockTitle : w.clockTitle = notebook.settings.watch.clockTitle
  reachable : w.library.Reachable
  attended : ∃ l : Listener Unit, l.filter = .all ∧ w.library.Attended [l] w.store
  pending : w.library.pending w.store = ∅
  live : Live w.store (transclusion title) (w.library.get w.store) w.library w.tree
  notes : ∀ t, t ≠ w.clockTitle →
    w.library.get w.store t = notebook.library.get notebook.store t

/-- A tick writes the clock note. It shows the text of the tree if a call in the tree had read
that, and otherwise it shows nothing and keeps the text. -/
structure Ticked (w : Watch) (time : String) (w' : Watch) : Prop where
  clock : w'.library.get w.store w.clockTitle = some (clockNote w.clockTitle time)
  shown : w.tree.HasRead w.clockTitle → w'.shown = some w'.tree.text
  kept : ¬ w.tree.HasRead w.clockTitle → w'.shown = none ∧ w'.tree.text = w.tree.text

theorem flush_hear {store : Store Unit} {l : Listener Unit}
    (hs : w.library.store? w.store = some store) (hb : store.bus.AtRest [l])
    (hl : l.filter = .all) (hp : store.bus.pending.isEmpty = false) {log : RefreshLog}
    {tree : LiveTree} {lib : Library Unit}
    (hr : w.tree.refresh (w.library.update w.store (Store.withBus Bus.checkOut))
      store.bus.pending = some (log, tree, lib)) :
    (Bus.flush (busAccess w.store) (fun _ => hear) w).2 =
      { w with
        library := lib.update w.store (Store.withBus (Bus.checkIn [l]))
        tree
        shown := if log.reexecuted = 0 then none else some tree.text } := by
  have hget : (busAccess w.store).get w = store.bus := by
    simp [busAccess, Library.busAccess, hs]
  have hout : (busAccess w.store).get ((busAccess w.store).modify Bus.checkOut w) =
      store.bus.checkOut := by
    simp [busAccess, Library.busAccess, Library.store?_update_self, hs, Store.withBus]
  have hmodify : (busAccess w.store).modify Bus.checkOut w =
      { w with library := w.library.update w.store (Store.withBus Bus.checkOut) } := rfl
  rw [Bus.flush_eq_of_atRest (l := l) (hget ▸ hb) (hget ▸ hp) (by rw [hl]; rfl) (hget ▸ hout),
    hget, hmodify]
  simp only [hear, hr]
  rfl

theorem Watching.flush (h : Watching notebook title w) {lib : Library Unit}
    (hlinks : Library.SameLinks w.library lib)
    (hattended : ∀ l : Listener Unit, w.library.Attended [l] w.store → lib.Attended [l] w.store)
    (hlive : Live w.store (transclusion title) (w.library.get w.store) lib w.tree)
    {kind : ChangeKind} (hpending : lib.pending w.store = Batch.record ∅ w.clockTitle kind)
    (hget : ∀ t, t ≠ w.clockTitle → lib.get w.store t = w.library.get w.store t) :
    ∃ w', w' = (Bus.flush (busAccess w.store) (fun _ => hear)
        { w with library := lib, shown := none }).2 ∧
      Watching notebook title w' ∧ w'.library.get w.store = lib.get w.store ∧
      (w.tree.HasRead w.clockTitle → w'.shown = some w'.tree.text) ∧
      (¬ w.tree.HasRead w.clockTitle → w'.shown = none ∧ w'.tree.text = w.tree.text) := by
  obtain ⟨l, hl, ha⟩ := h.attended
  obtain ⟨store, hs, hb, hbus⟩ := hattended l ha
  have hbatch : store.bus.pending = Batch.record ∅ w.clockTitle kind := by
    rw [← hpending, Library.pending, hs]
    rfl
  have hstore : w.tree.store = w.store := hlive.upheld.store
  have hsame := Library.sameButBuses_withBus lib w.store Bus.checkOut
  have hs₂ : (lib.update w.store (Store.withBus Bus.checkOut)).store? w.store =
      some (store.withBus Bus.checkOut) := by
    rw [Library.store?_update_self, hs, Option.map_some]
  have hlive₂ := hlive.change (hsame.rules? w.store).symm
  obtain ⟨log, tree, lib₃, hr, hzero, htext⟩ := hlive₂.refresh_title w.clockTitle kind
  obtain ⟨hlinks₃, hnotes₃, cache, hs₃⟩ :=
    LiveTree.library_of_refresh (by rw [hstore]; exact hs₂) rfl hr
  rw [hstore] at hs₃
  have hlive₃ := hlive₂.refresh (fun t ht => by
    rw [← hsame.get] at ht
    by_cases hclock : t = w.clockTitle
    · simp [hclock, Batch.record, Catalog.contains]
    · exact absurd (hget t hclock) ht) hr
  have hsame₄ := Library.sameButBuses_withBus lib₃ w.store (Bus.checkIn [l])
  have hget₄ : (lib₃.update w.store (Store.withBus (Bus.checkIn [l]))).get w.store =
      lib.get w.store := by
    rw [← hsame₄.get, hsame.get]
    exact funext fun t => (hnotes₃.get w.store t).symm
  refine ⟨_, (flush_hear (w := { w with library := lib, shown := none }) hs hbus hl
    (by rw [hbatch]; rfl) (hbatch ▸ hr)).symm, ⟨h.store, h.clockTitle, ?_, ⟨l, hl, ?_⟩, ?_, ?_,
      fun t ht => ?_⟩, hget₄, fun hread => ?_, fun hread => ?_⟩
  · exact h.reachable.change
      ((hlinks.trans hsame.sameLinks).trans (hlinks₃.trans hsame₄.sameLinks))
  · exact ⟨_, (Library.store?_update_self ..).trans (congrArg (Option.map _) hs₃), hb,
      hbus.checkIn_checkOut⟩
  · rw [Library.pending, Library.store?_update_self, hs₃]
    rfl
  · dsimp only
    rw [hget₄, hsame.get, funext fun t => hnotes₃.get w.store t]
    exact hlive₃.change (hsame₄.rules? w.store).symm
  · exact (congrFun hget₄ t).trans ((hget t ht).trans (h.notes t ht))
  · exact if_neg fun h0 => hzero.1 h0 hread
  · exact ⟨if_pos (hzero.2 hread), htext (hzero.2 hread)⟩

theorem Watching.tick (h : Watching notebook title w) (time : String) :
    Watching notebook title (w.tick time) ∧ Ticked w time (w.tick time) := by
  obtain ⟨_, -, ha⟩ := h.attended
  have hlinked := h.reachable.linked
  have hadd : w.library.add w.store (clockNote w.clockTitle time) =
      w.library.edit w.store (.add (clockNote w.clockTitle time)) := rfl
  have hpending := (hlinked.pending_edit_records ha.lt (.add (clockNote w.clockTitle time))
    w.store).1 (.inl rfl)
  rw [h.pending] at hpending
  obtain ⟨w', hw', hwatching, hget, hshown, hkept⟩ := h.flush
    (Library.sameLinks_edit w.library w.store (.add (clockNote w.clockTitle time)))
    (fun l hl => hl.edit _ _) (h.live.edit _ _) hpending
    fun t ht => congrArg (Option.map Saved.note)
      (Library.lookup_edit_of_ne (e := .add (clockNote w.clockTitle time)) ht w.store)
  have htick : w.tick time = w' := by
    rw [hw', Watch.tick, hadd]
  have hwritten := hlinked.get_edit_add ha.lt (clockNote w.clockTitle time)
  rw [htick]
  exact ⟨hwatching, (congrFun hget _).trans hwritten, hshown, hkept⟩

theorem exists_start (h : notebook.library.Opened notebook.store)
    (hp : notebook.library.pending notebook.store = ∅) (title : Title) :
    ∃ w lib, Watch.start notebook title = some w ∧ notebook.render title = some (w.tree, lib) ∧
      w.shown = some w.tree.text ∧ Watching notebook title w := by
  have hb := h.attended.isBuiltin
  obtain ⟨tree, lib, hr⟩ := LiveTree.exists_render hb (transclusion title)
  have hrender : notebook.render title = some (tree, lib) := hr
  obtain ⟨store, hs, -, hrun⟩ := LiveTree.render_eq_some hr
  obtain ⟨store', hs', hbuiltin, hbus⟩ := h.attended
  obtain rfl := Option.some.inj (hs.symm.trans hs')
  obtain ⟨cache, ht⟩ := Library.store?_runOn hs hrun
  have hlinks := Library.sameLinks_runOn hs hrun
  have hnotes := Library.sameNotes_runOn hs hrun
  have hs₁ : lib.store? notebook.store = some { store with cache := cache } := by
    rw [ht, if_pos rfl]
  have hsame := Library.sameButBuses_withBus lib notebook.store
    fun bus => (bus.subscribe .all ()).2
  refine ⟨_, lib, by rw [Watch.start, hrender]; rfl, hrender, rfl, ⟨rfl, rfl, ?_,
    ⟨⟨store.bus.nextId, .all, ()⟩, rfl, ?_⟩, ?_, ?_, fun t _ => ?_⟩⟩
  · exact h.reachable.change (hlinks.trans hsame.sameLinks)
  · refine ⟨_, (Library.store?_update_self ..).trans (congrArg (Option.map _) hs₁), hbuiltin, ?_,
      hbus.removed, hbus.dispatching⟩
    simp [Store.withBus, Bus.subscribe, hbus.listeners_eq]
  · rw [Library.pending, hs] at hp
    change Library.pending (lib.update _ _) _ = ∅
    rw [Library.pending, Library.store?_update_self, hs₁]
    exact hp
  · have hlive : Live notebook.store (transclusion title) (lib.get notebook.store) lib tree :=
      .render hb hr
    have hlive' := hlive.change (hsame.rules? notebook.store).symm
    rw [hsame.get] at hlive'
    exact hlive'
  · change Library.get (lib.update _ _) _ t = _
    rw [← hsame.get]
    exact (hnotes.get notebook.store t).symm

def after (w : Watch) (times : List String) : Watch :=
  times.foldl (fun w time => w.tick time) w

theorem after_concat (w : Watch) (times : List String) (time : String) :
    w.after (times ++ [time]) = (w.after times).tick time := by
  simp [after]

theorem output_concat (w : Watch) (times : List String) (time : String) :
    w.output (times ++ [time]) = w.output times ++ ((w.after times).tick time).shown.toList := by
  induction times generalizing w with
  | nil => rfl
  | cons t times ih =>
    simp only [List.cons_append, output, ih, List.append_assoc]
    rfl

theorem Watching.after (h : Watching notebook title w) (times : List String) :
    Watching notebook title (w.after times) := by
  induction times generalizing w with
  | nil => exact h
  | cons time times ih => exact ih (h.tick time).1

theorem Watching.getLast?_output (h : Watching notebook title w)
    (hw : w.shown = some w.tree.text) (times : List String) :
    (w.output times).getLast? = some (w.after times).tree.text := by
  induction times using List.reverseRecOn with
  | nil =>
    rw [output, hw]
    rfl
  | append_singleton times time ih =>
    obtain ⟨-, -, hshown, hkept⟩ := (h.after times).tick time
    rw [output_concat, after_concat]
    by_cases hread : (w.after times).tree.HasRead (w.after times).clockTitle
    · rw [hshown hread]
      exact List.getLast?_concat ..
    · rw [(hkept hread).1, (hkept hread).2]
      simpa using ih

/-- What comes of one more tick: the notebook has a new clock note and is otherwise as it was
opened. If a call in the tree has read the clock note, one block is shown, and otherwise none. The
text of a new rendering is that block, or else what was shown last, if no call in that rendering
has calls among its parameters. -/
structure Current (notebook : OpenNotebook) (title : Title) (w : Watch) (times : List String)
    (time : String) : Prop where
  library : ∀ t, (w.after (times ++ [time])).library.get notebook.store t =
    if t = notebook.settings.watch.clockTitle then some (clockNote t time)
    else notebook.library.get notebook.store t
  text : ∃ fresh lib, LiveTree.renderNote (w.after (times ++ [time])).library notebook.store title =
      some (fresh, lib) ∧
    ((w.after times).tree.HasRead notebook.settings.watch.clockTitle →
      ∃ block, w.output (times ++ [time]) = w.output times ++ [block] ∧
        ((∀ d ∈ fresh.root.calls, d.isLiteral) → block = fresh.text)) ∧
    (¬ (w.after times).tree.HasRead notebook.settings.watch.clockTitle →
      w.output (times ++ [time]) = w.output times ∧
        ((∀ d ∈ fresh.root.calls, d.isLiteral) →
          (w.output times).getLast? = some fresh.text))

theorem Watching.current (h : Watching notebook title w) (hw : w.shown = some w.tree.text)
    (times : List String) (time : String) : Current notebook title w times time := by
  have hbefore := h.after times
  have hlast := h.getLast?_output hw times
  obtain ⟨hafter, hclock, hshown, hkept⟩ := hbefore.tick time
  rw [← after_concat] at hafter hclock hshown hkept
  rw [hbefore.store, hbefore.clockTitle] at hclock
  rw [hbefore.clockTitle] at hshown hkept
  refine ⟨fun t => ?_, ?_⟩
  · split
    · next ht => rw [ht, hclock]
    · next ht =>
      have hnote := hafter.notes t (hafter.clockTitle ▸ ht)
      rwa [hafter.store] at hnote
  · obtain ⟨fresh, lib, hfresh, htext⟩ := hafter.live.text_eq_render
    rw [hafter.store] at hfresh
    refine ⟨fresh, lib, hfresh, fun hread => ⟨_, ?_, htext⟩, fun hread => ⟨?_, fun hlit => ?_⟩⟩
    · rw [output_concat, ← after_concat, hshown hread]
      rfl
    · rw [output_concat, ← after_concat, (hkept hread).1]
      exact List.append_nil _
    · rw [hlast, ← (hkept hread).2, htext hlit]

/-- Whatever files a notebook is opened from, a watch shows a rendering of the title at first, and
after each tick what it has shown last is what a new rendering shows. -/
theorem reply_watch_current {settings : FileEntry} {notes : Option (String × FileEntry)}
    {notebook : OpenNotebook} (h : OpenNotebook.ofFiles settings notes = .ok notebook)
    (title : Option Title) :
    ∃ w, Watch.start notebook (notebook.titleOrRoot title) = some w ∧
      (∀ times intervalMs ticks,
        CommandLine.reply notebook times (.watch title intervalMs ticks) =
          some { lines := w.output (ticks.elim times fun n => times.take n) }) ∧
      (∃ lib, notebook.render (notebook.titleOrRoot title) = some (w.tree, lib)) ∧
      w.output [] = [w.tree.text] ∧
      ∀ times time, Current notebook (notebook.titleOrRoot title) w times time := by
  obtain ⟨hopened, hpending⟩ := OpenNotebook.opened_of_ofFiles h
  obtain ⟨w, lib, hstart, hrender, hshown, hwatching⟩ :=
    exists_start hopened hpending (notebook.titleOrRoot title)
  refine ⟨w, hstart, fun times intervalMs ticks => ?_, ⟨lib, hrender⟩, ?_,
    hwatching.current hshown⟩
  · cases ticks <;> simp [CommandLine.reply, CommandLine.startWatch, hstart]
  · rw [output, hshown]
    rfl

theorem reply_watch_default :
    ∃ notebook w fresh lib, OpenNotebook.ofFiles .missing none = .ok notebook ∧
      Watch.start notebook (notebook.titleOrRoot none) = some w ∧
      LiveTree.renderNote (w.after ["12:00"]).library notebook.store (notebook.titleOrRoot none) =
        some (fresh, lib) ∧
      CommandLine.reply notebook ["12:00", "12:01"] (.watch none none (some 1)) =
        some { lines := [w.tree.text, fresh.text] } := by
  obtain ⟨notebook, h⟩ : ∃ notebook, OpenNotebook.ofFiles .missing none = .ok notebook := ⟨_, rfl⟩
  obtain ⟨w, hstart, hreply, -, hfirst, hcurrent⟩ := reply_watch_current h none
  obtain ⟨fresh, lib, hfresh, hread, -⟩ := (hcurrent [] "12:00").text
  refine ⟨notebook, w, fresh, lib, h, hstart, hfresh, ?_⟩
  have hcomputed : ((OpenNotebook.ofFiles .missing none).toOption.bind fun notebook =>
      let title := notebook.titleOrRoot none
      (Watch.start notebook title).bind fun w =>
        (LiveTree.renderNote (w.after ["12:00"]).library notebook.store title).map fun r =>
          (w.tree.root.walk.any
            (Node.isStale (Batch.record ∅ notebook.settings.watch.clockTitle .added)),
          r.1.root.calls.all Call.isLiteral)) = some (true, true) := by
    decide +kernel
  simp only [List.nil_append] at hfresh
  simp only [h, Except.toOption, Option.bind_some, hstart, hfresh, Option.map_some,
    Option.some.injEq, Prod.mk.injEq, List.any_eq_true, List.all_eq_true] at hcomputed
  obtain ⟨block, hblock, htext⟩ := hread ((LiveTree.exists_stale_iff _ _ _).1 hcomputed.1)
  rw [hreply]
  rw [hfirst, htext hcomputed.2] at hblock
  exact congrArg (fun lines : List String => some ({ lines } : CommandLine.Output)) hblock

end Watch

end Notebook
