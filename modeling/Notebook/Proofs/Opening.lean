import Notebook.Opening
import Notebook.Proofs.Live.Growth

/-! # Opened notebooks

An opened notebook has only built-in macros, no store reaches itself, no change is pending and
nobody listens. It stays so while notes are loaded.
-/

namespace Notebook

/-- The bus is not dispatching, and these listeners wait at it. -/
structure Bus.AtRest {κ : Type} (listeners : List (Listener κ)) (bus : Bus κ) : Prop where
  listeners_eq : bus.listeners = listeners
  removed : bus.removed = []
  dispatching : bus.dispatching = false

theorem Store.installBuiltins_congr {κ α : Type} {g : Store κ → α}
    (hr : ∀ store keys parser, g (Store.register keys parser store) = g store)
    (hi : ∀ store m, g (Store.install m store) = g store) (store : Store κ) :
    g store.installBuiltins = g store := by
  rw [Store.installBuiltins]
  simp only [Macro.builtin, List.foldl_cons, List.foldl_nil, hi, hr]

namespace Library

variable {κ : Type} {lib : Library κ} {s : StoreId} {listeners : List (Listener κ)}

/-- The store has only built-in macros, and these listeners wait at its bus. -/
def Attended (listeners : List (Listener κ)) (s : StoreId) (lib : Library κ) : Prop :=
  ∃ store, lib.store? s = some store ∧ store.macros.IsBuiltin ∧ store.bus.AtRest listeners

theorem Attended.isBuiltin (h : lib.Attended listeners s) : lib.IsBuiltin s := by
  obtain ⟨store, hs, hb, -⟩ := h
  exact ⟨store, hs, hb⟩

theorem Attended.lt (h : lib.Attended listeners s) : s < lib.stores.length := by
  obtain ⟨store, hs, -⟩ := h
  exact lt_of_store? hs

theorem Attended.update (h : lib.Attended listeners s) {f : Store κ → Store κ}
    (hm : ∀ store, (f store).macros = store.macros)
    (hb : ∀ store, store.bus.AtRest listeners → (f store).bus.AtRest listeners) (t : StoreId) :
    (lib.update t f).Attended listeners s := by
  obtain ⟨store, hs, hbuiltin, hbus⟩ := h
  rw [Attended, store?_update]
  split
  · exact ⟨f store, by rw [hs, Option.map_some], hm store ▸ hbuiltin, hb store hbus⟩
  · exact ⟨store, hs, hbuiltin, hbus⟩

theorem Attended.withPending (h : lib.Attended listeners s) {f : Bus κ → Bus κ}
    (hf : ∀ bus, ∃ pending, f bus = { bus with pending }) (t : StoreId) :
    (lib.update t (Store.withBus f)).Attended listeners s := by
  refine h.update (fun _ => by rfl) (fun store hbus => ?_) t
  obtain ⟨pending, hp⟩ := hf store.bus
  rw [Store.withBus, hp]
  exact ⟨hbus.listeners_eq, hbus.removed, hbus.dispatching⟩

theorem announce_induction {P : Library κ → Prop} {title : Title} {kind : ChangeKind}
    (hstep : ∀ lib t, P lib → P (lib.update t (Store.enqueue title kind))) (h : P lib)
    (s : StoreId) : P (lib.announce s title kind) := by
  have hforward : ∀ bound t lib, P lib → P (forwardWithin title kind bound t lib) := by
    intro bound
    induction bound with
    | zero => exact fun _ _ h => h
    | succ bound ih =>
      intro t lib h
      rw [forwardWithin]
      generalize lib.overlays t = os
      induction os generalizing lib with
      | nil => exact h
      | cons o os ihos =>
        rw [List.foldl_cons]
        refine ihos _ ?_
        split
        · exact h
        · exact ih o _ (hstep lib o h)
  exact hforward _ s _ (hstep lib s h)

theorem Attended.edit (h : lib.Attended listeners s) (t : StoreId) (e : Edit) :
    (lib.edit t e).Attended listeners s := by
  have hput : ∀ serial, (lib.update t (e.apply serial)).Attended listeners s := fun serial =>
    h.update (fun store => congrArg (fun rules => rules.2.2) (e.rules_apply serial store))
      (fun store hbus => (Edit.bus_apply serial e store).symm ▸ hbus) t
  have hstep : ∀ title kind (lib : Library κ) u, lib.Attended listeners s →
      (lib.update u (Store.enqueue title kind)).Attended listeners s :=
    fun title kind lib u h => h.withPending (fun _ => ⟨_, rfl⟩) u
  cases e with
  | add note =>
    have hsaved : Attended listeners s { lib.update t (Store.put ⟨lib.nextSerial, note⟩) with
        nextSerial := lib.nextSerial + 1 } := hput lib.nextSerial
    exact announce_induction (hstep _ _) hsaved t
  | delete title => exact announce_induction (hstep _ _) (hput 0) t

theorem Attended.clearPending (h : lib.Attended listeners s) (t : StoreId) :
    (lib.clearPending t).Attended listeners s :=
  h.withPending (fun _ => ⟨_, rfl⟩) t

theorem Attended.addFallback (h : lib.Attended listeners s) (t f : StoreId) :
    ((lib.addFallback? t f).getD lib).Attended listeners s := by
  cases ha : lib.addFallback? t f with
  | none => exact h
  | some lib' =>
    obtain ⟨-, rfl⟩ := addFallback?_eq_some ha
    have hoverlay := h.update (f := fun store => { store with overlays := store.overlays ++ [t] })
      (fun _ => rfl) (fun _ hbus => hbus) f
    exact hoverlay.update (f := fun store => { store with fallbacks := store.fallbacks ++ [f] })
      (fun _ => rfl) (fun _ hbus => hbus) t

theorem Attended.addStore (h : lib.Attended listeners s) (store : Store κ) :
    (lib.addStore store).2.Attended listeners s := by
  obtain ⟨store', hs, hstore⟩ := h
  refine ⟨store', ?_, hstore⟩
  change (lib.stores ++ [store])[s]? = _
  rw [List.getElem?_append_left (lt_of_store? hs)]
  exact hs

theorem sameLinks_clearPending (lib : Library κ) (s : StoreId) :
    SameLinks lib (lib.clearPending s) := by
  have hsame : SameButBuses lib (lib.clearPending s) := fun t =>
    (map_store?_update (fun _ => by rfl) lib s t).symm
  exact hsame.sameLinks

theorem pending_clearPending (lib : Library κ) (s : StoreId) :
    (lib.clearPending s).pending s = ∅ := by
  rw [pending, Library.clearPending, store?_update_self]
  cases lib.store? s <;> rfl

/-- A store in a library whose links are in order. -/
structure Opened (lib : Library κ) (s : StoreId) : Prop where
  reachable : lib.Reachable
  attended : lib.Attended [] s

namespace Opened

theorem edits (h : lib.Opened s) (t : StoreId) (notes : List Note) :
    (notes.foldl (fun lib note => lib.add t note) lib).Opened s := by
  induction notes generalizing lib with
  | nil => exact h
  | cons note notes ih =>
    exact ih ⟨h.reachable.edit t (.add note), h.attended.edit t (.add note)⟩

theorem clearPending (h : lib.Opened s) (t : StoreId) : (lib.clearPending t).Opened s :=
  ⟨h.reachable.change (sameLinks_clearPending lib t), h.attended.clearPending t⟩

theorem addStore (h : lib.Opened s) {store : Store κ} (hf : store.fallbacks = [])
    (ho : store.overlays = []) : (lib.addStore store).2.Opened s :=
  ⟨h.reachable.addStore hf ho, h.attended.addStore store⟩

theorem new (h : lib.Reachable) {store : Store κ} (hf : store.fallbacks = [])
    (ho : store.overlays = []) (hm : store.macros.IsBuiltin) (hb : store.bus.AtRest []) :
    (lib.addStore store.installBuiltins).2.Opened lib.stores.length := by
  have hfallbacks := Store.installBuiltins_congr (g := Store.fallbacks) (fun _ _ _ => rfl)
    (fun _ _ => rfl) store
  have hoverlays := Store.installBuiltins_congr (g := Store.overlays) (fun _ _ _ => rfl)
    (fun _ _ => rfl) store
  have hbus := Store.installBuiltins_congr (g := Store.bus) (fun _ _ _ => rfl) (fun _ _ => rfl)
    store
  have hmacros := Store.isBuiltin_installBuiltins hm
  generalize store.installBuiltins = installed at hfallbacks hoverlays hbus hmacros
  have hs : (lib.addStore installed).2.store? lib.stores.length = some installed := by
    change (lib.stores ++ [installed])[lib.stores.length]? = _
    simp
  rw [hf] at hfallbacks
  rw [ho] at hoverlays
  exact ⟨h.addStore hfallbacks hoverlays, installed, hs, hmacros, hbus ▸ hb⟩

theorem addBuiltin (h : lib.Opened s) : (Builtin.addStore lib).2.Opened s := by
  have hstore : (lib.addStore (Store.installBuiltins {})).2.Opened s := h.addStore rfl rfl
  exact (hstore.edits _ Builtin.notes).clearPending _

theorem lt_addBuiltin (h : lib.Reachable) :
    (Builtin.addStore lib).1 < (Builtin.addStore lib).2.stores.length := by
  have hnew : (lib.addStore (Store.installBuiltins {})).2.Opened lib.stores.length :=
    new h rfl rfl MacroTable.isBuiltin_empty ⟨rfl, rfl, rfl⟩
  have hall := (hnew.edits lib.stores.length Builtin.notes).clearPending lib.stores.length
  exact hall.attended.lt

theorem addFallback (h : lib.Opened s) {f : StoreId} (hf : f < lib.stores.length) :
    ((lib.addFallback? s f).getD lib).Opened s := by
  refine ⟨?_, h.attended.addFallback s f⟩
  cases ha : lib.addFallback? s f with
  | none => exact h.reachable
  | some lib' => exact h.reachable.addFallback h.attended.lt hf ha

theorem fallBack (h : lib.Opened s) : (((Builtin.addStore lib).2.addFallback? s
    (Builtin.addStore lib).1).getD (Builtin.addStore lib).2).Opened s :=
  h.addBuiltin.addFallback (lt_addBuiltin h.reachable)

end Opened

end Library

namespace OpenNotebook

def bare (settings : Settings) : Library Unit :=
  (({} : Library Unit).addStore ({ settings := settings.page } : Store Unit).installBuiltins).2

theorem new_eq (settings : Settings) : OpenNotebook.new settings =
    ⟨settings, ((Builtin.addStore (bare settings)).2.addFallback? 0
      (Builtin.addStore (bare settings)).1).getD (Builtin.addStore (bare settings)).2, 0⟩ :=
  rfl

theorem opened_bare (settings : Settings) : (bare settings).Opened 0 :=
  .new (.empty rfl) rfl rfl MacroTable.isBuiltin_empty ⟨rfl, rfl, rfl⟩

theorem opened_new (settings : Settings) :
    (OpenNotebook.new settings).library.Opened (OpenNotebook.new settings).store := by
  rw [new_eq]
  dsimp only
  exact (opened_bare settings).fallBack

theorem opened_load {notebook : OpenNotebook} (h : notebook.library.Opened notebook.store)
    (notes : List Note) :
    (notebook.load notes).library.Opened notebook.store ∧
      (notebook.load notes).library.pending notebook.store = ∅ :=
  ⟨(h.edits _ notes).clearPending _, Library.pending_clearPending _ _⟩

/-- Whatever files a notebook is opened from, it is a new one into which notes have been loaded. -/
theorem exists_load_of_ofFiles {settings : FileEntry} {notes : Option (String × FileEntry)}
    {notebook : OpenNotebook} (h : OpenNotebook.ofFiles settings notes = .ok notebook) :
    ∃ loaded read, notebook = (OpenNotebook.new loaded).load read := by
  unfold OpenNotebook.ofFiles at h
  cases hs : (Settings.ofFileOrDefault settings).mapError OpenError.settings with
  | error e => simp [hs, Bind.bind, Except.bind] at h
  | ok loaded =>
    simp only [hs, Bind.bind, Except.bind] at h
    cases notes with
    | none =>
      cases h
      exact ⟨loaded, [], rfl⟩
    | some entry =>
      dsimp only at h
      cases hn : readNotes entry.1 entry.2 with
      | error e => simp [hn] at h
      | ok read =>
        simp only [hn] at h
        cases h
        exact ⟨loaded, read, rfl⟩

theorem opened_of_ofFiles {settings : FileEntry} {notes : Option (String × FileEntry)}
    {notebook : OpenNotebook} (h : OpenNotebook.ofFiles settings notes = .ok notebook) :
    notebook.library.Opened notebook.store ∧ notebook.library.pending notebook.store = ∅ := by
  obtain ⟨loaded, read, rfl⟩ := exists_load_of_ofFiles h
  exact opened_load (opened_new loaded) read

end OpenNotebook

end Notebook
