import Notebook.Store.Library

/-! # Changing one store

An update changes one store of a library. Whatever the change leaves alone in that store is left
alone in all of them, and lookups depend on the notes and the fallbacks only.
-/

namespace Notebook.Library

variable {κ : Type} {lib lib' : Library κ} {s t : StoreId} {f : Store κ → Store κ}

theorem store?_update (lib : Library κ) (s t : StoreId) (f : Store κ → Store κ) :
    (lib.update s f).store? t = if s = t then (lib.store? t).map f else lib.store? t := by
  simp only [store?, update, List.getElem?_modify]
  split <;> simp

theorem store?_of_lt (h : s < lib.stores.length) : ∃ store, lib.store? s = some store :=
  ⟨lib.stores[s], List.getElem?_eq_getElem h⟩

theorem lt_of_store? {store : Store κ} (h : lib.store? s = some store) : s < lib.stores.length :=
  (List.getElem?_eq_some_iff.1 h).1

theorem store?_update_self (lib : Library κ) (s : StoreId) (f : Store κ → Store κ) :
    (lib.update s f).store? s = (lib.store? s).map f := by
  rw [store?_update, if_pos rfl]

theorem store?_update_of_ne (h : s ≠ t) (f : Store κ → Store κ) :
    (lib.update s f).store? t = lib.store? t := by
  rw [store?_update, if_neg h]

@[simp] theorem maxDepth_update (lib : Library κ) (s : StoreId) (f : Store κ → Store κ) :
    (lib.update s f).maxDepth = lib.maxDepth :=
  List.length_modify ..

theorem map_store?_update {α : Type} {g : Store κ → α} (h : ∀ store, g (f store) = g store)
    (lib : Library κ) (s t : StoreId) :
    ((lib.update s f).store? t).map g = (lib.store? t).map g := by
  rw [store?_update]
  split
  · rw [Option.map_map]
    exact congrArg (fun g' => (lib.store? t).map g') (funext h)
  · rfl

theorem own?_congr (h : (lib.store? t).map Store.notes = (lib'.store? t).map Store.notes)
    (title : Title) : lib.own? t title = lib'.own? t title := by
  have hn := congrArg (Option.bind · fun notes => notes.get? title) h
  rw [Option.bind_map, Option.bind_map] at hn
  exact hn

theorem fallbacks_update (h : ∀ store, (f store).fallbacks = store.fallbacks) (lib : Library κ)
    (s t : StoreId) : (lib.update s f).fallbacks t = lib.fallbacks t :=
  congrArg (Option.getD · []) (map_store?_update h lib s t)

theorem overlays_update (h : ∀ store, (f store).overlays = store.overlays) (lib : Library κ)
    (s t : StoreId) : (lib.update s f).overlays t = lib.overlays t :=
  congrArg (Option.getD · []) (map_store?_update h lib s t)

theorem fallbacks_update_self {store : Store κ} (h : lib.store? s = some store)
    (f : Store κ → Store κ) : (lib.update s f).fallbacks s = (f store).fallbacks := by
  simp [fallbacks, store?_update_self, h]

theorem overlays_update_self {store : Store κ} (h : lib.store? s = some store)
    (f : Store κ → Store κ) : (lib.update s f).overlays s = (f store).overlays := by
  simp [overlays, store?_update_self, h]

/-- What a store has apart from notes and links: settings, parsers and macros. -/
def rules? (lib : Library κ) (s : StoreId) : Option (PageSettings × ParserTable × MacroTable) :=
  (lib.store? s).map fun store => (store.settings, store.parsers, store.macros)

theorem exists_store?_of_rules? {store : Store κ} (hs : lib.store? s = some store)
    (hr : lib'.rules? s = lib.rules? s) :
    ∃ store', lib'.store? s = some store' ∧ store'.settings = store.settings ∧
      store'.parsers = store.parsers ∧ store'.macros = store.macros := by
  rw [rules?, rules?, hs, Option.map_some, Option.map_eq_some_iff] at hr
  obtain ⟨store', hs', hr⟩ := hr
  exact ⟨store', hs', by simpa using hr⟩

theorem lookup_congr {title : Title} (hf : ∀ t, lib.fallbacks t = lib'.fallbacks t)
    (hm : lib.maxDepth = lib'.maxDepth) (ho : ∀ t, lib.own? t title = lib'.own? t title) :
    lib.lookup t title = lib'.lookup t title := by
  have hw : ∀ bound t, lib.lookupWithin title bound t = lib'.lookupWithin title bound t := by
    intro bound
    induction bound with
    | zero => exact fun t => rfl
    | succ bound ih =>
      intro t
      simp only [lookupWithin, ho, hf, funext ih]
  rw [lookup, lookup, hw, hm]

/-- One library has the same notes as the other and refers from store to store in the same way. -/
structure SameNotes (lib lib' : Library κ) : Prop where
  notes : ∀ t, (lib.store? t).map Store.notes = (lib'.store? t).map Store.notes
  fallbacks : ∀ t, lib.fallbacks t = lib'.fallbacks t
  maxDepth : lib.maxDepth = lib'.maxDepth

theorem SameNotes.lookup (h : SameNotes lib lib') (t : StoreId) (title : Title) :
    lib.lookup t title = lib'.lookup t title :=
  lookup_congr h.fallbacks h.maxDepth fun t => own?_congr (h.notes t) title

theorem SameNotes.get (h : SameNotes lib lib') (t : StoreId) (title : Title) :
    lib.get t title = lib'.get t title :=
  congrArg (Option.map Saved.note) (h.lookup t title)

end Notebook.Library
