import Notebook.Bus
import Notebook.Macro
import Notebook.Settings.Basic
import Notebook.ParseCache

/-! # Stores

A store holds notes of its own and refers to other stores, in which a title is looked up that it
does not have itself. It also knows which stores refer to it.
-/

namespace Notebook

abbrev StoreId := Nat

structure Store (κ : Type) where
  settings : PageSettings := {}
  notes : Catalog Saved := ∅
  /-- The stores to look in for what is missing here, in order. -/
  fallbacks : List StoreId := []
  /-- The stores that have this one as a fallback, once for each time. -/
  overlays : List StoreId := []
  parsers : ParserTable := ∅
  macros : MacroTable := ∅
  cache : ParseCache ⟨parsers, settings.defaultType⟩ := ∅
  bus : Bus κ := {}

namespace Store

variable {κ : Type}

def rules (store : Store κ) : ParseRules :=
  ⟨store.parsers, store.settings.defaultType⟩

def withBus (f : Bus κ → Bus κ) (store : Store κ) : Store κ :=
  { store with bus := f store.bus }

def enqueue (title : Title) (kind : ChangeKind) (store : Store κ) : Store κ :=
  store.withBus fun bus => bus.enqueue title kind

/-- Puts a saved note in place. What was parsed under its title is forgotten. -/
def put (saved : Saved) (store : Store κ) : Store κ :=
  { store with
    notes := store.notes.insert saved.note.title saved
    cache := store.cache.erase saved.note.title }

def remove (title : Title) (store : Store κ) : Store κ :=
  { store with notes := store.notes.erase title, cache := store.cache.erase title }

/-- Registering a parser forgets everything that was parsed before. -/
def register (keys : List String) (parser : Parser) (store : Store κ) : Store κ :=
  { store with parsers := store.parsers.register keys parser, cache := ∅ }

def install (m : Macro) (store : Store κ) : Store κ :=
  { store with macros := store.macros.install m }

def installBuiltins (store : Store κ) : Store κ :=
  let store := store.register [ParserTable.wikitextType, ".tid"] .wikitext
  let store := store.register [ParserTable.plainType, ".txt"] .plain
  Macro.builtin.foldl (fun store m => store.install m) store

end Store

end Notebook
