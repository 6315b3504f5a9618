import Notebook.Builtin
import Notebook.Live.Tree
import Notebook.Note.Json
import Notebook.Settings.File
import Notebook.Text.Quoted

/-! # Opening a notebook

A notebook has a store for the notes of its user and falls back on the built-in notes. Loading
notes leaves no change pending.
-/

namespace Notebook

inductive OpenError where
  | settings (e : SettingsError)
  | unreadableNotes (path : String)
  | malformedNotes (path : String)
  deriving DecidableEq, Repr

namespace OpenError

def message : OpenError → String
  | settings _ => "Failed to load configuration"
  | unreadableNotes path => "Failed to read records from " ++ Text.quoted path
  | malformedNotes path => "Failed to parse records in " ++ Text.quoted path

end OpenError

structure OpenNotebook where
  settings : Settings
  library : Library Unit
  store : StoreId

namespace OpenNotebook

def new (settings : Settings) : OpenNotebook :=
  let own : Store Unit := { settings := settings.page }
  let (s, lib) := ({} : Library Unit).addStore own.installBuiltins
  let (builtin, lib) := Builtin.addStore lib
  ⟨settings, (lib.addFallback? s builtin).getD lib, s⟩

def load (notes : List Note) (notebook : OpenNotebook) : OpenNotebook :=
  let s := notebook.store
  let lib := notes.foldl (fun lib note => lib.add s note) notebook.library
  { notebook with library := lib.clearPending s }

def readNotes (path : String) (entry : FileEntry) : Except OpenError (List Note) :=
  match entry.text? with
  | none => .error (.unreadableNotes path)
  | some text => (Note.listOfJson text).mapError fun _ => .malformedNotes path

/-- Opens a notebook with the settings in one file and the notes in another, if there is one. -/
def ofFiles (settings : FileEntry) (notes : Option (String × FileEntry)) :
    Except OpenError OpenNotebook := do
  let settings ← (Settings.ofFileOrDefault settings).mapError OpenError.settings
  let notes ←
    match notes with
    | some (path, entry) => readNotes path entry
    | none => .ok []
  return (new settings).load notes

def titleOrRoot (notebook : OpenNotebook) (title : Option Title) : Title :=
  title.getD notebook.settings.watch.rootTitle

def render (notebook : OpenNotebook) (title : Title) : Option (LiveTree × Library Unit) :=
  LiveTree.renderNote notebook.library notebook.store title

end OpenNotebook

end Notebook
