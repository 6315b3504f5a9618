import Notebook.Files
import Notebook.Settings.Reader

/-! # Settings in files

A file with settings may be required or not. If it is there it must be readable in either case.
-/

namespace Notebook.Settings

def ofFile (entry : FileEntry) : Except SettingsError Settings :=
  match entry.text? with
  | some text => ofYaml text
  | none => .error .unreadable

def ofFileOrDefault : FileEntry → Except SettingsError Settings
  | .missing => .ok {}
  | entry => ofFile entry

end Notebook.Settings
