import Notebook.Store.Library

/-! # The notes every notebook starts with

They lie in a store of their own, so that a notebook can override them by notes of the same
titles without changing them.
-/

namespace Notebook.Builtin

def notes : List Note := [
  { title := "SiteTitle", text := "My Notebook" },
  { title := "SiteSubtitle", text := "a reusable non-linear personal notebook" },
  { title := "WindowTitle", text := "<<tiddler SiteTitle>> - <<tiddler SiteSubtitle>>" },
  { title := "PageTemplate",
    text := "<<tiddler WindowTitle>>\n<<tiddler ClockTiddler>>\n<<tiddler DefaultTiddlers>>" },
  { title := "DefaultTiddlers", text := "<<tiddler GettingStarted>>" },
  { title := "GettingStarted",
    text := "Edit ''SiteTitle'' and ''SiteSubtitle'' to name this notebook." },
  { title := "VersionInfo", text := "tiddle <<version>>" }]

def addStore (lib : Library κ) : StoreId × Library κ :=
  let (s, lib) := lib.addStore (Store.installBuiltins {})
  (s, (notes.foldl (fun lib note => lib.add s note) lib).clearPending s)

end Notebook.Builtin
