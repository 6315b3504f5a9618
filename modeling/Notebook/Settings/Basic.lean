/-! # Settings

What a notebook can be told about its pages and about watching them.
-/

namespace Notebook

structure PageSettings where
  defaultType : String := "text/x-tiddlywiki"
  /-- The class of every frame around a transcluded note. -/
  frameClass : String := "tw-tiddler-frame"
  /-- The class of a frame whose target does not exist. -/
  missingClass : String := "tw-tiddler-missing"
  deriving DecidableEq, Repr

structure WatchSettings where
  rootTitle : String := "PageTemplate"
  clockTitle : String := "ClockTiddler"
  intervalMs : Nat := 3000
  deriving DecidableEq, Repr

structure Settings where
  page : PageSettings := {}
  watch : WatchSettings := {}
  deriving DecidableEq, Repr

end Notebook
