import Notebook.CommandLine.Request
import Notebook.Live.Watch

/-! # Replies to requests

What is written for a request on an open notebook.
-/

namespace Notebook.CommandLine

def versionLine : String :=
  "tiddle " ++ Notebook.version

structure Page where
  text : String
  tally : Tally

def page (notebook : OpenNotebook) (title : Option Title) (format : Format) : Option Page := do
  let (tree, _) ← notebook.render (notebook.titleOrRoot title)
  let text := match format with
    | .text => tree.text
    | .json => tree.toJson.indented
  return ⟨text, tree.tally⟩

def startWatch (notebook : OpenNotebook) (title : Option Title) : Option Watch :=
  Watch.start notebook (notebook.titleOrRoot title)

/-- The pause between two ticks, which is never zero. -/
def pauseMs (notebook : OpenNotebook) (intervalMs : Option Nat) : Nat :=
  max 1 (intervalMs.getD notebook.settings.watch.intervalMs)

def titleLines (notebook : OpenNotebook) : List String :=
  (notebook.library.titles notebook.store).entries.map fun e => e.1 ++ "\t" ++ e.2.text

def titlesJson (notebook : OpenNotebook) : Json :=
  .array ((notebook.library.titles notebook.store).entries.map fun e =>
    .object [("origin", .string e.2.text),
      ("shadowed", .bool (notebook.library.isShadowed notebook.store e.1)),
      ("title", .string e.1)])

def listing (notebook : OpenNotebook) (asJson : Bool) : List String :=
  if asJson then [(titlesJson notebook).indented] else titleLines notebook

structure Output where
  lines : List String
  tally : Option Tally := none

def Output.text (output : Output) : String :=
  String.join (output.lines.map (· ++ "\n"))

/-- The whole output of a request. A watch ticks at the given times, as often as it is told to. -/
def reply (notebook : OpenNotebook) (times : List String) : Request → Option Output
  | .render title format withTally => do
    let page ← page notebook title format
    return { lines := [page.text], tally := if withTally then some page.tally else none }
  | .watch title _ ticks => do
    let w ← startWatch notebook title
    return { lines := w.output (Watch.timesWithin ticks times) }
  | .list asJson => some { lines := listing notebook asJson }

end Notebook.CommandLine
