import Notebook.Store.Library
import Notebook.Text.Quoted

/-! # Summaries of tables and stores

One-line texts that show what a parser table, a macro table or a store holds.
-/

namespace Notebook

open Text

def listed (opening closing : String) (items : List String) : String :=
  opening ++ ", ".intercalate items ++ closing

def fieldList (name : String) (fields : List (String × String)) : String :=
  name ++ " \x7b " ++ ", ".intercalate (fields.map fun f => f.1 ++ ": " ++ f.2) ++ " \x7d"

def nameList (names : List String) : String :=
  listed "[" "]" (names.map quoted)

def ParserTable.summary (table : ParserTable) : String :=
  fieldList "ParserRegistry" [("keys", nameList table.keys)]

def MacroTable.summary (table : MacroTable) : String :=
  fieldList "MacroRegistry" [("macros", nameList table.keys)]

def ChangeKind.capitalName : ChangeKind → String
  | added => "Added"
  | modified => "Modified"
  | deleted => "Deleted"

def Batch.summary (batch : Batch) : String :=
  "ChangeMap(" ++
    listed "\x7b" "\x7d"
      (batch.entries.map fun e => "Title(" ++ quoted e.1 ++ "): " ++ e.2.capitalName) ++ ")"

/-- Listeners of a running dispatch do not count. -/
def Bus.summary (bus : Bus κ) : String :=
  fieldList "EventBus"
    [("pending", bus.pending.summary), ("listeners", toString bus.listeners.length),
      ("dispatching", if bus.dispatching then "true" else "false")]

def Store.summary (store : Store κ) : String :=
  fieldList "WikiStore"
    [("tiddlers", toString store.notes.size), ("fallbacks", toString store.fallbacks.length),
      ("parsers", store.parsers.summary), ("macros", store.macros.summary),
      ("events", store.bus.summary)]

end Notebook
