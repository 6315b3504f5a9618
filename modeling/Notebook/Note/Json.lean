import Notebook.Json.Basic
import Notebook.Json.Reader
import Notebook.Note.Basic

/-! # Notes as JSON

A note is an object with a title and optional text, type and fields, or an array of these in that
order. Other keys are skipped; a known key may stand only once.
-/

namespace Notebook.Note

open Json (Reader)

def toJson (note : Note) : Json :=
  .object ([("title", .string note.title), ("text", .string note.text)] ++
    (note.type.map fun type => ("type", Json.string type)).toList ++
    [("fields", .object (note.fields.map Json.string).entries)])

namespace Decode

structure Draft where
  title : Option String := none
  text : Option String := none
  type : Option (Option String) := none
  fields : Option (Catalog String) := none

def Draft.finish (draft : Draft) : Reader Note :=
  match draft.title with
  | some title =>
    return ⟨title, draft.text.getD "", draft.type.getD none, draft.fields.getD ∅⟩
  | none => throw .mismatch

def fields : Reader (Catalog String) := do
  let c ← Reader.next
  if c = '\x7b' then
    Reader.members ∅ fun fields key => do
      Reader.colon
      return fields.insert key (← Reader.string)
  else Reader.wrongKind c

/-- The value under a key that must not have one yet. -/
def once (old : Option α) (value : Reader α) : Reader (Option α) := do
  if old.isSome then throw .mismatch
  Reader.colon
  return some (← value)

def member (draft : Draft) (key : String) : Reader Draft := do
  if key = "title" then return { draft with title := ← once draft.title Reader.string }
  else if key = "text" then return { draft with text := ← once draft.text Reader.string }
  else if key = "type" then return { draft with type := ← once draft.type Reader.stringOrNull }
  else if key = "fields" then return { draft with fields := ← once draft.fields fields }
  else
    Reader.colon
    Reader.skip
    return draft

/-- The items of an array that stands for a note. The title is required. -/
def row : Reader Note := do
  Reader.advance
  unless ← Reader.hasItem true do throw .mismatch
  let title ← Reader.string
  let mut draft : Draft := { title := some title }
  if ← Reader.hasItem false then
    draft := { draft with text := ← Reader.string }
    if ← Reader.hasItem false then
      draft := { draft with type := ← Reader.stringOrNull }
      if ← Reader.hasItem false then
        draft := { draft with fields := ← fields }
        if (← Reader.next) ≠ ']' then throw .malformed
  Reader.advance
  draft.finish

def note : Reader Note := do
  let c ← Reader.next
  if c = '\x7b' then
    (← Reader.members {} member).finish
  else if c = '[' then row
  else Reader.wrongKind c

end Decode

def ofJson (text : String) : Except Json.Fault Note :=
  Reader.whole Decode.note text

def listOfJson (text : String) : Except Json.Fault (List Note) :=
  Reader.whole
    (do
      let c ← Reader.next
      if c = '[' then Reader.items Decode.note else Reader.wrongKind c)
    text

end Notebook.Note
