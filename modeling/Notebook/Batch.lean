import Notebook.Json.Basic
import Notebook.Json.Reader
import Notebook.Note.Basic

/-! # Change batches

A batch says what happened to each title since the last delivery. Only the latest change of a
title counts.
-/

namespace Notebook

inductive ChangeKind where
  | added
  | modified
  | deleted
  deriving DecidableEq, Repr

namespace ChangeKind

def name : ChangeKind → String
  | added => "added"
  | modified => "modified"
  | deleted => "deleted"

def ofName? : String → Option ChangeKind
  | "added" => some added
  | "modified" => some modified
  | "deleted" => some deleted
  | _ => none

@[simp] theorem ofName?_name (kind : ChangeKind) : ofName? kind.name = some kind := by
  cases kind <;> rfl

end ChangeKind

abbrev Batch := Catalog ChangeKind

namespace Batch

def record (batch : Batch) (title : Title) (kind : ChangeKind) : Batch :=
  batch.insert title kind

def titles (batch : Batch) : List Title :=
  batch.keys

/-- The batch of a history of changes, oldest first. -/
def ofHistory (changes : List (Title × ChangeKind)) : Batch :=
  changes.foldl (fun batch change => batch.record change.1 change.2) ∅

def toJson (batch : Batch) : Json :=
  .object (batch.map fun kind => Json.string kind.name).entries

open Json (Reader)

def kindReader : Reader ChangeKind := do
  let named (name : String) : Reader ChangeKind :=
    match ChangeKind.ofName? name with
    | some kind => return kind
    | none => throw .mismatch
  let c ← Reader.next
  if c = '"' then named (← Reader.string)
  else if c = '\x7b' then
    Reader.advance
    if (← Reader.next) ≠ '"' then throw .malformed
    let kind ← named (← Reader.string)
    Reader.colon
    let d ← Reader.next
    if d = 'n' then
      Reader.advance
      Reader.literalRest ['u', 'l', 'l']
    else Reader.wrongKind d
    if (← Reader.next) = '\x7d' then
      Reader.advance
      return kind
    else throw .malformed
  else throw .malformed

def ofJson (text : String) : Except Json.Fault Batch :=
  Reader.whole
    (do
      let c ← Reader.next
      if c = '\x7b' then
        Reader.members ∅ fun batch key => do
          Reader.colon
          return Batch.record batch key (← kindReader)
      else Reader.wrongKind c)
    text

end Batch

end Notebook
