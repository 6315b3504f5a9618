import Notebook.Catalog
import Notebook.Stamp
import Notebook.Tags

/-! # Notes

A note is text under a title, with an optional content type and named fields. Notes are values:
an edit builds a new note. The title, the text and the type can be asked for like fields.
-/

namespace Notebook

abbrev Title := String

structure Note where
  title : Title
  text : String
  type : Option String := none
  fields : Catalog String := ∅
  deriving DecidableEq, Repr

namespace Note

def withType (note : Note) (type : String) : Note :=
  { note with type := some type }

def withText (note : Note) (text : String) : Note :=
  { note with text }

def withField (note : Note) (name value : String) : Note :=
  { note with fields := note.fields.insert name value }

def withTags (note : Note) (tags : List String) : Note :=
  note.withField "tags" (Tags.format tags)

def withModified (note : Note) (moment : Moment) : Note :=
  note.withField "modified" (Stamp.format moment)

/-- The three attributes of every note come before its fields of the same names. -/
def field (note : Note) (name : String) : Option String :=
  if name = "title" then some note.title
  else if name = "text" then some note.text
  else if name = "type" then note.type
  else note.fields.get? name

def tags (note : Note) : List String :=
  match note.fields.get? "tags" with
  | some field => Tags.parse field
  | none => []

def hasTag (note : Note) (tag : String) : Bool :=
  note.tags.contains tag

def modified (note : Note) : Option Moment :=
  (note.fields.get? "modified").bind Stamp.parse

end Note

end Notebook
