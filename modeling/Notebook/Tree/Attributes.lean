import Notebook.Catalog
import Notebook.Json.Basic

/-! # Attributes of elements

Classes are a list, in the order in which they were added. All other attributes are text under a
name.
-/

namespace Notebook

structure Attributes where
  classes : List String := []
  other : Catalog String := ∅
  deriving DecidableEq, Repr

namespace Attributes

def withClass (attributes : Attributes) (name : String) : Attributes :=
  { attributes with classes := attributes.classes ++ [name] }

def withAttribute (attributes : Attributes) (name value : String) : Attributes :=
  { attributes with other := attributes.other.insert name value }

def get? (attributes : Attributes) (name : String) : Option String :=
  attributes.other.get? name

def hasClass (attributes : Attributes) (name : String) : Bool :=
  attributes.classes.contains name

/-- Adds the class at the end, or removes it everywhere. -/
def toggle (attributes : Attributes) (name : String) (on : Bool) : Attributes :=
  if on then
    if attributes.hasClass name then attributes else attributes.withClass name
  else { attributes with classes := attributes.classes.filter (· ≠ name) }

def toggles (attributes : Attributes) (name : String) (on : Bool) : Bool :=
  attributes.hasClass name != on

def toJson (attributes : Attributes) : Json :=
  .object
    ((if attributes.classes.isEmpty then []
      else [("classes", Json.array (attributes.classes.map Json.string))]) ++
    (attributes.other.map Json.string).entries)

end Attributes

end Notebook
