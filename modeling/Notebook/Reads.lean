import Notebook.Batch

/-! # What an expansion has read

The titles whose change makes an expanded call out of date, or all of them when the titles
cannot be known before the call runs.
-/

namespace Notebook

abbrev TitleSet := Catalog Unit

namespace TitleSet

def union (s t : TitleSet) : TitleSet :=
  t.keys.foldl (fun acc title => acc.insert title ()) s

end TitleSet

inductive Reads where
  | all
  | titles (set : TitleSet)
  deriving DecidableEq, Repr

namespace Reads

def none : Reads := titles ∅

def title (t : Title) : Reads := titles ((∅ : TitleSet).insert t ())

def ofList (ts : List Title) : Reads := titles (Catalog.ofList (ts.map fun t => (t, ())))

def insert : Reads → Title → Reads
  | all, _ => all
  | titles set, t => titles (set.insert t ())

def merge : Reads → Reads → Reads
  | _, all => all
  | all, titles _ => all
  | titles s, titles t => titles (TitleSet.union s t)

def isAll : Reads → Bool
  | all => true
  | titles _ => false

def titles? : Reads → Option TitleSet
  | all => Option.none
  | titles set => some set

/-- Whether a batch makes the expansion out of date. The smaller of the two sides is searched. -/
def hasChanged : Reads → Batch → Bool
  | all, batch => !batch.isEmpty
  | titles set, batch =>
    if set.size ≤ batch.size then set.keys.any batch.contains
    else batch.titles.any set.contains

def toJson : Reads → Json
  | all => .string "all"
  | titles set => .object [("titles", .array (set.keys.map Json.string))]

end Reads

end Notebook
