import Notebook.Parser
import Notebook.Note.Basic

/-! # Parsing notes

The nodes of a note are kept until the note is saved again. A kept entry belongs to one saved
note and comes with the proof that its nodes are what the parser makes of that note.
-/

namespace Notebook

structure ParseRules where
  parsers : ParserTable
  defaultType : String

namespace ParseRules

def parserFor (rules : ParseRules) (type : Option String) : Parser :=
  match type with
  | some t => rules.parsers.resolve (if t = "" then rules.defaultType else t)
  | none => rules.parsers.resolve rules.defaultType

def parse (rules : ParseRules) (type : Option String) (text : String) :
    Except String (List Node) :=
  (rules.parserFor type).run text

def parseNote (rules : ParseRules) (note : Note) : Except String (List Node) :=
  rules.parse note.type note.text

end ParseRules

/-- A note as it was saved. No two savings have the same serial number. -/
structure Saved where
  serial : Nat
  note : Note
  deriving DecidableEq, Repr

structure CachedParse (rules : ParseRules) where
  saved : Saved
  nodes : List Node
  parsed : rules.parseNote saved.note = .ok nodes

abbrev ParseCache (rules : ParseRules) := Catalog (CachedParse rules)

namespace ParseCache

variable {rules : ParseRules}

def hit? (cache : ParseCache rules) (title : Title) (saved : Saved) : Option (List Node) :=
  match cache.get? title with
  | some entry => if entry.saved = saved then some entry.nodes else none
  | none => none

/-- Parses a saved note and keeps its nodes. A parser that fails leaves the cache as it is. -/
def parse (cache : ParseCache rules) (title : Title) (saved : Saved) :
    Except String (List Node) × ParseCache rules :=
  match h : rules.parseNote saved.note with
  | .ok nodes => (.ok nodes, cache.insert title ⟨saved, nodes, h⟩)
  | .error message => (.error message, cache)

theorem hit?_eq_some {cache : ParseCache rules} {title : Title} {saved : Saved}
    {nodes : List Node} (h : cache.hit? title saved = some nodes) :
    rules.parseNote saved.note = .ok nodes := by
  simp only [hit?] at h
  split at h
  · next entry _ =>
    split at h
    · next heq =>
      cases h
      exact heq ▸ entry.parsed
    · simp at h
  · simp at h

theorem parse_fst (cache : ParseCache rules) (title : Title) (saved : Saved) :
    (cache.parse title saved).1 = rules.parseNote saved.note := by
  simp only [parse]
  split <;> simp_all

end ParseCache

def countParse (counts : Catalog Nat) (parser : Parser) : Catalog Nat :=
  match parser.label? with
  | some label => counts.insert label ((counts.get? label).getD 0 + 1)
  | none => counts

end Notebook
