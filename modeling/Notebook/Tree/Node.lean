import Notebook.Context
import Notebook.Reads
import Notebook.RenderError
import Notebook.Tree.Attributes
import Notebook.Tree.Call

/-! # Nodes

Pages are lists of nodes. A parser leaves calls without a trace and without content; expansion
adds both. Elements and calls carry an id once they are part of a live tree.
-/

namespace Notebook

abbrev NodeId := Nat

/-- What is recorded when a call is expanded: the titles it has read, and where it stands. -/
structure Trace where
  reads : Reads
  context : Context
  deriving DecidableEq, Repr

inductive Node where
  | text (s : String)
  | element (id : Option NodeId) (tag : String) (attributes : Attributes) (children : List Node)
  | call (id : Option NodeId) (call : Call) (trace : Option Trace) (content : List Node)
  | error (e : RenderError)
  deriving Repr, Inhabited

namespace Node

def plainElement (tag : String) (children : List Node) : Node :=
  element none tag {} children

def ofCall (c : Call) : Node :=
  call none c none []

def id? : Node → Option NodeId
  | element id .. => id
  | call id .. => id
  | _ => none

def children : Node → List Node
  | element _ _ _ children => children
  | call _ _ _ content => content
  | _ => []

mutual

/-- The node and everything below it, parents before children. -/
def walk : Node → List Node
  | text s => [text s]
  | element id tag attributes children =>
    element id tag attributes children :: walkList children
  | call id c trace content => call id c trace content :: walkList content
  | error e => [error e]

def walkList : List Node → List Node
  | [] => []
  | node :: nodes => walk node ++ walkList nodes

end

def error? : Node → Option RenderError
  | error e => some e
  | _ => none

def errors (nodes : List Node) : List RenderError :=
  (walkList nodes).filterMap error?

mutual

/-- Line breaks become newlines, errors their messages, and all other markup disappears. -/
def plainText : Node → String
  | text s => s
  | element _ tag _ children => if tag = "br" then "\n" else plainTextList children
  | call _ _ _ content => plainTextList content
  | error e => e.message

def plainTextList : List Node → String
  | [] => ""
  | node :: nodes => plainText node ++ plainTextList nodes

end

def idMember (id : Option NodeId) : List (String × Json) :=
  (id.map fun n => ("id", Json.number n)).toList

mutual

def toJson : Node → Json
  | text s => .object [("kind", .string "text"), ("text", .string s)]
  | element id tag attributes children =>
    .object ([("kind", .string "element")] ++ idMember id ++
      [("tag", .string tag), ("attributes", attributes.toJson),
        ("children", .array (listToJson children))])
  | call id c trace content =>
    .object ([("kind", .string "macro")] ++ idMember id ++
      [("name", .string c.name), ("params", .array (Param.listToJson c.params))] ++
      (trace.map fun t => ("dependencies", t.reads.toJson)).toList ++
      ((trace.bind fun t => t.context.scope).map fun t => ("tiddler_title", Json.string t)).toList ++
      [("content", .array (listToJson content))])
  | error e => .object [("kind", .string "error"), ("error", e.toJson)]

def listToJson : List Node → List Json
  | [] => []
  | node :: nodes => toJson node :: listToJson nodes

end

end Node

end Notebook
