import Notebook.Yaml.Token

/-! # YAML nodes

A YAML text holds at most one document, whose content is a node. An alias stands for a node that
carries an anchor. Aliases are kept, so a node may contain an alias for itself.
-/

namespace Notebook.Yaml

inductive Node where
  | scalar (text : String) (style : ScalarStyle) (tag : Option (List UInt8))
  | sequence (items : List Node)
  | mapping (entries : List (Node × Node))
  | alias (number : Nat)
  deriving Repr, Inhabited

def Node.empty : Node := .scalar "" .plain none

structure Document where
  content : Node
  /-- The nodes with an anchor and their numbers, in the order in which the nodes begin. -/
  anchored : List (Nat × Node)

namespace Document

def numbered? (doc : Document) (number : Nat) : Option Node :=
  doc.anchored.reverse.lookup number

/-- What a node stands for. No alias carries an anchor, so one step leads to the end. -/
def follow? (doc : Document) : Node → Option Node
  | .alias number => doc.numbered? number
  | node => some node

end Document

end Notebook.Yaml
