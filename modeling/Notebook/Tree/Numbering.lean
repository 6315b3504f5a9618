import Notebook.Tree.Node

/-! # Numbering

Elements and calls without an id get the next free ones, in depth-first order with parents before
their children. Ids that are there already stay.
-/

namespace Notebook.Node

def claimId (id : Option NodeId) (next : NodeId) : NodeId × NodeId :=
  match id with
  | some n => (n, next)
  | none => (next, next + 1)

mutual

/-- Numbers a node with ids from `next` on, and gives the next free id. -/
def assign (next : NodeId) : Node → Node × NodeId
  | text s => (text s, next)
  | element id tag attributes children =>
    let claimed := claimId id next
    let below := assignList claimed.2 children
    (element (some claimed.1) tag attributes below.1, below.2)
  | call id c trace content =>
    let claimed := claimId id next
    let below := assignList claimed.2 content
    (call (some claimed.1) c trace below.1, below.2)
  | error e => (error e, next)

def assignList (next : NodeId) : List Node → List Node × NodeId
  | [] => ([], next)
  | node :: nodes =>
    let head := assign next node
    let tail := assignList head.2 nodes
    (head.1 :: tail.1, tail.2)

end

end Notebook.Node
