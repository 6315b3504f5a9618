import Notebook.Live.Refresh
import Notebook.Store.Library

/-! # Live trees

A live tree is the expansion of one call on one store. It keeps its ids and its tally, and a
batch of changes brings it up to date.
-/

namespace Notebook

namespace Library

variable {κ : Type}

def env (lib : Library κ) (s : StoreId) (store : Store κ) : Env where
  lookup := lib.lookup s
  rules := ⟨store.parsers, store.settings.defaultType⟩
  macros := store.macros
  page := store.settings
  titleCount := (lib.titles s).size

/-- Runs an expansion on a store, from a given id and tally on. The store keeps what was parsed. -/
def runOn (lib : Library κ) (s : StoreId) (store : Store κ) (nextId : NodeId) (tally : Tally)
    (x : Expand (lib.env s store) α) : Option (α × NodeId × Tally × Library κ) := do
  let (a, p) ← x.run ⟨nextId, tally, store.cache, lib.parseCounts⟩
  let lib := { lib.update s fun _ => { store with cache := p.cache } with
    parseCounts := p.parseCounts }
  return (a, p.nextId, p.tally, lib)

end Library

structure LiveTree where
  store : StoreId
  root : Node
  nextId : NodeId
  tally : Tally

namespace LiveTree

variable {κ : Type}

def render (lib : Library κ) (s : StoreId) (c : Call) : Option (LiveTree × Library κ) := do
  let store ← lib.store? s
  let (root, nextId, tally, lib) ←
    lib.runOn s store 1 {} (Expand.expandNode Expand.expand {} (.ofCall c))
  return (⟨s, root, nextId, tally⟩, lib)

def transclusion (title : Title) : Call :=
  ⟨Macro.transclude.name, [.positional title]⟩

def renderNote (lib : Library κ) (s : StoreId) (title : Title) : Option (LiveTree × Library κ) :=
  render lib s (transclusion title)

/-- An empty batch does nothing. -/
def refresh (tree : LiveTree) (lib : Library κ) (batch : Batch) :
    Option (RefreshLog × LiveTree × Library κ) :=
  if batch.isEmpty then some ({}, tree, lib)
  else do
    let store ← lib.store? tree.store
    let ((root, log), nextId, tally, lib) ←
      lib.runOn tree.store store tree.nextId tree.tally (Expand.refreshNode batch tree.root)
    return (log, { tree with root, nextId, tally }, lib)

def text (tree : LiveTree) : String :=
  tree.root.plainText

def errors (tree : LiveTree) : List RenderError :=
  Node.errors [tree.root]

def mount (tree : LiveTree) : List SinkEvent :=
  [.mount none tree.root]

def unmount (tree : LiveTree) : List SinkEvent :=
  [.unmount tree.root]

def toJson (tree : LiveTree) : Json :=
  tree.root.toJson

end LiveTree

end Notebook
