import Notebook.Store.Basic

/-! # Libraries of stores

A library numbers its stores. A title is looked up in a store itself first and then in its
fallbacks, depth first and in order. No store can become a fallback of itself, also not
through others, so no path of fallbacks is longer than the number of stores.
-/

namespace Notebook

structure Library (κ : Type) where
  stores : List (Store κ) := []
  nextSerial : Nat := 0
  parseCounts : Catalog Nat := ∅

/-- How many steps away from a store a title is found. -/
inductive Origin where
  | primary
  | fallback (depth : Nat)
  deriving DecidableEq, Repr

namespace Origin

def deeper : Origin → Origin
  | primary => fallback 1
  | fallback depth => fallback (depth + 1)

def isPrimary : Origin → Bool
  | primary => true
  | fallback _ => false

def text : Origin → String
  | primary => "primary"
  | fallback depth => "fallback:" ++ toString depth

def members : Origin → List (String × Json)
  | primary => [("origin", .string "primary")]
  | fallback depth => [("origin", .string "fallback"), ("depth", .number depth)]

end Origin

namespace Library

variable {κ : Type}

def store? (lib : Library κ) (s : StoreId) : Option (Store κ) :=
  lib.stores[s]?

def update (lib : Library κ) (s : StoreId) (f : Store κ → Store κ) : Library κ :=
  { lib with stores := lib.stores.modify s f }

def addStore (lib : Library κ) (store : Store κ) : StoreId × Library κ :=
  (lib.stores.length, { lib with stores := lib.stores ++ [store] })

/-- No path of fallbacks visits more stores. -/
def maxDepth (lib : Library κ) : Nat :=
  lib.stores.length

def fallbacks (lib : Library κ) (s : StoreId) : List StoreId :=
  ((lib.store? s).map Store.fallbacks).getD []

def overlays (lib : Library κ) (s : StoreId) : List StoreId :=
  ((lib.store? s).map Store.overlays).getD []

def own? (lib : Library κ) (s : StoreId) (title : Title) : Option Saved :=
  (lib.store? s).bind fun store => store.notes.get? title

def lookupWithin (lib : Library κ) (title : Title) : Nat → StoreId → Option Saved
  | 0, _ => none
  | bound + 1, s =>
    match lib.own? s title with
    | some saved => some saved
    | none => (lib.fallbacks s).findSome? (lookupWithin lib title bound)

def lookup (lib : Library κ) (s : StoreId) (title : Title) : Option Saved :=
  lib.lookupWithin title lib.maxDepth s

def get (lib : Library κ) (s : StoreId) (title : Title) : Option Note :=
  (lib.lookup s title).map Saved.note

def originWithin (lib : Library κ) (title : Title) : Nat → StoreId → Option Origin
  | 0, _ => none
  | bound + 1, s =>
    if (lib.own? s title).isSome then some .primary
    else (lib.fallbacks s).findSome? fun f => (originWithin lib title bound f).map Origin.deeper

def origin (lib : Library κ) (s : StoreId) (title : Title) : Option Origin :=
  lib.originWithin title lib.maxDepth s

def «exists» (lib : Library κ) (s : StoreId) (title : Title) : Bool :=
  (lib.origin s title).isSome

/-- Whether a store holds a note of its own under a title that a fallback resolves too. -/
def isShadowed (lib : Library κ) (s : StoreId) (title : Title) : Bool :=
  (lib.own? s title).isSome && (lib.fallbacks s).any fun f => lib.exists f title

def mergeTitles (titles below : Catalog Origin) : Catalog Origin :=
  below.entries.foldl (fun acc e => acc.insertNew e.1 e.2.deeper) titles

def titlesWithin (lib : Library κ) : Nat → StoreId → Catalog Origin
  | 0, _ => ∅
  | bound + 1, s =>
    (lib.fallbacks s).foldl (fun acc f => mergeTitles acc (titlesWithin lib bound f))
      (((lib.store? s).map Store.notes).getD ∅ |>.map fun _ => .primary)

def titles (lib : Library κ) (s : StoreId) : Catalog Origin :=
  lib.titlesWithin lib.maxDepth s

def tagged (lib : Library κ) (s : StoreId) (tag : String) : List Note :=
  ((lib.titles s).keys.filterMap (lib.get s)).filter (·.hasTag tag)

def reachesWithin (lib : Library κ) (target : StoreId) : Nat → StoreId → Bool
  | 0, _ => false
  | bound + 1, s => s = target || (lib.fallbacks s).any (reachesWithin lib target bound)

/-- Whether a path of fallbacks leads from `s` to `target`. -/
def reaches (lib : Library κ) (s target : StoreId) : Bool :=
  lib.reachesWithin target lib.maxDepth s

/-- Refused if it would close a cycle. -/
def addFallback? (lib : Library κ) (s fallback : StoreId) : Option (Library κ) :=
  if lib.reaches fallback s then none
  else
    let lib := lib.update fallback fun store => { store with overlays := store.overlays ++ [s] }
    some (lib.update s fun store => { store with fallbacks := store.fallbacks ++ [fallback] })

def cycleRefusal : String :=
  "Adding this fallback store would create a resolution cycle"

/-- Tells the stores above of a change, unless they hold a note of their own. -/
def forwardWithin (title : Title) (kind : ChangeKind) : Nat → StoreId → Library κ → Library κ
  | 0, _, lib => lib
  | bound + 1, s, lib =>
    (lib.overlays s).foldl
      (fun lib o =>
        if (lib.own? o title).isSome then lib
        else forwardWithin title kind bound o (lib.update o (Store.enqueue title kind)))
      lib

/-- Records a change in a store and in all stores above that it can be seen from. -/
def announce (lib : Library κ) (s : StoreId) (title : Title) (kind : ChangeKind) : Library κ :=
  forwardWithin title kind lib.maxDepth s (lib.update s (Store.enqueue title kind))

def add (lib : Library κ) (s : StoreId) (note : Note) : Library κ :=
  let kind := if (lib.own? s note.title).isSome then ChangeKind.modified else .added
  let saved : Saved := ⟨lib.nextSerial, note⟩
  let lib := { lib.update s (Store.put saved) with nextSerial := lib.nextSerial + 1 }
  lib.announce s note.title kind

/-- A deletion is announced even if there was nothing to delete. -/
def delete (lib : Library κ) (s : StoreId) (title : Title) : Library κ :=
  (lib.update s (Store.remove title)).announce s title .deleted

def registerParser (lib : Library κ) (s : StoreId) (keys : List String) (parser : Parser) :
    Library κ :=
  let lib := lib.update s (Store.register keys parser)
  match parser.label? with
  | some label => { lib with parseCounts := lib.parseCounts.insertNew label 0 }
  | none => lib

def installMacro (lib : Library κ) (s : StoreId) (m : Macro) : Library κ :=
  lib.update s (Store.install m)

def parseText (lib : Library κ) (s : StoreId) (type : Option String) (text : String) :
    Except String (List Node) × Library κ :=
  match lib.store? s with
  | some store =>
    (store.rules.parse type text,
      { lib with parseCounts := countParse lib.parseCounts (store.rules.parserFor type) })
  | none => (.ok [], lib)

/-- The nodes of the note that a title resolves to. They are parsed anew only if the note was
saved again since. -/
def parseNote (lib : Library κ) (s : StoreId) (title : Title) :
    Option (Except String (List Node)) × Library κ :=
  match lib.store? s, lib.lookup s title with
  | some store, some saved =>
    match store.cache.hit? title saved with
    | some nodes => (some (.ok nodes), lib)
    | none =>
      let parsed := store.cache.parse title saved
      let lib := lib.update s fun _ => { store with cache := parsed.2 }
      (some parsed.1,
        { lib with
          parseCounts := countParse lib.parseCounts (store.rules.parserFor saved.note.type) })
  | _, _ => (none, lib)

def clearPending (lib : Library κ) (s : StoreId) : Library κ :=
  lib.update s (Store.withBus Bus.clear)

def pending (lib : Library κ) (s : StoreId) : Batch :=
  ((lib.store? s).map fun store => store.bus.pending).getD ∅

def busAccess (s : StoreId) : Bus.Access (Library κ) κ where
  get lib := ((lib.store? s).map Store.bus).getD {}
  modify f lib := lib.update s (Store.withBus f)

end Library

end Notebook
