import Notebook.Proofs.Expansion.Containment
import Notebook.Proofs.Live.Upkeep
import Notebook.Proofs.Store.Parsing

/-! # Executions leave a store as it was

Nodes are executed on a store, under any chain and scope. Its macros and parsers may fail and break
off anywhere. That can be seen in the calls that have failed, and neither in their siblings nor
in the store.
-/

namespace Notebook

variable {κ : Type}

/-- All of a store that can be seen. What was parsed before makes parsing faster and no more. -/
def Store.uncached (store : Store κ) : Store κ :=
  { store with cache := ∅ }

namespace Library

open Expand (expandList expandWithin)

variable {lib lib' : Library κ} {s : StoreId} {store : Store κ} {depth : Nat} {context : Context}
  {nodes filled : List Node} {nextId nextId' : NodeId} {tally tally' : Tally}

def execute (lib : Library κ) (s : StoreId) (store : Store κ) (depth : Nat) (context : Context)
    (nodes : List Node) (nextId : NodeId) (tally : Tally) :
    Option (List Node × NodeId × Tally × Library κ) :=
  lib.runOn s store nextId tally (expandList (expandWithin depth) context nodes)

/-- What an execution of nodes has to do with the nodes and with the library before and after. -/
structure Contained (lib : Library κ) (s : StoreId) (store : Store κ) (depth : Nat)
    (context : Context) (nodes filled : List Node) (lib' : Library κ) : Prop where
  /-- Each node is, up to ids, what it is when it is executed alone. -/
  alone : List.Forall₂ (fun node result => ∀ nextId tally, ∃ other nextId' tally' lib'',
    lib.execute s store depth context [node] nextId tally =
      some ([other], nextId', tally', lib'') ∧
    other.unnumbered = result.unnumbered) nodes filled
  /-- Only calls have changed, and those that have failed hold an error. -/
  fills : (lib.env s store).FillsList context nodes filled
  stores : ∀ t, (lib'.store? t).map Store.uncached = (lib.store? t).map Store.uncached
  lookups : ∀ t title, lib'.lookup t title = lib.lookup t title
  parses : ∀ t title, (lib'.parseNote t title).1 = (lib.parseNote t title).1

theorem uncached_runOn {α : Type} {x : Expand (lib.env s store) α} {a : α}
    (hs : lib.store? s = some store)
    (h : lib.runOn s store nextId tally x = some (a, nextId', tally', lib')) (t : StoreId) :
    (lib'.store? t).map Store.uncached = (lib.store? t).map Store.uncached := by
  obtain ⟨cache, ht⟩ := store?_runOn hs h
  rw [ht]
  split
  · next heq =>
    rw [← heq, hs]
    rfl
  · rfl

theorem runOn_refines {α : Type} {x y : Expand (lib.env s store) α} (h : Expand.Refines x y)
    {result : α × NodeId × Tally × Library κ}
    (hx : lib.runOn s store nextId tally x = some result) :
    lib.runOn s store nextId tally y = some result := by
  obtain ⟨r, hrun, hr⟩ := Option.bind_eq_some_iff.1 hx
  exact Option.bind_eq_some_iff.2 ⟨r, h _ _ hrun, hr⟩

theorem parseNote_congr
    (hstores : ∀ t, (lib'.store? t).map Store.uncached = (lib.store? t).map Store.uncached)
    (hlookups : ∀ t title, lib'.lookup t title = lib.lookup t title) (t : StoreId)
    (title : Title) : (lib'.parseNote t title).1 = (lib.parseNote t title).1 := by
  have hrules : (lib'.store? t).map Store.rules = (lib.store? t).map Store.rules := by
    have h := congrArg (Option.map Store.rules) (hstores t)
    rwa [Option.map_map, Option.map_map] at h
  have htext : ∀ type text, (lib'.parseText t type text).1 = (lib.parseText t type text).1 := by
    intro type text
    unfold parseText
    cases hs' : lib'.store? t <;> cases hs : lib.store? t <;> simp_all
  rw [parseNote_fst, parseNote_fst, hlookups]
  simp only [htext]

theorem contained_of_execute (hs : lib.store? s = some store) (h : (lib.env s store).Tame)
    (hx : lib.execute s store depth context nodes nextId tally =
      some (filled, nextId', tally', lib')) :
    Contained lib s store depth context nodes filled lib' := by
  have hy := (runOn_eq_some hx).1
  have hstores := uncached_runOn hs hx
  have hlookups : ∀ t title, lib'.lookup t title = lib.lookup t title :=
    fun t title => ((sameNotes_runOn hs hx).lookup t title).symm
  refine ⟨?_, (Expand.relating_fills depth).of_expandList hy, hstores, hlookups,
    parseNote_congr hstores hlookups⟩
  refine (Expand.alone_of_expandList h hy).imp fun node result halone nextId tally => ?_
  obtain ⟨other, q, hrun, hother⟩ := halone ⟨nextId, tally, store.cache, lib.parseCounts⟩
  exact ⟨other, q.nextId, q.tally, _, Option.bind_eq_some_iff.2 ⟨([other], q), hrun, rfl⟩, hother⟩

/-- If macros depend on their arguments, their context and the notes alone and come to an end, then
so does every execution: some depth is enough for it, and more changes nothing. A failure in it can
be seen nowhere but in the call that has failed. -/
theorem execute_contained (hs : lib.store? s = some store) (h : (lib.env s store).Tame)
    (context : Context) (nodes : List Node) :
    (∃ depth, ∀ nextId tally, ∃ result, ∀ depth' ≥ depth,
      lib.execute s store depth' context nodes nextId tally = some result) ∧
    ∀ depth nextId tally filled nextId' tally' lib',
      lib.execute s store depth context nodes nextId tally =
        some (filled, nextId', tally', lib') →
      Contained lib s store depth context nodes filled lib' := by
  refine ⟨?_, fun _ _ _ _ _ _ _ hx => contained_of_execute hs h hx⟩
  obtain ⟨depth, hdepth⟩ := Expand.exists_total_expandList h context nodes
  refine ⟨depth, fun nextId tally => ?_⟩
  obtain ⟨filled, nextId', tally', lib', hx⟩ :=
    exists_runOn (hdepth depth (Nat.le_refl depth)) nextId tally
  refine ⟨_, fun depth' hle => runOn_refines ?_ hx⟩
  exact Expand.refines_expandList (Expand.refines_expandWithin hle) context nodes

def boom : Macro :=
  .custom { name := "boom", signature := {}, reads := fun _ _ => .none,
            body := fun _ _ => .panic none, appended := none }

def shakyStore : Store Unit :=
  ((({} : Store Unit).installBuiltins.install boom).register ["bad"]
    (.custom none fun _ => .error "no")).put ⟨0, { title := "a", text := "x", type := "bad" }⟩

def shaky : Library Unit :=
  { stores := [shakyStore] }

theorem tame_shaky : (shaky.env 0 shakyStore).Tame := by
  have hmacros : ∀ name m, shakyStore.macros.get? name = some m →
      m.isCustom = false ∨ m = boom := by
    intro name m hm
    have htable : shakyStore.macros = ({} : Store Unit).installBuiltins.macros.install boom := rfl
    rw [htable, MacroTable.install, Catalog.get?_insert] at hm
    split at hm
    · exact .inr (Option.some.inj hm).symm
    · exact .inl (Store.isBuiltin_installBuiltins MacroTable.isBuiltin_empty name m hm)
  refine Expand.tame_of_descending ?_ (env_isCounted ..) ?_
  · intro name m hm nested context hd args
    rcases hmacros name m hm with hb | rfl
    · exact Expand.total_runBody hb hd args
    · exact Expand.total_pure _
  · intro name m hm args context
    rcases hmacros name m hm with hb | rfl
    · exact Expand.determined_of_isCustom hb args context
    · exact fun _ _ => Expand.agree_pure rfl

def shakyNodes : List Node :=
  [.text "x", .ofCall ⟨"boom", []⟩,
    .plainElement "strong" [.ofCall ⟨"tiddler", [.positional "a"]⟩], .ofCall ⟨"version", []⟩]

theorem execute_contained_shaky :
    ∃ filled nextId tally lib',
      shaky.execute 0 shakyStore 2 {} shakyNodes 1 {} = some (filled, nextId, tally, lib') ∧
      Node.errors filled =
        [.macroFailed "boom" "macro panicked", .macroFailed "tiddler" "no"] ∧
      Contained shaky 0 shakyStore 2 {} shakyNodes filled lib' := by
  have herrors : (shaky.execute 0 shakyStore 2 {} shakyNodes 1 {}).map (fun r => Node.errors r.1) =
      some [.macroFailed "boom" "macro panicked", .macroFailed "tiddler" "no"] := by
    decide +kernel
  obtain ⟨⟨filled, nextId, tally, lib'⟩, hx, herrors⟩ := Option.map_eq_some_iff.1 herrors
  refine ⟨filled, nextId, tally, lib', hx, herrors, ?_⟩
  exact (execute_contained rfl tame_shaky {} shakyNodes).2 _ _ _ _ _ _ _ hx

end Library

end Notebook
