import Notebook.Proofs.Expansion.Depth
import Notebook.Proofs.Live.Upkeep

/-! # The guard bounds every rendering

A template is expanded only where it is not in the chain yet, and one that does not resolve has
no content. So in a rendered tree each chain lists titles that resolve, each of them once, and
no expansion nests deeper than there are such titles.
-/

namespace Notebook

namespace Scene

/-- The guard lets the chain come about: its titles resolve, and none stands in it twice. -/
structure Permits (scene : Scene) (chain : Chain) : Prop where
  nodup : chain.Nodup
  resolves : ∀ t ∈ chain, (scene.note? t).isSome

variable {scene : Scene} {chain : Chain} {context : Context}

theorem permits_nil (scene : Scene) : scene.Permits [] :=
  ⟨List.nodup_nil, by simp⟩

theorem Permits.cons {title : Title} (h : scene.Permits chain)
    (hn : (scene.note? title).isSome) (hc : ¬ chain.contains title) :
    scene.Permits (title :: chain) where
  nodup := List.nodup_cons.2 ⟨by simpa using hc, h.nodup⟩
  resolves := List.forall_mem_cons.2 ⟨hn, h.resolves⟩

theorem Permits.length_le {titles : List Title} (h : scene.Permits chain)
    (ht : ∀ t, (scene.note? t).isSome → t ∈ titles) : chain.length ≤ titles.length :=
  (h.nodup.subperm fun t hm => ht t (h.resolves t hm)).length_le

/-- The property carries over to the chain under which a template is expanded. -/
def Extends (scene : Scene) (Q : Chain → Prop) : Prop :=
  ∀ chain title, Q chain → (scene.note? title).isSome → ¬ chain.contains title →
    Q (title :: chain)

theorem extends_permits (scene : Scene) : scene.Extends scene.Permits :=
  fun _ _ h hn hc => h.cons hn hc

variable {Q : Chain → Prop}

theorem Extends.plan (hQ : scene.Extends Q) (h : Q context.chain) (callee : String)
    (args : Arguments) (m : Macro) : Q (scene.plan callee context args m).context.chain ∨
      Node.outerCallsOf (scene.plan callee context args m).nodes = [] := by
  cases m with
  | transclude =>
    unfold Scene.plan
    dsimp only
    cases Transclude.template args context with
    | none => exact .inl h
    | some title =>
      dsimp only
      split
      · exact .inl h
      · next hc =>
        cases hn : scene.note? title with
        | none =>
          rw [source_missing hn]
          exact .inr rfl
        | some note =>
          cases scene.source args title with
          | ok nodes => exact .inl (hQ _ _ h (by rw [hn]; rfl) hc)
          | error message => exact .inl h
  | _ => exact .inl h

end Scene

def Node.HasChain (Q : Chain → Prop) : Node → Prop
  | call _ _ trace _ => ∃ t, trace = some t ∧ Q t.context.chain
  | _ => True

theorem Node.hasChain_outline {Q : Chain → Prop} {node : Node} :
    node.outline.HasChain Q ↔ node.HasChain Q := by
  cases node <;> exact Iff.rfl

namespace Scene

variable {scene : Scene} {Q : Chain → Prop}

mutual

theorem Expands.chains (hQ : scene.Extends Q) {context : Context} {c : Call} {reads : Reads}
    {content : List Node} (h : Expands scene context c reads content) (hc : Q context.chain) :
    ∀ node ∈ Node.walkList content, node.HasChain Q := by
  match h with
  | .unknown hm => exact List.forall_mem_singleton.2 trivial
  | .unbound hm he => exact List.forall_mem_singleton.2 trivial
  | .bound hb ht hs => exact hs.chains hQ (hQ.plan hc _ _ _)
termination_by structural h

theorem Shows.chains (hQ : scene.Extends Q) {context : Context} {node shown : Node}
    (h : Shows scene context node shown) (hc : Q context.chain ∨ node.outerCalls = []) :
    ∀ below ∈ shown.walk, below.HasChain Q := by
  match h with
  | .text => exact List.forall_mem_singleton.2 trivial
  | .error => exact List.forall_mem_singleton.2 trivial
  | .element hs => exact List.forall_mem_cons.2 ⟨trivial, hs.chains hQ hc⟩
  | .call he =>
    have hchain := hc.resolve_right (List.cons_ne_nil _ _)
    exact List.forall_mem_cons.2 ⟨⟨_, rfl, hchain⟩, he.chains hQ hchain⟩
termination_by structural h

theorem ShowsList.chains (hQ : scene.Extends Q) {context : Context} {nodes shown : List Node}
    (h : ShowsList scene context nodes shown)
    (hc : Q context.chain ∨ Node.outerCallsOf nodes = []) :
    ∀ below ∈ Node.walkList shown, below.HasChain Q := by
  match h with
  | .nil => exact List.forall_mem_nil _
  | .cons hfirst hrest =>
    rw [Node.outerCallsOf, List.append_eq_nil_iff] at hc
    refine List.forall_mem_append.2 ⟨hfirst.chains hQ ?_, hrest.chains hQ ?_⟩
    · exact hc.imp_right And.left
    · exact hc.imp_right And.right
termination_by structural h

end

end Scene

namespace LiveTree

open Expand (expandNode expandWithin)

variable {κ : Type} {lib : Library κ} {s : StoreId}

/-- A rendering comes to an end, and it has the same result within every depth above the number of
titles that resolve. In its tree, the chain of each call lists titles that resolve, each of them
once. -/
theorem exists_render_bounded (hb : lib.IsBuiltin s) (c : Call) :
    ∃ store tree lib', lib.store? s = some store ∧ render lib s c = some (tree, lib') ∧
      (∀ depth, (lib.titles s).size < depth →
        lib.runOn s store 1 {} (expandNode (expandWithin depth) {} (.ofCall c)) =
          some (tree.root, tree.nextId, tree.tally, lib')) ∧
      ∀ id d trace content, .call id d trace content ∈ tree.root.walk →
        ∃ t, trace = some t ∧ t.context.chain.Nodup ∧
          (∀ title ∈ t.context.chain, (lib.get s title).isSome) ∧
          t.context.chain.length ≤ (lib.titles s).size := by
  obtain ⟨tree, lib', hrender⟩ := exists_render hb c
  obtain ⟨store, hs, -, hrun⟩ := render_eq_some hrender
  obtain ⟨store', hs', hbuiltin⟩ := hb
  obtain rfl := Option.some.inj (hs.symm.trans hs')
  have hcounted := lib.env_isCounted s store
  refine ⟨store, tree, lib', hs, hrender, fun depth hd => ?_, fun id d trace content hm => ?_⟩
  · rw [← hrun]
    unfold Library.runOn
    have hrun_eq := Expand.run_expandNode_expandWithin hbuiltin hcounted hd none (.ofCall c)
    exact congrArg (Option.bind · _) (hrun_eq _)
  · have hshows := Expand.shows_of_expand hbuiltin (Library.runOn_eq_some hrun).1
    have hchains := hshows.chains (Scene.extends_permits _) (.inl (Scene.permits_nil _))
    rw [Node.walk_outline, List.forall_mem_map] at hchains
    obtain ⟨t, ht, hchain⟩ := Node.hasChain_outline.1 (hchains _ hm)
    refine ⟨t, ht, hchain.nodup, hchain.resolves, ?_⟩
    obtain ⟨titles, hlength, hmem⟩ := hcounted
    exact (hchain.length_le hmem).trans hlength

def notebook (notes : List Saved) : Library Unit :=
  { stores := [notes.foldl (fun store saved => store.put saved) ({} : Store Unit).installBuiltins] }

theorem store?_notebook (notes : List Saved) : ∃ store, (notebook notes).store? 0 = some store ∧
    store.macros = ({} : Store Unit).installBuiltins.macros ∧
    store.parsers = ({} : Store Unit).installBuiltins.parsers := by
  refine ⟨_, rfl, ?_⟩
  generalize ({} : Store Unit).installBuiltins = store
  induction notes generalizing store with
  | nil => exact ⟨rfl, rfl⟩
  | cons saved notes ih => exact ih (store.put saved)

theorem isBuiltin_notebook (notes : List Saved) : (notebook notes).IsBuiltin 0 := by
  obtain ⟨store, hs, hmacros, -⟩ := store?_notebook notes
  exact ⟨store, hs, hmacros ▸ Store.isBuiltin_installBuiltins MacroTable.isBuiltin_empty⟩

def loop : Library Unit :=
  notebook [⟨0, { title := "A", text := "a<<tiddler B>>" }⟩,
    ⟨1, { title := "B", text := "b<<tiddler A>>" }⟩]

/-- Three levels are enough for a loop of two notes. -/
theorem exists_render_bounded_loop :
    ∃ store tree lib', loop.store? 0 = some store ∧
      render loop 0 (transclusion "A") = some (tree, lib') ∧
      loop.runOn 0 store 1 {} (expandNode (expandWithin 3) {} (.ofCall (transclusion "A"))) =
        some (tree.root, tree.nextId, tree.tally, lib') ∧
      ∀ id d trace content, .call id d trace content ∈ tree.root.walk →
        ∃ t, trace = some t ∧ t.context.chain.Nodup ∧ t.context.chain.length ≤ 2 := by
  have hb : loop.IsBuiltin 0 := isBuiltin_notebook _
  have hsize : (loop.titles 0).size = 2 := by decide +kernel
  obtain ⟨store, tree, lib', hs, hrender, hdepth, hchains⟩ :=
    exists_render_bounded hb (transclusion "A")
  refine ⟨store, tree, lib', hs, hrender, hdepth 3 (by omega), fun id d trace content hm => ?_⟩
  obtain ⟨t, ht, hnodup, -, hlength⟩ := hchains id d trace content hm
  exact ⟨t, ht, hnodup, hsize ▸ hlength⟩

end LiveTree

end Notebook
