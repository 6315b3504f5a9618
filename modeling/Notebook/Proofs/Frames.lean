import Notebook.Proofs.Meaning
import Notebook.Store.Basic

/-! # Frames and the guard

A transclusion puts what it shows into a frame, which names its target and its template. The
calls inside of a frame are expanded under the chain and in the scope that its marks tell. Where
its template is already in the chain, the frame holds one error, and nowhere else does it hold
such an error of its own.
-/

namespace Notebook

namespace Transclude

/-- What a frame says of itself. Either part is empty if there is no such title. -/
structure Mark where
  target : String
  template : String
  deriving DecidableEq, Repr

def mark? (attributes : Attributes) : Option Mark :=
  (attributes.get? targetAttribute).bind fun target =>
    (attributes.get? templateAttribute).map fun template => ⟨target, template⟩

theorem mark?_congr {a b : Attributes} (h : a.other = b.other) : mark? a = mark? b := by
  simp only [mark?, Attributes.get?, h]

@[simp] theorem mark?_toggle (attributes : Attributes) (name : String) (on : Bool) :
    mark? (attributes.toggle name on) = mark? attributes :=
  mark?_congr (Attributes.other_toggle ..)

@[simp] theorem mark?_unmarked (attributes : Attributes) :
    mark? attributes.unmarked = mark? attributes :=
  mark?_congr (Attributes.other_unmarked _)

theorem mark?_blankAttributes (target template : Option Title) :
    mark? (blankAttributes target template) = some ⟨target.getD "", template.getD ""⟩ := by
  simp [mark?, blankAttributes, Attributes.get?, Attributes.withAttribute, targetAttribute,
    templateAttribute]

/-- What the guard makes of a frame for a template under a chain. -/
structure Guarded (template : Option Title) (chain : Chain) (children : List Node) : Prop where
  recursion : ∀ title, template = some title → title ∈ chain →
    children = [.error (.transclusionRecursion title)]
  content : template.getD "" ∉ chain → ∀ title, .error (.transclusionRecursion title) ∉ children

theorem guarded_none (chain : Chain) : Guarded none chain [] where
  recursion _ ht := by cases ht
  content _ _ := List.not_mem_nil

theorem guarded_recursion {title : Title} {chain : Chain} (h : title ∈ chain) :
    Guarded (some title) chain [.error (.transclusionRecursion title)] where
  recursion := by
    rintro _ ⟨⟩ -
    rfl
  content hn := absurd h hn

theorem guarded_content {title : Title} {chain : Chain} {children : List Node}
    (h : title ∉ chain) (he : ∀ e, .error e ∉ children) :
    Guarded (some title) chain children where
  recursion := by
    rintro _ ⟨⟩ hc
    exact absurd hc h
  content _ _ := he _

end Transclude

open Transclude (Guarded mark?)

/-- A node as a built-in parser gives it. -/
inductive Node.Parsed : Node → Prop
  | text (s : String) : Parsed (.text s)
  | element {tag : String} {children : List Node} (h : ∀ child ∈ children, Parsed child) :
      Parsed (.element none tag {} children)
  | call (c : Call) : Parsed (.ofCall c)

theorem Markup.parsed_parseChars (cs : List Char) : ∀ node ∈ parseChars cs, node.Parsed := by
  have hrun : ∀ run, ∀ node ∈ textNodes run, node.Parsed := by
    intro run node hn
    unfold textNodes at hn
    split at hn
    · cases hn
    · obtain rfl := List.mem_singleton.1 hn
      exact .text _
  induction cs using parseChars.induct with
  | case1 cs ihCall ihInner ihSpan ihBreak =>
    rw [parseChars]
    refine List.forall_mem_append.2 ⟨hrun _, ?_⟩
    split
    · exact List.forall_mem_nil _
    · next c after h => exact List.forall_mem_cons.2 ⟨.call c, ihCall c after h⟩
    · next e inner after h =>
      exact List.forall_mem_cons.2
        ⟨.element (ihInner e inner after h), ihSpan e inner after h⟩
    · next after h =>
      exact List.forall_mem_cons.2 ⟨.element (List.forall_mem_nil _), ihBreak after h⟩

def ParserTable.IsBuiltin (table : ParserTable) : Prop :=
  ∀ key parser, table.get? key = some parser → parser = .wikitext ∨ parser = .plain

theorem ParserTable.isBuiltin_empty : ParserTable.IsBuiltin ∅ := by
  intro key parser h
  simp at h

theorem ParserTable.IsBuiltin.register {table : ParserTable} (h : table.IsBuiltin)
    {parser : Parser} (hp : parser = .wikitext ∨ parser = .plain) (keys : List String) :
    (table.register keys parser).IsBuiltin := by
  unfold ParserTable.register
  induction keys generalizing table with
  | nil => exact h
  | cons key keys ih =>
    refine ih fun key' parser' h' => ?_
    rw [Catalog.get?_insert] at h'
    split at h'
    · exact Option.some.inj h' ▸ hp
    · exact h key' parser' h'

theorem Store.isBuiltin_parsers_installBuiltins {κ : Type} {store : Store κ}
    (h : store.parsers.IsBuiltin) : store.installBuiltins.parsers.IsBuiltin :=
  (h.register (.inl rfl) _).register (.inr rfl) _

theorem ParserTable.IsBuiltin.resolve {table : ParserTable} (h : table.IsBuiltin)
    (type : String) : table.resolve type = .wikitext ∨ table.resolve type = .plain := by
  unfold ParserTable.resolve
  split
  · next parser hp => exact h _ _ hp
  · split
    · next parser hp =>
      obtain ⟨key, -, hp⟩ := Option.bind_eq_some_iff.1 hp
      exact h _ _ hp
    · cases hp : table.get? plainType with
      | none => exact .inr rfl
      | some parser => exact h _ _ hp

theorem ParseRules.parse_builtin {rules : ParseRules} (h : rules.parsers.IsBuiltin)
    (type : Option String) (text : String) :
    ∃ nodes, rules.parse type text = .ok nodes ∧ ∀ node ∈ nodes, node.Parsed := by
  have hparser : rules.parserFor type = .wikitext ∨ rules.parserFor type = .plain := by
    cases type with
    | none => exact h.resolve _
    | some t => exact h.resolve _
  unfold ParseRules.parse
  rcases hparser with hp | hp
  · exact ⟨_, by rw [hp]; rfl, Markup.parsed_parseChars text.toList⟩
  · refine ⟨_, by rw [hp]; rfl, List.forall_mem_singleton.2 (.element ?_)⟩
    exact List.forall_mem_singleton.2 (.text text)

namespace Scene

variable {scene : Scene}

theorem source_builtin (h : scene.rules.parsers.IsBuiltin) (args : Arguments) (template : Title) :
    ∃ nodes, scene.source args template = .ok nodes ∧ ∀ node ∈ nodes, node.Parsed := by
  cases hn : scene.note? template with
  | none => exact ⟨[], source_missing hn args, List.forall_mem_nil _⟩
  | some note =>
    by_cases hw : args.contains "with"
    · rw [source_filled hn hw]
      exact ParseRules.parse_builtin h ..
    · rw [source_whole hn hw]
      exact ParseRules.parse_builtin h ..

/-- The transclusion resolves the template, or none at all, once the calls among its parameters
have given their texts. -/
def Resolves (scene : Scene) (context : Context) (c : Call) (template : Option Title) : Prop :=
  ∃ b read texts, scene.Bound c .transclude b ∧ scene.Texts context b.calls read texts ∧
    Transclude.template (b.withTexts texts) context = template

theorem Texts.length_eq {context : Context} {cs : List Call} {read : Reads} {texts : List String}
    (h : Texts scene context cs read texts) : texts.length = cs.length := by
  match h with
  | .nil => rfl
  | .cons _ ht => exact congrArg Nat.succ ht.length_eq
termination_by structural h

/-- Whether a transclusion resolves a template does not depend on the texts of the calls among
its parameters. -/
theorem Resolves.isSome_eq {scene' : Scene} {context : Context} {c : Call}
    {template template' : Option Title} (h : scene.Resolves context c template)
    (h' : scene'.Resolves context c template') : template.isSome = template'.isSome := by
  obtain ⟨b, read, texts, hb, ht, rfl⟩ := h
  obtain ⟨b', read', texts', hb', ht', rfl⟩ := h'
  obtain rfl := Except.ok.inj (hb.binds.symm.trans hb'.binds)
  have hfirst : ∀ name, (Binding.first? (b.withTexts texts) name).isSome =
      (Binding.first? (b.withTexts texts') name).isSome := by
    intro name
    simp only [Binding.withTexts, Binding.first?_mapCalls,
      Binding.isSome_first?_fill ht.length_eq, Binding.isSome_first?_fill ht'.length_eq]
  simp only [Transclude.template, Transclude.target, Option.isSome_or, hfirst]

theorem ShowsList.mem {context : Context} {nodes shown : List Node} {node' : Node}
    (h : ShowsList scene context nodes shown) (hn : node' ∈ shown) :
    ∃ node ∈ nodes, Shows scene context node node' := by
  induction nodes generalizing shown with
  | nil =>
    cases h
    cases hn
  | cons node nodes ih =>
    cases h with
    | cons h hs =>
      rcases List.mem_cons.1 hn with rfl | hn
      · exact ⟨_, List.mem_cons_self, h⟩
      · obtain ⟨node, hm, h⟩ := ih hs hn
        exact ⟨node, List.mem_cons_of_mem _ hm, h⟩

end Scene

/-- The node stands where it belongs, in the content of the owner if it has one: below a frame,
calls have been expanded under the chain and in the scope that the frame tells. `W` says which
template a transclusion has resolved. -/
inductive Node.Stands (W : Context → Call → Option Title → Prop) :
    Option Call → Context → Node → Prop
  | text {owner : Option Call} {context : Context} {s : String} :
      Stands W owner context (.text s)
  | error {owner : Option Call} {context : Context} {e : RenderError} :
      Stands W owner context (.error e)
  | element {owner : Option Call} {context : Context} {id : Option NodeId} {tag : String}
      {attributes : Attributes} {children : List Node} (hm : mark? attributes = none)
      (hc : ∀ child ∈ children, Stands W none context child) :
      Stands W owner context (.element id tag attributes children)
  | frame {c : Call} {context inner : Context} {id : Option NodeId} {tag : String}
      {attributes : Attributes} {template : Option Title} {children : List Node}
      (hm : mark? attributes = some ⟨inner.scope.getD "", template.getD ""⟩)
      (hw : W context c template) (hchain : inner.chain = template.getD "" :: context.chain)
      (hg : Guarded template context.chain children)
      (hc : ∀ child ∈ children, Stands W none inner child) :
      Stands W (some c) context (.element id tag attributes children)
  | call {owner : Option Call} {context : Context} {id : Option NodeId} {c : Call}
      {reads : Reads} {content : List Node}
      (hc : ∀ child ∈ content, Stands W (some c) context child) :
      Stands W owner context (.call id c (some ⟨reads, context⟩) content)

namespace Node

variable {W W' : Context → Call → Option Title → Prop} {owner : Option Call} {context : Context}

theorem Stands.mono (hW : ∀ context c template, W context c template → W' context c template)
    {node : Node} (h : node.Stands W owner context) : node.Stands W' owner context := by
  induction h with
  | text => exact .text
  | error => exact .error
  | element hm _ ih => exact .element hm ih
  | frame hm hw hchain hg _ ih => exact .frame hm (hW _ _ _ hw) hchain hg ih
  | call _ ih => exact .call ih

theorem guarded_outlineList {template : Option Title} {chain : Chain} {children : List Node}
    (h : Guarded template chain (outlineList children)) : Guarded template chain children where
  recursion title ht hc := by
    have hl := h.recursion title ht hc
    rw [outlineList_eq_map, List.map_eq_singleton_iff] at hl
    obtain ⟨node, rfl, hn⟩ := hl
    cases node <;> cases hn
    rfl
  content hc title he := h.content hc title (outline_mem he)

theorem Stands.of_outline {node : Node} (h : node.outline.Stands W owner context) :
    node.Stands W owner context := by
  generalize hn : node.outline = shown at h
  induction h generalizing node with
  | text =>
    cases node <;> cases hn
    exact .text
  | error =>
    cases node <;> cases hn
    exact .error
  | element hm _ ih =>
    cases node <;> cases hn
    rw [Transclude.mark?_unmarked] at hm
    exact .element hm fun child hchild => ih child.outline (outline_mem hchild) rfl
  | frame hm hw hchain hg _ ih =>
    cases node <;> cases hn
    rw [Transclude.mark?_unmarked] at hm
    exact .frame hm hw hchain (guarded_outlineList hg) fun child hchild =>
      ih child.outline (outline_mem hchild) rfl
  | call _ ih =>
    cases node <;> cases hn
    exact .call fun child hchild => ih child.outline (outline_mem hchild) rfl

theorem Stands.toggle {id : Option NodeId} {tag : String} {attributes : Attributes}
    {children : List Node} (h : Node.Stands W owner context (.element id tag attributes children))
    (name : String) (on : Bool) :
    Node.Stands W owner context (.element id tag (attributes.toggle name on) children) := by
  cases h with
  | element hm hc => exact .element (by rwa [Transclude.mark?_toggle]) hc
  | frame hm hw hchain hg hc =>
    exact .frame (by rwa [Transclude.mark?_toggle]) hw hchain hg hc

end Node

/-- The calls of the tree that are not below others stand where they belong. -/
inductive Node.Holds (W : Context → Call → Option Title → Prop) (context : Context) :
    Node → Prop
  | text {s : String} : Holds W context (.text s)
  | error {e : RenderError} : Holds W context (.error e)
  | element {id : Option NodeId} {tag : String} {attributes : Attributes} {children : List Node}
      (hc : ∀ child ∈ children, Holds W context child) :
      Holds W context (.element id tag attributes children)
  | call {id : Option NodeId} {c : Call} {trace : Option Trace} {content : List Node}
      (h : Stands W none context (.call id c trace content)) :
      Holds W context (.call id c trace content)

namespace Scene

variable {scene : Scene} {W : Context → Call → Option Title → Prop}

theorem stands_of_parsed {context : Context} {node shown : Node} (hp : node.Parsed)
    (h : Shows scene context node shown) (hs : shown.Holds W context) :
    shown.Stands W none context := by
  induction hp generalizing shown with
  | text s =>
    cases h
    exact .text
  | call c =>
    cases h
    cases hs with
    | call hs => exact hs
  | @element tag children hp ih =>
    cases h with
    | element h =>
      cases hs with
      | element hs =>
        refine .element (by rw [Transclude.mark?_unmarked]; rfl) fun child hc => ?_
        obtain ⟨node, hn, hshows⟩ := h.mem hc
        exact ih node hn hshows (hs child hc)

theorem not_mem_error_of_parsed {context : Context} {nodes shown : List Node}
    (hp : ∀ node ∈ nodes, node.Parsed) (h : ShowsList scene context nodes shown)
    (e : RenderError) : .error e ∉ shown := by
  intro he
  obtain ⟨node, hn, hshows⟩ := h.mem he
  cases hshows
  cases hp _ hn

theorem ShowsList.eq_blankFrame {context : Context} {target template : Option Title}
    {nodes shown : List Node}
    (h : ShowsList scene context [Transclude.blankFrame target template nodes] shown) :
    ∃ shown', shown = [Transclude.blankFrame target template shown'] ∧
      ShowsList scene context nodes shown' := by
  cases h with
  | cons h hs =>
    cases hs
    cases h with
    | element h =>
      rw [Transclude.unmarked_blankAttributes]
      exact ⟨_, rfl, h⟩

theorem stands_blankFrame {c : Call} {context : Context} (inner : Context) {template : Option Title}
    {children : List Node} (hw : W context c template)
    (hchain : inner.chain = template.getD "" :: context.chain)
    (hg : Guarded template context.chain children)
    (hc : ∀ child ∈ children, Node.Stands W none inner child) :
    Node.Stands W (some c) context (Transclude.blankFrame inner.scope template children) :=
  .frame (Transclude.mark?_blankAttributes _ _) hw hchain hg hc

theorem stands_of_transclude (hr : scene.rules.parsers.IsBuiltin) {c : Call} {context : Context}
    {args : Arguments} {content : List Node} (hw : W context c (Transclude.template args context))
    (h : ShowsList scene (scene.plan c.name context args .transclude).context
      (scene.plan c.name context args .transclude).nodes content)
    (hs : ∀ node ∈ content,
      node.Holds W (scene.plan c.name context args .transclude).context) :
    ∀ node ∈ content, node.Stands W (some c) context := by
  unfold plan at h hs
  dsimp only at h hs
  cases ht : Transclude.template args context with
  | none =>
    rw [ht] at hw
    simp only [ht] at h
    obtain ⟨shown, rfl, hshown⟩ := h.eq_blankFrame
    cases hshown
    let inner : Context := ⟨"" :: context.chain, Transclude.target args context⟩
    exact List.forall_mem_singleton.2 (stands_blankFrame inner hw rfl
      (Transclude.guarded_none _) (List.forall_mem_nil _))
  | some title =>
    rw [ht] at hw
    simp only [ht] at h hs
    let inner : Context := ⟨title :: context.chain, Transclude.target args context⟩
    split at h
    · next hc =>
      obtain ⟨shown, rfl, hshown⟩ := h.eq_blankFrame
      obtain _ | ⟨⟨⟩, ⟨⟩⟩ := hshown
      have hmem : title ∈ context.chain := by simpa using hc
      exact List.forall_mem_singleton.2 (stands_blankFrame inner hw rfl
        (Transclude.guarded_recursion hmem) (List.forall_mem_singleton.2 .error))
    · next hc =>
      obtain ⟨nodes, hsource, hp⟩ := source_builtin hr args title
      rw [if_neg hc] at hs
      simp only [hsource] at h hs
      obtain ⟨shown, rfl, hshown⟩ := h.eq_blankFrame
      have hnot : title ∉ context.chain := by simpa using hc
      have hbelow : ∀ child ∈ shown, child.Holds W inner := by
        cases List.forall_mem_singleton.1 hs with
        | element hs => exact hs
      have hg := Transclude.guarded_content hnot (not_mem_error_of_parsed hp hshown)
      refine List.forall_mem_singleton.2
        (stands_blankFrame inner hw rfl hg fun child hchild => ?_)
      obtain ⟨node, hn, hshows⟩ := hshown.mem hchild
      exact stands_of_parsed (hp node hn) hshows (hbelow child hchild)

theorem stands_of_plan (hr : scene.rules.parsers.IsBuiltin)
    (hW : ∀ context c template, scene.Resolves context c template → W context c template)
    {c : Call} {context : Context} {m : Macro} {b : Binding Call} {read : Reads}
    {texts : List String} {content : List Node} (hb : scene.Bound c m b)
    (ht : Texts scene context b.calls read texts)
    (h : ShowsList scene (scene.plan c.name context (b.withTexts texts) m).context
      (scene.plan c.name context (b.withTexts texts) m).nodes content)
    (hs : ∀ node ∈ content,
      node.Holds W (scene.plan c.name context (b.withTexts texts) m).context) :
    ∀ node ∈ content, node.Stands W (some c) context := by
  cases m with
  | transclude => exact stands_of_transclude hr (hW _ _ _ ⟨b, read, texts, hb, ht, rfl⟩) h hs
  | view =>
    simp only [plan] at h
    intro node hn
    obtain ⟨source, hsource, hshows⟩ := h.mem hn
    rw [Option.mem_toList, Option.map_eq_some_iff] at hsource
    obtain ⟨value, -, rfl⟩ := hsource
    cases hshows
    exact .text
  | echo =>
    obtain _ | ⟨⟨⟩, ⟨⟩⟩ := h
    exact List.forall_mem_singleton.2 .text
  | version =>
    obtain _ | ⟨⟨⟩, ⟨⟩⟩ := h
    exact List.forall_mem_singleton.2 .text
  | custom c =>
    cases h
    exact List.forall_mem_nil _

mutual

theorem Expands.stands (hr : scene.rules.parsers.IsBuiltin)
    (hW : ∀ context c template, scene.Resolves context c template → W context c template)
    {context : Context} {c : Call} {reads : Reads} {content : List Node}
    (h : Expands scene context c reads content) :
    ∀ node ∈ content, node.Stands W (some c) context := by
  match h with
  | .unknown hm => exact List.forall_mem_singleton.2 .error
  | .unbound hm he => exact List.forall_mem_singleton.2 .error
  | .bound hb ht hs => exact stands_of_plan hr hW hb ht hs (hs.holds hr hW)
termination_by structural h

theorem Shows.holds (hr : scene.rules.parsers.IsBuiltin)
    (hW : ∀ context c template, scene.Resolves context c template → W context c template)
    {context : Context} {node shown : Node} (h : Shows scene context node shown) :
    shown.Holds W context := by
  match h with
  | .text => exact .text
  | .error => exact .error
  | .element hs => exact .element (hs.holds hr hW)
  | .call he => exact .call (.call (he.stands hr hW))
termination_by structural h

theorem ShowsList.holds (hr : scene.rules.parsers.IsBuiltin)
    (hW : ∀ context c template, scene.Resolves context c template → W context c template)
    {context : Context} {nodes shown : List Node} (h : ShowsList scene context nodes shown) :
    ∀ node ∈ shown, node.Holds W context := by
  match h with
  | .nil => exact List.forall_mem_nil _
  | .cons hfirst hrest =>
    exact List.forall_mem_cons.2 ⟨hfirst.holds hr hW, hrest.holds hr hW⟩
termination_by structural h

end

end Scene

end Notebook
