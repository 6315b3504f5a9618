import Notebook.Expansion.Calls
import Notebook.Proofs.Outline

/-! # What calls stand for

The outline of what a built-in macro gives depends on little: the notes, the parsers and the
macros of the store, the context and the call. Each call stands for at most one outline.
-/

namespace Notebook

/-- What calls see of a store. -/
structure Scene where
  note? : Title → Option Note
  rules : ParseRules
  macros : MacroTable

def Env.scene (env : Env) : Scene :=
  ⟨env.note?, env.rules, env.macros⟩

/-- What a macro makes of its arguments: nodes whose calls are still to be expanded, in a context
of their own. -/
structure Plan where
  context : Context
  nodes : List Node

namespace Transclude

def blankAttributes (target template : Option Title) : Attributes :=
  (({} : Attributes).withAttribute targetAttribute (target.getD "")).withAttribute
    templateAttribute (template.getD "")

/-- A frame without classes. -/
def blankFrame (target template : Option Title) (content : List Node) : Node :=
  .element none "div" (blankAttributes target template) content

theorem get?_blankAttributes (target template : Option Title) :
    (blankAttributes target template).other.get? targetAttribute = some (target.getD "") := by
  simp [blankAttributes, Attributes.withAttribute, targetAttribute, templateAttribute]

theorem other_frameAttributes (page : PageSettings) (target template : Option Title)
    (missing : Bool) :
    (frameAttributes page target template missing).other =
      (blankAttributes target template).other := by
  unfold frameAttributes
  split <;> rfl

theorem unmarked_blankAttributes (target template : Option Title) :
    (blankAttributes target template).unmarked = blankAttributes target template := by
  rw [Attributes.unmarked_of_frame (by rw [get?_blankAttributes]; rfl)]
  rfl

theorem unmarked_frameAttributes (page : PageSettings) (target template : Option Title)
    (missing : Bool) :
    (frameAttributes page target template missing).unmarked = blankAttributes target template := by
  have h := other_frameAttributes page target template missing
  rw [Attributes.unmarked_of_frame (by rw [h, get?_blankAttributes]; rfl), h]
  rfl

end Transclude

namespace Scene

/-- The unexpanded content of a template, or the message of the parser that failed on it. -/
def source (scene : Scene) (args : Arguments) (template : Title) : Except String (List Node) :=
  match scene.note? template with
  | none => .ok []
  | some note =>
    if args.contains "with" then
      scene.rules.parse note.type (Placeholder.substitute note.text (args.all "with"))
    else scene.rules.parseNote note

theorem source_missing {scene : Scene} {template : Title} (hn : scene.note? template = none)
    (args : Arguments) : scene.source args template = .ok [] := by
  simp only [source, hn]

theorem source_filled {scene : Scene} {template : Title} {note : Note} {args : Arguments}
    (hn : scene.note? template = some note) (hw : args.contains "with") :
    scene.source args template =
      scene.rules.parse note.type (Placeholder.substitute note.text (args.all "with")) := by
  simp only [source, hn, if_pos hw]

theorem source_whole {scene : Scene} {template : Title} {note : Note} {args : Arguments}
    (hn : scene.note? template = some note) (hw : ¬ args.contains "with") :
    scene.source args template = scene.rules.parseNote note := by
  simp only [source, hn, if_neg hw]

def field? (scene : Scene) (args : Arguments) (context : Context) : Option String :=
  (context.scope.bind scene.note?).bind fun note => note.field ((args.first? "field").getD "text")

def plan (scene : Scene) (callee : String) (context : Context) (args : Arguments) : Macro → Plan
  | .transclude =>
    let target := Transclude.target args context
    match Transclude.template args context with
    | none => ⟨context, [Transclude.blankFrame target none []]⟩
    | some title =>
      if context.chain.contains title then
        let error : Node := .error (.transclusionRecursion title)
        ⟨context, [Transclude.blankFrame target (some title) [error]]⟩
      else
        match scene.source args title with
        | .ok nodes =>
          ⟨⟨title :: context.chain, target⟩, [Transclude.blankFrame target (some title) nodes]⟩
        | .error message => ⟨context, [.error (.macroFailed callee message)]⟩
  | .view => ⟨context, ((scene.field? args context).map Node.text).toList⟩
  | .echo => ⟨context, [.text (" ".intercalate (args.all "text"))]⟩
  | .version => ⟨context, [.text version]⟩
  | .custom _ => ⟨context, []⟩

structure Bound (scene : Scene) (c : Call) (m : Macro) (b : Binding Call) : Prop where
  installed : scene.macros.get? c.name = some m
  binds : m.bindCall c = .ok b

end Scene

/-- What a call reads by itself, as far as that is known before the calls among its parameters
have run. -/
def Macro.ownReads (m : Macro) (b : Binding κ) (context : Context) : Reads :=
  if Expand.hidesReads m.signature b then .all else m.reads (b.mapCalls fun _ => ()) context

def Binding.withTexts (b : Binding κ) (texts : List String) : Arguments :=
  (b.fill texts).mapCalls fun _ => ()

namespace Scene

mutual

/-- What a call reads and the outline that it stands for. -/
inductive Expands (scene : Scene) : Context → Call → Reads → List Node → Prop
  | unknown {context : Context} {c : Call} (hm : scene.macros.get? c.name = none) :
      Expands scene context c .none [.error (.unknownMacro c.name)]
  | unbound {context : Context} {c : Call} {m : Macro} {e : RenderError}
      (hm : scene.macros.get? c.name = some m) (hb : m.bindCall c = .error e) :
      Expands scene context c .none [.error e]
  | bound {context : Context} {c : Call} {m : Macro} {b : Binding Call} {read : Reads}
      {texts : List String} {content : List Node} (hb : scene.Bound c m b)
      (ht : Texts scene context b.calls read texts)
      (hs : ShowsList scene (scene.plan c.name context (b.withTexts texts) m).context
        (scene.plan c.name context (b.withTexts texts) m).nodes content) :
      Expands scene context c ((m.ownReads b context).merge read) content

inductive Texts (scene : Scene) : Context → List Call → Reads → List String → Prop
  | nil {context : Context} : Texts scene context [] .none []
  | cons {context : Context} {c : Call} {cs : List Call} {reads rest : Reads}
      {content : List Node} {texts : List String} (h : Expands scene context c reads content)
      (ht : Texts scene context cs rest texts) :
      Texts scene context (c :: cs) (reads.merge rest) (Node.plainTextList content :: texts)

/-- The outline of a node once the calls in it are expanded. -/
inductive Shows (scene : Scene) : Context → Node → Node → Prop
  | text {context : Context} {s : String} : Shows scene context (.text s) (.text s)
  | error {context : Context} {e : RenderError} : Shows scene context (.error e) (.error e)
  | element {context : Context} {id : Option NodeId} {tag : String} {attributes : Attributes}
      {children shown : List Node} (h : ShowsList scene context children shown) :
      Shows scene context (.element id tag attributes children)
        (.element none tag attributes.unmarked shown)
  | call {context : Context} {id : Option NodeId} {c : Call} {trace : Option Trace}
      {old content : List Node} {reads : Reads} (h : Expands scene context c reads content) :
      Shows scene context (.call id c trace old) (.call none c (some ⟨reads, context⟩) content)

inductive ShowsList (scene : Scene) : Context → List Node → List Node → Prop
  | nil {context : Context} : ShowsList scene context [] []
  | cons {context : Context} {node shown : Node} {nodes rest : List Node}
      (h : Shows scene context node shown) (hs : ShowsList scene context nodes rest) :
      ShowsList scene context (node :: nodes) (shown :: rest)

end

variable {scene : Scene} {context : Context} {c : Call}

theorem ShowsList.blankFrame {target template : Option Title} {nodes shown : List Node}
    (hs : ShowsList scene context nodes shown) :
    ShowsList scene context [Transclude.blankFrame target template nodes]
      [Transclude.blankFrame target template shown] := by
  refine .cons ?_ .nil
  have h : Shows scene context (Transclude.blankFrame target template nodes)
      (.element none "div" (Transclude.blankAttributes target template).unmarked shown) :=
    .element hs
  rwa [Transclude.unmarked_blankAttributes] at h

theorem Bound.unique {m m' : Macro} {b b' : Binding Call} (h : scene.Bound c m b)
    (h' : scene.Bound c m' b') : m = m' ∧ b = b' := by
  obtain rfl : m = m' := Option.some.inj (h.installed.symm.trans h'.installed)
  exact ⟨rfl, Except.ok.inj (h.binds.symm.trans h'.binds)⟩

theorem Bound.installed_ne {m : Macro} {b : Binding Call} (h : scene.Bound c m b) :
    scene.macros.get? c.name ≠ none := by
  simp [h.installed]

theorem Bound.binds_ne {m m' : Macro} {b : Binding Call} {e : RenderError} (h : scene.Bound c m b)
    (hm : scene.macros.get? c.name = some m') : m'.bindCall c ≠ .error e := by
  obtain rfl : m = m' := Option.some.inj (h.installed.symm.trans hm)
  simp [h.binds]

mutual

theorem Expands.unique {context : Context} {c : Call} {reads reads' : Reads}
    {content content' : List Node} (h : Expands scene context c reads content)
    (h' : Expands scene context c reads' content') : reads = reads' ∧ content = content' := by
  match h with
  | .unknown hm =>
    cases h' with
    | unknown => exact ⟨rfl, rfl⟩
    | unbound hm' => simp [hm] at hm'
    | bound hb => exact absurd hm hb.installed_ne
  | .unbound hm he =>
    cases h' with
    | unknown hm' => simp [hm] at hm'
    | unbound hm' he' =>
      obtain rfl := Option.some.inj (hm.symm.trans hm')
      obtain rfl := Except.error.inj (he.symm.trans he')
      exact ⟨rfl, rfl⟩
    | bound hb => exact absurd he (hb.binds_ne hm)
  | .bound hb ht hs =>
    cases h' with
    | unknown hm' => exact absurd hm' hb.installed_ne
    | unbound hm' he' => exact absurd he' (hb.binds_ne hm')
    | bound hb' ht' hs' =>
      obtain ⟨rfl, rfl⟩ := hb.unique hb'
      obtain ⟨rfl, rfl⟩ := ht.unique ht'
      exact ⟨rfl, hs.unique hs'⟩
termination_by structural h

theorem Texts.unique {context : Context} {cs : List Call} {read read' : Reads}
    {texts texts' : List String} (h : Texts scene context cs read texts)
    (h' : Texts scene context cs read' texts') : read = read' ∧ texts = texts' := by
  match h with
  | .nil =>
    cases h'
    exact ⟨rfl, rfl⟩
  | .cons h ht =>
    cases h' with
    | cons h' ht' =>
      obtain ⟨rfl, rfl⟩ := h.unique h'
      obtain ⟨rfl, rfl⟩ := ht.unique ht'
      exact ⟨rfl, rfl⟩
termination_by structural h

theorem Shows.unique {context : Context} {node shown shown' : Node}
    (h : Shows scene context node shown) (h' : Shows scene context node shown') :
    shown = shown' := by
  match h with
  | .text =>
    cases h'
    rfl
  | .error =>
    cases h'
    rfl
  | .element hs =>
    cases h' with
    | element hs' => rw [hs.unique hs']
  | .call hc =>
    cases h' with
    | call hc' =>
      obtain ⟨rfl, rfl⟩ := hc.unique hc'
      rfl
termination_by structural h

theorem ShowsList.unique {context : Context} {nodes shown shown' : List Node}
    (h : ShowsList scene context nodes shown) (h' : ShowsList scene context nodes shown') :
    shown = shown' := by
  match h with
  | .nil =>
    cases h'
    rfl
  | .cons h hs =>
    cases h' with
    | cons h' hs' => rw [h.unique h', hs.unique hs']
termination_by structural h

end

end Scene

end Notebook
