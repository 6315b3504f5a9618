import Notebook.Proofs.Agreement
import Notebook.Proofs.Expansion.Total

/-! # Markers of frames

The frame of a transclusion is marked if its target is missing. An expansion of the call decides
that by what the target resolves to, and gives a frame unless a parser fails on the template.
-/

namespace Notebook

namespace Signature

variable {κ : Type} {signature : Signature} {shown : Argument κ → String}

def Declares (signature : Signature) (b : Binding κ) : Prop :=
  ∀ name, b.contains name → (signature.find? name).isSome

theorem Declares.insert {b : Binding κ} (h : signature.Declares b) {name : String}
    (hn : (signature.find? name).isSome) (values : List (Argument κ)) :
    signature.Declares (Catalog.insert b name values) := by
  intro name' hname'
  rw [Catalog.contains, Catalog.get?_insert] at hname'
  split at hname'
  · next heq => exact heq ▸ hn
  · exact h name' hname'

theorem isSome_find?_of_mem {spec : ParamSpec} (h : spec ∈ signature.params) :
    (signature.find? spec.name).isSome :=
  List.find?_isSome.2 ⟨spec, h, by simp⟩

theorem isSome_find?_nameFor {callee : String} {last : Option String} {b : Binding κ}
    {s : Supplied κ} {name : String} (hlast : ∀ name ∈ last, (signature.find? name).isSome)
    (h : signature.nameFor callee shown last b s = .ok name) : (signature.find? name).isSome := by
  unfold nameFor at h
  split at h
  · split at h
    · next hfind => exact Except.ok.inj h ▸ hfind
    · cases h
  · split at h
    · next name' hname' =>
      obtain rfl := Except.ok.inj h
      split at hname'
      · exact hlast _ hname'
      · cases hname'
    · split at h
      · next name' hslot =>
        obtain rfl := Except.ok.inj h
        obtain ⟨spec, hspec, rfl⟩ := Option.map_eq_some_iff.1 hslot
        exact isSome_find?_of_mem (List.mem_of_find?_eq_some hspec)
      · cases h

theorem declares_of_bindSupplied {callee : String} {last : Option String} {b b' : Binding κ}
    {l : List (Supplied κ)} (hlast : ∀ name ∈ last, (signature.find? name).isSome)
    (hb : signature.Declares b) (h : signature.bindSupplied callee shown last b l = .ok b') :
    signature.Declares b' := by
  induction l generalizing last b with
  | nil =>
    cases h
    exact hb
  | cons s rest ih =>
    rw [bindSupplied] at h
    cases hn : signature.nameFor callee shown last b s with
    | error e => simp [hn, Bind.bind, Except.bind] at h
    | ok name =>
      simp only [hn, Bind.bind, Except.bind] at h
      have hname := isSome_find?_nameFor hlast hn
      refine ih (fun name' hname' => ?_) (hb.insert hname _) h
      cases hs : s.name with
      | none => exact hlast name' (by simpa [hs] using hname')
      | some given =>
        obtain rfl : given = name' := by simpa [hs] using hname'
        unfold nameFor at hn
        rw [hs] at hn
        dsimp only at hn
        split at hn
        · assumption
        · cases hn

theorem declares_of_bindDefaults {callee : String} {specs : List ParamSpec} {b b' : Binding κ}
    (hspecs : ∀ spec ∈ specs, (signature.find? spec.name).isSome) (hb : signature.Declares b)
    (h : bindDefaults callee specs b = .ok b') : signature.Declares b' := by
  induction specs generalizing b with
  | nil =>
    cases h
    exact hb
  | cons spec specs ih =>
    obtain ⟨hspec, hrest⟩ := List.forall_mem_cons.1 hspecs
    rw [bindDefaults] at h
    split at h
    · exact ih hrest hb h
    · split at h
      · exact ih hrest (hb.insert hspec _) h
      · split at h
        · cases h
        · exact ih hrest hb h

theorem declares_of_bind {callee : String} {l : List (Supplied κ)} {b : Binding κ}
    (h : signature.bind callee shown l = .ok b) : signature.Declares b := by
  simp only [bind] at h
  cases hs : signature.bindSupplied callee shown none ∅ l with
  | error e => simp [hs, Bind.bind, Except.bind] at h
  | ok b₀ =>
    simp only [hs, Bind.bind, Except.bind] at h
    have hnil : signature.Declares (∅ : Binding κ) := fun name hname => by
      simp [Catalog.contains] at hname
    exact declares_of_bindDefaults (fun spec hspec => isSome_find?_of_mem hspec)
      (declares_of_bindSupplied (by simp) hnil hs) h

end Signature

namespace Transclude

/-- All parameters of a transclusion bear on its reads, so where no call hides them, there is
none. -/
theorem calls_eq_nil {c : Call} {b : Binding Call} (hb : Macro.transclude.bindCall c = .ok b)
    (h : Expand.hidesReads Macro.transclude.signature b = false) : b.calls = [] := by
  refine List.eq_nil_iff_forall_not_mem.2 fun d hd => ?_
  obtain ⟨name, value, hv, hvc⟩ := Binding.mem_calls.1 hd
  have hcontains : b.contains name := by
    rw [Binding.valuesOf] at hv
    cases hn : b.get? name with
    | none => simp [hn] at hv
    | some values => simp [Catalog.contains, hn]
  obtain ⟨spec, hspec⟩ := Option.isSome_iff_exists.1 (Signature.declares_of_bind hb name hcontains)
  obtain rfl : spec.name = name := by simpa using List.find?_some hspec
  have hmem : spec ∈ Macro.transclude.signature.params := List.mem_of_find?_eq_some hspec
  have hreads : ∀ spec ∈ Macro.transclude.signature.params, spec.affectsReads := by decide
  have hcall : b.hasCall spec.name := List.any_eq_true.2 ⟨value, hv, by simp [Argument.isCall, hvc]⟩
  rw [Expand.hidesReads, List.any_eq_false] at h
  exact h spec hmem (by simp [hreads spec hmem, hcall])

end Transclude

namespace Transclude

/-- The attributes are those of a frame, and the frame is marked if nothing is there for the
target. A frame whose target is the empty title may be marked although there is a note. -/
def MarkedBy (scene : Scene) (page : PageSettings) (target template : Option Title)
    (attributes : Attributes) : Prop :=
  ∃ marked, attributes = frameAttributes page target template marked ∧
    ((target = some "" → scene.note? "" = none) → marked = (target.bind scene.note?).isNone)

/-- The content of a transclusion, if it is a frame. The two classes must be different, or the
marks of frames cannot be told from the frames. -/
structure Framed (scene : Scene) (page : PageSettings) (callee : String) (context : Context)
    (args : Arguments) (content : List Node) : Prop where
  planned : ∃ nodes, (scene.plan callee context args .transclude).nodes =
    [blankFrame (target args context) (template args context) nodes]
  framed : ∃ id attributes children, content = [.element id "div" attributes children] ∧
    (page.frameClass ≠ page.missingClass →
      MarkedBy scene page (target args context) (template args context) attributes)

end Transclude

namespace Node

/-- The call comes to an error, or its macro has made of it what it is in this scene as far as
frames go. -/
def HasFrame (scene : Scene) (page : PageSettings) : Node → Prop
  | call _ c (some t) content => (∃ e, content = [.error e]) ∨
    ∃ m b, scene.Bound c m b ∧ (m = .transclude → ∃ read texts,
      scene.Texts t.context b.calls read texts ∧
      (∀ title, (m.ownReads b t.context).Covers title → t.reads.Covers title) ∧
      Transclude.Framed scene page c.name t.context (b.withTexts texts) content)
  | _ => True

variable {scene : Scene} {page : PageSettings}

theorem HasFrame.renumber {id id' : Option NodeId} {c : Call} {t : Trace} {content : List Node}
    (h : HasFrame scene page (.call id c (some t) content)) (next : NodeId) :
    HasFrame scene page (.call id' c (some t) (assignList next content).1) := by
  obtain ⟨e, rfl⟩ | ⟨m, b, hb, hframe⟩ := h
  · exact .inl ⟨e, rfl⟩
  · refine .inr ⟨m, b, hb, fun hm => ?_⟩
    obtain ⟨read, texts, ht, hreads, hplanned, fid, attributes, children, rfl, hmarked⟩ := hframe hm
    exact ⟨read, texts, ht, hreads, hplanned, _, _, _, rfl, hmarked⟩

mutual

theorem hasFrame_assign (next : NodeId) (node : Node)
    (h : ∀ below ∈ node.walk, below.HasFrame scene page) :
    ∀ below ∈ (assign next node).1.walk, below.HasFrame scene page := by
  match node with
  | text _ => exact List.forall_mem_singleton.2 trivial
  | element id tag attributes children =>
    obtain ⟨-, hchildren⟩ := List.forall_mem_cons.1 h
    exact List.forall_mem_cons.2 ⟨trivial, hasFrame_assignList _ children hchildren⟩
  | call id c trace content =>
    obtain ⟨hcall, hcontent⟩ := List.forall_mem_cons.1 h
    refine List.forall_mem_cons.2 ⟨?_, hasFrame_assignList _ content hcontent⟩
    cases trace with
    | none => trivial
    | some t => exact hcall.renumber _
  | error _ => exact List.forall_mem_singleton.2 trivial

theorem hasFrame_assignList (next : NodeId) (nodes : List Node)
    (h : ∀ below ∈ walkList nodes, below.HasFrame scene page) :
    ∀ below ∈ walkList (assignList next nodes).1, below.HasFrame scene page := by
  match nodes with
  | [] => exact List.forall_mem_nil _
  | node :: nodes =>
    obtain ⟨hnode, hnodes⟩ := List.forall_mem_append.1 h
    exact List.forall_mem_append.2
      ⟨hasFrame_assign _ node hnode, hasFrame_assignList _ nodes hnodes⟩

end

end Node

namespace Expand

open Transclude (Framed blankFrame)

variable {env : Env} {nested : Nested env} {context : Context}

theorem framed_of_transclude {args : Arguments} {callee : String} {reads : Reads}
    {outcome : Except Failure (List Node)} {r : Result}
    (h : Yields (runBody nested (Transclude.body env.page args context)) outcome)
    (hr : Yields (settle reads callee outcome : Expand env _) r) :
    (∃ nodes id children, (env.scene.plan callee context args .transclude).nodes =
        [blankFrame (Transclude.target args context) (Transclude.template args context) nodes] ∧
      r.content = [.element id "div" (Transclude.frameAttributes env.page
        (Transclude.target args context) (Transclude.template args context)
        (isMissing env (Transclude.target args context))) children]) ∨
    ∃ message, (env.scene.plan callee context args .transclude).nodes =
        [.error (.macroFailed callee message)] ∧
      r.content = [.error (.macroFailed callee message)] := by
  obtain ⟨nodes, content, hplan, rfl, -⟩ | ⟨message, hplan, rfl⟩ := outcome_of_transclude callee h
  · obtain ⟨_, next, heq, rfl⟩ | ⟨_, heq, -⟩ := eq_of_settle hr
    · cases heq
      exact .inl ⟨nodes, _, _, hplan, rfl⟩
    · cases heq
  · obtain ⟨_, _, heq, -⟩ | ⟨_, heq, rfl⟩ := eq_of_settle hr
    · cases heq
    · cases heq
      exact .inr ⟨message, hplan, rfl⟩

/-- The call with this result has its frame, and so have all calls below it. -/
structure HasFrames (env : Env) (context : Context) (c : Call) (r : Result) : Prop where
  call : ∀ id, (Node.call id c (some ⟨r.reads, context⟩) r.content).HasFrame env.scene env.page
  below : ∀ node ∈ Node.walkList r.content, node.HasFrame env.scene env.page

theorem hasFrames_of_error {c : Call} {r : Result} {e : RenderError} (h : r.content = [.error e]) :
    HasFrames env context c r := by
  refine ⟨fun id => ?_, ?_⟩
  · rw [h]
    exact .inl ⟨e, rfl⟩
  · rw [h]
    exact List.forall_mem_singleton.2 trivial

section Calls

variable (hn : ∀ inner nodes shown, Yields (nested inner nodes) shown →
  ∀ node ∈ Node.walkList shown, node.HasFrame env.scene env.page)
include hn

theorem hasFrame_of_runBody {m : Macro} (hm : m.isCustom = false) {args : Arguments}
    {nodes : List Node} (h : Yields (runBody nested (m.body env.page args context)) (.ok nodes)) :
    ∀ node ∈ Node.walkList nodes, node.HasFrame env.scene env.page := by
  obtain rfl | ⟨text, hbody, -⟩ := transclude_or_text hm env context args
  · obtain ⟨_, content, -, heq, hcontent⟩ | ⟨message, -, heq⟩ := outcome_of_transclude "" h
    · cases heq
      rw [Node.walkList, Node.walkList, Node.walk, List.append_nil]
      refine List.forall_mem_cons.2 ⟨trivial, ?_⟩
      obtain ⟨-, rfl⟩ | ⟨e, -, rfl⟩ | hnested := hcontent
      · exact List.forall_mem_nil _
      · exact List.forall_mem_singleton.2 trivial
      · exact hn _ _ _ hnested
    · cases heq
  · rw [hbody] at h
    obtain rfl := Except.ok.inj (yields_pure.1 h)
    cases text with
    | none => exact List.forall_mem_nil _
    | some value => exact List.forall_mem_singleton.2 trivial

theorem hasFrame_of_settle {m : Macro} (hm : m.isCustom = false) {args : Arguments}
    {reads : Reads} {callee : String} {outcome : Except Failure (List Node)} {r : Result}
    (h : Yields (runBody nested (m.body env.page args context)) outcome)
    (hr : Yields (settle reads callee outcome : Expand env _) r) :
    ∀ node ∈ Node.walkList r.content, node.HasFrame env.scene env.page := by
  obtain ⟨nodes, next, rfl, rfl⟩ | ⟨f, -, rfl⟩ := eq_of_settle hr
  · exact Node.hasFrame_assignList _ _ (hasFrame_of_runBody hn hm h)
  · exact List.forall_mem_singleton.2 trivial

theorem hasFrames_of_bound (hb : env.macros.IsBuiltin) {c : Call} {m : Macro} {b : Binding Call}
    (hbound : env.scene.Bound c m b) {read : Reads} {texts : List String}
    (htexts : env.scene.Texts context b.calls read texts)
    {outcome : Except Failure (List Node)} {r : Result}
    (h : Yields (runBody nested (m.body env.page (b.withTexts texts) context)) outcome)
    (hr : Yields (settle ((m.ownReads b context).merge read) c.name outcome : Expand env _) r) :
    HasFrames env context c r := by
  refine ⟨fun id => ?_, hasFrame_of_settle hn (hb _ _ hbound.installed) h hr⟩
  by_cases hmt : m = .transclude
  · subst hmt
    have hreads := (yields_settle hr).1
    obtain ⟨nodes, fid, children, hplan, heq⟩ | ⟨message, -, heq⟩ := framed_of_transclude h hr
    · refine .inr ⟨_, b, hbound, fun _ => ⟨read, texts, htexts, fun title htitle => ?_,
        ⟨nodes, hplan⟩, fid, _, children, heq, fun _ => ⟨_, rfl, fun _ => rfl⟩⟩⟩
      rw [hreads]
      exact Reads.covers_merge.2 (.inl htitle)
    · exact (hasFrames_of_error heq).call id
  · exact .inr ⟨m, b, hbound, fun heq => absurd heq hmt⟩

theorem hasFrames_of_expandCall (hb : env.macros.IsBuiltin)
    (hs : ∀ inner nodes shown, Yields (nested inner nodes) shown →
      env.scene.ShowsList inner nodes (Node.outlineList shown))
    {c : Call} {r : Result} (h : Yields (expandCall nested context c) r) :
    HasFrames env context c r := by
  refine expandCall_induction (P := fun c x => ∀ r, Yields x r → HasFrames env context c r)
    ?unknown ?unbound ?bound c r h
  case unknown =>
    intro c hm r h
    obtain rfl := eq_of_failed h
    exact hasFrames_of_error rfl
  case unbound =>
    intro c m e hm he r h
    obtain rfl := eq_of_failed h
    exact hasFrames_of_error rfl
  case bound =>
    intro c m b hbound _ r h
    obtain ⟨read, hread, h⟩ := h.bind
    obtain ⟨outcome, hbody, h⟩ := h.bind
    have htexts := texts_of_runDeferred (fun d _ => expands_of_expandCall hb hs d) hread
    exact hasFrames_of_bound hn hb hbound htexts hbody h

end Calls

section Nodes

variable {expand : Context → Call → Expand env Result}
  (hexp : ∀ context c r, Yields (expand context c) r → HasFrames env context c r)
include hexp

theorem relating_hasFrame (context : Context) :
    Relating expand context
      (fun _ shown => ∀ below ∈ shown.walk, below.HasFrame env.scene env.page)
      fun _ shown => ∀ below ∈ Node.walkList shown, below.HasFrame env.scene env.page where
  text _ := List.forall_mem_singleton.2 trivial
  error _ := List.forall_mem_singleton.2 trivial
  element _ h := List.forall_mem_cons.2 ⟨trivial, h⟩
  call _ h := List.forall_mem_cons.2 ⟨(hexp _ _ _ h).call _, (hexp _ _ _ h).below⟩
  nil := List.forall_mem_nil _
  cons h hs := List.forall_mem_append.2 ⟨h, hs⟩

theorem hasFrame_of_expandNode (context : Context) (node shown : Node)
    (h : Yields (expandNode expand context node) shown) :
    ∀ below ∈ shown.walk, below.HasFrame env.scene env.page :=
  (relating_hasFrame hexp context).of_expandNode h

theorem hasFrame_of_expandList (context : Context) (nodes shown : List Node)
    (h : Yields (expandList expand context nodes) shown) :
    ∀ below ∈ Node.walkList shown, below.HasFrame env.scene env.page :=
  (relating_hasFrame hexp context).of_expandList h

end Nodes

theorem hasFrames_of_expandWithin (hb : env.macros.IsBuiltin) (depth : Nat) (context : Context)
    (c : Call) (r : Result) (h : Yields (expandWithin depth context c : Expand env Result) r) :
    HasFrames env context c r := by
  induction depth generalizing context c r with
  | zero => exact absurd h not_yields_failure
  | succ depth ih =>
    exact hasFrames_of_expandCall (hasFrame_of_expandList ih) hb
      (showsList_of_expandList (expands_of_expandWithin hb depth)) h

end Expand

end Notebook
