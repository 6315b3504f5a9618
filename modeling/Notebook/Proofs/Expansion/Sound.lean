import Notebook.Proofs.Expansion.Equations
import Notebook.Store.Basic

/-! # Expansion gives what calls stand for

Where all macros are built in, whatever an expansion comes to has the outline that the call
stands for. The ids, the cache and the counts that it starts from make no difference.
-/

namespace Notebook

/-- No macro of the table is custom. -/
def MacroTable.IsBuiltin (table : MacroTable) : Prop :=
  ∀ name m, table.get? name = some m → m.isCustom = false

namespace MacroTable

theorem isBuiltin_empty : IsBuiltin ∅ := by
  intro name m h
  simp at h

theorem IsBuiltin.install {table : MacroTable} {m : Macro} (h : table.IsBuiltin)
    (hm : m.isCustom = false) : (table.install m).IsBuiltin := by
  intro name m' h'
  rw [MacroTable.install, Catalog.get?_insert] at h'
  split at h'
  · obtain rfl := Option.some.inj h'
    exact hm
  · exact h name m' h'

end MacroTable

theorem Store.isBuiltin_installBuiltins {κ : Type} {store : Store κ}
    (h : store.macros.IsBuiltin) : store.installBuiltins.macros.IsBuiltin :=
  (((h.install rfl).install rfl).install rfl).install rfl

namespace Expand

open Node (outlineList)
open Transclude (blankFrame)

variable {env : Env} {nested : Nested env} {context : Context}

theorem yields_parse {type : Option String} {text : String} {r : Except String (List Node)}
    (h : Yields (parse type text : Expand env _) r) : r = env.rules.parse type text := by
  obtain ⟨_, _, h⟩ := h.bind
  exact yields_pure.1 h

theorem yields_parseSaved {title : Title} {saved : Saved} {r : Except String (List Node)}
    (h : Yields (parseSaved title saved : Expand env _) r) :
    r = env.rules.parseNote saved.note := by
  obtain ⟨p, rfl⟩ := h.modifyGet
  split
  · next hit => exact (ParseCache.hit?_eq_some hit).symm
  · exact ParseCache.parse_fst ..

def outlineOf (callee : String) : Except Failure (List Node) → List Node
  | .ok nodes => outlineList nodes
  | .error f => [.error (f.toError callee)]

theorem yields_settle {reads : Reads} {callee : String} {outcome : Except Failure (List Node)}
    {r : Result} (h : Yields (settle reads callee outcome : Expand env _) r) :
    r.reads = reads ∧ outlineList r.content = outlineOf callee outcome := by
  rcases eq_of_settle h with ⟨nodes, next, rfl, rfl⟩ | ⟨f, rfl, rfl⟩
  · exact ⟨rfl, Node.outlineList_assignList ..⟩
  · exact ⟨rfl, rfl⟩

theorem runBody_view (nested : Nested env) (args : Arguments) (context : Context) :
    runBody nested (View.body args context) =
      pure (.ok ((env.scene.field? args context).map Node.text).toList) := by
  unfold View.body Scene.field?
  cases context.scope with
  | none => rfl
  | some title =>
    simp only [runBody, Option.bind_some, Env.scene]
    split
    · next value hv => rw [hv]; rfl
    · next hv => rw [hv]; rfl

def isMissing (env : Env) (target : Option Title) : Bool :=
  (target.bind env.note?).isNone

theorem runBody_frame (nested : Nested env) (page : PageSettings) (target template : Option Title)
    (content : List Node) :
    runBody nested (Transclude.frame page target template content) =
      pure (.ok [.element none "div"
        (Transclude.frameAttributes page target template (isMissing env target)) content]) := by
  cases target <;> rfl

/-- Gets the nodes of a template, which are yet to be expanded. -/
def fetch (args : Arguments) (title : Title) : Expand env (Except String (List Node)) :=
  if args.contains "with" then
    match env.note? title with
    | some note => parse note.type (Placeholder.substitute note.text (args.all "with"))
    | none => return .ok []
  else
    match env.lookup title with
    | some saved => parseSaved title saved
    | none => return .ok []

def proceed (nested : Nested env) (next : List Node → Body) :
    Except String (List Node) → Expand env (Except Failure (List Node))
  | .ok nodes => runBody nested (next nodes)
  | .error message => return .error (.panic (some message))

theorem runBody_source (nested : Nested env) (args : Arguments) (title : Title)
    (next : List Node → Body) :
    runBody nested (Transclude.source args title next) =
      fetch args title >>= proceed nested next := by
  unfold Transclude.source fetch
  split
  · simp only [runBody]
    cases env.note? title with
    | none => rfl
    | some note =>
      simp only [runBody]
      refine bind_congr fun r => ?_
      cases r <;> rfl
  · simp only [runBody]
    cases env.lookup title with
    | none => rfl
    | some saved =>
      refine bind_congr fun r => ?_
      cases r <;> rfl

/-- A built-in macro that transcludes nothing comes to one text or to nothing. -/
theorem transclude_or_text {m : Macro} (hm : m.isCustom = false) (env : Env) (context : Context)
    (args : Arguments) : m = .transclude ∨ ∃ text : Option String,
      (∀ nested : Nested env, runBody nested (m.body env.page args context) =
        pure (.ok (text.map Node.text).toList)) ∧
      ∀ callee, env.scene.plan callee context args m =
        ⟨context, (text.map Node.text).toList⟩ := by
  cases m with
  | transclude => exact .inl rfl
  | view => exact .inr ⟨_, fun nested => runBody_view nested args context, fun _ => rfl⟩
  | echo => exact .inr ⟨some _, fun _ => rfl, fun _ => rfl⟩
  | version => exact .inr ⟨some _, fun _ => rfl, fun _ => rfl⟩
  | custom c => simp [Macro.isCustom] at hm

/-- A transclusion is an empty frame, a frame around an error, or a frame around its template. -/
theorem transclude_cases (env : Env) (context : Context) (args : Arguments) :
    (Transclude.template args context = none ∧ ∀ nested : Nested env,
      runBody nested (Transclude.body env.page args context) =
        runBody nested (Transclude.frame env.page (Transclude.target args context) none [])) ∨
    ∃ title, Transclude.template args context = some title ∧
      ((context.chain.contains title = true ∧ ∀ nested : Nested env,
          runBody nested (Transclude.body env.page args context) = do
            countRecursion
            runBody nested (Transclude.frame env.page (Transclude.target args context)
              (some title) [.error (.transclusionRecursion title)])) ∨
        (¬ context.chain.contains title = true ∧ ∀ nested : Nested env,
          runBody nested (Transclude.body env.page args context) =
            fetch args title >>= proceed nested fun nodes =>
              .expand ⟨title :: context.chain, Transclude.target args context⟩ nodes
                (Transclude.frame env.page (Transclude.target args context) (some title)))) := by
  unfold Transclude.body
  cases Transclude.template args context with
  | none => exact .inl ⟨rfl, fun _ => rfl⟩
  | some title =>
    refine .inr ⟨title, rfl, ?_⟩
    by_cases hc : context.chain.contains title
    · refine .inl ⟨hc, fun nested => ?_⟩
      simp only [if_pos hc]
      rfl
    · refine .inr ⟨hc, fun nested => ?_⟩
      simp only [if_neg hc]
      exact runBody_source nested args title _

theorem fetch_missing {title : Title} (h : env.note? title = none) (args : Arguments) :
    (fetch args title : Expand env _) = return .ok [] := by
  unfold fetch
  rw [h, Option.map_eq_none_iff.1 h, ite_self]

theorem yields_fetch {args : Arguments} {title : Title} {r : Except String (List Node)}
    (h : Yields (fetch args title : Expand env _) r) : r = env.scene.source args title := by
  cases hl : env.lookup title with
  | none =>
    have hn : env.note? title = none := by rw [Env.note?, hl, Option.map_none]
    rw [fetch_missing hn] at h
    rw [yields_pure.1 h, Scene.source_missing hn]
  | some saved =>
    have hn : env.note? title = some saved.note := by rw [Env.note?, hl, Option.map_some]
    unfold fetch at h
    rw [hn, hl] at h
    split at h
    · next hw =>
      rw [Scene.source_filled hn hw]
      exact yields_parse h
    · next hw =>
      rw [Scene.source_whole hn hw]
      exact yields_parseSaved h

theorem outlineOf_frame (callee : String) (page : PageSettings) (target template : Option Title)
    (missing : Bool) (content : List Node) :
    outlineOf callee (.ok [.element none "div"
        (Transclude.frameAttributes page target template missing) content]) =
      [Transclude.blankFrame target template (outlineList content)] := by
  simp only [outlineOf, outlineList, Node.outline, Transclude.unmarked_frameAttributes,
    Transclude.blankFrame]

/-- What the body of a transclusion comes to: the frame that was planned, empty or around an error
or around the expanded nodes of the template, or nothing because the parser of the template has
failed. -/
theorem outcome_of_transclude {args : Arguments} (callee : String)
    {outcome : Except Failure (List Node)}
    (h : Yields (runBody nested (Transclude.body env.page args context)) outcome) :
    (∃ nodes content, (env.scene.plan callee context args .transclude).nodes =
        [blankFrame (Transclude.target args context) (Transclude.template args context) nodes] ∧
      outcome = .ok [.element none "div" (Transclude.frameAttributes env.page
        (Transclude.target args context) (Transclude.template args context)
        (isMissing env (Transclude.target args context))) content] ∧
      ((nodes = [] ∧ content = []) ∨ (∃ e, nodes = [.error e] ∧ content = [.error e]) ∨
        Yields (nested (env.scene.plan callee context args .transclude).context nodes) content)) ∨
    ∃ message, (env.scene.plan callee context args .transclude).nodes =
        [.error (.macroFailed callee message)] ∧
      outcome = .error (.panic (some message)) := by
  obtain ⟨ht, hbody⟩ | ⟨title, ht, ⟨hc, hbody⟩ | ⟨hc, hbody⟩⟩ := transclude_cases env context args
  · rw [hbody, runBody_frame] at h
    simp only [Scene.plan, ht]
    exact .inl ⟨[], [], rfl, yields_pure.1 h, .inl ⟨rfl, rfl⟩⟩
  · rw [hbody] at h
    obtain ⟨_, _, h⟩ := h.bind
    rw [runBody_frame] at h
    simp only [Scene.plan, ht, if_pos hc]
    exact .inl ⟨_, _, rfl, yields_pure.1 h, .inr (.inl ⟨_, rfl, rfl⟩)⟩
  · rw [hbody] at h
    obtain ⟨r, hr, h⟩ := h.bind
    simp only [Scene.plan, ht, if_neg hc, ← yields_fetch hr]
    cases r with
    | ok nodes =>
      obtain ⟨shown, hshown, h⟩ := h.bind
      rw [runBody_frame] at h
      exact .inl ⟨nodes, shown, rfl, yields_pure.1 h, .inr (.inr hshown)⟩
    | error message => exact .inr ⟨message, rfl, yields_pure.1 h⟩

section Bodies

variable (hn : ∀ inner nodes shown, Yields (nested inner nodes) shown →
  env.scene.ShowsList inner nodes (outlineList shown))
include hn

theorem shows_of_transclude {args : Arguments} {callee : String}
    {outcome : Except Failure (List Node)}
    (h : Yields (runBody nested (Transclude.body env.page args context)) outcome) :
    env.scene.ShowsList (env.scene.plan callee context args .transclude).context
      (env.scene.plan callee context args .transclude).nodes (outlineOf callee outcome) := by
  obtain ⟨nodes, content, hplan, rfl, hcontent⟩ | ⟨message, hplan, rfl⟩ :=
    outcome_of_transclude callee h
  · rw [hplan, outlineOf_frame]
    refine .blankFrame ?_
    obtain ⟨rfl, rfl⟩ | ⟨e, rfl, rfl⟩ | hnested := hcontent
    · exact .nil
    · exact .cons .error .nil
    · exact hn _ _ _ hnested
  · rw [hplan]
    exact .cons .error .nil

theorem shows_of_runBody {m : Macro} (hm : m.isCustom = false) {args : Arguments}
    {callee : String} {outcome : Except Failure (List Node)}
    (h : Yields (runBody nested (m.body env.page args context)) outcome) :
    env.scene.ShowsList (env.scene.plan callee context args m).context
      (env.scene.plan callee context args m).nodes (outlineOf callee outcome) := by
  obtain rfl | ⟨text, hbody, hplan⟩ := transclude_or_text hm env context args
  · exact shows_of_transclude hn h
  · rw [hbody] at h
    obtain rfl := yields_pure.1 h
    rw [hplan]
    cases text with
    | none => exact .nil
    | some value => exact .cons .text .nil

end Bodies

theorem texts_of_runDeferred {cs : List Call} {read : Reads × List String}
    (hc : ∀ d ∈ cs, ∀ r, Yields (expandCall nested context d) r →
      env.scene.Expands context d r.reads (outlineList r.content))
    (h : Yields (runDeferred (cs.map (deferCall nested context))) read) :
    env.scene.Texts context cs read.1 read.2 := by
  induction cs generalizing read with
  | nil =>
    obtain rfl := yields_pure.1 h
    exact .nil
  | cons d cs ih =>
    obtain ⟨r, rest, hr, hrest, rfl⟩ := eq_of_runDeferred_cons h
    have hexp := hc d List.mem_cons_self r hr
    have htexts := ih (fun d' hd' => hc d' (List.mem_cons_of_mem _ hd')) hrest
    simpa using Scene.Texts.cons hexp htexts

theorem expands_of_expandCall (hb : env.macros.IsBuiltin)
    (hn : ∀ inner nodes shown, Yields (nested inner nodes) shown →
      env.scene.ShowsList inner nodes (outlineList shown))
    (c : Call) (r : Result) (h : Yields (expandCall nested context c) r) :
    env.scene.Expands context c r.reads (outlineList r.content) := by
  refine expandCall_induction (P := fun c x => ∀ r, Yields x r →
    env.scene.Expands context c r.reads (outlineList r.content)) ?unknown ?unbound ?bound c r h
  case unknown =>
    intro c hm r h
    obtain rfl := eq_of_failed h
    exact .unknown hm
  case unbound =>
    intro c m e hm he r h
    obtain rfl := eq_of_failed h
    exact .unbound hm he
  case bound =>
    intro c m b hbound ih r h
    obtain ⟨read, hread, h⟩ := h.bind
    obtain ⟨outcome, hbody, h⟩ := h.bind
    obtain ⟨hreads, hcontent⟩ := yields_settle h
    rw [hreads, hcontent]
    exact .bound hbound (texts_of_runDeferred ih hread)
      (shows_of_runBody hn (hb _ _ hbound.installed) hbody)

section Nodes

variable {expand : Context → Call → Expand env Result}
  (hexp : ∀ context c r, Yields (expand context c) r →
    env.scene.Expands context c r.reads (outlineList r.content))
include hexp

theorem relating_shows (context : Context) :
    Relating expand context (fun node shown => env.scene.Shows context node shown.outline)
      fun nodes shown => env.scene.ShowsList context nodes (outlineList shown) where
  text _ := .text
  error _ := .error
  element _ h := .element h
  call _ h := .call (hexp _ _ _ h)
  nil := .nil
  cons h hs := .cons h hs

theorem shows_of_expandNode (context : Context) (node shown : Node)
    (h : Yields (expandNode expand context node) shown) :
    env.scene.Shows context node shown.outline :=
  (relating_shows hexp context).of_expandNode h

theorem showsList_of_expandList (context : Context) (nodes shown : List Node)
    (h : Yields (expandList expand context nodes) shown) :
    env.scene.ShowsList context nodes (outlineList shown) :=
  (relating_shows hexp context).of_expandList h

end Nodes

theorem expands_of_expandWithin (hb : env.macros.IsBuiltin) (depth : Nat) (context : Context)
    (c : Call) (r : Result) (h : Yields (expandWithin depth context c : Expand env Result) r) :
    env.scene.Expands context c r.reads (outlineList r.content) := by
  induction depth generalizing context c r with
  | zero => exact absurd h not_yields_failure
  | succ depth ih => exact expands_of_expandCall hb (showsList_of_expandList ih) c r h

theorem shows_of_expand (hb : env.macros.IsBuiltin) {context : Context} {node shown : Node}
    (h : Yields (expandNode Expand.expand context node : Expand env Node) shown) :
    env.scene.Shows context node shown.outline :=
  shows_of_expandNode (expands_of_expandWithin hb env.maxDepth) context node shown h

end Expand

end Notebook
