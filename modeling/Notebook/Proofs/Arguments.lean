import Notebook.Proofs.Live.Upkeep

/-! # Texts of calls among parameters

A call records what the calls among its parameters read, but not what is read by the calls in
what those stand for. Their texts are the same wherever both resolve alike. The record alone
does not settle them.
-/

namespace Notebook

namespace Scene

/-- The title is read when the call is expanded: by its macro, by a call among its parameters or
by a call in what its macro makes of the arguments. -/
inductive Consults (scene : Scene) : Context → Call → Title → Prop
  | own {context : Context} {c : Call} {m : Macro} {b : Binding Call} {t : Title}
      (hb : scene.Bound c m b) (ht : (m.ownReads b context).Covers t) : Consults scene context c t
  | param {context : Context} {c d : Call} {m : Macro} {b : Binding Call} {t : Title}
      (hb : scene.Bound c m b) (hd : d ∈ b.calls) (ht : Consults scene context d t) :
      Consults scene context c t
  | content {context : Context} {c d : Call} {m : Macro} {b : Binding Call} {read : Reads}
      {texts : List String} {t : Title} (hb : scene.Bound c m b)
      (hs : Texts scene context b.calls read texts)
      (hd : d ∈ Node.outerCallsOf (scene.plan c.name context (b.withTexts texts) m).nodes)
      (ht : Consults scene (scene.plan c.name context (b.withTexts texts) m).context d t) :
      Consults scene context c t

/-- The title is consulted by a call in what this call stands for, or in what a call among its
parameters stands for. None of these reads is recorded for the call. -/
inductive Overlooks (scene : Scene) : Context → Call → Title → Prop
  | param {context : Context} {c d : Call} {m : Macro} {b : Binding Call} {t : Title}
      (hb : scene.Bound c m b) (hd : d ∈ b.calls) (ht : Overlooks scene context d t) :
      Overlooks scene context c t
  | content {context : Context} {c d : Call} {m : Macro} {b : Binding Call} {read : Reads}
      {texts : List String} {t : Title} (hb : scene.Bound c m b)
      (hs : Texts scene context b.calls read texts)
      (hd : d ∈ Node.outerCallsOf (scene.plan c.name context (b.withTexts texts) m).nodes)
      (ht : Consults scene (scene.plan c.name context (b.withTexts texts) m).context d t) :
      Overlooks scene context c t

variable {scene scene' : Scene}

theorem Expands.inv {context : Context} {c : Call} {m : Macro} {b : Binding Call} {reads : Reads}
    {content : List Node} (h : Expands scene context c reads content) (hb : scene.Bound c m b) :
    ∃ read texts, Texts scene context b.calls read texts ∧
      reads = (m.ownReads b context).merge read := by
  cases h with
  | unknown hm => exact absurd hm hb.installed_ne
  | unbound hm he => exact absurd he (hb.binds_ne hm)
  | bound hb' ht =>
    obtain ⟨rfl, rfl⟩ := hb.unique hb'
    exact ⟨_, _, ht, rfl⟩

theorem Texts.mem {context : Context} {cs : List Call} {read : Reads} {texts : List String}
    {d : Call} (h : Texts scene context cs read texts) (hd : d ∈ cs) :
    ∃ reads content, Expands scene context d reads content ∧
      ∀ t, reads.Covers t → read.Covers t := by
  induction cs generalizing read texts with
  | nil => simp at hd
  | cons c cs ih =>
    cases h with
    | cons he ht =>
      rcases List.mem_cons.1 hd with rfl | hd
      · exact ⟨_, _, he, fun t hc => Reads.covers_merge.2 (.inl hc)⟩
      · obtain ⟨reads, content, hx, hle⟩ := ih ht hd
        exact ⟨reads, content, hx, fun t hc => Reads.covers_merge.2 (.inr (hle t hc))⟩

theorem Consults.covers_or_overlooks {context : Context} {c : Call} {t : Title} {reads : Reads}
    {content : List Node} (h : Consults scene context c t)
    (he : Expands scene context c reads content) :
    reads.Covers t ∨ Overlooks scene context c t := by
  induction h generalizing reads content with
  | own hb ht =>
    obtain ⟨read, texts, -, rfl⟩ := he.inv hb
    exact .inl (Reads.covers_merge.2 (.inl ht))
  | param hb hd _ ih =>
    obtain ⟨read, texts, hs, rfl⟩ := he.inv hb
    obtain ⟨reads', content', he', hle⟩ := hs.mem hd
    rcases ih he' with hc | ho
    · exact .inl (Reads.covers_merge.2 (.inr (hle _ hc)))
    · exact .inr (.param hb hd ho)
  | content hb hs hd ht => exact .inr (.content hb hs hd ht)

mutual

theorem Expands.congr (hr : scene.rules = scene'.rules) (hm : scene.macros = scene'.macros)
    {context : Context} {c : Call} {reads : Reads} {content : List Node}
    (h : Expands scene context c reads content)
    (hn : ∀ t, scene.Consults context c t → scene.note? t = scene'.note? t) :
    Expands scene' context c reads content := by
  match h with
  | .unknown hu => exact .unknown (hm ▸ hu)
  | .unbound hu he => exact .unbound (hm ▸ hu) he
  | @Expands.bound _ _ c m b _ texts _ hb ht hs =>
    have hp : scene.plan c.name context (b.withTexts texts) m =
        scene'.plan c.name context (b.withTexts texts) m :=
      plan_congr ⟨hr, hm, fun t ht => hn t (.own hb ht)⟩ c.name texts
    have hs' := hs.congr hr hm fun d hd t hc => hn t (.content hb ht hd hc)
    rw [hp] at hs'
    exact .bound (hb.congr hm) (ht.congr hr hm fun d hd t hc => hn t (.param hb hd hc)) hs'
termination_by structural h

theorem Texts.congr (hr : scene.rules = scene'.rules) (hm : scene.macros = scene'.macros)
    {context : Context} {cs : List Call} {read : Reads} {texts : List String}
    (h : Texts scene context cs read texts)
    (hn : ∀ d ∈ cs, ∀ t, scene.Consults context d t → scene.note? t = scene'.note? t) :
    Texts scene' context cs read texts := by
  match h with
  | .nil => exact .nil
  | .cons he ht =>
    refine .cons (he.congr hr hm (hn _ List.mem_cons_self)) (ht.congr hr hm fun d hd => ?_)
    exact hn d (List.mem_cons_of_mem _ hd)
termination_by structural h

theorem Shows.congr (hr : scene.rules = scene'.rules) (hm : scene.macros = scene'.macros)
    {context : Context} {node shown : Node} (h : Shows scene context node shown)
    (hn : ∀ d ∈ node.outerCalls, ∀ t, scene.Consults context d t →
      scene.note? t = scene'.note? t) : Shows scene' context node shown := by
  match h with
  | .text => exact .text
  | .error => exact .error
  | .element hs => exact .element (hs.congr hr hm hn)
  | .call he => exact .call (he.congr hr hm (hn _ (List.mem_singleton.2 rfl)))
termination_by structural h

theorem ShowsList.congr (hr : scene.rules = scene'.rules) (hm : scene.macros = scene'.macros)
    {context : Context} {nodes shown : List Node} (h : ShowsList scene context nodes shown)
    (hn : ∀ d ∈ Node.outerCallsOf nodes, ∀ t, scene.Consults context d t →
      scene.note? t = scene'.note? t) : ShowsList scene' context nodes shown := by
  match h with
  | .nil => exact .nil
  | .cons hfirst hrest =>
    refine .cons (hfirst.congr hr hm fun d hd => ?_) (hrest.congr hr hm fun d hd => ?_)
    · exact hn d (List.mem_append_left _ hd)
    · exact hn d (List.mem_append_right _ hd)
termination_by structural h

end

end Scene

namespace Expand

variable {env : Env}

/-- Runs the calls among bound parameters, as the expansion of the call around them does. -/
def argumentTexts (context : Context) (b : Binding Call) : Expand env (Reads × List String) :=
  runDeferred (b.calls.map (deferCall (expandList (expandWithin (env.maxDepth - 1))) context))

theorem expand_bound {context : Context} {c : Call} {m : Macro} {b : Binding Call}
    (hb : env.scene.Bound c m b) :
    (expand context c : Expand env Result) = (do
      let read ← argumentTexts context b
      let outcome ← runBody (expandList (expandWithin (env.maxDepth - 1)))
        (m.body env.page (b.withTexts read.2) context)
      settle ((m.ownReads b context).merge read.1) c.name outcome) :=
  expandCall_bound hb

theorem texts_of_argumentTexts (hb : env.macros.IsBuiltin) {context : Context} {b : Binding Call}
    {read : Reads × List String} (h : Yields (argumentTexts context b : Expand env _) read) :
    env.scene.Texts context b.calls read.1 read.2 := by
  refine texts_of_runDeferred (fun d _ r hr => ?_) h
  exact expands_of_expandCall hb (showsList_of_expandList (expands_of_expandWithin hb _)) d r hr

theorem total_argumentTexts (hb : env.macros.IsBuiltin) (hc : env.IsCounted) (context : Context)
    (b : Binding Call) : Total (argumentTexts context b : Expand env _) :=
  total_runDeferred fun d _ => total_expand hb hc context d

end Expand

namespace Library

open Expand (Result Yields expand argumentTexts)

variable {κ : Type} {lib lib' : Library κ} {s : StoreId} {store store' : Store κ}

/-- The calls among the parameters of a call have the same texts in two libraries that agree on
what is recorded for the call and on what the calls among its parameters overlook. -/
theorem argumentTexts_eq (hbuiltin : store.macros.IsBuiltin) (hrules : store'.rules = store.rules)
    (hmacros : store'.macros = store.macros) {context : Context} {c : Call} {m : Macro}
    {b : Binding Call} (hb : (lib.env s store).scene.Bound c m b) {r : Result}
    (hr : Yields (expand context c : Expand (lib.env s store) Result) r)
    (hrecorded : ∀ t, r.reads.Covers t → lib.get s t = lib'.get s t)
    (hbeyond : ∀ d ∈ b.calls, ∀ t, (lib.env s store).scene.Overlooks context d t →
      lib.get s t = lib'.get s t) :
    ∃ texts,
      (∀ p, ∃ read q, (argumentTexts context b : Expand (lib.env s store) _).run p =
        some ((read, texts), q)) ∧
      ∀ p, ∃ read q, (argumentTexts context b : Expand (lib'.env s store') _).run p =
        some ((read, texts), q) := by
  have hbuiltin' : store'.macros.IsBuiltin := hmacros ▸ hbuiltin
  have htotal : Expand.Total (argumentTexts context b : Expand (lib.env s store) _) :=
    Expand.total_argumentTexts hbuiltin (lib.env_isCounted s store) context b
  have htotal' : Expand.Total (argumentTexts context b : Expand (lib'.env s store') _) :=
    Expand.total_argumentTexts hbuiltin' (lib'.env_isCounted s store') context b
  have he := Expand.expands_of_expandWithin hbuiltin _ context c r hr
  obtain ⟨read, texts, ht, hreads⟩ := he.inv hb
  have ht' : (lib'.env s store').scene.Texts context b.calls read texts := by
    refine ht.congr hrules.symm hmacros.symm fun d hd t hc => ?_
    obtain ⟨reads, content, hx, hle⟩ := ht.mem hd
    rcases hc.covers_or_overlooks hx with hcovers | ho
    · refine hrecorded t ?_
      rw [hreads]
      exact Reads.covers_merge.2 (.inr (hle t hcovers))
    · exact hbeyond d hd t ho
  refine ⟨texts, fun p => ?_, fun p => ?_⟩
  · obtain ⟨⟨read₁, texts₁⟩, q, h⟩ := htotal p
    obtain ⟨-, rfl⟩ := ht.unique (Expand.texts_of_argumentTexts hbuiltin ⟨p, q, h⟩)
    exact ⟨read₁, q, h⟩
  · obtain ⟨⟨read₁, texts₁⟩, q, h⟩ := htotal' p
    obtain ⟨-, rfl⟩ := ht'.unique (Expand.texts_of_argumentTexts hbuiltin' ⟨p, q, h⟩)
    exact ⟨read₁, q, h⟩

def relayStore (text : String) : Store Unit :=
  (({} : Store Unit).installBuiltins.put ⟨0, { title := "Foo", text := "<<tiddler Bar>>" }⟩).put
    ⟨1, { title := "Bar", text }⟩

def relay (text : String) : Library Unit :=
  { stores := [relayStore text] }

def relayEnv (text : String) : Env :=
  (relay text).env 0 (relayStore text)

def echoOf (c : Call) : Call :=
  ⟨"echo", [.call none c.name c.params]⟩

def echoBinding (c : Call) : Binding Call :=
  (∅ : Binding Call).insert "text" [.call c none]

theorem calls_echoBinding (c : Call) : (echoBinding c).calls = [c] := rfl

theorem isBuiltin_relayStore (text : String) : (relayStore text).macros.IsBuiltin := by
  have h : ({} : Store Unit).installBuiltins.macros.IsBuiltin :=
    Store.isBuiltin_installBuiltins MacroTable.isBuiltin_empty
  exact h

theorem bound_echoOf (text : String) (c : Call) :
    (relayEnv text).scene.Bound (echoOf c) .echo (echoBinding c) := by
  refine ⟨?_, rfl⟩
  simp [Env.scene, relayEnv, env, relayStore, Store.put, Store.installBuiltins, Macro.builtin,
    Store.install, Store.register, MacroTable.install, Macro.name, echoOf]

theorem get_relay {t : Title} (h : t ≠ "Bar") (text text' : String) :
    (relay text).get 0 t = (relay text').get 0 t := by
  have hn : ∀ text, (relay text).get 0 t = ((relayStore text).notes.get? t).map Saved.note := by
    intro text
    have hm : (relay text).maxDepth = 1 := rfl
    have hf : (relay text).fallbacks 0 = [] := rfl
    have ho : (relay text).own? 0 t = (relayStore text).notes.get? t := rfl
    rw [get, lookup, hm, lookupWithin, ho, hf]
    cases (relayStore text).notes.get? t <;> rfl
  rw [hn, hn]
  simp [relayStore, Store.put, Store.installBuiltins, Macro.builtin, Store.install,
    Store.register, h]

def viewCall : Call :=
  ⟨"view", [.literal none "text"]⟩

theorem not_overlooks_view {scene : Scene} (hm : scene.macros.get? "view" = some .view)
    (context : Context) (t : Title) : ¬ scene.Overlooks context viewCall t := by
  intro h
  cases h with
  | param hb hd =>
    rw [Expand.calls_of_isLiteral hb rfl] at hd
    simp at hd
  | @content _ _ m b _ texts _ hb hs hd =>
    obtain rfl := Option.some.inj (hm.symm.trans hb.installed)
    unfold Scene.plan at hd
    cases hf : scene.field? (b.withTexts texts) context with
    | none => simp [hf, Node.outerCallsOf] at hd
    | some value => simp [hf, Node.outerCallsOf, Node.outerCalls] at hd

/-- The text of `Foo` is echoed as it stands. The call records that it reads `Foo`, and a change of
`Bar` makes no difference. -/
theorem argumentTexts_eq_view :
    ((expand ⟨[], some "Foo"⟩ (echoOf viewCall) : Expand (relayEnv "one") Result).run {}).map
        (fun r => r.1.reads) = some (.title "Foo") ∧
      ∃ texts,
        (∀ p, ∃ read q, (argumentTexts ⟨[], some "Foo"⟩ (echoBinding viewCall) :
          Expand (relayEnv "one") _).run p = some ((read, texts), q)) ∧
        ∀ p, ∃ read q, (argumentTexts ⟨[], some "Foo"⟩ (echoBinding viewCall) :
          Expand (relayEnv "two") _).run p = some ((read, texts), q) := by
  have hreads : ((expand ⟨[], some "Foo"⟩ (echoOf viewCall) :
      Expand (relayEnv "one") Result).run {}).map (fun r => r.1.reads) = some (.title "Foo") := by
    decide +kernel
  refine ⟨hreads, ?_⟩
  obtain ⟨⟨r, q⟩, hr, hread⟩ := Option.map_eq_some_iff.1 hreads
  refine argumentTexts_eq (isBuiltin_relayStore "one") rfl rfl (bound_echoOf "one" _) ⟨_, q, hr⟩
    (fun t ht => ?_) fun d hd t ho => ?_
  · rw [hread] at ht
    rw [Reads.covers_title.1 ht]
    exact get_relay (by decide) _ _
  · rw [calls_echoBinding, List.mem_singleton] at hd
    subst hd
    refine absurd ho (not_overlooks_view ?_ _ t)
    simp [Env.scene, env, relayStore, Store.put, Store.installBuiltins, Macro.builtin,
      Store.install, Store.register, MacroTable.install, Macro.name]

/-- An echoed transclusion of `Foo` records that it reads `Foo`, yet its text follows `Bar`. -/
theorem argumentTexts_relay :
    (relayStore "two").rules = (relayStore "one").rules ∧
      (relayStore "two").macros = (relayStore "one").macros ∧
      (relayEnv "one").scene.Bound (echoOf ⟨"tiddler", [.literal none "Foo"]⟩) .echo
        (echoBinding ⟨"tiddler", [.literal none "Foo"]⟩) ∧
      ((expand {} (echoOf ⟨"tiddler", [.literal none "Foo"]⟩) :
        Expand (relayEnv "one") Result).run {}).map (fun r => r.1.reads) = some (.title "Foo") ∧
      (∀ t, (Reads.title "Foo").Covers t → (relay "one").get 0 t = (relay "two").get 0 t) ∧
      ((argumentTexts {} (echoBinding ⟨"tiddler", [.literal none "Foo"]⟩) :
        Expand (relayEnv "one") _).run {}).map (fun r => r.1.2) = some ["one"] ∧
      ((argumentTexts {} (echoBinding ⟨"tiddler", [.literal none "Foo"]⟩) :
        Expand (relayEnv "two") _).run {}).map (fun r => r.1.2) = some ["two"] := by
  refine ⟨rfl, rfl, bound_echoOf _ _, by decide +kernel, fun t ht => ?_, by decide +kernel,
    by decide +kernel⟩
  rw [Reads.covers_title.1 ht]
  exact get_relay (by decide) _ _

end Library

end Notebook
