import Notebook.Proofs.Meaning
import Notebook.Proofs.Reads

/-! # Scenes that agree on reads

The reads of a call are what its macro looks at. Where two scenes agree on them, the macro makes
the same of its arguments.
-/

namespace Notebook

theorem Binding.first?_withTexts {b : Binding κ} {name : String} (h : b.hasCall name = false)
    (texts : List String) : Binding.first? (b.withTexts texts) name = b.literal? name := by
  have hf : Binding.first? (b.fill texts) name = b.first? name := by
    simp only [Binding.first?, Binding.valuesOf_fill h]
  rw [Binding.withTexts, Binding.first?_mapCalls, hf, Binding.first?_eq_literal? h]

namespace Macro

variable {b : Binding κ} {context : Context}

theorem covers_ownReads {m : Macro} {t : Title}
    (h : (m.reads (b.mapCalls fun _ => ()) context).Covers t) :
    (m.ownReads b context).Covers t := by
  unfold ownReads
  split
  · trivial
  · exact h

/-- The template is among the reads, no matter what the texts of the calls are. -/
theorem covers_ownReads_transclude {texts : List String} {t : Title}
    (h : Transclude.template (b.withTexts texts) context = some t) :
    (ownReads .transclude b context).Covers t := by
  unfold ownReads
  split
  · trivial
  · next hhides =>
    simp only [Expand.hidesReads, Macro.signature, ParamSpec.affectsReads, List.any_cons,
      List.any_nil, ne_eq, reduceCtorEq, not_false_eq_true, decide_true, Bool.true_and,
      Bool.or_false, Bool.or_eq_true, not_or, Bool.not_eq_true] at hhides
    obtain ⟨htarget, htemplate, -⟩ := hhides
    rw [Transclude.template, Transclude.target, Binding.first?_withTexts htarget,
      Binding.first?_withTexts htemplate, ← Option.or_assoc] at h
    simp only [Macro.reads, Transclude.reads, Binding.literal?_mapCalls, h]
    exact Reads.covers_title.2 rfl

end Macro

namespace Scene

/-- The parsers and the macros are the same, and the titles that reads cover resolve alike. -/
structure AgreesOn (reads : Reads) (scene scene' : Scene) : Prop where
  rules : scene.rules = scene'.rules
  macros : scene.macros = scene'.macros
  notes : ∀ t, reads.Covers t → scene.note? t = scene'.note? t

variable {scene scene' : Scene} {context : Context}

theorem source_congr (hr : scene.rules = scene'.rules) {template : Title}
    (hn : scene.note? template = scene'.note? template) (args : Arguments) :
    scene.source args template = scene'.source args template := by
  simp only [source, hr, hn]

theorem field?_congr {args : Arguments}
    (h : ∀ t, context.scope = some t → scene.note? t = scene'.note? t) :
    scene.field? args context = scene'.field? args context := by
  unfold field?
  cases hs : context.scope with
  | none => rfl
  | some t => simp only [Option.bind_some, h t hs]

theorem plan_congr {m : Macro} {b : Binding Call}
    (h : AgreesOn (m.ownReads b context) scene scene') (callee : String) (texts : List String) :
    scene.plan callee context (b.withTexts texts) m =
      scene'.plan callee context (b.withTexts texts) m := by
  cases m with
  | transclude =>
    simp only [plan]
    cases ht : Transclude.template (b.withTexts texts) context with
    | none => rfl
    | some t =>
      have hn := h.notes t (Macro.covers_ownReads_transclude ht)
      simp only [source_congr h.rules hn]
  | view =>
    have hs : ∀ t, context.scope = some t → scene.note? t = scene'.note? t := by
      intro t ht
      refine h.notes t (Macro.covers_ownReads ?_)
      simp only [Macro.reads, View.reads, ht]
      exact Reads.covers_title.2 rfl
    simp only [plan, field?_congr hs]
  | echo => rfl
  | version => rfl
  | custom c => rfl

theorem Bound.congr {c : Call} {m : Macro} {b : Binding Call} (h : scene.Bound c m b)
    (hm : scene.macros = scene'.macros) : scene'.Bound c m b :=
  ⟨hm ▸ h.installed, h.binds⟩

end Scene

end Notebook
