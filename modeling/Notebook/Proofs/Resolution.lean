import Notebook.Proofs.Binding

/-! # Calls are run once

The calls among bound values are run one after the other, by ascending name and within a name in
the order of the call. Each is run once and keeps the text that it gives. Literals stay as they
are.
-/

namespace Notebook.Binding

variable {κ σ : Type}

/-- The calls were run from left to right, which gave these texts and changed the state. -/
inductive Ran (evaluate : κ → StateM σ String) : σ → List (κ × String) → σ → Prop
  | nil {s : σ} : Ran evaluate s [] s
  | cons {s s' s'' : σ} {c : κ} {text : String} {log : List (κ × String)}
      (h : (evaluate c).run s = (text, s')) (hrest : Ran evaluate s' log s'') :
      Ran evaluate s ((c, text) :: log) s''

/-- Each call among the values is one of those that were run and has the text that it gave. -/
inductive Answered : List (Argument κ) → List (κ × String) → List (Argument κ) → Prop
  | nil : Answered [] [] []
  | literal {text : String} {values values' : List (Argument κ)} {log : List (κ × String)}
      (h : Answered values log values') :
      Answered (.literal text :: values) log (.literal text :: values')
  | call {c : κ} {old : Option String} {text : String} {values values' : List (Argument κ)}
      {log : List (κ × String)} (h : Answered values log values') :
      Answered (.call c old :: values) ((c, text) :: log) (.call c (some text) :: values')

inductive AnsweredAll : List (String × List (Argument κ)) → List (κ × String) →
    List (String × List (Argument κ)) → Prop
  | nil : AnsweredAll [] [] []
  | cons {name : String} {values values' : List (Argument κ)} {log log' : List (κ × String)}
      {rest rest' : List (String × List (Argument κ))} (h : Answered values log values')
      (hrest : AnsweredAll rest log' rest') :
      AnsweredAll ((name, values) :: rest) (log ++ log') ((name, values') :: rest')

/-- Every call was run once, and nothing else has changed but the state. -/
def Resolved (evaluate : κ → StateM σ String) (s : σ) (b : Binding κ) (result : Binding κ × σ) :
    Prop :=
  ∃ log, Ran evaluate s log result.2 ∧ AnsweredAll b.entries log result.1.entries

theorem ran_mapM (evaluate : κ → StateM σ String) (calls : List κ) (s : σ) :
    ∃ log, Ran evaluate s log ((calls.mapM evaluate).run s).2 ∧ log.map Prod.fst = calls ∧
      log.map Prod.snd = ((calls.mapM evaluate).run s).1 := by
  induction calls generalizing s with
  | nil => exact ⟨[], .nil, rfl, rfl⟩
  | cons c calls ih =>
    obtain ⟨log, hran, hcalls, htexts⟩ := ih ((evaluate c).run s).2
    refine ⟨(c, ((evaluate c).run s).1) :: log, ?_, ?_, ?_⟩
    · rw [List.mapM_cons]
      exact .cons rfl hran
    · rw [List.map_cons, hcalls]
    · rw [List.map_cons, htexts, List.mapM_cons]
      rfl

theorem answered_fillValues {values : List (Argument κ)} {log : List (κ × String)}
    (h : log.map Prod.fst = values.filterMap Argument.call?) (rest : List (κ × String)) :
    Answered values log (fillValues values ((log ++ rest).map Prod.snd)).1 ∧
      (fillValues values ((log ++ rest).map Prod.snd)).2 = rest.map Prod.snd := by
  induction values generalizing log with
  | nil =>
    obtain rfl : log = [] := List.map_eq_nil_iff.1 h
    exact ⟨.nil, rfl⟩
  | cons value values ih =>
    cases value with
    | literal text =>
      obtain ⟨hvalues, hrest⟩ := ih h
      exact ⟨.literal hvalues, hrest⟩
    | call c old =>
      cases log with
      | nil => simp [Argument.call?] at h
      | cons entry log =>
        obtain ⟨c', text⟩ := entry
        obtain ⟨rfl, hlog⟩ : c' = c ∧ log.map Prod.fst = values.filterMap Argument.call? := by
          simpa [Argument.call?] using h
        obtain ⟨hvalues, hrest⟩ := ih hlog
        exact ⟨.call hvalues, hrest⟩

theorem answeredAll_mapAccumEntries {entries : List (String × List (Argument κ))}
    {log : List (κ × String)}
    (h : log.map Prod.fst = (entries.map Prod.snd).flatten.filterMap Argument.call?) :
    AnsweredAll entries log (Catalog.mapAccumEntries fillValues entries (log.map Prod.snd)).1 := by
  induction entries generalizing log with
  | nil =>
    obtain rfl : log = [] := List.map_eq_nil_iff.1 h
    exact .nil
  | cons entry entries ih =>
    obtain ⟨name, values⟩ := entry
    rw [List.map_cons, List.flatten_cons, List.filterMap_append] at h
    obtain ⟨first, rest, rfl, hfirst, hrest⟩ := List.map_eq_append_iff.1 h
    obtain ⟨hvalues, hleft⟩ := answered_fillValues hfirst rest
    rw [Catalog.mapAccumEntries, hleft]
    exact .cons hvalues (ih hrest)

theorem resolved_resolve (b : Binding κ) (evaluate : κ → StateM σ String) (s : σ) :
    Resolved evaluate s b ((b.resolve evaluate).run s) := by
  obtain ⟨log, hran, hcalls, htexts⟩ := ran_mapM evaluate b.calls s
  refine ⟨log, hran, ?_⟩
  have hall := answeredAll_mapAccumEntries hcalls
  rw [htexts] at hall
  exact hall

end Notebook.Binding
