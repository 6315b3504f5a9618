import Notebook.Proofs.Places
import Notebook.Proofs.Resolution

/-! # What is bound

Binding succeeds exactly if every value finds a place and every required parameter a value, and it
holds what was placed and the defaults of the other parameters. Otherwise the first value without a
place is reported, or the first parameter without a value.
-/

namespace Notebook

variable {κ σ : Type}

structure ParamSpec.Lacks (spec : ParamSpec) (placed : List (Placed κ)) : Prop where
  required : spec.required
  default : spec.default = none
  missing : ¬ Placed.Given placed spec.name

namespace Signature

open Placed

/-- The binding holds the values that were placed, the defaults of the other parameters and
nothing else. -/
structure Bound (signature : Signature) (placed : List (Placed κ)) (b : Binding κ) : Prop where
  given : ∀ name, Given placed name → b.get? name = some (values placed name)
  default : ∀ spec ∈ signature.params, ¬ Given placed spec.name →
    b.get? spec.name = spec.default.map fun text => [.literal text]
  required : ∀ spec ∈ signature.params, spec.required → b.contains spec.name
  declared : ∀ name, b.contains name → ∃ spec ∈ signature.params, spec.name = name

/-- The first value without a place or, if there is none, the first parameter that lacks one. -/
inductive Fails (signature : Signature) (callee : String) (shown : Argument κ → String)
    (supplied : List (Supplied κ)) : RenderError → Prop
  | refused {before rest : List (Supplied κ)} {s : Supplied κ} {placed : List (Placed κ)}
      {e : RenderError} (hsupplied : supplied = before ++ s :: rest)
      (hplaced : Places signature [] before placed)
      (h : signature.Refuses callee shown placed s e) : Fails signature callee shown supplied e
  | lacking {before after : List ParamSpec} {spec : ParamSpec} {placed : List (Placed κ)}
      (hplaced : Places signature [] supplied placed)
      (hparams : signature.params = before ++ spec :: after) (h : spec.Lacks placed)
      (hbefore : ∀ other ∈ before, ¬ other.Lacks placed) :
      Fails signature callee shown supplied (.missingParameter callee spec.name)

variable {signature : Signature} {callee : String} {shown : Argument κ → String}
  {placed : List (Placed κ)} {s : Supplied κ} {name : String} {e : RenderError}

def withDefault (b : Binding κ) (spec : ParamSpec) : Binding κ :=
  if b.contains spec.name then b
  else (spec.default.map fun text => b.insert spec.name [.literal text]).getD b

theorem get?_withDefault (b : Binding κ) (spec : ParamSpec) (name : String) :
    (withDefault b spec).get? name =
      (b.get? name).or
        (if name = spec.name then spec.default.map fun text => [.literal text] else none) := by
  unfold withDefault
  split
  · next hc =>
    obtain ⟨values, hvalues⟩ := Option.isSome_iff_exists.1 hc
    by_cases hn : name = spec.name
    · rw [hn, hvalues, Option.some_or]
    · rw [if_neg hn, Option.or_none]
  · next hc =>
    have hnone : b.get? spec.name = none := by simpa [Catalog.contains] using hc
    cases spec.default with
    | none => simp
    | some text =>
      by_cases hn : name = spec.name
      · simp [hn, hnone]
      · simp [hn]

theorem get?_foldl_withDefault_of_some {b : Binding κ} {values : List (Argument κ)}
    (h : b.get? name = some values) (specs : List ParamSpec) :
    (specs.foldl withDefault b).get? name = some values := by
  induction specs generalizing b with
  | nil => exact h
  | cons spec specs ih => exact ih (by rw [get?_withDefault, h, Option.some_or])

theorem get?_foldl_withDefault_of_not_mem {specs : List ParamSpec}
    (h : ∀ spec ∈ specs, spec.name ≠ name) (b : Binding κ) :
    (specs.foldl withDefault b).get? name = b.get? name := by
  induction specs generalizing b with
  | nil => rfl
  | cons spec specs ih =>
    obtain ⟨hspec, hspecs⟩ := List.forall_mem_cons.1 h
    rw [List.foldl_cons, ih hspecs, get?_withDefault, if_neg hspec.symm, Option.or_none]

theorem get?_foldl_withDefault_of_mem {specs : List ParamSpec} {spec : ParamSpec}
    (hnames : (specs.map ParamSpec.name).Nodup) (hspec : spec ∈ specs) {b : Binding κ}
    (hb : b.get? spec.name = none) :
    (specs.foldl withDefault b).get? spec.name =
      spec.default.map fun text => [.literal text] := by
  induction specs generalizing b with
  | nil => cases hspec
  | cons other specs ih =>
    obtain ⟨hother, hspecs⟩ := List.nodup_cons.1 hnames
    rw [List.foldl_cons]
    rcases List.mem_cons.1 hspec with rfl | hspec
    · have hrest : ∀ other ∈ specs, other.name ≠ spec.name := fun other hmem heq =>
        hother (heq ▸ List.mem_map_of_mem hmem)
      rw [get?_foldl_withDefault_of_not_mem hrest, get?_withDefault, hb, if_pos rfl,
        Option.none_or]
    · have hne : spec.name ≠ other.name := fun heq => hother (heq ▸ List.mem_map_of_mem hspec)
      refine ih hspecs hspec ?_
      rw [get?_withDefault, hb, if_neg hne, Option.none_or]

theorem bindDefaults_of_lacks {spec : ParamSpec} (h : spec.Lacks placed) {b : Binding κ}
    (hb : ¬ b.contains spec.name) (rest : List ParamSpec) :
    bindDefaults callee (spec :: rest) b = .error (.missingParameter callee spec.name) := by
  rw [bindDefaults, if_neg hb]
  simp only [h.default, h.required, if_true]

theorem bindDefaults_of_not_lacks {spec : ParamSpec} (h : ¬ spec.Lacks placed) {b : Binding κ}
    (hb : Given placed spec.name → b.contains spec.name) (rest : List ParamSpec) :
    bindDefaults callee (spec :: rest) b = bindDefaults callee rest (withDefault b spec) := by
  rw [bindDefaults, withDefault]
  split
  · rfl
  · next hc =>
    cases hd : spec.default with
    | some text => rfl
    | none =>
      have hrequired : ¬ spec.required := fun hr => h ⟨hr, hd, mt hb hc⟩
      simp only [if_neg hrequired]
      rfl

theorem bindDefaults_append {before : List ParamSpec} (h : ∀ spec ∈ before, ¬ spec.Lacks placed)
    {b : Binding κ} (hb : ∀ name, Given placed name → b.contains name) (rest : List ParamSpec) :
    bindDefaults callee (before ++ rest) b =
      bindDefaults callee rest (before.foldl withDefault b) := by
  induction before generalizing b with
  | nil => rfl
  | cons spec before ih =>
    obtain ⟨hspec, hbefore⟩ := List.forall_mem_cons.1 h
    rw [List.cons_append, bindDefaults_of_not_lacks hspec (hb spec.name)]
    refine ih hbefore fun name hgiven => ?_
    have hc := hb name hgiven
    simp only [Catalog.contains, get?_withDefault, Option.isSome_or] at hc ⊢
    rw [hc, Bool.true_or]

theorem bindDefaults_of_complete (h : ∀ spec ∈ signature.params, ¬ spec.Lacks placed) :
    bindDefaults callee signature.params (gathered placed) =
      .ok (signature.params.foldl withDefault (gathered placed)) := by
  have happend : bindDefaults callee (signature.params ++ []) (gathered placed) =
      bindDefaults callee [] (signature.params.foldl withDefault (gathered placed)) :=
    bindDefaults_append h (fun _ => contains_gathered.2) []
  rwa [List.append_nil] at happend

theorem bindDefaults_of_lacking {before after : List ParamSpec} {spec : ParamSpec}
    (hnames : (signature.params.map ParamSpec.name).Nodup)
    (hparams : signature.params = before ++ spec :: after) (h : spec.Lacks placed)
    (hbefore : ∀ other ∈ before, ¬ other.Lacks placed) :
    bindDefaults callee signature.params (gathered placed) =
      .error (.missingParameter callee spec.name) := by
  rw [hparams, bindDefaults_append hbefore fun _ => contains_gathered.2]
  refine bindDefaults_of_lacks h ?_ after
  have hne : ∀ other ∈ before, other.name ≠ spec.name := by
    rw [hparams, List.map_append, List.nodup_append] at hnames
    exact fun other hother =>
      hnames.2.2 _ (List.mem_map_of_mem hother) _ (List.mem_map_of_mem List.mem_cons_self)
  rw [Catalog.contains, get?_foldl_withDefault_of_not_mem hne]
  exact mt contains_gathered.1 h.missing

theorem bound_of_complete {supplied : List (Supplied κ)}
    (hnames : (signature.params.map ParamSpec.name).Nodup)
    (hplaced : Places signature [] supplied placed)
    (h : ∀ spec ∈ signature.params, ¬ spec.Lacks placed) :
    signature.Bound placed (signature.params.foldl withDefault (gathered placed)) := by
  have hnone : ∀ {name}, ¬ Given placed name → (gathered placed).get? name = none := fun hn => by
    rw [get?_gathered, if_pos (values_eq_nil_iff.2 hn)]
  have hgiven : ∀ {name}, Given placed name →
      (signature.params.foldl withDefault (gathered placed)).get? name =
        some (values placed name) := fun hg => by
    refine get?_foldl_withDefault_of_some ?_ _
    rw [get?_gathered, if_neg (mt values_eq_nil_iff.1 (not_not.2 hg))]
  have hdefault : ∀ spec ∈ signature.params, ¬ Given placed spec.name →
      (signature.params.foldl withDefault (gathered placed)).get? spec.name =
        spec.default.map fun text => [.literal text] := fun spec hspec hn =>
    get?_foldl_withDefault_of_mem hnames hspec (hnone hn)
  refine ⟨fun _ => hgiven, hdefault, fun spec hspec hr => ?_, fun name hc => ?_⟩
  · by_cases hg : Given placed spec.name
    · rw [Catalog.contains, hgiven hg]
      rfl
    · rw [Catalog.contains, hdefault spec hspec hg, Option.isSome_map, ← Option.ne_none_iff_isSome]
      exact fun hd => h spec hspec ⟨hr, hd, hg⟩
  · by_contra hno
    have hne : ∀ spec ∈ signature.params, spec.name ≠ name := fun spec hspec heq =>
      hno ⟨spec, hspec, heq⟩
    rw [Catalog.contains, get?_foldl_withDefault_of_not_mem hne] at hc
    obtain ⟨p, hp, rfl⟩ := contains_gathered.1 hc
    exact hno (hplaced.declared (List.forall_mem_nil _) p hp).mem

theorem Bound.eq {b b' : Binding κ} (h : signature.Bound placed b)
    (h' : signature.Bound placed b') : b = b' := by
  ext1 name
  by_cases hg : Given placed name
  · rw [h.given name hg, h'.given name hg]
  · by_cases hspec : ∃ spec ∈ signature.params, spec.name = name
    · obtain ⟨spec, hspec, rfl⟩ := hspec
      rw [h.default spec hspec hg, h'.default spec hspec hg]
    · have hnone : ∀ {b : Binding κ}, signature.Bound placed b → b.get? name = none := fun h => by
        simpa [Catalog.contains] using mt (h.declared name) hspec
      rw [hnone h, hnone h']

theorem Bound.not_lacks {b : Binding κ} (h : signature.Bound placed b) :
    ∀ spec ∈ signature.params, ¬ spec.Lacks placed := by
  intro spec hspec hl
  have hc := h.required spec hspec hl.required
  rw [Catalog.contains, h.default spec hspec hl.missing, hl.default] at hc
  cases hc

theorem complete_or_lacking (specs : List ParamSpec) (placed : List (Placed κ)) :
    (∀ spec ∈ specs, ¬ spec.Lacks placed) ∨
      ∃ before spec after, specs = before ++ spec :: after ∧ spec.Lacks placed ∧
        ∀ other ∈ before, ¬ other.Lacks placed := by
  classical
  cases h : specs.find? fun spec => decide (spec.Lacks placed) with
  | none => exact .inl (by simpa using h)
  | some spec =>
    obtain ⟨hspec, before, after, hparams, hbefore⟩ := List.find?_eq_some_iff_append.1 h
    exact .inr ⟨before, spec, after, hparams, by simpa using hspec, by simpa using hbefore⟩

theorem bind_of_places {supplied : List (Supplied κ)} (h : Places signature [] supplied placed) :
    signature.bind callee shown supplied =
      bindDefaults callee signature.params (gathered placed) := by
  have hs : signature.bindSupplied callee shown none ∅ supplied = .ok (gathered placed) :=
    bindSupplied_of_places h
  rw [bind, hs]
  rfl

theorem bind_of_refuses {before rest : List (Supplied κ)}
    (h : Places signature [] before placed) (hs : signature.Refuses callee shown placed s e) :
    signature.bind callee shown (before ++ s :: rest) = .error e := by
  have hsupplied : signature.bindSupplied callee shown none ∅ (before ++ s :: rest) = .error e :=
    bindSupplied_of_places_refuses h hs
  rw [bind, hsupplied]
  rfl

theorem bind_cases (hnames : (signature.params.map ParamSpec.name).Nodup) (callee : String)
    (shown : Argument κ → String) (supplied : List (Supplied κ)) :
    (∃ b placed, signature.bind callee shown supplied = .ok b ∧
        Places signature [] supplied placed ∧ signature.Bound placed b) ∨
      ∃ e, signature.bind callee shown supplied = .error e ∧
        signature.Fails callee shown supplied e := by
  obtain ⟨placed, hplaced⟩ | ⟨before, s, rest, placed, e, rfl, hbefore, hs⟩ :=
    places_or_refuses signature callee shown [] supplied
  · have hbind : signature.bind callee shown supplied =
        bindDefaults callee signature.params (gathered placed) := bind_of_places hplaced
    obtain hcomplete | ⟨before, spec, after, hparams, hl, hbefore⟩ :=
      complete_or_lacking signature.params placed
    · rw [bindDefaults_of_complete hcomplete] at hbind
      exact .inl ⟨_, placed, hbind, hplaced, bound_of_complete hnames hplaced hcomplete⟩
    · rw [bindDefaults_of_lacking hnames hparams hl hbefore] at hbind
      exact .inr ⟨_, hbind, .lacking hplaced hparams hl hbefore⟩
  · exact .inr ⟨e, bind_of_refuses hbefore hs, .refused rfl hbefore hs⟩

theorem Fails.bind_eq (hnames : (signature.params.map ParamSpec.name).Nodup)
    {supplied : List (Supplied κ)} (h : signature.Fails callee shown supplied e) :
    signature.bind callee shown supplied = .error e := by
  cases h with
  | refused hsupplied hplaced h =>
    rw [hsupplied]
    exact bind_of_refuses hplaced h
  | lacking hplaced hparams h hbefore =>
    rw [bind_of_places hplaced]
    exact bindDefaults_of_lacking hnames hparams h hbefore

theorem Bound.bind_eq (hnames : (signature.params.map ParamSpec.name).Nodup)
    {supplied : List (Supplied κ)} (hplaced : Places signature [] supplied placed)
    {b : Binding κ} (h : signature.Bound placed b) :
    signature.bind callee shown supplied = .ok b := by
  rw [bind_of_places hplaced, bindDefaults_of_complete h.not_lacks]
  exact congrArg Except.ok ((bound_of_complete hnames hplaced h.not_lacks).eq h)

/-- Binding is complete and exact: it succeeds with what was placed and the defaults, or it fails
with the first fault. Then each call that was bound is run once. -/
theorem bind_placement (signature : Signature)
    (hnames : (signature.params.map ParamSpec.name).Nodup) (callee : String)
    (shown : Argument κ → String) (supplied : List (Supplied κ)) :
    (∀ b, signature.bind callee shown supplied = .ok b ↔
      ∃ placed, Places signature [] supplied placed ∧ placed.map Placed.supplied = supplied ∧
        signature.Bound placed b) ∧
      (∀ e, signature.bind callee shown supplied = .error e ↔
        signature.Fails callee shown supplied e) ∧
      ∀ b, signature.bind callee shown supplied = .ok b →
        ∀ (evaluate : κ → StateM σ String) (state : σ),
          b.Resolved evaluate state ((b.resolve evaluate).run state) := by
  have hcases := bind_cases hnames callee shown supplied
  refine ⟨fun b => ⟨fun h => ?_, ?_⟩, fun e => ⟨fun h => ?_, Fails.bind_eq hnames⟩,
    fun b _ evaluate state => b.resolved_resolve evaluate state⟩
  · obtain ⟨b', placed, hok, hplaced, hbound⟩ | ⟨e, herror, -⟩ := hcases
    · cases hok.symm.trans h
      exact ⟨placed, hplaced, hplaced.map_supplied, hbound⟩
    · cases herror.symm.trans h
  · rintro ⟨placed, hplaced, -, hbound⟩
    exact hbound.bind_eq hnames hplaced
  · obtain ⟨b, placed, hok, -, -⟩ | ⟨e', herror, hfails⟩ := hcases
    · cases hok.symm.trans h
    · cases herror.symm.trans h
      exact hfails

theorem bind_placement_cascade :
    let signature := Macro.transclude.signature
    let supplied : List (Supplied Unit) :=
      [⟨none, .literal "Home"⟩, ⟨some "with", .literal "a"⟩, ⟨none, .call () none⟩]
    let evaluate : Unit → StateM Nat String := fun _ => modifyGet fun runs => ("b", runs + 1)
    ∃ b placed, Places signature [] supplied placed ∧ signature.Bound placed b ∧
      b.get? "target" = some [.literal "Home"] ∧
      b.get? "with" = some [.literal "a", .call () none] ∧
      b.Resolved evaluate 0 ((b.resolve evaluate).run 0) := by
  intro signature supplied evaluate
  have hnames : (signature.params.map ParamSpec.name).Nodup := by decide
  obtain ⟨hok, -, hresolved⟩ := bind_placement signature hnames "tiddler" (fun _ => "") supplied
  have hbind : signature.bind "tiddler" (fun _ => "") supplied = .ok (gathered
      [⟨"target", ⟨none, .literal "Home"⟩⟩, ⟨"with", ⟨some "with", .literal "a"⟩⟩,
        ⟨"with", ⟨none, .call () none⟩⟩]) := rfl
  obtain ⟨placed, hplaced, -, hbound⟩ := (hok _).1 hbind
  exact ⟨_, placed, hplaced, hbound, rfl, rfl, hresolved _ hbind evaluate 0⟩

end Signature

end Notebook
