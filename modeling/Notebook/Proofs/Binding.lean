import Notebook.Macro
import Notebook.Proofs.Catalog

/-! # Binding does not look into calls

Binding gives every value to a name by its place and its name alone. So a map of the calls among
the values can be done before or after it, and every call that is bound stands in the parameters.
-/

namespace Notebook

variable {κ μ ν : Type}

namespace Argument

@[simp] theorem text?_map (f : κ → μ) (a : Argument κ) : (a.map f).text? = a.text? := by
  cases a <;> rfl

@[simp] theorem literal?_map (f : κ → μ) (a : Argument κ) : (a.map f).literal? = a.literal? := by
  cases a <;> rfl

@[simp] theorem call?_map (f : κ → μ) (a : Argument κ) : (a.map f).call? = a.call?.map f := by
  cases a <;> rfl

@[simp] theorem isCall_map (f : κ → μ) (a : Argument κ) : (a.map f).isCall = a.isCall := by
  cases a <;> rfl

@[simp] theorem map_map (f : κ → μ) (g : μ → ν) (a : Argument κ) :
    (a.map f).map g = a.map fun c => g (f c) := by
  cases a <;> rfl

theorem showArgument_map {nameOf : κ → String} {nameOf' : μ → String} {f : κ → μ}
    (h : ∀ c, nameOf' (f c) = nameOf c) (a : Argument κ) :
    showArgument nameOf' (a.map f) = showArgument nameOf a := by
  cases a with
  | literal text => rfl
  | call c text => simp [map, showArgument, h]

end Argument

def Supplied.map (f : κ → μ) (s : Supplied κ) : Supplied μ :=
  ⟨s.name, s.value.map f⟩

namespace Binding

@[simp] theorem valuesOf_mapCalls (f : κ → μ) (b : Binding κ) (name : String) :
    valuesOf (b.mapCalls f) name = (b.valuesOf name).map (Argument.map f) := by
  simp only [valuesOf, mapCalls, Catalog.get?_map]
  cases b.get? name <;> rfl

@[simp] theorem hasCall_mapCalls (f : κ → μ) (b : Binding κ) (name : String) :
    hasCall (b.mapCalls f) name = b.hasCall name := by
  simp [hasCall, Function.comp_def]

@[simp] theorem contains_mapCalls (f : κ → μ) (b : Binding κ) (name : String) :
    Catalog.contains (b.mapCalls f) name = Catalog.contains b name :=
  Catalog.contains_map _ _ _

theorem mapCalls_mapCalls (f : κ → μ) (g : μ → ν) (b : Binding κ) :
    mapCalls g (b.mapCalls f) = b.mapCalls fun c => g (f c) := by
  simp [mapCalls, Catalog.map_map, Function.comp_def]

theorem mapCalls_insert (f : κ → μ) (b : Binding κ) (name : String) (values : List (Argument κ)) :
    mapCalls f (Catalog.insert b name values) =
      Catalog.insert (b.mapCalls f) name (values.map (Argument.map f)) :=
  Catalog.map_insert _ _ _ _

theorem mapCalls_add (f : κ → μ) (b : Binding κ) (name : String) (value : Argument κ) :
    mapCalls f (b.add name value) = add (b.mapCalls f) name (value.map f) := by
  simp [add, mapCalls_insert]

theorem calls_mapCalls (f : κ → μ) (b : Binding κ) : calls (b.mapCalls f) = b.calls.map f := by
  simp [calls, mapCalls, Catalog.values_map, List.map_flatten, List.filterMap_flatten,
    List.filterMap_map, List.map_filterMap, Function.comp_def]

theorem fillValues_map (f : κ → μ) (values : List (Argument κ)) (texts : List String) :
    fillValues (values.map (Argument.map f)) texts =
      ((fillValues values texts).1.map (Argument.map f), (fillValues values texts).2) := by
  induction values generalizing texts with
  | nil => rfl
  | cons value values ih => cases value <;> simp [fillValues, Argument.map, ih]

theorem fill_mapCalls (f : κ → μ) (b : Binding κ) (texts : List String) :
    fill (b.mapCalls f) texts = (b.fill texts).mapCalls f :=
  Catalog.mapAccum_map (fillValues_map f) b texts

theorem fillValues_of_literal {values : List (Argument κ)}
    (h : values.any Argument.isCall = false) (texts : List String) :
    (fillValues values texts).1 = values := by
  induction values with
  | nil => rfl
  | cons value values ih =>
    rw [List.any_cons, Bool.or_eq_false_iff] at h
    cases value with
    | literal text => simp [fillValues, ih h.2]
    | call c text => simp [Argument.isCall, Argument.call?] at h

theorem valuesOf_fill {b : Binding κ} {name : String} (h : b.hasCall name = false)
    (texts : List String) : valuesOf (b.fill texts) name = b.valuesOf name := by
  cases hb : b.get? name with
  | none => simp [valuesOf, fill, hb, Catalog.get?_mapAccum_of_none hb]
  | some values =>
    obtain ⟨rest, hr⟩ := Catalog.get?_mapAccum (F := fillValues) hb texts
    rw [hasCall, valuesOf, hb, Option.getD_some] at h
    simp only [valuesOf, fill, hr, hb, Option.getD_some]
    exact fillValues_of_literal h rest

theorem first?_eq_literal? {b : Binding κ} {name : String} (h : b.hasCall name = false) :
    b.first? name = b.literal? name := by
  unfold first? literal?
  cases hv : b.valuesOf name with
  | nil => rfl
  | cons value values =>
    rw [hasCall, hv, List.any_cons, Bool.or_eq_false_iff] at h
    cases value with
    | literal text => rfl
    | call c text => simp [Argument.isCall, Argument.call?] at h

@[simp] theorem first?_mapCalls (f : κ → μ) (b : Binding κ) (name : String) :
    first? (b.mapCalls f) name = b.first? name := by
  simp only [first?, valuesOf_mapCalls, List.head?_map]
  cases (b.valuesOf name).head? <;> simp

@[simp] theorem literal?_mapCalls (f : κ → μ) (b : Binding κ) (name : String) :
    literal? (b.mapCalls f) name = b.literal? name := by
  simp only [literal?, valuesOf_mapCalls, List.head?_map]
  cases (b.valuesOf name).head? <;> simp

/-- Where there are enough texts for the calls, every value gets one, and the others are left. -/
theorem fillValues_complete {values : List (Argument κ)} {texts : List String}
    (h : (values.filterMap Argument.call?).length ≤ texts.length) :
    (∀ value ∈ (fillValues values texts).1, value.text?.isSome) ∧
      (fillValues values texts).2.length =
        texts.length - (values.filterMap Argument.call?).length := by
  induction values generalizing texts with
  | nil => exact ⟨List.forall_mem_nil _, rfl⟩
  | cons value values ih =>
    cases value with
    | literal text =>
      obtain ⟨htexts, hrest⟩ := ih h
      exact ⟨List.forall_mem_cons.2 ⟨rfl, htexts⟩, hrest⟩
    | call c text =>
      cases texts with
      | nil => simp [Argument.call?] at h
      | cons first texts =>
        have hle : (values.filterMap Argument.call?).length ≤ texts.length := by
          simpa [Argument.call?] using h
        obtain ⟨htexts, hrest⟩ := ih hle
        refine ⟨List.forall_mem_cons.2 ⟨rfl, htexts⟩, ?_⟩
        simpa [fillValues, Argument.call?] using hrest

theorem mapAccumEntries_complete {entries : List (String × List (Argument κ))}
    {texts : List String}
    (h : ((entries.map Prod.snd).flatten.filterMap Argument.call?).length ≤ texts.length) :
    ∀ e ∈ (Catalog.mapAccumEntries fillValues entries texts).1,
      ∀ value ∈ e.2, value.text?.isSome := by
  induction entries generalizing texts with
  | nil => exact List.forall_mem_nil _
  | cons head rest ih =>
    rw [List.map_cons, List.flatten_cons, List.filterMap_append, List.length_append] at h
    obtain ⟨htexts, hrest⟩ := fillValues_complete (Nat.le_of_add_right_le h)
    exact List.forall_mem_cons.2 ⟨htexts, ih (by omega)⟩

theorem isSome_first?_fill {b : Binding κ} {texts : List String}
    (h : texts.length = b.calls.length) (name : String) :
    (first? (b.fill texts) name).isSome = !(b.valuesOf name).isEmpty := by
  cases hb : b.get? name with
  | none => simp [first?, valuesOf, fill, hb, Catalog.get?_mapAccum_of_none hb]
  | some values =>
    obtain ⟨rest, hr⟩ := Catalog.get?_mapAccum (F := fillValues) hb texts
    have hmem : (name, (fillValues values rest).1) ∈ (b.fill texts).entries :=
      Catalog.mem_entries.2 hr
    have htexts := mapAccumEntries_complete (Nat.le_of_eq h.symm) _ hmem
    rw [first?, valuesOf, valuesOf, hb, fill, hr, Option.getD_some, Option.getD_some]
    cases values with
    | nil => rfl
    | cons value values => cases value <;> exact htexts _ List.mem_cons_self

theorem mem_calls {b : Binding κ} {c : κ} :
    c ∈ b.calls ↔ ∃ name, ∃ value ∈ b.valuesOf name, value.call? = some c := by
  simp only [calls, Catalog.values, List.mem_filterMap, List.mem_flatten, List.mem_map]
  constructor
  · rintro ⟨value, ⟨_, ⟨e, he, rfl⟩, hv⟩, hc⟩
    refine ⟨e.1, value, ?_, hc⟩
    simpa [valuesOf, Catalog.mem_entries.1 he] using hv
  · rintro ⟨name, value, hv, hc⟩
    cases hb : Catalog.get? b name with
    | none => simp [valuesOf, hb] at hv
    | some values =>
      refine ⟨value, ⟨values, ⟨(name, values), Catalog.mem_entries.2 hb, rfl⟩, ?_⟩, hc⟩
      simpa [valuesOf, hb] using hv

end Binding

namespace Signature

theorem freeSlot?_mapCalls (signature : Signature) (f : κ → μ) (b : Binding κ) :
    signature.freeSlot? (b.mapCalls f) = signature.freeSlot? b := by
  simp [freeSlot?]

variable {shown : Argument κ → String} {shown' : Argument μ → String} {f : κ → μ}

theorem nameFor_map (h : ∀ a, shown' (a.map f) = shown a) (signature : Signature)
    (callee : String) (last : Option String) (b : Binding κ) (s : Supplied κ) :
    signature.nameFor callee shown' last (b.mapCalls f) (s.map f) =
      signature.nameFor callee shown last b s := by
  simp only [nameFor, Supplied.map, freeSlot?_mapCalls, h]

theorem bindSupplied_map (h : ∀ a, shown' (a.map f) = shown a) (signature : Signature)
    (callee : String) (last : Option String) (b : Binding κ) (l : List (Supplied κ)) :
    signature.bindSupplied callee shown' last (b.mapCalls f) (l.map (Supplied.map f)) =
      (signature.bindSupplied callee shown last b l).map (Binding.mapCalls f) := by
  induction l generalizing last b with
  | nil => rfl
  | cons s rest ih =>
    simp only [List.map_cons, bindSupplied, nameFor_map h]
    cases signature.nameFor callee shown last b s with
    | error e => rfl
    | ok name =>
      change signature.bindSupplied callee shown' (s.name.or last)
        (Binding.add (b.mapCalls f) name (s.value.map f)) (rest.map (Supplied.map f)) = _
      rw [← Binding.mapCalls_add]
      exact ih _ _

theorem bindDefaults_map (f : κ → μ) (callee : String) (specs : List ParamSpec) (b : Binding κ) :
    bindDefaults callee specs (b.mapCalls f) =
      (bindDefaults callee specs b).map (Binding.mapCalls f) := by
  induction specs generalizing b with
  | nil => rfl
  | cons spec specs ih =>
    simp only [bindDefaults, Binding.contains_mapCalls]
    split
    · exact ih b
    · cases spec.default with
      | some text =>
        rw [← ih, Binding.mapCalls_insert]
        rfl
      | none =>
        dsimp only
        split
        · rfl
        · exact ih b

theorem bind_map (h : ∀ a, shown' (a.map f) = shown a) (signature : Signature)
    (callee : String) (l : List (Supplied κ)) :
    signature.bind callee shown' (l.map (Supplied.map f)) =
      (signature.bind callee shown l).map (Binding.mapCalls f) := by
  have hs := bindSupplied_map h signature callee none ∅ l
  simp only [bind]
  rw [show (∅ : Binding μ) = Binding.mapCalls f ∅ from rfl, hs]
  cases signature.bindSupplied callee shown none ∅ l with
  | error e => rfl
  | ok b => exact bindDefaults_map f callee signature.params b

theorem mem_calls_of_bindSupplied {signature : Signature} {callee : String} {last : Option String}
    {b b' : Binding κ} {l : List (Supplied κ)} {c : κ}
    (h : signature.bindSupplied callee shown last b l = .ok b') (hc : c ∈ b'.calls) :
    c ∈ b.calls ∨ ∃ s ∈ l, s.value.call? = some c := by
  induction l generalizing last b with
  | nil =>
    cases h
    exact .inl hc
  | cons s rest ih =>
    simp only [bindSupplied] at h
    cases hn : signature.nameFor callee shown last b s with
    | error e => simp [hn, Bind.bind, Except.bind] at h
    | ok name =>
      simp only [hn, Bind.bind, Except.bind] at h
      rcases ih h with hb | ⟨s', hs', hv⟩
      · obtain ⟨name', value, hv, hvc⟩ := Binding.mem_calls.1 hb
        simp only [Binding.add, Binding.valuesOf, Catalog.get?_insert] at hv
        split at hv
        · rcases List.mem_append.1 hv with hv | hv
          · exact .inl (Binding.mem_calls.2 ⟨name, value, hv, hvc⟩)
          · obtain rfl := List.mem_singleton.1 hv
            exact .inr ⟨s, List.mem_cons_self, hvc⟩
        · exact .inl (Binding.mem_calls.2 ⟨name', value, hv, hvc⟩)
      · exact .inr ⟨s', List.mem_cons_of_mem _ hs', hv⟩

theorem mem_calls_of_bindDefaults {callee : String} {specs : List ParamSpec} {b b' : Binding κ}
    {c : κ} (h : bindDefaults callee specs b = .ok b') (hc : c ∈ b'.calls) : c ∈ b.calls := by
  induction specs generalizing b with
  | nil =>
    cases h
    exact hc
  | cons spec specs ih =>
    simp only [bindDefaults] at h
    split at h
    · exact ih h
    · cases hd : spec.default with
      | some text =>
        simp only [hd] at h
        obtain ⟨name, value, hv, hvc⟩ := Binding.mem_calls.1 (ih h)
        simp only [Binding.valuesOf, Catalog.get?_insert] at hv
        split at hv
        · obtain rfl := List.mem_singleton.1 hv
          simp [Argument.call?] at hvc
        · exact Binding.mem_calls.2 ⟨name, value, hv, hvc⟩
      | none =>
        simp only [hd] at h
        split at h
        · simp at h
        · exact ih h

theorem mem_calls_of_bind {signature : Signature} {callee : String} {l : List (Supplied κ)}
    {b : Binding κ} {c : κ} (h : signature.bind callee shown l = .ok b) (hc : c ∈ b.calls) :
    ∃ s ∈ l, s.value.call? = some c := by
  simp only [bind] at h
  cases hs : signature.bindSupplied callee shown none ∅ l with
  | error e => simp [hs, Bind.bind, Except.bind] at h
  | ok b₀ =>
    simp only [hs, Bind.bind, Except.bind] at h
    rcases mem_calls_of_bindSupplied hs (mem_calls_of_bindDefaults h hc) with h₀ | h₀
    · simp [Binding.mem_calls, Binding.valuesOf] at h₀
    · exact h₀

variable {signature : Signature} {callee : String} {last : Option String} {e : RenderError}

theorem isBinding_of_nameFor {b : Binding κ} {s : Supplied κ}
    (h : signature.nameFor callee shown last b s = .error e) : e.isBinding := by
  unfold nameFor at h
  split at h
  · split at h
    · cases h
    · cases h
      rfl
  · split at h
    · cases h
    · split at h
      · cases h
      · cases h
        rfl

theorem isBinding_of_bindSupplied {b : Binding κ} {l : List (Supplied κ)}
    (h : signature.bindSupplied callee shown last b l = .error e) : e.isBinding := by
  induction l generalizing last b with
  | nil => cases h
  | cons s rest ih =>
    simp only [bindSupplied, Bind.bind, Except.bind] at h
    cases hn : signature.nameFor callee shown last b s with
    | error e' =>
      rw [hn] at h
      cases h
      exact isBinding_of_nameFor hn
    | ok name =>
      rw [hn] at h
      exact ih h

theorem isBinding_of_bindDefaults {specs : List ParamSpec} {b : Binding κ}
    (h : bindDefaults callee specs b = .error e) : e.isBinding := by
  induction specs generalizing b with
  | nil => cases h
  | cons spec specs ih =>
    unfold bindDefaults at h
    split at h
    · exact ih h
    · split at h
      · exact ih h
      · split at h
        · cases h
          rfl
        · exact ih h

theorem isBinding_of_bind {l : List (Supplied κ)}
    (h : signature.bind callee shown l = .error e) : e.isBinding := by
  simp only [bind, Bind.bind, Except.bind] at h
  cases hs : signature.bindSupplied callee shown none ∅ l with
  | error e' =>
    rw [hs] at h
    cases h
    exact isBinding_of_bindSupplied hs
  | ok b =>
    rw [hs] at h
    exact isBinding_of_bindDefaults h

end Signature

namespace Call

def nested (c : Call) : List Call :=
  c.params.filterMap fun p => p.supplied.value.call?

/-- Whether all values are literal text. -/
def isLiteral (c : Call) : Bool :=
  c.nested.isEmpty

theorem sizeOf_lt_of_mem_nested {c d : Call} (h : d ∈ c.nested) : sizeOf d < sizeOf c := by
  obtain ⟨name, params⟩ := c
  obtain ⟨p, hp, hd⟩ := List.mem_filterMap.1 h
  have hlt := List.sizeOf_lt_of_mem hp
  cases p with
  | literal => simp [Param.supplied, Argument.call?] at hd
  | call pname callee inner =>
    cases hd
    simp only [Call.mk.sizeOf_spec, Param.call.sizeOf_spec] at hlt ⊢
    omega

/-- Induction on a call: what holds of the calls among its parameters carries over to it. -/
theorem nestedInduction {P : Call → Prop} (h : ∀ c, (∀ d ∈ c.nested, P d) → P c) (c : Call) :
    P c :=
  h c fun d _ => nestedInduction h d
termination_by sizeOf c
decreasing_by exact sizeOf_lt_of_mem_nested ‹_›

end Call

namespace Macro

/-- The parameters of a call, bound to the names that the macro declares. -/
def bindCall (m : Macro) (c : Call) : Except RenderError (Binding Call) :=
  m.signature.bind c.name (showArgument Call.name) (c.params.map Param.supplied)

theorem mem_nested_of_bindCall {m : Macro} {c d : Call} {b : Binding Call}
    (h : m.bindCall c = .ok b) (hd : d ∈ b.calls) : d ∈ c.nested := by
  obtain ⟨s, hs, hv⟩ := Signature.mem_calls_of_bind h hd
  obtain ⟨p, hp, rfl⟩ := List.mem_map.1 hs
  exact List.mem_filterMap.2 ⟨p, hp, hv⟩

theorem isRecursion_of_bindCall {m : Macro} {c : Call} {e : RenderError}
    (h : m.bindCall c = .error e) : e.isRecursion = false := by
  have hbinding := Signature.isBinding_of_bind h
  cases e with
  | transclusionRecursion title => cases hbinding
  | _ => rfl

end Macro

end Notebook
