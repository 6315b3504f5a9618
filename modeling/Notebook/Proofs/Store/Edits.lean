import Notebook.Proofs.Store.Announce

/-! # Edits are heard wherever they are seen

A store sees the edits of another through paths of fallbacks on which nothing hides the title.
An edit is recorded in its own store and in all that see it, and only there. So a title cannot
resolve to something else in a store without that store knowing of it.
-/

namespace Notebook

inductive Edit where
  | add (note : Note)
  | delete (title : Title)

namespace Edit

variable {κ : Type}

def title : Edit → Title
  | add note => note.title
  | delete title => title

def apply (serial : Nat) : Edit → Store κ → Store κ
  | add note => Store.put ⟨serial, note⟩
  | delete title => Store.remove title

variable (serial : Nat) (e : Edit) (store : Store κ)

@[simp] theorem fallbacks_apply : (e.apply serial store).fallbacks = store.fallbacks := by
  cases e <;> rfl

@[simp] theorem overlays_apply : (e.apply serial store).overlays = store.overlays := by
  cases e <;> rfl

@[simp] theorem bus_apply : (e.apply serial store).bus = store.bus := by
  cases e <;> rfl

theorem rules_apply :
    ((e.apply serial store).settings, (e.apply serial store).parsers,
      (e.apply serial store).macros) = (store.settings, store.parsers, store.macros) := by
  cases e <;> rfl

theorem get?_apply {title : Title} (h : title ≠ e.title) :
    (e.apply serial store).notes.get? title = store.notes.get? title := by
  cases e with
  | add note => simp [apply, Store.put, show title ≠ note.title from h]
  | delete title' => simp [apply, Store.remove, show title ≠ title' from h]

end Edit

namespace Library

open Relation

variable {κ : Type} {lib lib' : Library κ} {s t u : StoreId} {title : Title}

def kindOf (lib : Library κ) (s : StoreId) : Edit → ChangeKind
  | .add note => if (lib.own? s note.title).isSome then .modified else .added
  | .delete _ => .deleted

def edit (lib : Library κ) (s : StoreId) : Edit → Library κ
  | .add note => lib.add s note
  | .delete title => lib.delete s title

/-- The libraries have the same links, the same rules and the same pending changes, and differ in
the note that one store holds under one title at most. -/
structure DiffersAt (s : StoreId) (title : Title) (lib lib' : Library κ) : Prop where
  links : SameLinks lib lib'
  rules : ∀ t, lib.rules? t = lib'.rules? t
  pending : ∀ t, lib.pending t = lib'.pending t
  own : ∀ t other, t ≠ s ∨ other ≠ title → lib.own? t other = lib'.own? t other

theorem differsAt_of_apply {e : Edit} {serial : Nat}
    (h : lib'.stores = (lib.update s (e.apply serial)).stores) : DiffersAt s e.title lib lib' := by
  have hstore : ∀ t, lib'.store? t = (lib.update s (e.apply serial)).store? t := by
    intro t
    rw [store?, h, store?]
  have hkeep : ∀ {α : Type} {g : Store κ → α}, (∀ store, g (e.apply serial store) = g store) →
      ∀ t, (lib.store? t).map g = (lib'.store? t).map g := by
    intro α g hg t
    rw [hstore, map_store?_update hg]
  refine ⟨⟨fun t => ?_, fun t => ?_, ?_⟩, hkeep (Edit.rules_apply serial e), fun t => ?_,
    fun t other hne => ?_⟩
  · exact congrArg (Option.getD · []) (hkeep (Edit.fallbacks_apply serial e) t)
  · exact congrArg (Option.getD · []) (hkeep (Edit.overlays_apply serial e) t)
  · rw [h]
    exact (maxDepth_update lib s _).symm
  · exact congrArg (Option.getD · ∅)
      (hkeep (fun store => congrArg Bus.pending (Edit.bus_apply serial e store)) t)
  · rw [own?, own?, hstore, store?_update]
    split
    · next ht =>
      have hother : other ≠ e.title := hne.resolve_left fun hts => hts ht.symm
      cases lib.store? t with
      | none => rfl
      | some store => exact (Edit.get?_apply serial e store hother).symm
    · rfl

theorem edit_eq (lib : Library κ) (s : StoreId) (e : Edit) :
    ∃ lib₁, DiffersAt s e.title lib lib₁ ∧
      lib.edit s e = lib₁.announce s e.title (lib.kindOf s e) := by
  cases e with
  | add note =>
    exact ⟨{ lib.update s (Store.put ⟨lib.nextSerial, note⟩) with
      nextSerial := lib.nextSerial + 1 }, differsAt_of_apply (e := .add note) rfl, rfl⟩
  | delete title =>
    exact ⟨lib.update s (Store.remove title),
      @differsAt_of_apply _ lib _ s (.delete title) 0 rfl, rfl⟩

/-- The one store asks the other for a title that it does not hold itself. -/
def PassesTo (lib : Library κ) (title : Title) (t u : StoreId) : Prop :=
  lib.Refers t u ∧ lib.own? t title = none

/-- A path of fallbacks leads from `t` to `s`, and neither `t` nor any store strictly between the
two holds the title. -/
def Sees (lib : Library κ) (title : Title) (t s : StoreId) : Prop :=
  TransGen (lib.PassesTo title) t s

theorem Sees.transGen (h : lib.Sees title t s) : TransGen lib.Refers t s := by
  have hle : lib.PassesTo title ≤ lib.Refers := fun _ _ hp => hp.1
  exact TransGen.mono hle _ _ h

theorem Linked.rank_lt_of_sees (h : lib.Linked) (hs : lib.Sees title t s) :
    lib.rank s < lib.rank t := by
  induction hs with
  | single hp => exact h.rank_lt hp.1
  | tail _ hp ih => exact (h.rank_lt hp.1).trans ih

theorem Linked.sees_of_toldWithin (h : lib.Linked) {bound : Nat}
    (ht : lib.ToldWithin title bound s t) : lib.Sees title t s := by
  induction bound generalizing s with
  | zero => exact ht.elim
  | succ bound ih =>
    obtain ⟨o, ho, hown, rfl | ht⟩ := ht
    · exact .single ⟨h.mem_overlays.1 ho, hown⟩
    · exact (ih ht).tail ⟨h.mem_overlays.1 ho, hown⟩

theorem Linked.toldWithin_of_sees (h : lib.Linked) {bound : Nat} (hs : lib.Sees title t s)
    (hb : lib.rank t ≤ lib.rank s + bound) : lib.ToldWithin title bound s t := by
  have hlt := h.rank_lt_of_sees hs
  induction hs generalizing bound with
  | single hp =>
    obtain ⟨bound, rfl⟩ : ∃ n, bound = n + 1 := Nat.exists_eq_add_one.2 (by omega)
    exact ⟨t, h.mem_overlays.2 hp.1, hp.2, .inl rfl⟩
  | tail hs hp ih =>
    have hstep := h.rank_lt hp.1
    obtain ⟨bound, rfl⟩ : ∃ n, bound = n + 1 := Nat.exists_eq_add_one.2 (by omega)
    exact ⟨_, h.mem_overlays.2 hp.1, hp.2, .inr (ih (by omega) (h.rank_lt_of_sees hs))⟩

theorem Linked.toldWithin_iff_sees (h : lib.Linked) :
    lib.ToldWithin title lib.maxDepth s t ↔ lib.Sees title t s := by
  refine ⟨h.sees_of_toldWithin, fun hs => h.toldWithin_of_sees hs ?_⟩
  obtain ⟨u, hp, -⟩ := TransGen.head'_iff.1 hs.transGen
  have hlt := h.rank_lt_length hp.lt
  unfold maxDepth
  omega

theorem Linked.isSome_of_mem_overlays (h : lib.Linked) {o : StoreId} (ho : o ∈ lib.overlays s) :
    (lib.store? o).isSome := by
  obtain ⟨store, hstore⟩ := store?_of_lt (h.mem_overlays.1 ho).lt
  rw [hstore]
  rfl

theorem Linked.pending_announce (h : lib.Linked) (hs : s < lib.stores.length) (title : Title)
    (kind : ChangeKind) (t : StoreId) :
    Batch.Records title kind (t = s ∨ lib.Sees title t s) (lib.pending t)
      ((lib.announce s title kind).pending t) := by
  obtain ⟨store, hstore⟩ := store?_of_lt hs
  have hsame := sameButBuses_enqueue lib s title kind
  have hfirst := pending_enqueue (Option.isSome_of_eq_some hstore) title kind t
  have ho : ∀ s' o, o ∈ (lib.update s (Store.enqueue title kind)).overlays s' →
      ((lib.update s (Store.enqueue title kind)).store? o).isSome := by
    intro s' o ho
    rw [← hsame.overlays] at ho
    exact (hsame.isSome_store? o).symm.trans (h.isSome_of_mem_overlays ho)
  refine (hfirst.trans (pending_forwardWithin ho lib.maxDepth s t)).congr ?_
  rw [← hsame.toldWithin, h.toldWithin_iff_sees]

theorem Linked.sees_of_differsAt (h : lib.Linked) (hd : DiffersAt s title lib lib')
    (hs : lib.Sees title t s) : lib'.Sees title t s := by
  have hstep : ∀ {t u}, lib.PassesTo title t u → t ≠ s → lib'.PassesTo title t u := by
    intro t u hp hne
    refine ⟨?_, (hd.own t title (.inl hne)).symm.trans hp.2⟩
    rw [Refers, ← hd.links.fallbacks]
    exact hp.1
  induction hs using TransGen.head_induction_on with
  | single hp =>
    refine .single (hstep hp ?_)
    rintro rfl
    exact h.acyclic _ (.single hp.1)
  | head hp hs ih =>
    refine TransGen.head (hstep hp ?_) ih
    rintro rfl
    exact h.acyclic _ (.head hp.1 (Sees.transGen hs))

theorem SameLinks.symm (h : SameLinks lib lib') : SameLinks lib' lib :=
  ⟨fun t => (h.fallbacks t).symm, fun t => (h.overlays t).symm, h.length.symm⟩

theorem SameLinks.trans {lib'' : Library κ} (h : SameLinks lib lib') (h' : SameLinks lib' lib'') :
    SameLinks lib lib'' :=
  ⟨fun t => (h.fallbacks t).trans (h'.fallbacks t),
    fun t => (h.overlays t).trans (h'.overlays t), h.length.trans h'.length⟩

theorem DiffersAt.symm (hd : DiffersAt s title lib lib') : DiffersAt s title lib' lib :=
  ⟨hd.links.symm, fun t => (hd.rules t).symm, fun t => (hd.pending t).symm,
    fun t other h => (hd.own t other h).symm⟩

theorem DiffersAt.linked (hd : DiffersAt s title lib lib') (h : lib.Linked) : lib'.Linked :=
  h.of_eq hd.links.fallbacks hd.links.overlays (Nat.le_of_eq hd.links.length)

theorem lookupWithin_of_not_sees (hf : ∀ t, lib.fallbacks t = lib'.fallbacks t)
    (ho : ∀ t, t ≠ s → lib.own? t title = lib'.own? t title) (hne : t ≠ s)
    (hs : ¬ lib.Sees title t s) (bound : Nat) :
    lib.lookupWithin title bound t = lib'.lookupWithin title bound t := by
  induction bound generalizing t with
  | zero => rfl
  | succ bound ih =>
    simp only [lookupWithin, ← ho t hne, ← hf]
    cases hown : lib.own? t title with
    | some saved => rfl
    | none =>
      have hbelow : ∀ u ∈ lib.fallbacks t,
          lib.lookupWithin title bound u = lib'.lookupWithin title bound u := by
        intro u hu
        refine ih ?_ fun hsees => hs (.head ⟨hu, hown⟩ hsees)
        rintro rfl
        exact hs (.single ⟨hu, hown⟩)
      dsimp only
      generalize lib.fallbacks t = us at hbelow
      induction us with
      | nil => rfl
      | cons u us ihus =>
        obtain ⟨hu, hus⟩ := List.forall_mem_cons.1 hbelow
        rw [List.findSome?_cons, List.findSome?_cons, hu, ihus hus]

theorem sameLinks_edit (lib : Library κ) (s : StoreId) (e : Edit) :
    SameLinks lib (lib.edit s e) := by
  obtain ⟨lib₁, hd, hedit⟩ := lib.edit_eq s e
  rw [hedit]
  exact hd.links.trans (sameButBuses_announce lib₁ s e.title _).sameLinks

theorem rules?_edit (lib : Library κ) (s : StoreId) (e : Edit) (t : StoreId) :
    (lib.edit s e).rules? t = lib.rules? t := by
  obtain ⟨lib₁, hd, hedit⟩ := lib.edit_eq s e
  rw [hedit, hd.rules, (sameButBuses_announce lib₁ s e.title _).rules?]

theorem own?_edit {e : Edit} (h : t ≠ s ∨ title ≠ e.title) :
    lib.own? t title = (lib.edit s e).own? t title := by
  obtain ⟨lib₁, hd, hedit⟩ := lib.edit_eq s e
  rw [hedit, hd.own t title h, (sameButBuses_announce lib₁ s e.title _).own?]

theorem lookup_edit_of_ne {e : Edit} (h : title ≠ e.title) (t : StoreId) :
    (lib.edit s e).lookup t title = lib.lookup t title := by
  have hl := sameLinks_edit lib s e
  exact (lookup_congr hl.fallbacks hl.length fun u => own?_edit (.inr h)).symm

theorem lookup_edit_of_not_sees {e : Edit} (hne : t ≠ s) (hs : ¬ lib.Sees e.title t s) :
    (lib.edit s e).lookup t e.title = lib.lookup t e.title := by
  have hl := sameLinks_edit lib s e
  have hw := lookupWithin_of_not_sees hl.fallbacks (fun u hu => own?_edit (.inl hu)) hne hs
  have hm : lib.maxDepth = (lib.edit s e).maxDepth := hl.length
  rw [lookup, lookup, ← hm, hw]

theorem Reachable.edit (h : lib.Reachable) (s : StoreId) (e : Edit) : (lib.edit s e).Reachable :=
  h.change (sameLinks_edit lib s e)

theorem Linked.pending_edit_records (h : lib.Linked) (hs : s < lib.stores.length) (e : Edit)
    (t : StoreId) :
    Batch.Records e.title (lib.kindOf s e) (t = s ∨ lib.Sees e.title t s) (lib.pending t)
      ((lib.edit s e).pending t) := by
  obtain ⟨lib₁, hd, hedit⟩ := lib.edit_eq s e
  have h₁ := hd.linked h
  have hsees : lib₁.Sees e.title t s ↔ lib.Sees e.title t s :=
    ⟨h₁.sees_of_differsAt hd.symm, h.sees_of_differsAt hd⟩
  rw [hedit, hd.pending, ← hsees]
  exact h₁.pending_announce (hd.links.length ▸ hs) _ _ t

/-- An edit is recorded in its store and in all stores that see it, and nowhere else. Wherever a
title resolves to something else afterwards, it is among the pending changes. -/
theorem Reachable.pending_edit (h : lib.Reachable) (hs : s < lib.stores.length) (e : Edit) :
    (∀ t, t = s ∨ lib.Sees e.title t s →
      (lib.edit s e).pending t = (lib.pending t).record e.title (lib.kindOf s e)) ∧
    (∀ t, t ≠ s → ¬ lib.Sees e.title t s → (lib.edit s e).pending t = lib.pending t) ∧
    ∀ t title, (lib.edit s e).lookup t title ≠ lib.lookup t title →
      ((lib.edit s e).pending t).contains title := by
  have hrecords := h.linked.pending_edit_records hs e
  refine ⟨fun t ht => (hrecords t).1 ht, fun t hne hn => (hrecords t).2 (not_or.2 ⟨hne, hn⟩),
    fun t title hchanged => ?_⟩
  by_cases htitle : title = e.title
  · subst htitle
    by_cases ht : t = s ∨ lib.Sees e.title t s
    · rw [(hrecords t).1 ht]
      simp [Batch.record, Catalog.contains]
    · rw [not_or] at ht
      exact absurd (lookup_edit_of_not_sees ht.1 ht.2) hchanged
  · exact absurd (lookup_edit_of_ne htitle t) hchanged

def layered : Library Unit :=
  { stores := [{ overlays := [1] }, { fallbacks := [0] }] }

theorem reachable_layered : layered.Reachable := by
  have hnone : Reachable ({} : Library Unit) := .empty rfl
  have hone : Reachable ({ stores := [{}] } : Library Unit) := hnone.addStore rfl rfl
  have htwo : Reachable ({ stores := [{}, {}] } : Library Unit) := hone.addStore rfl rfl
  exact htwo.addFallback (by decide) (by decide) (s := 1) (f := 0) rfl

theorem pending_edit_layered :
    (layered.edit 0 (.add { title := "a", text := "x" })).pending 1 =
      (layered.pending 1).record "a" .added := by
  have hsees : layered.Sees "a" 1 0 := .single ⟨List.mem_singleton.2 rfl, rfl⟩
  exact (reachable_layered.pending_edit (by decide) (.add { title := "a", text := "x" })).1 1
    (.inr hsees)

end Library

end Notebook
