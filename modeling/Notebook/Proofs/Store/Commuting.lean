import Notebook.Proofs.Store.Pending

/-! # Edits of different titles commute

Whom an edit is told depends on what the stores hold under its own title. So edits of different
titles do not get in each other's way, whichever stores they are made in. The order in which they
were made shows in the serial numbers of what was saved, and no query tells of those.
-/

namespace Notebook

namespace Batch

variable {title title' : Title} {kind kind' : ChangeKind} {p q : Prop} {a b b' c c' : Batch}

theorem record_comm (batch : Batch) (h : title ≠ title') :
    (batch.record title kind).record title' kind' =
      (batch.record title' kind').record title kind := by
  apply Catalog.ext
  intro name
  simp only [record, Catalog.get?_insert]
  by_cases hn : name = title
  · subst hn
    rw [if_neg h, if_pos rfl, if_pos rfl]
  · rw [if_neg hn, if_neg hn]

theorem Records.comm (h : title ≠ title') (hb : Records title kind p a b)
    (hc : Records title' kind' q b c) (hb' : Records title' kind' q a b')
    (hc' : Records title kind p b' c') : c = c' := by
  by_cases hp : p <;> by_cases hq : q
  · rw [hc.1 hq, hb.1 hp, hc'.1 hp, hb'.1 hq, record_comm a h]
  · rw [hc.2 hq, hb.1 hp, hc'.1 hp, hb'.2 hq]
  · rw [hc.1 hq, hb.2 hp, hc'.2 hp, hb'.1 hq]
  · rw [hc.2 hq, hb.2 hp, hc'.2 hp, hb'.2 hq]

theorem Records.unique (hb : Records title kind p a b) (hb' : Records title kind p a b') :
    b = b' := by
  by_cases hp : p
  · rw [hb.1 hp, hb'.1 hp]
  · rw [hb.2 hp, hb'.2 hp]

end Batch

def Edit.outcome : Edit → Option Note
  | add note => some note
  | delete _ => none

namespace Library

open Relation

variable {κ : Type} {lib lib' lib'' : Library κ} {s t u : StoreId} {title : Title} {e e' : Edit}

def records (lib : Library κ) (s : StoreId) : Catalog Note :=
  (((lib.store? s).map Store.notes).getD ∅).map Saved.note

theorem get?_records (lib : Library κ) (s : StoreId) (title : Title) :
    (lib.records s).get? title = (lib.own? s title).map Saved.note := by
  rw [records, Catalog.get?_map, own?]
  cases lib.store? s <;> rfl

/-- Apart from the serial numbers of what was saved and what was parsed of it, the libraries have
the same stores. -/
structure Alike (lib lib' : Library κ) : Prop where
  links : SameLinks lib lib'
  rules : ∀ t, lib.rules? t = lib'.rules? t
  records : ∀ t, lib.records t = lib'.records t
  pending : ∀ t, lib.pending t = lib'.pending t

/-- Every query has the same answer in both libraries. -/
structure SameAnswers (lib lib' : Library κ) : Prop where
  get : ∀ t title, lib.get t title = lib'.get t title
  origin : ∀ t title, lib.origin t title = lib'.origin t title
  titles : ∀ t, lib.titles t = lib'.titles t
  parse : ∀ t title, (lib.parseNote t title).1 = (lib'.parseNote t title).1

namespace Alike

theorem refl (lib : Library κ) : Alike lib lib :=
  ⟨⟨fun _ => rfl, fun _ => rfl, rfl⟩, fun _ => rfl, fun _ => rfl, fun _ => rfl⟩

theorem trans (h : Alike lib lib') (h' : Alike lib' lib'') : Alike lib lib'' where
  links := h.links.trans h'.links
  rules t := (h.rules t).trans (h'.rules t)
  records t := (h.records t).trans (h'.records t)
  pending t := (h.pending t).trans (h'.pending t)

theorem own (h : Alike lib lib') (t : StoreId) (title : Title) :
    (lib.own? t title).map Saved.note = (lib'.own? t title).map Saved.note := by
  rw [← get?_records, h.records, get?_records]

theorem isSome_own (h : Alike lib lib') (t : StoreId) (title : Title) :
    (lib.own? t title).isSome = (lib'.own? t title).isSome := by
  have hown := congrArg Option.isSome (h.own t title)
  rwa [Option.isSome_map, Option.isSome_map] at hown

theorem get (h : Alike lib lib') (t : StoreId) (title : Title) :
    lib.get t title = lib'.get t title := by
  have hwithin : ∀ bound t, (lib.lookupWithin title bound t).map Saved.note =
      (lib'.lookupWithin title bound t).map Saved.note := by
    intro bound
    induction bound with
    | zero => exact fun t => rfl
    | succ bound ih =>
      intro t
      have hbelow : ∀ fs : List StoreId,
          (fs.findSome? (lib.lookupWithin title bound)).map Saved.note =
            (fs.findSome? (lib'.lookupWithin title bound)).map Saved.note := by
        intro fs
        rw [List.map_findSome?, List.map_findSome?]
        exact findSome?_congr fun f _ => ih f
      have hown := h.own t title
      rw [lookupWithin, lookupWithin, ← h.links.fallbacks]
      cases ho : lib.own? t title with
      | none =>
        rw [ho, Option.map_none, eq_comm, Option.map_eq_none_iff] at hown
        rw [hown]
        exact hbelow _
      | some saved =>
        rw [ho, Option.map_some, eq_comm, Option.map_eq_some_iff] at hown
        obtain ⟨saved', ho', hnote⟩ := hown
        rw [ho']
        exact congrArg some hnote.symm
  rw [Library.get, Library.get, lookup, lookup, hwithin, maxDepth, maxDepth, h.links.length]

theorem origin (h : Alike lib lib') (t : StoreId) (title : Title) :
    lib.origin t title = lib'.origin t title := by
  have hwithin : ∀ bound t, lib.originWithin title bound t = lib'.originWithin title bound t := by
    intro bound
    induction bound with
    | zero => exact fun t => rfl
    | succ bound ih =>
      intro t
      simp only [originWithin, h.isSome_own, h.links.fallbacks, ih]
  rw [Library.origin, Library.origin, hwithin, maxDepth, maxDepth, h.links.length]

theorem titles (h : Alike lib lib') (t : StoreId) : lib.titles t = lib'.titles t := by
  apply Catalog.ext
  intro title
  rw [Library.titles, get?_titlesWithin, Library.titles, get?_titlesWithin]
  exact h.origin t title

theorem parse (h : Alike lib lib') (t : StoreId) (title : Title) :
    (lib.parseNote t title).1 = (lib'.parseNote t title).1 := by
  have hfst : ∀ lib : Library κ, (lib.parseNote t title).1 =
      (lib.get t title).map fun note => (lib.parseText t note.type note.text).1 := by
    intro lib
    rw [parseNote_fst, Library.get, Option.map_map]
    rfl
  have htext : ∀ type text, (lib.parseText t type text).1 = (lib'.parseText t type text).1 := by
    intro type text
    have hrules := h.rules t
    unfold parseText
    cases hs : lib.store? t with
    | none =>
      rw [rules?, hs, Option.map_none, eq_comm, rules?, Option.map_eq_none_iff] at hrules
      rw [hrules]
    | some store =>
      obtain ⟨store', hs', hsettings, hparsers, -⟩ := exists_store?_of_rules? hs hrules.symm
      simp only [hs', Store.rules, hsettings, hparsers]
  simp only [hfst, h.get, htext]

theorem answers (h : Alike lib lib') : SameAnswers lib lib' :=
  ⟨h.get, h.origin, h.titles, h.parse⟩

end Alike

theorem get?_records_edit (hs : s < lib.stores.length) (e : Edit) (t : StoreId) (title : Title) :
    ((lib.edit s e).records t).get? title =
      if t = s ∧ title = e.title then e.outcome else (lib.records t).get? title := by
  rw [get?_records]
  split
  · next h =>
    rw [h.1, h.2, own?_edit_self hs]
    cases e <;> rfl
  · next h =>
    have hne : t ≠ s ∨ title ≠ e.title := not_and_or.1 h
    rw [← own?_edit hne, get?_records]

theorem kindOf_congr (h : (lib.own? s e.title).isSome = (lib'.own? s e.title).isSome) :
    lib.kindOf s e = lib'.kindOf s e := by
  cases e with
  | add note =>
    simp only [kindOf]
    rw [show (lib.own? s note.title).isSome = (lib'.own? s note.title).isSome from h]
  | delete title => rfl

theorem sees_congr (hl : SameLinks lib lib')
    (ho : ∀ t, (lib.own? t title).isSome = (lib'.own? t title).isSome) :
    lib.Sees title t s ↔ lib'.Sees title t s := by
  have hpasses : lib.PassesTo title = lib'.PassesTo title := by
    funext t u
    have hnone : lib.own? t title = none ↔ lib'.own? t title = none := by
      rw [← Option.not_isSome_iff_eq_none, ho, Option.not_isSome_iff_eq_none]
    rw [PassesTo, PassesTo, Refers, Refers, hl.fallbacks, hnone]
  rw [Sees, Sees, hpasses]

/-- An edit is recorded in the same way wherever it meets the same links and the title is held by
the same stores. -/
theorem Linked.pending_edit_of_sameLinks (h : lib.Linked) (hl : SameLinks lib lib')
    (ho : ∀ t, (lib.own? t e.title).isSome = (lib'.own? t e.title).isSome)
    (hs : s < lib.stores.length) (t : StoreId) :
    Batch.Records e.title (lib.kindOf s e) (t = s ∨ lib.Sees e.title t s) (lib'.pending t)
      ((lib'.edit s e).pending t) := by
  rw [kindOf_congr (ho s), sees_congr hl ho]
  exact (h.of_sameLinks hl).pending_edit_records (hl.length ▸ hs) e t

theorem Linked.alike_edit (h : lib.Linked) (ha : Alike lib lib') (hs : s < lib.stores.length)
    (e : Edit) : Alike (lib.edit s e) (lib'.edit s e) where
  links := ((sameLinks_edit lib s e).symm.trans ha.links).trans (sameLinks_edit lib' s e)
  rules t := by rw [rules?_edit, rules?_edit, ha.rules]
  records t := by
    apply Catalog.ext
    intro title
    rw [get?_records_edit hs, get?_records_edit (ha.links.length ▸ hs), ha.records]
  pending t := by
    have hrecords := h.pending_edit_records hs e t
    have hrecords' := h.pending_edit_of_sameLinks ha.links (ha.isSome_own · e.title) hs t
    rw [← ha.pending] at hrecords'
    exact hrecords.unique hrecords'

theorem Linked.pending_edit_edit (h : lib.Linked) (ht : t < lib.stores.length)
    (hne : e'.title ≠ e.title) (u : StoreId) :
    Batch.Records e'.title (lib.kindOf t e') (u = t ∨ lib.Sees e'.title u t)
      ((lib.edit s e).pending u) (((lib.edit s e).edit t e').pending u) := by
  have hown : ∀ v, (lib.own? v e'.title).isSome = ((lib.edit s e).own? v e'.title).isSome := by
    intro v
    rw [own?_edit (.inr hne)]
  exact h.pending_edit_of_sameLinks (sameLinks_edit lib s e) hown ht u

theorem Linked.edit_comm (h : lib.Linked) (hs : s < lib.stores.length)
    (ht : t < lib.stores.length) (hne : e.title ≠ e'.title) :
    Alike ((lib.edit s e).edit t e') ((lib.edit t e').edit s e) where
  links := by
    have hl := (sameLinks_edit lib s e).trans (sameLinks_edit _ t e')
    exact hl.symm.trans ((sameLinks_edit lib t e').trans (sameLinks_edit _ s e))
  rules u := by simp only [rules?_edit]
  records u := by
    have hlength := (sameLinks_edit lib s e).length
    have hlength' := (sameLinks_edit lib t e').length
    apply Catalog.ext
    intro title
    rw [get?_records_edit (hlength ▸ ht), get?_records_edit hs,
      get?_records_edit (hlength' ▸ hs), get?_records_edit ht]
    by_cases hu : u = t ∧ title = e'.title
    · have hother : ¬ (u = s ∧ title = e.title) := fun h => hne (h.2.symm.trans hu.2)
      rw [if_pos hu, if_neg hother, if_pos hu]
    · rw [if_neg hu, if_neg hu]
  pending u :=
    Batch.Records.comm hne (h.pending_edit_records hs e u) (h.pending_edit_edit ht hne.symm u)
      (h.pending_edit_records ht e' u) (h.pending_edit_edit hs hne u)

def edits (lib : Library κ) (l : List (StoreId × Edit)) : Library κ :=
  l.foldl (fun lib op => lib.edit op.1 op.2) lib

theorem Linked.alike_edits (h : lib.Linked) (ha : Alike lib lib') {l : List (StoreId × Edit)}
    (hl : ∀ op ∈ l, op.1 < lib.stores.length) : Alike (lib.edits l) (lib'.edits l) := by
  induction l generalizing lib lib' with
  | nil => exact ha
  | cons op l ih =>
    obtain ⟨hop, hl⟩ := List.forall_mem_cons.1 hl
    have hlinks := sameLinks_edit lib op.1 op.2
    apply ih (h.of_sameLinks hlinks) (h.alike_edit ha hop op.2)
    rwa [← hlinks.length]

theorem Linked.edits_perm {l l' : List (StoreId × Edit)} (hp : l.Perm l') (h : lib.Linked)
    (hl : ∀ op ∈ l, op.1 < lib.stores.length) (hn : (l.map fun op => op.2.title).Nodup) :
    Alike (lib.edits l) (lib.edits l') := by
  induction hp generalizing lib with
  | nil => exact .refl lib
  | cons op _ ih =>
    obtain ⟨-, hl⟩ := List.forall_mem_cons.1 hl
    have hlinks := sameLinks_edit lib op.1 op.2
    rw [List.map_cons, List.nodup_cons] at hn
    apply ih (h.of_sameLinks hlinks) _ hn.2
    rwa [← hlinks.length]
  | swap op op' l =>
    obtain ⟨hop', hl⟩ := List.forall_mem_cons.1 hl
    obtain ⟨hop, hl⟩ := List.forall_mem_cons.1 hl
    rw [List.map_cons, List.map_cons, List.nodup_cons, List.mem_cons, not_or] at hn
    have hlinks := (sameLinks_edit lib op'.1 op'.2).trans (sameLinks_edit _ op.1 op.2)
    apply (h.of_sameLinks hlinks).alike_edits (h.edit_comm hop' hop hn.1.1)
    rwa [← hlinks.length]
  | trans hp _ ih ih' =>
    have hl' := fun op hop => hl op (hp.mem_iff.2 hop)
    exact (ih h hl hn).trans (ih' h hl' ((hp.map _).nodup_iff.1 hn))

/-- Two edits of different titles, each made in any store, may be made in either order, and notes
with distinct titles may be added in any order. Every store ends up with the same notes and the
same pending changes, and answers every query in the same way. -/
theorem Linked.edits_commute (h : lib.Linked) :
    (∀ s t e e', s < lib.stores.length → t < lib.stores.length → e.title ≠ e'.title →
      Alike ((lib.edit s e).edit t e') ((lib.edit t e').edit s e) ∧
        SameAnswers ((lib.edit s e).edit t e') ((lib.edit t e').edit s e)) ∧
    ∀ s (notes notes' : List Note), s < lib.stores.length → notes.Perm notes' →
      (notes.map Note.title).Nodup →
      Alike (notes.foldl (·.add s) lib) (notes'.foldl (·.add s) lib) ∧
        SameAnswers (notes.foldl (·.add s) lib) (notes'.foldl (·.add s) lib) := by
  constructor
  · intro s t e e' hs ht hne
    have halike := h.edit_comm hs ht hne
    exact ⟨halike, halike.answers⟩
  · intro s notes notes' hs hp hn
    have hadds : ∀ l : List Note,
        l.foldl (·.add s) lib = lib.edits (l.map fun n => (s, .add n)) := by
      intro l
      rw [edits, List.foldl_map]
      rfl
    have halike := Linked.edits_perm (hp.map fun n => (s, Edit.add n)) h ?_ ?_
    · rw [hadds, hadds]
      exact ⟨halike, halike.answers⟩
    · intro op hop
      obtain ⟨n, -, rfl⟩ := List.mem_map.1 hop
      exact hs
    · rw [List.map_map]
      exact hn

def editOfB : Edit :=
  .add { title := "b", text := "y" }

theorem edits_commute_diamond :
    SameAnswers ((diamond.edit 0 (.delete "a")).edit 1 editOfB)
        ((diamond.edit 1 editOfB).edit 0 (.delete "a")) ∧
      (((diamond.edit 0 (.delete "a")).edit 1 editOfB).pending 3).entries =
        [("a", .deleted), ("b", .added)] ∧
      (((diamond.edit 1 editOfB).edit 0 (.delete "a")).pending 3).entries =
        [("a", .deleted), ("b", .added)] := by
  obtain ⟨halike, hanswers⟩ := linked_diamond.edits_commute.1 0 1 (.delete "a") editOfB
    (by decide) (by decide) (by decide)
  have hpending : (((diamond.edit 0 (.delete "a")).edit 1 editOfB).pending 3).entries =
      [("a", .deleted), ("b", .added)] := by
    decide +kernel
  exact ⟨hanswers, hpending, halike.pending 3 ▸ hpending⟩

end Library

end Notebook
