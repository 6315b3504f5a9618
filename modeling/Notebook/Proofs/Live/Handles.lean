import Mathlib.Data.Finset.Disjoint
import Mathlib.Data.Finset.Lattice.Lemmas
import Mathlib.Data.Finset.SDiff
import Notebook.Live.Refresh
import Notebook.Proofs.Numbering

/-! # Handles

An output keeps a handle for each id that is mounted. It can follow events that mount each id at
most once and name no others. A handover is a stretch of events after which some of the ids have
been replaced by new ones, whatever else is mounted.
-/

namespace Notebook

/-- What an output knows of ids: which are mounted, and which ever were. -/
structure Handles where
  mounted : Finset NodeId := ∅
  ever : Finset NodeId := ∅
  deriving DecidableEq

namespace Handles

def Holds (handles : Handles) : Option NodeId → Prop
  | some parent => parent ∈ handles.mounted
  | none => handles.mounted = ∅

instance (handles : Handles) : (parent : Option NodeId) → Decidable (handles.Holds parent)
  | some parent => inferInstanceAs (Decidable (parent ∈ handles.mounted))
  | none => inferInstanceAs (Decidable (handles.mounted = ∅))

/-- Follows an event, which is about all ids of a node at once. Only ids that never were mounted
can be mounted, and only those that are mounted can be refreshed or unmounted. -/
def hear? (handles : Handles) : SinkEvent → Option Handles
  | .mount parent node =>
    if handles.Holds parent ∧ node.ids.Nodup ∧ ∀ id ∈ node.ids, id ∉ handles.ever then
      some ⟨handles.mounted ∪ node.ids.toFinset, handles.ever ∪ node.ids.toFinset⟩
    else none
  | .refresh node _ =>
    if node.id?.isSome ∧ ∀ id ∈ node.ids, id ∈ handles.mounted then some handles else none
  | .unmount node =>
    if ∀ id ∈ node.ids, id ∈ handles.mounted then
      some { handles with mounted := handles.mounted \ node.ids.toFinset }
    else none

def hearAll? (handles : Handles) (events : List SinkEvent) : Option Handles :=
  events.foldlM hear? handles

variable {handles mid handles' : Handles} {others ever : Finset NodeId}

theorem hearAll?_append {events events' : List SinkEvent} (h : handles.hearAll? events = some mid)
    (h' : mid.hearAll? events' = some handles') :
    handles.hearAll? (events ++ events') = some handles' := by
  unfold hearAll? at h h' ⊢
  rw [List.foldlM_append, h]
  exact h'

theorem hearAll?_cons {event : SinkEvent} {events : List SinkEvent}
    (h : handles.hear? event = some mid) (h' : mid.hearAll? events = some handles') :
    handles.hearAll? (event :: events) = some handles' := by
  unfold hearAll? at h' ⊢
  rw [List.foldlM_cons, h]
  exact h'

theorem hear?_unmount {node : Node} (h : ∀ id ∈ node.ids, id ∉ others) :
    hear? ⟨others ∪ node.ids.toFinset, ever⟩ (.unmount node) = some ⟨others, ever⟩ := by
  have hd : Disjoint others node.ids.toFinset :=
    Finset.disjoint_right.2 fun id hid => h id (List.mem_toFinset.1 hid)
  have hm : ∀ id ∈ node.ids, id ∈ others ∪ node.ids.toFinset :=
    fun id hid => Finset.mem_union_right _ (List.mem_toFinset.2 hid)
  rw [hear?, if_pos hm, Finset.union_sdiff_cancel_right hd]

theorem hearAll?_unmounts {nodes : List Node} (hn : (Node.idsOf nodes).Nodup)
    (h : ∀ id ∈ Node.idsOf nodes, id ∉ others) :
    hearAll? ⟨others ∪ (Node.idsOf nodes).toFinset, ever⟩ (nodes.map SinkEvent.unmount) =
      some ⟨others, ever⟩ := by
  induction nodes with
  | nil =>
    rw [Node.idsOf_nil, List.toFinset_nil, Finset.union_empty]
    rfl
  | cons node nodes ih =>
    rw [Node.idsOf_cons] at hn h ⊢
    rw [List.forall_mem_append] at h
    obtain ⟨-, hrest, hd⟩ := List.nodup_append'.1 hn
    rw [List.toFinset_append, Finset.union_comm node.ids.toFinset, ← Finset.union_assoc]
    refine hearAll?_cons (hear?_unmount fun id hid => ?_) (ih hrest h.2)
    rw [Finset.mem_union, List.mem_toFinset]
    exact not_or.2 ⟨h.1 id hid, hd hid⟩

theorem hearAll?_mounts {nodes : List Node} {parent : NodeId} (hp : parent ∈ others)
    (hn : (Node.idsOf nodes).Nodup) (h : ∀ id ∈ Node.idsOf nodes, id ∉ ever) :
    hearAll? ⟨others, ever⟩ (nodes.map (SinkEvent.mount (some parent))) =
      some ⟨others ∪ (Node.idsOf nodes).toFinset, ever ∪ (Node.idsOf nodes).toFinset⟩ := by
  induction nodes generalizing others ever with
  | nil =>
    rw [Node.idsOf_nil, List.toFinset_nil, Finset.union_empty, Finset.union_empty]
    rfl
  | cons node nodes ih =>
    rw [Node.idsOf_cons] at hn h ⊢
    rw [List.forall_mem_append] at h
    obtain ⟨hfirst, hrest, hd⟩ := List.nodup_append'.1 hn
    rw [List.toFinset_append, ← Finset.union_assoc, ← Finset.union_assoc]
    refine hearAll?_cons (if_pos ⟨hp, hfirst, h.1⟩) ?_
    refine ih (Finset.mem_union_left _ hp) hrest fun id hid => ?_
    rw [Finset.mem_union, List.mem_toFinset]
    exact not_or.2 ⟨h.2 id hid, fun hid' => hd hid' hid⟩

end Handles

open Handles (hearAll? hearAll?_append hearAll?_mounts hearAll?_unmounts)

/-- While ids are drawn from `lo` up to `hi`, the events turn mounted ids into others, whatever
else is mounted: each of these was there before or is drawn. -/
structure Handover (lo hi : Nat) (old new : List Nat) (events : List SinkEvent) : Prop where
  le : lo ≤ hi
  nodup : new.Nodup
  source : ∀ id ∈ new, id ∈ old ∨ lo ≤ id ∧ id < hi
  heard : ∀ others ever : Finset Nat, (∀ id ∈ old, id ∉ others) → (∀ id ∈ others, id < lo) →
    (∀ id ∈ ever, id < lo) →
      ∃ ever', hearAll? ⟨others ∪ old.toFinset, ever⟩ events =
        some ⟨others ∪ new.toFinset, ever'⟩ ∧ ∀ id ∈ ever', id < hi

namespace Handover

variable {first lo mid hi : Nat} {old old' new new' between kept : List Nat}
  {events events' : List SinkEvent}

theorem apart (h : Handover lo hi old new events) {others : Finset Nat}
    (ha : ∀ id ∈ old, id ∉ others) (hlt : ∀ id ∈ others, id < lo) : ∀ id ∈ new, id ∉ others := by
  intro id hid ho
  rcases h.source id hid with hid | ⟨hle, -⟩
  · exact ha id hid ho
  · exact Nat.not_lt.2 hle (hlt id ho)

theorem fresh (h : Handover lo hi old new events) (hf : Fresh first lo old) :
    Fresh first hi new := by
  refine ⟨Nat.le_trans hf.le h.le, h.nodup, fun id hid => ?_⟩
  have hle := h.le
  have hfirst := hf.le
  rcases h.source id hid with hid | hid
  · have hid := hf.within id hid
    omega
  · omega

theorem keep (hn : old.Nodup)
    (h : ∀ handles : Handles, (∀ id ∈ old, id ∈ handles.mounted) →
      handles.hearAll? events = some handles) : Handover lo lo old old events where
  le := Nat.le_refl lo
  nodup := hn
  source _ hid := .inl hid
  heard _ ever _ _ hever :=
    ⟨ever, h _ fun _ hid => Finset.mem_union_right _ (List.mem_toFinset.2 hid), hever⟩

theorem refl (lo : Nat) (hn : old.Nodup) : Handover lo lo old old [] :=
  keep hn fun _ _ => rfl

theorem trans (h : Handover lo mid old between events) (h' : Handover mid hi between new events') :
    Handover lo hi old new (events ++ events') := by
  have hle := h.le
  have hle' := h'.le
  refine ⟨by omega, h'.nodup, fun id hid => ?_, fun others ever ha hlt hever => ?_⟩
  · rcases h'.source id hid with hid | hid
    · rcases h.source id hid with hid | hid
      · exact .inl hid
      · exact .inr (by omega)
    · exact .inr (by omega)
  · obtain ⟨ever₁, hheard, hever₁⟩ := h.heard others ever ha hlt hever
    obtain ⟨ever₂, hheard', hever₂⟩ := h'.heard others ever₁ (h.apart ha hlt)
      (fun id hid => Nat.lt_of_lt_of_le (hlt id hid) hle) hever₁
    exact ⟨ever₂, hearAll?_append hheard hheard', hever₂⟩

/-- Ids that the events have nothing to do with stay as they are. -/
theorem frame (hf : Fresh first lo (old ++ kept)) (h : Handover lo hi old new events) :
    Handover lo hi (old ++ kept) (new ++ kept) events := by
  obtain ⟨-, hkept, hd⟩ := List.nodup_append'.1 hf.nodup
  have hlt : ∀ id ∈ kept.toFinset, id < lo := fun id hid =>
    (hf.within id (List.mem_append_right _ (List.mem_toFinset.1 hid))).2
  have hapart : ∀ id ∈ old, id ∉ kept.toFinset := fun id hid hid' =>
    hd hid (List.mem_toFinset.1 hid')
  refine ⟨h.le, ?_, fun id hid => ?_, fun others ever ha hothers hever => ?_⟩
  · refine h.nodup.append hkept fun id hid hid' => ?_
    exact h.apart hapart hlt id hid (List.mem_toFinset.2 hid')
  · rw [List.mem_append] at hid ⊢
    rcases hid with hid | hid
    · exact (h.source id hid).imp_left .inl
    · exact .inl (.inr hid)
  · rw [List.forall_mem_append] at ha
    have hbeside : ∀ id ∈ old, id ∉ others ∪ kept.toFinset := fun id hid =>
      Finset.notMem_union.2 ⟨ha.1 id hid, hapart id hid⟩
    have hbelow : ∀ id ∈ others ∪ kept.toFinset, id < lo :=
      Finset.forall_mem_union.2 ⟨hothers, hlt⟩
    obtain ⟨ever', hheard, hever'⟩ := h.heard _ ever hbeside hbelow hever
    refine ⟨ever', ?_, hever'⟩
    rwa [List.toFinset_append, List.toFinset_append, Finset.union_comm old.toFinset,
      Finset.union_comm new.toFinset, ← Finset.union_assoc, ← Finset.union_assoc]

theorem perm (h : Handover lo hi old new events) (hold : old.Perm old') (hnew : new.Perm new') :
    Handover lo hi old' new' events := by
  refine ⟨h.le, hnew.nodup_iff.1 h.nodup, fun id hid => ?_, fun others ever ha hlt hever => ?_⟩
  · rw [← hnew.mem_iff] at hid
    rw [← hold.mem_iff]
    exact h.source id hid
  · rw [← List.toFinset_eq_of_perm _ _ hold, ← List.toFinset_eq_of_perm _ _ hnew]
    exact h.heard others ever (fun id hid => ha id (hold.mem_iff.1 hid)) hlt hever

theorem frame_left (hf : Fresh first lo (kept ++ old)) (h : Handover lo hi old new events) :
    Handover lo hi (kept ++ old) (kept ++ new) events :=
  (h.frame (hf.perm List.perm_append_comm)).perm List.perm_append_comm List.perm_append_comm

theorem append (hf : Fresh first lo (old ++ old')) (h : Handover lo mid old new events)
    (h' : Handover mid hi old' new' events') :
    Handover lo hi (old ++ old') (new ++ new') (events ++ events') := by
  have hframe := h.frame hf
  exact hframe.trans (h'.frame_left (hframe.fresh hf))

theorem unmounts (lo : Nat) {nodes : List Node} (hn : (Node.idsOf nodes).Nodup) :
    Handover lo lo (Node.idsOf nodes) [] (nodes.map SinkEvent.unmount) where
  le := Nat.le_refl lo
  nodup := .nil
  source := List.forall_mem_nil _
  heard others ever ha _ hever := by
    refine ⟨ever, ?_, hever⟩
    rw [List.toFinset_nil, Finset.union_empty]
    exact hearAll?_unmounts hn ha

theorem mounts {parent : Nat} {nodes : List Node} (hp : parent < lo)
    (hf : Fresh lo hi (Node.idsOf nodes)) :
    Handover lo hi [parent] ([parent] ++ Node.idsOf nodes)
      (nodes.map (SinkEvent.mount (some parent))) := by
  refine ⟨hf.le, ?_, fun id hid => ?_, fun others ever _ _ hever => ?_⟩
  · refine List.nodup_cons.2 ⟨fun hid => ?_, hf.nodup⟩
    exact Nat.not_lt.2 (hf.within parent hid).1 hp
  · exact (List.mem_append.1 hid).imp_right (hf.within id)
  · have hnew : ∀ id ∈ Node.idsOf nodes, id ∉ ever := fun id hid he =>
      Nat.not_lt.2 (hf.within id hid).1 (hever id he)
    have hmem : parent ∈ others ∪ [parent].toFinset :=
      Finset.mem_union_right _ (List.mem_toFinset.2 List.mem_cons_self)
    refine ⟨ever ∪ (Node.idsOf nodes).toFinset, ?_, Finset.forall_mem_union.2 ⟨?_, ?_⟩⟩
    · rw [List.toFinset_append, ← Finset.union_assoc]
      exact hearAll?_mounts hmem hf.nodup hnew
    · exact fun id hid => Nat.lt_of_lt_of_le (hever id hid) hf.le
    · exact fun id hid => (hf.within id (List.mem_toFinset.1 hid)).2

theorem replace {id : Nat} {nodes nodes' : List Node}
    (hf : Fresh first lo ([id] ++ Node.idsOf nodes)) (hf' : Fresh lo hi (Node.idsOf nodes')) :
    Handover lo hi ([id] ++ Node.idsOf nodes) ([id] ++ Node.idsOf nodes')
      (nodes.map SinkEvent.unmount ++ nodes'.map (SinkEvent.mount (some id))) := by
  obtain ⟨-, hn, -⟩ := List.nodup_append'.1 hf.nodup
  have hid := (hf.within id (List.mem_append_left _ List.mem_cons_self)).2
  exact ((unmounts lo hn).frame_left hf).trans (mounts hid hf')

end Handover

end Notebook
