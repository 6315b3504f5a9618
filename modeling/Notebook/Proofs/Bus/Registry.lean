import Mathlib.Data.List.Induction
import Notebook.Proofs.Bus.Dispatch

/-! # Listeners come and go once

A listener is registered from its subscription until it is unsubscribed, whether or not a dispatch
has taken it out of the list meanwhile. The history of a run has each subscription, each request to
unsubscribe with its answer and each call of a listener, and after it exactly those are listed that
came and have not gone.
-/

namespace Notebook.Bus

inductive Event (κ : Type) where
  | subscribed (l : Listener κ)
  | unsubscribed (id : ListenerId) (answer : Bool)
  | called (l : Listener κ)

abbrev History (κ : Type) := List (Event κ)

variable {κ σ : Type}

namespace Event

def subscriber? : Event κ → Option (Listener κ)
  | subscribed l => some l
  | _ => none

def removes (id : ListenerId) : Event κ → Bool
  | unsubscribed other answer => answer && other = id
  | _ => false

end Event

def Exchange.event? : Exchange κ → Option (Event κ)
  | subscribe l => some (.subscribed l)
  | unsubscribe id answer => some (.unsubscribed id answer)
  | _ => none

def Call.history (c : Call κ) : History κ :=
  .called c.listener :: c.exchanges.filterMap Exchange.event?

/-- The stages between two operations from outside, with the history of listeners. A flush adds
what has happened in the calls that it made. -/
inductive Recorded : History κ → Stage κ σ → Prop
  | new (rest : σ) : Recorded [] { bus := {}, rest }
  | other {es : History κ} {w : Stage κ σ} (h : Recorded es w) (rest : σ) :
      Recorded es { w with rest }
  | enqueue {es : History κ} {w : Stage κ σ} (h : Recorded es w) (title : Title)
      (kind : ChangeKind) : Recorded es { w with bus := w.bus.enqueue title kind }
  | clear {es : History κ} {w : Stage κ σ} (h : Recorded es w) :
      Recorded es { w with bus := w.bus.clear }
  | subscribe {es : History κ} {w : Stage κ σ} (h : Recorded es w) (filter : EventFilter)
      (callback : κ) :
      Recorded (es ++ [.subscribed ⟨(w.bus.subscribe filter callback).1, filter, callback⟩])
        { w with bus := (w.bus.subscribe filter callback).2 }
  | unsubscribe {es : History κ} {w : Stage κ σ} (h : Recorded es w) (id : ListenerId) :
      Recorded (es ++ [.unsubscribed id (w.bus.unsubscribe id).1])
        { w with bus := (w.bus.unsubscribe id).2 }
  | flush {es : History κ} {w w' : Stage κ σ} {batch : Batch} (h : Recorded es w)
      (behaviour : Behaviour κ σ) (inner : Inner κ σ)
      (hf : Bus.flush Stage.access (invoke behaviour inner) w = (batch, w')) :
      Recorded (es ++ (w'.calls.drop w.calls.length).flatMap Call.history) w'

namespace History

def subscribed (es : History κ) : List (Listener κ) :=
  es.filterMap Event.subscriber?

def removed (es : History κ) (id : ListenerId) : Bool :=
  es.any (Event.removes id)

/-- The listeners that came and have not gone. -/
def roster (es : History κ) : List (Listener κ) :=
  es.subscribed.filter fun l => !es.removed l.id

end History

/-- The event can come after the history: ids are new, a request to unsubscribe is granted if
there is such a listener at the time, and only listeners that are there are called. -/
def Event.Follows (es : History κ) : Event κ → Prop
  | subscribed l => ∀ l' ∈ es.subscribed, l'.id ≠ l.id
  | unsubscribed id answer =>
    answer = true ↔ (∃ l ∈ es.subscribed, l.id = id) ∧ es.removed id = false
  | called l => l ∈ es.subscribed ∧ es.removed l.id = false

namespace History

/-- Every event can come after those before it. -/
def IsTrue (es : History κ) : Prop :=
  ∀ before e after, es = before ++ e :: after → e.Follows before

theorem IsTrue.concat {es : History κ} {e : Event κ} (h : es.IsTrue) (he : e.Follows es) :
    IsTrue (es ++ [e]) :=
  forall_concat_splits h he

theorem IsTrue.of_concat {es : History κ} {e : Event κ} (h : IsTrue (es ++ [e])) :
    es.IsTrue ∧ e.Follows es := by
  refine ⟨fun before e' after heq => ?_, h es e [] rfl⟩
  exact h before e' (after ++ [e]) (by rw [heq, List.append_assoc, List.cons_append])

theorem subscribed_append (es es' : History κ) :
    subscribed (es ++ es') = es.subscribed ++ es'.subscribed :=
  List.filterMap_append

theorem removed_append (es es' : History κ) (id : ListenerId) :
    removed (es ++ es') id = (es.removed id || es'.removed id) :=
  List.any_append

variable {es : History κ} {id : ListenerId}

theorem mem_roster {l : Listener κ} :
    l ∈ es.roster ↔ l ∈ es.subscribed ∧ es.removed l.id = false := by
  simp [roster]

theorem exists_mem_roster :
    (∃ l ∈ es.roster, l.id = id) ↔ (∃ l ∈ es.subscribed, l.id = id) ∧ es.removed id = false := by
  constructor
  · rintro ⟨l, hl, rfl⟩
    obtain ⟨hs, hr⟩ := mem_roster.1 hl
    exact ⟨⟨l, hs, rfl⟩, hr⟩
  · rintro ⟨⟨l, hl, rfl⟩, hr⟩
    exact ⟨l, mem_roster.2 ⟨hl, hr⟩, rfl⟩

theorem removed_iff : es.removed id = true ↔ .unsubscribed id true ∈ es := by
  rw [removed, List.any_eq_true]
  constructor
  · rintro ⟨e, he, hr⟩
    cases e with
    | unsubscribed other answer =>
      simp only [Event.removes, Bool.and_eq_true, decide_eq_true_eq] at hr
      obtain ⟨rfl, rfl⟩ := hr
      exact he
    | _ => cases hr
  · intro he
    exact ⟨_, he, by simp [Event.removes]⟩

theorem IsTrue.exists_of_removed (h : es.IsTrue) (hr : es.removed id = true) :
    ∃ l ∈ es.subscribed, l.id = id := by
  obtain ⟨before, after, rfl⟩ := List.append_of_mem (removed_iff.1 hr)
  obtain ⟨⟨l, hl, hid⟩, -⟩ := (h before _ after rfl).1 rfl
  refine ⟨l, ?_, hid⟩
  rw [subscribed_append]
  exact List.mem_append_left _ hl

theorem subscribed_concat_of_none {e : Event κ} (he : e.subscriber? = none) :
    subscribed (es ++ [e]) = es.subscribed := by
  rw [subscribed_append]
  simp [subscribed, he]

theorem removed_concat (e : Event κ) (id : ListenerId) :
    removed (es ++ [e]) id = (es.removed id || e.removes id) := by
  rw [removed_append]
  exact congrArg _ (Bool.or_false _)

theorem roster_subscribed {l : Listener κ} (hl : es.removed l.id = false) :
    roster (es ++ [.subscribed l]) = es.roster ++ [l] := by
  have hs : subscribed (es ++ [.subscribed l]) = es.subscribed ++ [l] := subscribed_append ..
  have hr : ∀ id, removed (es ++ [.subscribed l]) id = es.removed id := fun id =>
    (removed_concat _ id).trans (Bool.or_false _)
  simp only [roster, hr, hs, List.filter_append]
  rw [List.filter_cons_of_pos (by simpa using hl), List.filter_nil]

theorem roster_called (l : Listener κ) : roster (es ++ [.called l]) = es.roster := by
  have hr : ∀ id, removed (es ++ [.called l]) id = es.removed id := fun id =>
    (removed_concat _ id).trans (Bool.or_false _)
  have hs : subscribed (es ++ [.called l]) = es.subscribed := subscribed_concat_of_none rfl
  simp only [roster, hr, hs]

theorem roster_unsubscribed {answer : Bool}
    (ha : answer = true ↔ ∃ l ∈ es.roster, l.id = id) :
    roster (es ++ [.unsubscribed id answer]) = es.roster.filter (·.id ≠ id) := by
  have hs : subscribed (es ++ [.unsubscribed id answer]) = es.subscribed :=
    subscribed_concat_of_none rfl
  simp only [roster, hs, removed_concat, List.filter_filter]
  refine List.filter_congr fun l hl => ?_
  by_cases hid : l.id = id
  · cases answer with
    | true => simp [Event.removes, hid]
    | false =>
      have hgone : es.removed l.id = true := by
        by_contra hn
        exact Bool.false_ne_true (ha.2 ⟨l, mem_roster.2 ⟨hl, by simpa using hn⟩, hid⟩)
      simp [hid, hid ▸ hgone]
  · simp [Event.removes, hid, Ne.symm hid]

theorem roster_append_prefix (es es' : History κ) :
    (es.roster.filter fun l => !es'.removed l.id) <+: roster (es ++ es') := by
  have hstay : (es.roster.filter fun l => !es'.removed l.id) =
      es.subscribed.filter fun l => !removed (es ++ es') l.id := by
    rw [roster, List.filter_filter]
    refine List.filter_congr fun l _ => ?_
    rw [removed_append, Bool.not_or, Bool.and_comm]
  rw [hstay, roster, subscribed_append, List.filter_append]
  exact List.prefix_append ..

theorem IsTrue.nodup (h : es.IsTrue) : (es.subscribed.map Listener.id).Nodup := by
  induction es using List.reverseRecOn with
  | nil => exact List.nodup_nil
  | append_singleton es e ih =>
    obtain ⟨hes, he⟩ := h.of_concat
    rw [subscribed_append, List.map_append, List.nodup_append]
    refine ⟨ih hes, ?_, fun id hid id' hid' => ?_⟩
    · cases e with
      | subscribed l => exact List.pairwise_singleton ..
      | _ => exact List.nodup_nil
    · cases e with
      | subscribed l =>
        obtain rfl := List.mem_singleton.1 hid'
        obtain ⟨l', hl', rfl⟩ := List.mem_map.1 hid
        exact he l' hl'
      | _ => cases hid'

theorem IsTrue.countP_removes_le (h : es.IsTrue) (id : ListenerId) :
    es.countP (Event.removes id) ≤ 1 := by
  induction es using List.reverseRecOn with
  | nil => exact Nat.zero_le _
  | append_singleton es e ih =>
    obtain ⟨hes, he⟩ := h.of_concat
    rw [List.countP_append, List.countP_singleton]
    split
    · next hr =>
      cases e with
      | unsubscribed other answer =>
        simp only [Event.removes, Bool.and_eq_true, decide_eq_true_eq] at hr
        obtain ⟨rfl, rfl⟩ := hr
        have hnone : es.any (Event.removes other) = false := (he.1 rfl).2
        rw [List.any_eq_false] at hnone
        exact Nat.le_of_eq (by rw [List.countP_eq_zero.2 hnone])
      | _ => cases hr
    · exact ih hes

end History

/-- The listeners of a dispatch are told apart by their ids from those in the list. -/
structure Parted (old : List (Listener κ)) (bus : Bus κ) : Prop where
  checkedOut : bus.checkedOut = old.map Listener.id
  apart : ∀ l ∈ old, ∀ l' ∈ bus.listeners, l.id ≠ l'.id

theorem During.parted {old : List (Listener κ)} {first : ListenerId} {ds : List (Exchange κ)}
    {bus : Bus κ} (h : During old first ds bus) (hold : ∀ l ∈ old, l.id < first) :
    Parted old bus where
  checkedOut := h.checkedOut
  apart l hl l' hl' := Nat.ne_of_lt (Nat.lt_of_lt_of_le (hold l hl) (h.new l' hl'))

theorem Idle.parted {bus : Bus κ} (h : Idle bus) : Parted [] bus where
  checkedOut := h.checkedOut
  apart := by simp

theorem Parted.unsubscribe {old : List (Listener κ)} {bus : Bus κ} (h : Parted old bus)
    (id : ListenerId) :
    ((bus.unsubscribe id).1 = true ↔ ∃ l ∈ (bus.checkIn old).listeners, l.id = id) ∧
      ((bus.unsubscribe id).2.checkIn old).listeners =
        (bus.checkIn old).listeners.filter (·.id ≠ id) := by
  by_cases hnew : bus.listeners.any (·.id = id)
  · have hb : bus.unsubscribe id =
        (true, { bus with listeners := bus.listeners.filter (·.id ≠ id) }) := if_pos hnew
    obtain ⟨l', hl', hid⟩ := List.any_eq_true.1 hnew
    rw [decide_eq_true_eq] at hid
    have hold : ∀ l ∈ old, l.id ≠ id := fun l hl => hid ▸ h.apart l hl l' hl'
    rw [hb]
    refine ⟨iff_of_true rfl ⟨l', List.mem_append_right _ hl', hid⟩, ?_⟩
    simp only [checkIn, List.filter_append, List.filter_filter]
    congr 1
    refine List.filter_congr fun l hl => ?_
    simp [hold l hl]
  · have hother : ∀ l ∈ bus.listeners, l.id ≠ id := by
      intro l hl hid
      exact hnew (List.any_eq_true.2 ⟨l, hl, decide_eq_true hid⟩)
    have hfilter : bus.listeners.filter (·.id ≠ id) = bus.listeners := by
      rw [List.filter_eq_self]
      exact fun l hl => decide_eq_true (hother l hl)
    by_cases hmark : bus.checkedOut.contains id && !bus.removed.contains id
    · have hb : bus.unsubscribe id = (true, { bus with removed := id :: bus.removed }) := by
        rw [Bus.unsubscribe, if_neg hnew, if_pos hmark]
      rw [Bool.and_eq_true, Bool.not_eq_true', h.checkedOut] at hmark
      obtain ⟨l, hl, hid⟩ := List.mem_map.1 (List.contains_iff_mem.1 hmark.1)
      rw [hb]
      refine ⟨iff_of_true rfl ⟨l, List.mem_append_left _ (List.mem_filter.2 ⟨hl, ?_⟩), hid⟩, ?_⟩
      · rw [hid, hmark.2]
        rfl
      · simp only [checkIn, List.filter_append, List.filter_filter, hfilter]
        congr 1
        refine List.filter_congr fun l hl => ?_
        by_cases hid : l.id = id <;> simp [hid]
    · have hb : bus.unsubscribe id = (false, bus) := by
        rw [Bus.unsubscribe, if_neg hnew, if_neg hmark]
      have hgone : ∀ l ∈ (bus.checkIn old).listeners, l.id ≠ id := by
        intro l hl hid
        rcases List.mem_append.1 hl with hl | hl
        · obtain ⟨hl, hr⟩ := List.mem_filter.1 hl
          have hout : bus.checkedOut.contains id := by
            rw [h.checkedOut, List.contains_iff_mem, ← hid]
            exact List.mem_map_of_mem hl
          exact hmark (by rw [hout, ← hid]; exact hr)
        · exact hother l hl hid
      rw [hb]
      refine ⟨iff_of_false Bool.false_ne_true ?_, ?_⟩
      · rintro ⟨l, hl, hid⟩
        exact hgone l hl hid
      · exact (List.filter_eq_self.2 fun l hl => decide_eq_true (hgone l hl)).symm

/-- The history is true, and its listeners are those that would be listed if the dispatch for
`old` ended now. -/
structure Tells (old : List (Listener κ)) (es : History κ) (bus : Bus κ) : Prop where
  isTrue : es.IsTrue
  roster : (bus.checkIn old).listeners = es.roster
  below : ∀ l ∈ es.subscribed, l.id < bus.nextId

namespace Tells

variable {old : List (Listener κ)} {es : History κ} {bus bus' : Bus κ}

theorem of_pending (h : Tells old es bus) (hb : bus' = { bus with pending := bus'.pending }) :
    Tells old es bus' := by
  rw [hb]
  exact ⟨h.isTrue, h.roster, h.below⟩

theorem subscribe (h : Tells old es bus) (filter : EventFilter) (callback : κ) :
    Tells old (es ++ [.subscribed ⟨bus.nextId, filter, callback⟩])
      (bus.subscribe filter callback).2 := by
  have hnew : ∀ l ∈ es.subscribed, l.id ≠ bus.nextId := fun l hl => Nat.ne_of_lt (h.below l hl)
  have hr : es.removed bus.nextId = false := by
    by_contra hr
    obtain ⟨l, hl, hid⟩ := h.isTrue.exists_of_removed (by simpa using hr)
    exact hnew l hl hid
  refine ⟨h.isTrue.concat hnew, ?_, fun l hl => ?_⟩
  · rw [History.roster_subscribed hr, ← h.roster]
    exact (List.append_assoc ..).symm
  · rw [History.subscribed_append] at hl
    rcases List.mem_append.1 hl with hl | hl
    · exact Nat.lt_succ_of_lt (h.below l hl)
    · rw [List.mem_singleton.1 hl]
      exact Nat.lt_succ_self _

theorem nextId_unsubscribe (bus : Bus κ) (id : ListenerId) :
    (bus.unsubscribe id).2.nextId = bus.nextId := by
  unfold Bus.unsubscribe
  split
  · rfl
  · split <;> rfl

theorem unsubscribe (h : Tells old es bus) (hp : Parted old bus) (id : ListenerId) :
    Tells old (es ++ [.unsubscribed id (bus.unsubscribe id).1]) (bus.unsubscribe id).2 := by
  obtain ⟨hanswer, hlisteners⟩ := hp.unsubscribe id
  rw [h.roster] at hanswer hlisteners
  refine ⟨h.isTrue.concat (hanswer.trans History.exists_mem_roster), ?_, fun l hl => ?_⟩
  · rw [hlisteners, History.roster_unsubscribed hanswer]
  · rw [nextId_unsubscribe]
    rw [History.subscribed_concat_of_none rfl] at hl
    exact h.below l hl

theorem called (h : Tells old es bus) {l : Listener κ} (hl : l ∈ (bus.checkIn old).listeners) :
    Tells old (es ++ [.called l]) bus := by
  rw [h.roster] at hl
  refine ⟨h.isTrue.concat (History.mem_roster.1 hl), ?_, fun l' hl' => ?_⟩
  · rw [h.roster, History.roster_called]
  · rw [History.subscribed_concat_of_none rfl] at hl'
    exact h.below l' hl'

theorem react {first : ListenerId} {xs : List (Exchange κ)} {w : Stage κ σ} (inner : Inner κ σ)
    (hold : ∀ l ∈ old, l.id < first) (r : Reaction κ σ) (hd : During old first xs w.bus)
    (h : Tells old es w.bus) :
    Tells old (es ++ (react inner r w).2.1.filterMap Exchange.event?)
      (react inner r w).2.2.bus := by
  induction r generalizing es xs w with
  | done outcome rest => simpa [Bus.react] using h
  | look next ih => exact ih w.bus hd h
  | enqueue title kind next ih =>
    exact ih (w := { w with bus := _ }) (hd.enqueue title kind) (h.of_pending rfl)
  | clear next ih => exact ih (w := { w with bus := _ }) hd.clear (h.of_pending rfl)
  | subscribe filter callback next ih =>
    have hnext := ih w.bus.nextId (w := { w with bus := _ }) (hd.subscribe filter callback)
      (h.subscribe filter callback)
    rwa [List.append_assoc] at hnext
  | unsubscribe id next ih =>
    have hnext := ih (w.bus.unsubscribe id).1 (w := { w with bus := _ }) (hd.unsubscribe hold id)
      (h.unsubscribe (hd.parted hold) id)
    rwa [List.append_assoc] at hnext
  | flush next ih =>
    simp only [Bus.react, flush_of_dispatching inner hd.dispatching]
    exact ih ∅ (hd.flush ∅ w.bus.pending w.bus.pending) h

theorem turn {first : ListenerId} {xs : List (Exchange κ)} {w : Stage κ σ}
    (behaviour : Behaviour κ σ) (inner : Inner κ σ) (hold : ∀ l ∈ old, l.id < first)
    (hd : During old first xs w.bus) (h : Tells old es w.bus) {l : Listener κ} (hl : l ∈ old)
    (hr : w.bus.removed.contains l.id = false) (batch : Batch) :
    ∃ c, (invoke behaviour inner l batch w).calls = w.calls ++ [c] ∧
      During old first (xs ++ c.exchanges) (invoke behaviour inner l batch w).bus ∧
      Tells old (es ++ c.history) (invoke behaviour inner l batch w).bus := by
  have hlisted : l ∈ (w.bus.checkIn old).listeners :=
    List.mem_append_left _ (List.mem_filter.2 ⟨hl, by rw [hr, Bool.not_false]⟩)
  have htells := (h.called hlisted).react inner hold (behaviour l batch w.rest) hd
  obtain ⟨c, rfl, -, hexchanges, hcalls, hduring⟩ :=
    invoke_spec behaviour inner hold hd l batch
  rw [← hexchanges, List.append_assoc] at htells
  exact ⟨c, hcalls, hduring, htells⟩

theorem dispatch {first : ListenerId} {xs : List (Exchange κ)} {w : Stage κ σ}
    (behaviour : Behaviour κ σ) (inner : Inner κ σ) (batch : Batch)
    (hold : ∀ l ∈ old, l.id < first) (todo : List (Listener κ)) (htodo : ∀ l ∈ todo, l ∈ old)
    (hd : During old first xs w.bus) (h : Tells old es w.bus) :
    ∃ calls, (dispatch Stage.access (invoke behaviour inner) batch todo w).calls =
        w.calls ++ calls ∧
      Tells old (es ++ calls.flatMap Call.history)
        (dispatch Stage.access (invoke behaviour inner) batch todo w).bus := by
  induction todo generalizing es xs w with
  | nil => exact ⟨[], (List.append_nil _).symm, by simpa [Bus.dispatch] using h⟩
  | cons l todo ih =>
    obtain ⟨hl, hrest⟩ := List.forall_mem_cons.1 htodo
    unfold Bus.dispatch
    split
    · exact ih hrest hd h
    · next hcall =>
      rw [Bool.or_eq_true, not_or, Bool.not_eq_true] at hcall
      obtain ⟨c, hc, hd, hturn⟩ := h.turn behaviour inner hold hd hl hcall.1 batch
      obtain ⟨calls, hcalls, hnext⟩ := ih hrest hd hturn
      refine ⟨c :: calls, ?_, ?_⟩
      · rw [hcalls, hc, List.append_assoc, List.singleton_append]
      · rwa [List.append_assoc] at hnext

theorem checkOut (h : Tells [] es bus) (hi : Idle bus) : Tells bus.listeners es bus.checkOut := by
  refine ⟨h.isTrue, ?_, h.below⟩
  rw [← h.roster]
  simp [Bus.checkIn, Bus.checkOut, hi.removed]

theorem checkIn (h : Tells old es bus) : Tells [] es (bus.checkIn old) :=
  ⟨h.isTrue, h.roster, h.below⟩

theorem flush {w w' : Stage κ σ} {batch : Batch} (h : Tells [] es w.bus) (hi : Idle w.bus)
    (behaviour : Behaviour κ σ) (inner : Inner κ σ)
    (hf : Bus.flush Stage.access (invoke behaviour inner) w = (batch, w')) :
    Tells [] (es ++ (w'.calls.drop w.calls.length).flatMap Call.history) w'.bus := by
  cases hp : w.bus.pending.isEmpty with
  | true =>
    rw [flush_of_isEmpty hp] at hf
    cases hf
    simpa using h
  | false =>
    rw [hi.flush_eq hp] at hf
    cases hf
    obtain ⟨calls, hcalls, hnext⟩ := Tells.dispatch (w := { w with bus := w.bus.checkOut })
      behaviour inner w.bus.pending hi.below w.bus.listeners (fun _ hl => hl) hi.during_checkOut
      (h.checkOut hi)
    have hdrop : (w.calls ++ calls).drop w.calls.length = calls := List.drop_left
    rw [← hcalls] at hdrop
    rw [← hdrop] at hnext
    exact hnext.checkIn

end Tells

variable {es : History κ} {w : Stage κ σ}

theorem Recorded.reachable (h : Recorded es w) : Reachable w := by
  induction h with
  | new rest => exact .new rest
  | other _ rest ih => exact ih.other rest
  | enqueue _ title kind ih => exact ih.enqueue title kind
  | clear _ ih => exact ih.clear
  | subscribe _ filter callback ih => exact ih.subscribe filter callback
  | unsubscribe _ id ih => exact ih.unsubscribe id
  | flush _ behaviour inner hf ih =>
    have hflush := ih.flush behaviour inner
    rwa [hf] at hflush

theorem Reachable.exists_recorded (h : Reachable w) : ∃ es, Recorded es w := by
  induction h with
  | new rest => exact ⟨_, .new rest⟩
  | other _ rest ih => exact ih.imp fun _ h => h.other rest
  | enqueue _ title kind ih => exact ih.imp fun _ h => h.enqueue title kind
  | clear _ ih => exact ih.imp fun _ h => h.clear
  | subscribe _ filter callback ih =>
    obtain ⟨es, h⟩ := ih
    exact ⟨_, h.subscribe filter callback⟩
  | unsubscribe _ id ih =>
    obtain ⟨es, h⟩ := ih
    exact ⟨_, h.unsubscribe id⟩
  | flush _ behaviour inner ih =>
    obtain ⟨es, h⟩ := ih
    exact ⟨_, h.flush behaviour inner rfl⟩

theorem Recorded.tells (h : Recorded es w) : Tells [] es w.bus := by
  induction h with
  | new rest => exact ⟨by simp [History.IsTrue], rfl, by simp [History.subscribed]⟩
  | other _ _ ih => exact ih
  | enqueue _ _ _ ih => exact ih.of_pending rfl
  | clear _ ih => exact ih.of_pending rfl
  | subscribe _ filter callback ih => exact ih.subscribe filter callback
  | unsubscribe h id ih => exact ih.unsubscribe h.reachable.idle.parted id
  | flush h behaviour inner hf ih => exact ih.flush h.reachable.idle behaviour inner hf

/-- The life of listeners in a history that has led to a stage. -/
structure Lifecycle (es : History κ) (w : Stage κ σ) : Prop where
  distinct : (es.subscribed.map Listener.id).Nodup
  /-- A request to unsubscribe is granted if the listener has come and has not gone before. -/
  granted : ∀ before id answer after, es = before ++ .unsubscribed id answer :: after →
    (answer = true ↔ (∃ l, .subscribed l ∈ before ∧ l.id = id) ∧ .unsubscribed id true ∉ before)
  once : ∀ id, es.countP (Event.removes id) ≤ 1
  /-- Only listeners that have come are called, and none that has gone. -/
  called : ∀ before l after, es = before ++ .called l :: after →
    .subscribed l ∈ before ∧ .unsubscribed l.id true ∉ before
  listed : w.bus.listeners = es.roster
  /-- Whoever does not go during a flush is listed after it, in the same order. -/
  stays : ∀ (behaviour : Behaviour κ σ) (inner : Inner κ σ) batch w',
    Bus.flush Stage.access (invoke behaviour inner) w = (batch, w') →
      (w.bus.listeners.filter fun l =>
        !History.removed ((w'.calls.drop w.calls.length).flatMap Call.history) l.id) <+:
          w'.bus.listeners

theorem History.mem_subscribed {l : Listener κ} : l ∈ es.subscribed ↔ .subscribed l ∈ es := by
  rw [subscribed, List.mem_filterMap]
  constructor
  · rintro ⟨e, he, hl⟩
    cases e with
    | subscribed l' => exact Option.some.inj hl ▸ he
    | _ => cases hl
  · exact fun h => ⟨_, h, rfl⟩

theorem Recorded.lifecycle (h : Recorded es w) : Lifecycle es w where
  distinct := h.tells.isTrue.nodup
  granted before id answer after heq := by
    have hanswer := h.tells.isTrue before _ after heq
    rw [Event.Follows, ← Bool.not_eq_true, History.removed_iff] at hanswer
    simpa only [History.mem_subscribed] using hanswer
  once := h.tells.isTrue.countP_removes_le
  called before l after heq := by
    have hcalled := h.tells.isTrue before _ after heq
    rwa [Event.Follows, ← Bool.not_eq_true, History.removed_iff, History.mem_subscribed] at hcalled
  listed := h.tells.roster
  stays behaviour inner batch w' hf := by
    have hbefore : w.bus.listeners = es.roster := h.tells.roster
    have hafter : w'.bus.listeners = _ := (h.flush behaviour inner hf).tells.roster
    rw [hbefore, hafter]
    exact History.roster_append_prefix ..

/-- Every run has a history, whatever listeners do when they are called, and in every history each
listener lives once: from its subscription until a request to unsubscribe it is granted. -/
theorem recorded_lifecycle (κ σ : Type) :
    (∀ w : Stage κ σ, Reachable w ↔ ∃ es, Recorded es w) ∧
      ∀ (es : History κ) (w : Stage κ σ), Recorded es w → Lifecycle es w :=
  ⟨fun _ => ⟨Reachable.exists_recorded, fun ⟨_, h⟩ => h.reachable⟩, fun _ _ h => h.lifecycle⟩

theorem recorded_lifecycle_relieved :
    Lifecycle
      [.subscribed ⟨1, .all, ()⟩, .called ⟨1, .all, ()⟩, .unsubscribed 1 true,
        .subscribed ⟨2, .all, ()⟩]
      (Bus.flush Stage.access (invoke relieved noInner) attended).2 := by
  have h : Recorded [.subscribed ⟨1, .all, ()⟩] attended :=
    ((Recorded.new ()).subscribe .all ()).enqueue "a" .added
  exact (recorded_lifecycle Unit Unit).2 _ _ (h.flush relieved noInner rfl)

end Notebook.Bus
