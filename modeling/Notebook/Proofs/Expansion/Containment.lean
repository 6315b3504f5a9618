import Mathlib.Data.List.Forall2
import Notebook.Proofs.Expansion.Indifference

/-! # Failures stay where they are

A call that fails is an error in the place of its content, whatever it has expanded before. All
else is what it would be without the failure, and an expansion comes to an end if the macros do.
-/

namespace Notebook

mutual

/-- What a call has read and its content, once it has been expanded. -/
inductive Env.Settles (env : Env) : Context → Call → Reads → List Node → Prop
  | unknown {context : Context} {c : Call} (hm : env.macros.get? c.name = none) :
      Settles env context c .none [.error (.unknownMacro c.name)]
  | unbound {context : Context} {c : Call} {m : Macro} {e : RenderError}
      (hm : env.macros.get? c.name = some m) (hb : m.bindCall c = .error e) :
      Settles env context c .none [.error e]
  | returned {context : Context} {c : Call} {m : Macro} {b : Binding Call} {read : Reads}
      {texts : List String} {e : RenderError} (hb : env.scene.Bound c m b)
      (ht : SettlesTexts env context b.calls read texts)
      (he : env.Executes m (b.withTexts texts) context (.error (.error e))) :
      Settles env context c ((m.ownReads b context).merge read) [.error e]
  | panicked {context : Context} {c : Call} {m : Macro} {b : Binding Call} {read : Reads}
      {texts : List String} {message : Option String} (hb : env.scene.Bound c m b)
      (ht : SettlesTexts env context b.calls read texts)
      (he : env.Executes m (b.withTexts texts) context (.error (.panic message))) :
      Settles env context c ((m.ownReads b context).merge read)
        [.error (.macroFailed c.name (message.getD "macro panicked"))]
  | done {context : Context} {c : Call} {m : Macro} {b : Binding Call} {read : Reads}
      {texts : List String} {nodes : List Node} {next : NodeId} (hb : env.scene.Bound c m b)
      (ht : SettlesTexts env context b.calls read texts)
      (he : env.Executes m (b.withTexts texts) context (.ok nodes)) :
      Settles env context c ((m.ownReads b context).merge read) (Node.assignList next nodes).1

inductive Env.SettlesTexts (env : Env) : Context → List Call → Reads → List String → Prop
  | nil {context : Context} : SettlesTexts env context [] .none []
  | cons {context : Context} {c : Call} {cs : List Call} {reads rest : Reads}
      {content : List Node} {texts : List String} (h : Settles env context c reads content)
      (ht : SettlesTexts env context cs rest texts) :
      SettlesTexts env context (c :: cs) (reads.merge rest)
        (Node.plainTextList content :: texts)

end

mutual

/-- What becomes of a node: ids that are there stay, and only calls get new content. -/
inductive Env.Fills (env : Env) (context : Context) : Node → Node → Prop
  | text {s : String} : Fills env context (.text s) (.text s)
  | error {e : RenderError} : Fills env context (.error e) (.error e)
  | element {id : Option NodeId} {n : NodeId} {tag : String} {attributes : Attributes}
      {children filled : List Node} (hid : ∀ i, id = some i → n = i)
      (h : FillsList env context children filled) :
      Fills env context (.element id tag attributes children)
        (.element (some n) tag attributes filled)
  | call {id : Option NodeId} {n : NodeId} {c : Call} {trace : Option Trace} {reads : Reads}
      {old content : List Node} (hid : ∀ i, id = some i → n = i)
      (h : env.Settles context c reads content) :
      Fills env context (.call id c trace old) (.call (some n) c (some ⟨reads, context⟩) content)

inductive Env.FillsList (env : Env) (context : Context) : List Node → List Node → Prop
  | nil : FillsList env context [] []
  | cons {node filled : Node} {nodes rest : List Node} (h : Fills env context node filled)
      (hs : FillsList env context nodes rest) :
      FillsList env context (node :: nodes) (filled :: rest)

end

namespace Expand

open Node (unnumbered unnumberedList)

variable {env : Env} {context : Context}

theorem settlesTexts_of_runDeferred {nested : Nested env} {cs : List Call}
    {read : Reads × List String}
    (hc : ∀ d ∈ cs, ∀ r, Yields (expandCall nested context d) r →
      env.Settles context d r.reads r.content)
    (h : Yields (runDeferred (cs.map (deferCall nested context))) read) :
    env.SettlesTexts context cs read.1 read.2 := by
  induction cs generalizing read with
  | nil =>
    obtain rfl := yields_pure.1 h
    exact .nil
  | cons d cs ih =>
    obtain ⟨r, rest, hr, hrest, rfl⟩ := eq_of_runDeferred_cons h
    exact .cons (hc d List.mem_cons_self r hr)
      (ih (fun d' hd' => hc d' (List.mem_cons_of_mem _ hd')) hrest)

theorem settles_of_settle {c : Call} {m : Macro} {b : Binding Call} {read : Reads}
    {texts : List String} {outcome : Except Failure (List Node)} {r : Result}
    (hb : env.scene.Bound c m b) (ht : env.SettlesTexts context b.calls read texts)
    (he : env.Executes m (b.withTexts texts) context outcome)
    (h : Yields (settle ((m.ownReads b context).merge read) c.name outcome : Expand env _) r) :
    env.Settles context c r.reads r.content := by
  rcases eq_of_settle h with ⟨nodes, next, rfl, rfl⟩ | ⟨f, rfl, rfl⟩
  · exact .done hb ht he
  · cases f with
    | error e => exact .returned hb ht he
    | panic message => exact .panicked hb ht he

theorem settles_of_expandCall {depth : Nat} {c : Call} {r : Result}
    (h : Yields (expandCall (expandList (expandWithin depth)) context c : Expand env _) r) :
    env.Settles context c r.reads r.content := by
  refine expandCall_induction (P := fun c x => ∀ r, Yields x r →
    env.Settles context c r.reads r.content) ?unknown ?unbound ?bound c r h
  case unknown =>
    intro c hm r h
    obtain rfl := eq_of_failed h
    exact .unknown hm
  case unbound =>
    intro c m e hm he r h
    obtain rfl := eq_of_failed h
    exact .unbound hm he
  case bound =>
    intro c m b hbound ih r h
    obtain ⟨read, hread, h⟩ := h.bind
    obtain ⟨outcome, hbody, h⟩ := h.bind
    exact settles_of_settle hbound (settlesTexts_of_runDeferred ih hread) ⟨depth, hbody⟩ h

theorem settles_of_expandWithin {depth : Nat} {c : Call} {r : Result}
    (h : Yields (expandWithin depth context c : Expand env _) r) :
    env.Settles context c r.reads r.content := by
  cases depth with
  | zero => exact absurd h not_yields_failure
  | succ depth => exact settles_of_expandCall h

theorem relating_fills (depth : Nat) :
    Relating (expandWithin depth : Context → Call → Expand env Result) context
      (env.Fills context) (env.FillsList context) where
  text _ := .text
  error _ := .error
  element hid h := .element hid h
  call hid h := .call hid (settles_of_expandWithin h)
  nil := .nil
  cons h hs := .cons h hs

/-- Each node gives, up to ids, what it gives alone from any state. -/
theorem alone_of_expandList (h : env.Tame) {depth : Nat} {nodes filled : List Node}
    (hy : Yields (expandList (expandWithin depth) context nodes : Expand env _) filled) :
    List.Forall₂ (fun node result => ∀ p, ∃ other q,
      (expandList (expandWithin depth) context [node] : Expand env _).run p = some ([other], q) ∧
        other.unnumbered = result.unnumbered) nodes filled := by
  induction nodes generalizing filled with
  | nil =>
    obtain rfl := yields_pure.1 hy
    exact .nil
  | cons node nodes ih =>
    obtain ⟨first, hfirst, hy⟩ := hy.bind
    obtain ⟨rest, hrest, hy⟩ := hy.bind
    obtain rfl := yields_pure.1 hy
    refine .cons (fun p => ?_) (ih hrest)
    have hagree := agree_expandNode (agree_expandWithin h depth) context (Eq.refl node.unnumbered)
    obtain ⟨other, q, hrun, hother⟩ := hagree.exists_run hfirst p
    exact ⟨other, q, Option.bind_eq_some_iff.2 ⟨(other, q), hrun, rfl⟩, hother⟩

theorem exists_depth_forall {cs : List Call}
    (h : ∀ c ∈ cs, ∃ depth, Total (expandWithin depth context c : Expand env Result)) :
    ∃ depth, ∀ depth' ≥ depth, ∀ c ∈ cs,
      Total (expandWithin depth' context c : Expand env Result) := by
  induction cs with
  | nil => exact ⟨0, by simp⟩
  | cons c cs ih =>
    obtain ⟨⟨d, hd⟩, hcs⟩ := List.forall_mem_cons.1 h
    obtain ⟨d', hd'⟩ := ih hcs
    refine ⟨max d d', fun depth hle => List.forall_mem_cons.2 ⟨?_, ?_⟩⟩
    · have hle : d ≤ depth := by omega
      exact (refines_expandWithin hle context c).total hd
    · exact hd' depth (by omega)

theorem blind_expandList (h : env.Tame) (depth : Nat) :
    Blind (expandList (expandWithin depth) : Nested env) :=
  fun context _ _ hn => agree_expandList (agree_expandWithin h depth) context hn

/-- The texts of calls are the same from every state and at each depth that is enough for them. -/
theorem exists_texts (h : env.Tame) {cs : List Call}
    (hcs : ∀ c ∈ cs, ∃ depth, Total (expandWithin depth context c : Expand env Result)) :
    ∃ depth read, ∀ depth' ≥ depth, ∀ p, ∃ q,
      (runDeferred (cs.map (deferCall (expandList (expandWithin depth')) context)) :
        Expand env _).run p = some (read, q) := by
  obtain ⟨depth, hdepth⟩ := exists_depth_forall hcs
  have htotal : Total (runDeferred
      (cs.map (deferCall (expandList (expandWithin depth)) context)) : Expand env _) :=
    total_runDeferred (hdepth (depth + 1) (Nat.le_succ depth))
  obtain ⟨read, hread⟩ := htotal.yields
  refine ⟨depth, read, fun depth' hle p => ?_⟩
  have hagree := agree_runDeferred fun c (_ : c ∈ cs) =>
    show Agree Result.view (expandCall (expandList (expandWithin depth)) context c) _ from
      agree_expandCall h (blind_expandList h depth) c
  have hrefines : Refines (runDeferred
        (cs.map (deferCall (expandList (expandWithin depth)) context)) : Expand env _)
      (runDeferred (cs.map (deferCall (expandList (expandWithin depth')) context))) :=
    refines_runDeferred fun c _ => refines_expandWithin (Nat.succ_le_succ hle) context c
  obtain ⟨read', q, hrun, heq⟩ := hagree.exists_run hread p
  obtain rfl : read' = read := heq
  exact ⟨q, hrefines p _ hrun⟩

theorem exists_total_body (h : env.Tame) {m : Macro} {args : Arguments}
    (hargs : env.scene.Supplies m args) (context : Context) :
    ∃ depth, ∀ depth' ≥ depth, Total (runBody (expandList (expandWithin depth'))
      (m.body env.page args context) : Expand env _) := by
  obtain ⟨outcome, depth, hy⟩ := h.ends m args context hargs
  have hagree := h.determined m args context hargs _ (blind_expandList h depth)
  exact ⟨depth, fun depth' hle => (refines_body hle _).total (hagree.total hy)⟩

theorem exists_total_expandWithin (h : env.Tame) (context : Context) (c : Call) :
    ∃ depth, Total (expandWithin depth context c : Expand env Result) := by
  induction c using Call.nestedInduction with
  | h c ih =>
    cases hm : env.macros.get? c.name with
    | none =>
      refine ⟨1, ?_⟩
      rw [expandWithin, expandCall_unknown hm]
      exact total_failed _ _
    | some m =>
      cases he : m.bindCall c with
      | error e =>
        refine ⟨1, ?_⟩
        rw [expandWithin, expandCall_unbound hm he]
        exact total_failed _ _
      | ok b =>
        have hbound : env.scene.Bound c m b := ⟨hm, he⟩
        -- More depth does not change the texts, so the depth for the body can depend on them.
        obtain ⟨d, read, hread⟩ :=
          exists_texts h fun d hd => ih d (Macro.mem_nested_of_bindCall he hd)
        have hargs : env.scene.Supplies m (b.withTexts read.2) := ⟨c, b, read.2, hbound, rfl⟩
        obtain ⟨k, hbody⟩ := exists_total_body h hargs context
        refine ⟨max d k + 1, fun p => ?_⟩
        rw [expandWithin, expandCall_bound hbound]
        obtain ⟨q, hq⟩ := hread (max d k) (Nat.le_max_left d k) p
        obtain ⟨r, q', hr⟩ := ((hbody (max d k) (Nat.le_max_right d k)).bind fun outcome =>
          total_settle ((m.ownReads b context).merge read.1) c.name outcome) q
        exact ⟨r, q', Option.bind_eq_some_iff.2 ⟨(read, q), hq, hr⟩⟩

theorem exists_total_expandList (h : env.Tame) (context : Context) (nodes : List Node) :
    ∃ depth, ∀ depth' ≥ depth,
      Total (expandList (expandWithin depth') context nodes : Expand env _) := by
  obtain ⟨depth, hdepth⟩ := exists_depth_forall fun c (_ : c ∈ Node.outerCallsOf nodes) =>
    exists_total_expandWithin h context c
  exact ⟨depth, fun depth' hle => total_expandList nodes (hdepth depth' hle)⟩

/-- Macros are tame if they depend on nothing else and come to an end where templates do. -/
theorem tame_of_descending (hd : Descending env) (hc : env.IsCounted)
    (h : ∀ name m, env.macros.get? name = some m → ∀ args context,
      Determined env (m.body env.page args context)) : env.Tame where
  determined m args context := by
    rintro ⟨c, b, texts, hb, -⟩
    exact h c.name m hb.installed args context
  ends m args context := by
    rintro ⟨c, b, texts, hb, -⟩
    obtain ⟨titles, hlength, ht⟩ := hc
    have hdescends : Descends
        (expandList (expandWithin (titles.length + 1)) : Nested env) context := by
      refine ⟨fun _ => total_pure _, fun title scope nodes _ _ => ?_⟩
      refine total_expandList nodes fun c _ => total_expandWithin hd ht ?_ c
      exact Nat.lt_succ_of_le (List.length_filter_le ..)
    obtain ⟨outcome, hy⟩ := (hd c.name m hb.installed _ context hdescends args).yields
    exact ⟨outcome, titles.length + 1, hy⟩

end Expand

end Notebook
