import Notebook.Proofs.Store.Edits

/-! # The cache of parsed notes does not show

Whatever happens to the stores of a library, parsing a note gives what its text gives under the
parsers of that moment. A title for which the cache still has the nodes of the note that it
resolves to is answered without a parser.
-/

namespace Notebook

namespace Store

variable {κ : Type} {store : Store κ} {title : Title} {saved : Saved} {nodes : List Node}

def cached (store : Store κ) (title : Title) : Option (Saved × List Node) :=
  (store.cache.get? title).map fun entry => (entry.saved, entry.nodes)

theorem hit?_eq_some_iff :
    store.cache.hit? title saved = some nodes ↔ store.cached title = some (saved, nodes) := by
  unfold ParseCache.hit? cached
  cases store.cache.get? title with
  | none => simp
  | some entry =>
    simp only [Option.map_some, Option.some.injEq, Prod.mk.injEq]
    split
    · next h => simp [h]
    · next h => simp [h]

def parsed (store : Store κ) (title : Title) (saved : Saved) : Store κ :=
  { store with cache := (store.cache.parse title saved).2 }

theorem cached_parsed (store : Store κ) (title other : Title) (saved : Saved) :
    (store.parsed title saved).cached other =
      match store.rules.parseNote saved.note with
      | .ok nodes => if other = title then some (saved, nodes) else store.cached other
      | .error _ => store.cached other := by
  unfold parsed cached ParseCache.parse rules
  dsimp only
  split
  · next nodes h =>
    simp only [h, Catalog.get?_insert]
    split <;> rfl
  · next message h => simp only [h]

theorem cached_apply {e : Edit} (h : e.title ≠ title) (serial : Nat) (store : Store κ) :
    (e.apply serial store).cached title = store.cached title := by
  have hget : ∀ other : Title, other ≠ title →
      Catalog.get? (Catalog.erase store.cache other) title = store.cache.get? title := by
    intro other hne
    rw [Catalog.get?_erase, if_neg (Ne.symm hne)]
  cases e with
  | add note => exact congrArg (Option.map _) (hget _ h)
  | delete other => exact congrArg (Option.map _) (hget _ h)

end Store

namespace Library

/-- What may happen to the stores of a library between two looks at a note. -/
inductive Operation where
  | edit (s : StoreId) (e : Edit)
  /-- Has no effect if the fallback is refused. -/
  | addFallback (s fallback : StoreId)
  | registerParser (s : StoreId) (keys : List String) (parser : Parser)
  | parseNote (s : StoreId) (title : Title)

variable {κ : Type} {lib lib' : Library κ} {s : StoreId} {title : Title} {saved : Saved}
  {nodes : List Node}

def perform (lib : Library κ) : Operation → Library κ
  | .edit s e => lib.edit s e
  | .addFallback s fallback => (lib.addFallback? s fallback).getD lib
  | .registerParser s keys parser => lib.registerParser s keys parser
  | .parseNote s title => (lib.parseNote s title).2

def run (lib : Library κ) (ops : List Operation) : Library κ :=
  ops.foldl perform lib

/-- The operation neither registers a parser on the store nor adds or deletes the title there. -/
def Operation.Spares (s : StoreId) (title : Title) : Operation → Prop
  | edit t e => t ≠ s ∨ e.title ≠ title
  | registerParser t _ _ => t ≠ s
  | _ => True

/-- Parsing the note of a title gives nodes. -/
def Parses (lib : Library κ) (s : StoreId) (title : Title) : Prop :=
  ∃ nodes, (lib.parseNote s title).1 = some (.ok nodes)

/-- The nodes of a title come from the cache, so no parser runs for them. -/
def Keeps (lib : Library κ) (s : StoreId) (title : Title) (nodes : List Node) : Prop :=
  ∃ store saved, lib.store? s = some store ∧ lib.lookup s title = some saved ∧
    store.cache.hit? title saved = some nodes

theorem run_append (lib : Library κ) (ops ops' : List Operation) :
    lib.run (ops ++ ops') = (lib.run ops).run ops' :=
  List.foldl_append

theorem Keeps.parseNote (h : lib.Keeps s title nodes) :
    lib.parseNote s title = (some (.ok nodes), lib) := by
  obtain ⟨store, saved, hs, hl, hit⟩ := h
  simp only [Library.parseNote, hs, hl, hit]

theorem lookup_of_store?_none (h : lib.store? s = none) (title : Title) :
    lib.lookup s title = none := by
  have hown : lib.own? s title = none := by rw [own?, h]; rfl
  have hfallbacks : lib.fallbacks s = [] := by rw [fallbacks, h]; rfl
  unfold lookup
  cases lib.maxDepth with
  | zero => rfl
  | succ bound => rw [lookupWithin, hown, hfallbacks]; rfl

theorem parseNote_fst (lib : Library κ) (s : StoreId) (title : Title) :
    (lib.parseNote s title).1 = (lib.lookup s title).map fun saved =>
      (lib.parseText s saved.note.type saved.note.text).1 := by
  unfold parseNote parseText
  cases hs : lib.store? s with
  | none => rw [lookup_of_store?_none hs]; rfl
  | some store =>
    cases lib.lookup s title with
    | none => rfl
    | some saved =>
      dsimp only [Option.map_some]
      cases hit : store.cache.hit? title saved with
      | some nodes => exact congrArg some (ParseCache.hit?_eq_some hit).symm
      | none => exact congrArg some (ParseCache.parse_fst ..)

def cached? (lib : Library κ) (s : StoreId) (title : Title) : Option (Saved × List Node) :=
  (lib.store? s).bind fun store => store.cached title

theorem keeps_iff :
    lib.Keeps s title nodes ↔
      ∃ saved, lib.lookup s title = some saved ∧ lib.cached? s title = some (saved, nodes) := by
  constructor
  · rintro ⟨store, saved, hs, hl, hit⟩
    refine ⟨saved, hl, ?_⟩
    rw [cached?, hs, Option.bind_some]
    exact Store.hit?_eq_some_iff.1 hit
  · rintro ⟨saved, hl, hc⟩
    obtain ⟨store, hs, hc⟩ := Option.bind_eq_some_iff.1 hc
    exact ⟨store, saved, hs, hl, Store.hit?_eq_some_iff.2 hc⟩

theorem cached?_congr
    (h : (lib.store? s).map (Store.cached · title) = (lib'.store? s).map (Store.cached · title)) :
    lib.cached? s title = lib'.cached? s title := by
  have hb := congrArg (Option.bind · id) h
  rw [Option.bind_map, Option.bind_map] at hb
  exact hb

theorem cached?_update {f : Store κ → Store κ}
    (h : ∀ store, (f store).cached title = store.cached title) (lib : Library κ) (t : StoreId) :
    (lib.update t f).cached? s title = lib.cached? s title :=
  cached?_congr (map_store?_update h lib t s)

theorem cached?_update_of_ne {t : StoreId} (h : t ≠ s) (f : Store κ → Store κ) :
    (lib.update t f).cached? s title = lib.cached? s title := by
  rw [cached?, store?_update_of_ne h, cached?]

theorem SameButBuses.cached? (h : SameButBuses lib lib') (s : StoreId) (title : Title) :
    lib.cached? s title = lib'.cached? s title :=
  cached?_congr (h.map_eq (fun _ => rfl) s)

theorem cached?_edit {t : StoreId} {e : Edit} (h : t ≠ s ∨ e.title ≠ title) :
    (lib.edit t e).cached? s title = lib.cached? s title := by
  have hupdate : ∀ serial, (lib.update t (e.apply serial)).cached? s title =
      lib.cached? s title := by
    intro serial
    rcases h with hne | hne
    · exact cached?_update_of_ne hne _
    · exact cached?_update (Store.cached_apply hne serial) lib t
  cases e with
  | add note =>
    rw [← hupdate lib.nextSerial]
    exact ((sameButBuses_announce _ t note.title _).cached? s title).symm
  | delete other =>
    rw [← hupdate 0]
    exact ((sameButBuses_announce _ t other _).cached? s title).symm

theorem cached?_addFallback {t f : StoreId} (ha : lib.addFallback? t f = some lib') :
    lib'.cached? s title = lib.cached? s title := by
  obtain ⟨-, rfl⟩ := addFallback?_eq_some ha
  rw [cached?_update fun _ => by rfl, cached?_update fun _ => by rfl]

theorem cached?_registerParser {t : StoreId} (h : t ≠ s) (keys : List String) (parser : Parser) :
    (lib.registerParser t keys parser).cached? s title = lib.cached? s title := by
  unfold registerParser
  dsimp only
  split
  · exact cached?_update_of_ne h _
  · exact cached?_update_of_ne h _

/-- What parsing a note does where the cache does not answer. -/
theorem parseNote_of_miss {store : Store κ} (hs : lib.store? s = some store)
    (hl : lib.lookup s title = some saved) (hit : store.cache.hit? title saved = none) :
    (lib.parseNote s title).1 = some (store.rules.parseNote saved.note) ∧
      ∀ t, (lib.parseNote s title).2.store? t =
        if s = t then some (store.parsed title saved) else lib.store? t := by
  simp only [parseNote, hs, hl, hit]
  refine ⟨congrArg some (ParseCache.parse_fst ..), fun t => ?_⟩
  refine (store?_update lib s t fun _ => store.parsed title saved).trans ?_
  split
  · next ht => rw [← ht, hs, Option.map_some]
  · rfl

/-- Parsing a note changes at most what the cache of its store holds for its title, and that only
if it gives nodes. -/
theorem cached?_parseNote {t : StoreId} {other : Title}
    (h : t = s → other = title → ¬ lib.Parses s title) :
    (lib.parseNote t other).2.cached? s title = lib.cached? s title := by
  cases ht : lib.store? t with
  | none => simp only [parseNote, ht]
  | some store =>
    cases hl : lib.lookup t other with
    | none => simp only [parseNote, ht, hl]
    | some saved =>
      cases hit : store.cache.hit? other saved with
      | some nodes => simp only [parseNote, ht, hl, hit]
      | none =>
        obtain ⟨hresult, hstore⟩ := parseNote_of_miss ht hl hit
        rw [cached?, hstore]
        split
        · next heq =>
          subst heq
          rw [Option.bind_some, Store.cached_parsed, cached?, ht, Option.bind_some]
          split
          · next nodes hn =>
            refine if_neg fun hother => h rfl hother.symm ⟨nodes, ?_⟩
            rw [hother, hresult, hn]
          · rfl
        · rfl

theorem Parses.cached? (h : lib.Parses s title) :
    ∃ saved nodes, lib.lookup s title = some saved ∧
      (lib.parseNote s title).2.cached? s title = some (saved, nodes) := by
  obtain ⟨nodes, h⟩ := h
  have hresult := h
  rw [parseNote_fst, Option.map_eq_some_iff] at hresult
  obtain ⟨saved, hl, -⟩ := hresult
  refine ⟨saved, nodes, hl, ?_⟩
  cases hs : lib.store? s with
  | none => simp [lookup_of_store?_none hs] at hl
  | some store =>
    cases hit : store.cache.hit? title saved with
    | some kept =>
      have hkeeps : lib.Keeps s title kept := ⟨store, saved, hs, hl, hit⟩
      rw [hkeeps.parseNote] at h ⊢
      cases h
      rw [Library.cached?, hs, Option.bind_some]
      exact Store.hit?_eq_some_iff.1 hit
    | none =>
      obtain ⟨hresult, hstore⟩ := parseNote_of_miss hs hl hit
      rw [h, Option.some.injEq] at hresult
      rw [Library.cached?, hstore, if_pos rfl, Option.bind_some, Store.cached_parsed, ← hresult]
      exact if_pos rfl

theorem cached?_perform {op : Operation} (hop : op.Spares s title)
    (hp : op = .parseNote s title → ¬ lib.Parses s title) :
    (lib.perform op).cached? s title = lib.cached? s title := by
  cases op with
  | edit t e => exact cached?_edit hop
  | addFallback t f =>
    simp only [perform]
    cases ha : lib.addFallback? t f with
    | none => rfl
    | some lib' => exact cached?_addFallback ha
  | registerParser t keys parser => exact cached?_registerParser hop keys parser
  | parseNote t other => exact cached?_parseNote fun ht ho => hp (by rw [ht, ho])

theorem cached?_run {ops : List Operation} (hops : ∀ op ∈ ops, op.Spares s title)
    (hp : ∀ front rest, ops = front ++ .parseNote s title :: rest →
      ¬ (lib.run front).Parses s title) :
    (lib.run ops).cached? s title = lib.cached? s title := by
  induction ops generalizing lib with
  | nil => rfl
  | cons op ops ih =>
    have hfirst : (lib.perform op).cached? s title = lib.cached? s title := by
      refine cached?_perform (hops op List.mem_cons_self) ?_
      rintro rfl
      exact hp [] ops rfl
    have hrest : ((lib.perform op).run ops).cached? s title = (lib.perform op).cached? s title := by
      refine ih (fun o ho => hops o (List.mem_cons_of_mem _ ho)) ?_
      rintro front rest rfl
      exact hp (op :: front) rest rfl
    exact hrest.trans hfirst

/-- At the end of every run, parsing the note of a title gives what its text gives under the
parsers of that moment. The nodes come from the cache if the title resolves to the note that it
resolved to when it was last parsed, and if since then no parser was registered on the store and
the title was neither added nor deleted there. -/
theorem parseNote_run (lib : Library κ) (ops : List Operation) (s : StoreId) (title : Title) :
    ((lib.run ops).parseNote s title).1 = ((lib.run ops).lookup s title).map (fun saved =>
        ((lib.run ops).parseText s saved.note.type saved.note.text).1) ∧
      ∀ before after, ops = before ++ .parseNote s title :: after →
        (lib.run before).Parses s title →
        (∀ op ∈ after, op.Spares s title) →
        (∀ front rest, after = front ++ .parseNote s title :: rest →
          ¬ (lib.run (before ++ .parseNote s title :: front)).Parses s title) →
        (lib.run ops).lookup s title = (lib.run before).lookup s title →
        ∃ nodes, (lib.run ops).Keeps s title nodes ∧
          (lib.run ops).parseNote s title = (some (.ok nodes), lib.run ops) := by
  refine ⟨parseNote_fst _ s title, ?_⟩
  rintro before after rfl hparses hspares hlast hlookup
  obtain ⟨saved, nodes, hl, hcached⟩ := hparses.cached?
  have hrun : ∀ front, lib.run (before ++ .parseNote s title :: front) =
      ((lib.run before).parseNote s title).2.run front := by
    intro front
    rw [run_append]
    rfl
  rw [hrun] at hlookup ⊢
  have hkept := cached?_run hspares fun front rest h => hrun front ▸ hlast front rest h
  have hkeeps := keeps_iff.2 ⟨saved, hlookup.trans hl, hkept.trans hcached⟩
  exact ⟨nodes, hkeeps, hkeeps.parseNote⟩

theorem parseNote_run_layered :
    ∃ lib nodes, lib = layered.run [.edit 0 (.add { title := "a", text := "x" }),
        .parseNote 1 "a", .edit 1 (.add { title := "b", text := "y" }), .parseNote 1 "b",
        .registerParser 0 ["text/plain"] .wikitext] ∧
      lib.Keeps 1 "a" nodes ∧ lib.parseNote 1 "a" = (some (.ok nodes), lib) := by
  have hrun := (parseNote_run layered [.edit 0 (.add { title := "a", text := "x" }),
    .parseNote 1 "a", .edit 1 (.add { title := "b", text := "y" }), .parseNote 1 "b",
    .registerParser 0 ["text/plain"] .wikitext] 1 "a").2
    [.edit 0 (.add { title := "a", text := "x" })] _ rfl ⟨_, rfl⟩
    (by simp [Operation.Spares, Edit.title])
    (fun front rest h => by
      have hmem : Operation.parseNote 1 "a" ∈ front ++ .parseNote 1 "a" :: rest := by simp
      rw [← h] at hmem
      simp at hmem)
    rfl
  obtain ⟨nodes, hkeeps, hparse⟩ := hrun
  exact ⟨_, nodes, rfl, hkeeps, hparse⟩

end Library

end Notebook
