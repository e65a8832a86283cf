import DocumentEngine.Engine.Read
import DocumentEngine.Pipeline.Rule
import DocumentEngine.Proofs.Filter.Identifier
import DocumentEngine.Proofs.Projection.Known
import DocumentEngine.Proofs.Store.Fetch
import Mathlib.Data.List.Induction

/-!
Looking up under restrictions. Restrictions that narrow leave some documents of a type visible, and
a fetch by the identifier finds those of them that answer to the value asked for. The look-up takes
the first of these; so it finds the visible document of an id exactly where the value is one value
and no other document answers to it first.
-/

namespace DocumentEngine

open Action Evaluation

namespace DocumentType

/-- Whether the identifier of a document passes equality with a value. -/
def answersTo (t : DocumentType) (w : Json) (doc : Document) : Bool :=
  satisfies .eq (fieldValue t doc t.identifierName) [w]

/-- Whether a document holds an id. -/
def hasId (t : DocumentType) (id : String) (doc : Document) : Bool := t.idOf? doc == some id

/-- A text that is asked for as it is has no other answer among texts than itself. -/
theorem answersTo_eq_hasId {t : DocumentType} {doc : Document} {id text : String}
    (hdoc : doc.get? t.identifierName = some (.str id)) :
    t.answersTo (.str text) doc = t.hasId text doc := by
  have hvalue : fieldValue t doc t.identifierName = some (.str id) := by
    rw [fieldValue, hdoc]
  have hid : t.idOf? doc = some id := by
    rw [idOf?, hdoc]
    rfl
  rw [answersTo, hasId, hvalue, hid]
  by_cases h : id = text
  · subst h
    simp [satisfies, satisfiesScalar, looseEq, Json.same]
  · have hne : compare id text ≠ .eq := fun heq => h (compare_eq_iff_eq.mp heq)
    simp [satisfies, satisfiesScalar, looseEq, Json.same, compare?, h, hne]

end DocumentType

namespace Engine

variable {e : Engine} {requestId : String} {t : DocumentType} {state : State}

/-- The documents of a type that its restrictions leave visible: those of a fetch of all. -/
def visible (e : Engine) (requestId : String) (t : DocumentType) (state : State) :
    Except EngineError (List Document) :=
  (exec (e.fetchRestricted requestId t.name {}) state).1

/-- The restrictions of a type narrow: they leave the files alone, and a fetch by the identifier
finds the visible documents that answer to its value. -/
structure Narrows (e : Engine) (requestId : String) (t : DocumentType) (state : State) :
    Prop where
  quiet : ∀ query, (exec (e.restrict requestId t.name query) state).2.files = state.files
  narrows : ∀ w, (exec (e.fetchRestricted requestId t.name
    { filter := some (.equals t.identifierName w) }) state).1 =
      (e.visible requestId t state).map (·.filter (t.answersTo w))

/-- A fetch under restrictions is a fetch with another filter. -/
theorem exec_fetchRestricted (type : String) (query : Query) (state : State) :
    (∃ filter restricted,
      exec (e.restrict requestId type query) state =
        (.ok { query with filter := filter }, restricted) ∧
      (exec (e.fetchRestricted requestId type query) state).1 =
        (e.store.found restricted.files type { query with filter := filter }).mapError .ofStore ∧
      (exec (e.fetchRestricted requestId type query) state).2.files = restricted.files) ∨
    (∃ cause restricted, exec (e.restrict requestId type query) state =
        (.error cause, restricted) ∧
      exec (e.fetchRestricted requestId type query) state = (.error cause, restricted)) := by
  have hfetch : ∀ (restricted : State) (query' : Query),
      exec (e.restrict requestId type query) state = (.ok query', restricted) →
        (exec (e.fetchRestricted requestId type query) state).1 =
          (e.store.found restricted.files type query').mapError .ofStore ∧
        (exec (e.fetchRestricted requestId type query) state).2.files = restricted.files := by
    intro restricted query' h
    obtain ⟨fetched, hfound, halike⟩ := e.store.exec_fetch type query' restricted
    rw [fetchRestricted, exec_bind_ok h, exec_ofStore, hfound]
    exact ⟨rfl, halike.files⟩
  cases hrestrict : exec (e.restrict requestId type query) state with
  | mk result restricted =>
    cases result with
    | error cause =>
      refine .inr ⟨cause, restricted, rfl, ?_⟩
      rw [fetchRestricted, exec_bind_error hrestrict]
    | ok query' =>
      obtain ⟨filter, rfl⟩ : ∃ filter, query' = { query with filter := filter } := by
        unfold restrict at hrestrict
        split at hrestrict
        · cases hrestrict
          exact ⟨_, rfl⟩
        · obtain ⟨filter, between, -, hpure⟩ := exec_bind_eq_ok hrestrict
          cases hpure
          exact ⟨filter, rfl⟩
      exact .inl ⟨filter, restricted, rfl, hfetch restricted _ hrestrict⟩

/-- Restrictions that narrow leave stored documents visible, and no others. -/
theorem Narrows.visible_subset (h : e.Narrows requestId t state) {docs : List Document}
    (hdocs : e.visible requestId t state = .ok docs) :
    ∃ stored, e.store.stored state.files t.name = .ok stored ∧ docs ⊆ stored := by
  rcases @exec_fetchRestricted e requestId t.name {} state with
    ⟨filter, restricted, hrestrict, hfound, -⟩ | ⟨cause, restricted, -, hfailed⟩
  · have hfiles := h.quiet {}
    rw [hrestrict] at hfiles
    dsimp only at hfiles
    unfold visible at hdocs
    rw [hfound, hfiles] at hdocs
    cases htype : e.store.schema.type? t.name with
    | none =>
      rw [Store.found, htype] at hdocs
      cases hdocs
    | some u =>
      rw [e.store.found_of_filter state.files htype filter] at hdocs
      cases hstored : e.store.stored state.files t.name with
      | error cause =>
        rw [hstored] at hdocs
        cases hdocs
      | ok stored =>
        rw [hstored] at hdocs
        cases hdocs
        exact ⟨stored, rfl, List.filter_subset_self _⟩
  · unfold visible at hdocs
    rw [hfailed] at hdocs
    cases hdocs

/-- A look-up finds the first visible document that answers to the value of the `id` argument. -/
theorem exec_lookup (hask : t.AsksById e.schema) (h : e.Narrows requestId t state) (v : Json) :
    (∀ w, Filter.idTarget? v = some w → (exec (e.lookup requestId t v) state).1 =
      (e.visible requestId t state).map (·.find? (t.answersTo w))) ∧
    (Filter.idTarget? v = none → ∃ cause, (exec (e.lookup requestId t v) state).1 =
      .error cause) ∧
    (exec (e.lookup requestId t v) state).2.files = state.files := by
  obtain ⟨hone, hmany⟩ := Query.compile_asksById hask e.config.maxLimit v
  unfold lookup EngineM.ofFilter
  cases htarget : Filter.idTarget? v with
  | none =>
    obtain ⟨cause, hcause⟩ := hmany htarget
    have hlift : exec (EngineM.lift ((Query.compile e.schema t e.config.maxLimit
        [("id", v)]).mapError .compile)) state = (.error (.compile cause), state) := by
      rw [exec_engineLift, hcause]
      rfl
    refine ⟨fun w hw => ?_, fun _ => ⟨.compile cause, ?_⟩, ?_⟩
    · cases hw
    · rw [exec_bind_error hlift]
    · rw [exec_bind_error hlift]
  | some w =>
    have hlift : exec (EngineM.lift ((Query.compile e.schema t e.config.maxLimit
        [("id", v)]).mapError .compile)) state =
          (.ok { filter := some (.equals t.identifierName w) }, state) := by
      rw [exec_engineLift, hone w htarget]
      rfl
    rw [exec_bind_ok hlift]
    have hfiles : (exec (e.fetchRestricted requestId t.name
        { filter := some (.equals t.identifierName w) }) state).2.files = state.files := by
      have hquiet := h.quiet { filter := some (.equals t.identifierName w) }
      rcases @exec_fetchRestricted e requestId t.name
          { filter := some (.equals t.identifierName w) } state with
        ⟨filter, restricted, hrestrict, -, hsame⟩ | ⟨cause, restricted, hrestrict, hfailed⟩
      · rw [hrestrict] at hquiet
        exact hsame.trans hquiet
      · rw [hrestrict] at hquiet
        rw [hfailed]
        exact hquiet
    have hfound := h.narrows w
    generalize e.fetchRestricted requestId t.name
      { filter := some (.equals t.identifierName w) } = fetched at hfiles hfound ⊢
    rw [exec_bind]
    rcases hexec : exec fetched state with ⟨result, after⟩
    rw [hexec] at hfiles hfound
    dsimp only at hfiles hfound
    subst hfound
    refine ⟨fun w' hw' => ?_, fun hnone => ?_, ?_⟩
    · cases hw'
      cases e.visible requestId t state with
      | error cause => rfl
      | ok docs => exact congrArg Except.ok List.head?_filter
    · cases hnone
    · cases e.visible requestId t state <;> exact hfiles

section

/-- The rule that demands a filter of every fetch and does nothing else. -/
def demand (failure : EngineError) (g : Filter) : Rule (Option Filter) where
  failure := failure
  before := fun _ filter => some ((FilterEdit.require g).apply filter)
  combine := fun _ second => second
  after := id

/-- A filter with demands added to it. -/
def demanded (filter : Option Filter) (demands : List Filter) : Option Filter :=
  demands.foldl (fun filter g => (FilterEdit.require g).apply filter) filter

theorem exec_demand (failure : EngineError) (g : Filter) (context : StageContext)
    (next : Option Filter → EngineM (Option Filter)) (filter : Option Filter) (state : State) :
    exec ((demand failure g).handler filter context next) state =
      exec (next ((FilterEdit.require g).apply filter)) state := by
  have hproceed : exec ((demand failure g).proceed ((FilterEdit.require g).apply filter) next)
      state = exec (next ((FilterEdit.require g).apply filter)) state := by
    unfold Rule.proceed
    rw [demand, if_neg Bool.false_ne_true, exec_bind, exec_outcome]
    rcases exec (next ((FilterEdit.require g).apply filter)) state with ⟨_ | result, after⟩ <;> rfl
  have hhandler : exec ((demand failure g).handler filter context next) state =
      exec ((demand failure g).proceed ((FilterEdit.require g).apply filter) next >>= pure)
        state := rfl
  rw [hhandler, bind_pure, hproceed]

theorem exec_demands (failure : EngineError) (demands : List Filter) (context : StageContext)
    (filter : Option Filter) (state : State) :
    exec (Pipeline.run context (demands.map fun g => (demand failure g).handler) filter) state =
      (.ok (demanded filter demands), state) := by
  unfold Pipeline.run
  induction demands generalizing filter with
  | nil => rfl
  | cons g demands ih =>
    rw [List.map_cons, Pipeline.runWith, exec_demand, ih]
    rfl

theorem passes_pair (s : Schema) (loader : Loader) (t : DocumentType) (doc : Document)
    (memo : Memo) (f g : Filter) :
    passes s loader t doc memo (.and [f, g]) =
      let v := passes s loader t doc memo f
      if v.holds then passes s loader t v.doc v.memo g else v := by
  simp only [passes, passesAll]
  split
  · generalize passes s loader t _ _ g = w
    obtain ⟨holds, left, memo'⟩ := w
    cases holds <;> rfl
  · rfl

/-- Demands behind a filter that reads nothing but a field of the document hold or fail as they do
by themselves. -/
theorem verdictOf_demanded {s : Schema} {loader : Loader} {t : DocumentType} {doc : Document}
    {memo : Memo} {f : Filter} {holds : Bool}
    (hf : passes s loader t doc memo f = ⟨holds, doc, memo⟩) (demands : List Filter) :
    (holds = true → Store.verdictOf s loader t (demanded (some f) demands) memo doc =
      Store.verdictOf s loader t (demanded none demands) memo doc) ∧
    (holds = false →
      (Store.verdictOf s loader t (demanded (some f) demands) memo doc).holds = false) := by
  induction demands using List.reverseRecOn with
  | nil =>
    have hverdict : Store.verdictOf s loader t (demanded (some f) []) memo doc =
        ⟨holds, doc, memo⟩ := hf
    rw [hverdict]
    exact ⟨fun h => by rw [h]; rfl, fun h => h⟩
  | append_singleton demands g ih =>
    have hlast : ∀ filter, demanded filter (demands ++ [g]) =
        (FilterEdit.require g).apply (demanded filter demands) := fun filter =>
      List.foldl_append
    have hsome : ∃ F, demanded (some f) demands = some F := by
      clear ih hlast
      induction demands using List.reverseRecOn with
      | nil => exact ⟨f, rfl⟩
      | append_singleton demands g ih =>
        obtain ⟨F, hF⟩ := ih
        unfold demanded at hF ⊢
        rw [List.foldl_append, hF]
        exact ⟨_, rfl⟩
    obtain ⟨F, hF⟩ := hsome
    rw [hF] at ih
    rw [hlast, hlast, hF]
    have hpair : Store.verdictOf s loader t ((FilterEdit.require g).apply (some F)) memo doc =
        passes s loader t doc memo (.and [F, g]) := rfl
    rw [hpair, passes_pair]
    have hfirst : passes s loader t doc memo F =
        Store.verdictOf s loader t (some F) memo doc := rfl
    rw [hfirst]
    refine ⟨fun h => ?_, fun h => ?_⟩
    · rw [ih.1 h]
      cases hnone : demanded none demands with
      | none => rfl
      | some G =>
        have hpair' : Store.verdictOf s loader t ((FilterEdit.require g).apply (some G)) memo doc =
            passes s loader t doc memo (.and [G, g]) := rfl
        rw [hpair', passes_pair]
        rfl
    · dsimp only
      rw [ih.2 h, if_neg Bool.false_ne_true, ih.2 h]

variable {failure : EngineError} {demands : List Filter}
  (h : e.restrictions.handlersFor e.space t.name Registry.restrictionStage =
    demands.map fun g => (demand failure g).handler)

include h

theorem exec_restrict_demands (requestId : String) (query : Query) (state : State) :
    exec (e.restrict requestId t.name query) state =
      (.ok { query with filter := demanded query.filter demands }, state) := by
  unfold restrict
  rw [h]
  cases demands with
  | nil => rfl
  | cons g demands =>
    have hchain := exec_demands failure (g :: demands) (e.contextOf requestId t.name)
      query.filter state
    rw [List.map_cons] at hchain ⊢
    dsimp only
    rw [exec_bind_ok hchain]
    rfl

/-- A fetch under demands finds the stored documents that pass the filter with the demands. -/
theorem fetchRestricted_demands (ht : e.schema.type? t.name = some t) (requestId : String)
    (state : State) (filter : Option Filter) :
    (exec (e.fetchRestricted requestId t.name { filter := filter }) state).1 =
      ((e.store.stored state.files t.name).map (·.filter fun doc =>
        (Store.verdictOf e.schema (e.store.related? state.files) t (demanded filter demands) []
          doc).holds)).mapError .ofStore := by
  obtain ⟨fetched, hfetch, -⟩ := e.store.exec_fetch t.name
    { filter := demanded filter demands } state
  rw [fetchRestricted, exec_bind_ok (exec_restrict_demands h requestId _ state), exec_ofStore,
    hfetch, e.store.found_of_filter state.files ht]
  rfl

/-- Restrictions that demand filters narrow. -/
theorem narrows_of_demands (ht : e.schema.type? t.name = some t)
    (hdot : '.' ∉ t.identifierName.toList) (requestId : String) (state : State) :
    e.Narrows requestId t state := by
  refine ⟨fun query => by rw [exec_restrict_demands h], fun w => ?_⟩
  have hrow : ∀ doc : Document,
      (Store.verdictOf e.schema (e.store.related? state.files) t
        (demanded (some (.equals t.identifierName w)) demands) [] doc).holds =
      (t.answersTo w doc && (Store.verdictOf e.schema (e.store.related? state.files) t
        (demanded none demands) [] doc).holds) := by
    intro doc
    obtain ⟨htrue, hfalse⟩ := @verdictOf_demanded e.schema
      (e.store.related? state.files) t doc [] (.equals t.identifierName w) (t.answersTo w doc)
      (Store.test_field _ _ _ _ _ hdot .eq [w]) demands
    cases hholds : t.answersTo w doc with
    | true => rw [htrue hholds, Bool.true_and]
    | false => rw [hfalse hholds, Bool.false_and]
  unfold visible
  rw [fetchRestricted_demands h ht, fetchRestricted_demands h ht requestId state none]
  cases e.store.stored state.files t.name with
  | error cause => rfl
  | ok docs => simp only [Except.map, Except.mapError, hrow, List.filter_filter]

end

end Engine

end DocumentEngine
