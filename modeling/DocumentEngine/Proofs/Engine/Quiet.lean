import DocumentEngine.Engine.Execute
import DocumentEngine.Pipeline.Rule
import DocumentEngine.Proofs.Engine.Rounds
import DocumentEngine.Proofs.Keyed

/-!
What changes no file. Handlers are code of others: all that is asked of them is that they do not
write to the store themselves. Then whatever an engine does before the change of a mutation, and
whatever it does to resolve the slots of a request, leaves the files as they are.
-/

namespace DocumentEngine

open Action

variable {α : Type}

/-- An action that preserves what holds of the files. -/
def Maintains {ε : Type} (inv : FileTree → Prop) (x : Act ε α) : Prop :=
  ∀ state, inv state.files → inv (exec x state).2.files

namespace Maintains

variable {ε β : Type} {inv : FileTree → Prop}

theorem of_quiet {x : Act ε α} (h : Quiet x) : Maintains inv x := by
  intro state hinv
  rw [h state]
  exact hinv

theorem of_bind {x : Act ε α} {f : α → Act ε β} (hx : Maintains inv x)
    (hf : ∀ a, (∃ state between, exec x state = (.ok a, between)) → Maintains inv (f a)) :
    Maintains inv (x >>= f) := by
  intro state hinv
  have hleft := hx state hinv
  rw [exec_bind]
  rcases hrun : exec x state with ⟨cause | a, between⟩
  · rw [hrun] at hleft
    exact hleft
  · rw [hrun] at hleft
    exact hf a ⟨state, between, hrun⟩ between hleft

theorem of_ite {c : Prop} [Decidable c] {x y : Act ε α} (hx : Maintains inv x)
    (hy : Maintains inv y) : Maintains inv (if c then x else y) := by
  split
  · exact hx
  · exact hy

end Maintains

theorem quiet_iff_maintains {ε : Type} {x : Act ε α} :
    Quiet x ↔ ∀ files, Maintains (· = files) x := by
  refine ⟨fun h files => .of_quiet h, fun h state => h state.files state rfl⟩

/-- A handler that changes no file itself: around a pipeline that leaves the files as they are, it
leaves them so too. -/
def Handler.KeepsFiles (handler : Handler α) : Prop :=
  ∀ value context next, (∀ passed, Quiet (next passed)) → Quiet (handler value context next)

/-- A handler that changes the files only by going on, and goes on with values that have a property
where its own has it. So it preserves what the rest of the pipeline preserves for such values. -/
def Handler.Keeps (p : α → Prop) (handler : Handler α) : Prop :=
  ∀ (inv : FileTree → Prop) value context next, p value →
    (∀ passed, p passed → Maintains inv (next passed)) →
    Maintains inv (handler value context next)

namespace Pipeline

variable {context : StageContext} {handlers : List (Handler α)}

theorem runWith_quiet (h : ∀ handler ∈ handlers, handler.KeepsFiles) {innermost : α → EngineM α}
    (hinner : ∀ value, Quiet (innermost value)) (value : α) :
    Quiet (runWith context innermost handlers value) := by
  induction handlers generalizing value with
  | nil => exact hinner value
  | cons handler rest ih =>
    exact h handler List.mem_cons_self value context _
      (ih fun other hother => h other (List.mem_cons_of_mem _ hother))

theorem run_quiet (h : ∀ handler ∈ handlers, handler.KeepsFiles) (value : α) :
    Quiet (run context handlers value) :=
  runWith_quiet h Quiet.of_pure value

theorem runWith_maintains {p : α → Prop} {inv : FileTree → Prop}
    (h : ∀ handler ∈ handlers, handler.Keeps p) {innermost : α → EngineM α}
    (hinner : ∀ value, p value → Maintains inv (innermost value)) (value : α) (hvalue : p value) :
    Maintains inv (runWith context innermost handlers value) := by
  induction handlers generalizing value with
  | nil => exact hinner value hvalue
  | cons handler rest ih =>
    exact h handler List.mem_cons_self inv value context _ hvalue
      (ih fun other hother => h other (List.mem_cons_of_mem _ hother))

end Pipeline

namespace Registry

variable {r : Registry α} {p : Handler α → Prop}
  (htagged : ∀ entry ∈ r.handlers, ∀ handler ∈ entry.2, p handler)
  (htyped : ∀ entry ∈ r.typeHooks, ∀ stage handler, entry.2 stage = some handler → p handler)

include htagged htyped

/-- What holds of all registered handlers holds of those of a stage. -/
theorem forall_handlersFor (space type stage : String) :
    ∀ handler ∈ r.handlersFor space type stage, p handler := by
  intro handler hmem
  unfold handlersFor at hmem
  rcases List.mem_append.mp hmem with hmem | hmem
  · unfold get at hmem
    cases hget : r.handlers.get? (tag space type stage) with
    | none =>
      rw [hget] at hmem
      cases hmem
    | some handlers =>
      rw [hget] at hmem
      exact htagged _ (Keyed.mem_of_get? hget) handler hmem
  · unfold hook? at hmem
    obtain ⟨hooks, hget, hhook⟩ := Option.bind_eq_some_iff.mp (Option.mem_toList.mp hmem)
    exact htyped _ (Keyed.mem_of_get? hget) _ handler hhook

theorem forall_chain (space type : String) (stages : List String) :
    ∀ handler ∈ r.chain space type stages, p handler := by
  intro handler hmem
  obtain ⟨stage, -, hstage⟩ := List.mem_flatMap.mp hmem
  exact forall_handlersFor htagged htyped space type stage handler hstage

end Registry

namespace Rule

theorem exec_trace (r : Rule α) (point : String) (state : State) :
    ∃ after, exec (r.trace point) state = (.ok ⟨⟩, after) ∧ after.Alike state := by
  unfold trace
  cases r.label with
  | none => exact ⟨state, rfl, .refl state⟩
  | some label => exact ⟨_, rfl, ⟨rfl, rfl⟩⟩

theorem trace_quiet (r : Rule α) (point : String) : Quiet (r.trace point) := by
  intro state
  obtain ⟨after, hexec, halike⟩ := r.exec_trace point state
  rw [hexec]
  exact halike.files

/-- A rule that runs the rest once and lets its errors through has the outcome of the rest. -/
theorem exec_proceed {r : Rule α} (htwice : r.twice = false) (hrecover : r.recover = false)
    (value : α) (next : α → EngineM α) (state : State) :
    exec (r.proceed value next) state = exec (next value) state := by
  unfold proceed
  rw [htwice, if_neg Bool.false_ne_true, exec_bind_ok (exec_outcome _ _)]
  rcases exec (next value) state with ⟨cause | result, left⟩
  · dsimp only
    rw [hrecover, if_neg Bool.false_ne_true, exec_throw]
  · rfl

theorem proceed_maintains (r : Rule α) {inv : FileTree → Prop} (value : α) {next : α → EngineM α}
    (hnext : Maintains inv (next value)) : Maintains inv (r.proceed value next) := by
  unfold proceed
  refine .of_ite ?_ ?_
  · exact .of_bind hnext fun _ _ => .of_bind hnext fun _ _ => .of_quiet (.of_pure _)
  · refine .of_bind (x := EngineM.outcome (next value)) hnext fun outcome _ => .of_quiet ?_
    cases outcome with
    | ok result => exact .of_pure _
    | error cause => exact .of_ite (.of_pure _) (.of_throw _)

/-- A rule keeps what its change of the value keeps. -/
theorem keeps {r : Rule α} {p : α → Prop}
    (h : ∀ context value passed, p value → r.before context value = some passed → p passed) :
    r.handler.Keeps p := by
  intro inv value context next hvalue hnext
  unfold handler
  refine .of_bind (.of_quiet (r.trace_quiet _)) fun _ _ => ?_
  refine .of_ite (.of_quiet (.of_throw _)) ?_
  cases hbefore : r.before context value with
  | none => exact .of_quiet (.of_throw _)
  | some passed =>
    refine .of_ite (.of_quiet (.of_pure _)) (.of_bind (r.proceed_maintains passed
      (hnext passed (h context value passed hvalue hbefore))) fun result _ => .of_quiet ?_)
    exact .of_ite (.of_throw _) (.of_bind (r.trace_quiet _) fun _ => .of_pure _)

/-- A handler that a rule describes writes to no file. -/
theorem keepsFiles (r : Rule α) : r.handler.KeepsFiles := by
  intro value context next hnext
  have hkeeps : r.handler.Keeps fun _ => True := keeps fun _ _ _ _ _ => trivial
  exact quiet_iff_maintains.mpr fun files =>
    hkeeps (· = files) value context next trivial fun passed _ => .of_quiet (hnext passed)

end Rule

namespace Engine

/-- An engine whose restrictions change no file. -/
def RestrictsQuietly (e : Engine) : Prop :=
  ∀ type, ∀ handler ∈ e.restrictions.handlersFor e.space type Registry.restrictionStage,
    handler.KeepsFiles

/-- An engine whose reads change no file, whatever handlers they pass. -/
structure ReadsQuietly (e : Engine) : Prop where
  restricts : e.RestrictsQuietly
  presents : ∀ type, ∀ handler ∈ e.hooks.handlersFor e.space type Registry.readStage,
    handler.KeepsFiles

theorem ReadsPlainly.readsQuietly {e : Engine} (h : e.ReadsPlainly) : e.ReadsQuietly where
  restricts type handler hmem := by
    rw [h.unrestricted] at hmem
    cases hmem
  presents type handler hmem := by
    rw [h.unhooked] at hmem
    cases hmem

theorem Bare.restrictsQuietly {e : Engine} (h : e.Bare) : e.RestrictsQuietly :=
  h.readsPlainly.readsQuietly.restricts

variable {e : Engine} {requestId : String} {t : DocumentType} {op : Operation} {state : State}

theorem fetch_quiet (s : Store) (type : String) (query : Query) : Quiet (s.fetch type query) := by
  intro state
  obtain ⟨fetched, hfetch, halike⟩ := s.exec_fetch type query state
  rw [hfetch]
  exact halike.files

theorem load_quiet (s : Store) (type id : String) : Quiet (s.load type id) := by
  intro state
  unfold Store.load
  rw [exec_bind_ok (exec_get state), exec_ofExcept]

section

variable (he : e.RestrictsQuietly)

include he

theorem restrict_quiet (type : String) (query : Query) :
    Quiet (e.restrict requestId type query) := by
  have hrun : Quiet (Pipeline.run (e.contextOf requestId type)
      (e.restrictions.handlersFor e.space type Registry.restrictionStage) query.filter) :=
    Pipeline.run_quiet (he type) query.filter
  unfold restrict
  cases hhandlers : e.restrictions.handlersFor e.space type Registry.restrictionStage with
  | nil => exact .of_pure _
  | cons handler rest =>
    rw [hhandlers] at hrun
    exact .of_bind hrun fun _ => .of_pure _

theorem fetchRestricted_quiet (type : String) (query : Query) :
    Quiet (e.fetchRestricted requestId type query) := by
  unfold fetchRestricted
  exact .of_bind (restrict_quiet he type query) fun _ => .of_ofStore (fetch_quiet _ _ _)

/-- Looking a document up changes no file. -/
theorem lookup_quiet (id : Json) : Quiet (e.lookup requestId t id) := by
  unfold lookup
  exact .of_bind (.of_engineLift _) fun _ =>
    .of_bind (fetchRestricted_quiet he _ _) fun _ => .of_pure _

theorem requireDocument_quiet (id : Json) : Quiet (e.requireDocument requestId t id) := by
  unfold requireDocument
  refine .of_bind (lookup_quiet he id) fun found => ?_
  cases found with
  | none => exact .of_throw _
  | some doc => exact .of_pure _

theorem findExisting_quiet (input : Document) : Quiet (e.findExisting requestId t input) := by
  unfold findExisting
  split
  · exact .of_throw _
  · exact .of_throw _
  · exact requireDocument_quiet he _

end

theorem checkUnused_quiet (input : Document) : Quiet (e.checkUnused t input) := by
  unfold checkUnused
  cases idOf? t input with
  | none => exact .of_pure _
  | some id =>
    refine .of_bind (.of_ofStore (load_quiet _ _ _)) fun found => ?_
    exact .of_ite (.of_throw _) (.of_pure _)

theorem decided_quiet {α : Type} (decision : Noted α) : Quiet (decided decision) := by
  unfold decided
  refine .of_bind ?_ fun _ => .of_pure _
  induction decision.notes with
  | nil => exact .of_pure _
  | cons note notes ih => exact .of_bind (.of_modify fun _ => rfl) fun _ => ih

theorem authorize_quiet (incoming : Document) (existing : List Document) :
    Quiet (e.authorize t op incoming existing) := by
  unfold authorize
  exact .of_bind (decided_quiet _) fun allowed => .of_ite (.of_throw _) (.of_pure _)

theorem loadReferenced_quiet (f : Field) (target : String) (ids : List String) :
    Quiet (e.loadReferenced f target ids) := by
  induction ids with
  | nil => exact .of_pure _
  | cons id ids ih =>
    unfold loadReferenced
    refine .of_bind (.of_ofStore (load_quiet e.store target id)) fun found => ?_
    cases found with
    | some doc => exact .of_bind ih fun _ => .of_pure _
    | none => exact .of_throw _

theorem addReferenced_quiet (related : Keyed Json) (key : String) (v : Json) :
    Quiet (e.addReferenced t related key v) := by
  unfold addReferenced
  cases Mutation.referenceField? t key with
  | none => exact .of_pure _
  | some f =>
    dsimp only
    cases f.target? with
    | none => exact .of_pure _
    | some target => exact .of_bind (loadReferenced_quiet f target _) fun _ => .of_pure _

theorem checkReferences_quiet (input : Document) : Quiet (e.checkReferences t input) := by
  unfold checkReferences
  generalize ([] : Keyed Json) = related
  induction input generalizing related with
  | nil => exact .of_pure _
  | cons entry input ih =>
    rw [List.foldlM_cons]
    exact .of_bind (addReferenced_quiet related entry.1 entry.2) fun related => ih related

theorem checkValid_quiet (input : Document) (mode : ValidationMode) :
    Quiet (e.checkValid t input mode) := by
  unfold checkValid
  exact .of_bind (decided_quiet _) fun violations => .of_ite (.of_throw _) (.of_pure _)

/-- Preparing a document changes no file. -/
theorem prepareDocument_quiet (he : e.RestrictsQuietly) (arguments : Document) :
    Quiet (e.prepareDocument requestId t op arguments) := by
  have hrest : ∀ (input : Document) (existing : Option Document),
      Quiet (e.authorize t op input existing.toList >>= fun _ =>
        e.checkReferences t input >>= fun related =>
          e.checkValid t (input.union op.set)
            (if op.context = .create then .full else .partialUpdate) >>= fun _ =>
              pure (Mutation.merge t related (existing.getD []) (input.union op.set))) := by
    intro input existing
    exact .of_bind (authorize_quiet _ _) fun _ => .of_bind (checkReferences_quiet _) fun _ =>
      .of_bind (checkValid_quiet _ _) fun _ => .of_pure _
  unfold prepareDocument
  refine .of_bind (.of_engineLift _) fun input => .of_bind (.of_engineLift _) fun _ => ?_
  dsimp only
  refine .of_ite (.of_bind (checkUnused_quiet _) fun _ => .of_bind (.of_pure _) fun existing =>
    hrest _ existing) (.of_bind ?_ fun existing => hrest _ existing)
  rw [map_eq_pure_bind]
  exact .of_bind (findExisting_quiet he _) fun _ => .of_pure _

theorem identified_quiet (doc : Document) : Quiet (identified t doc) := by
  intro state
  unfold identified
  cases idOf? t doc with
  | some id => rfl
  | none =>
    rw [exec_bind_ok (exec_get state), exec_bind_ok (exec_set _ state)]
    rfl

section

variable (he : e.ReadsQuietly)

include he

theorem read_quiet (type : String) (query : Query) : Quiet (e.read requestId type query) := by
  unfold read
  refine .of_bind (fetchRestricted_quiet he.restricts type query) fun docs => ?_
  induction docs with
  | nil => exact .of_pure _
  | cons doc docs ih =>
    rw [List.mapM_cons]
    refine .of_bind ?_ fun _ => .of_bind ih fun _ => .of_pure _
    exact Pipeline.run_quiet (he.presents type) _

theorem loadBatch_quiet (ids : List String) : Quiet (e.loadBatch requestId t ids) := by
  unfold loadBatch
  refine .of_bind (read_quiet he _ _) fun docs => ?_
  exact .of_bind (.of_modify fun _ => rfl) fun _ => .of_bind (.of_modify fun _ => rfl) fun _ =>
    .of_pure _

theorem resolveQuery_quiet (selection : Selection) (path : ResponsePath) :
    Quiet (e.resolveQuery requestId selection path) := by
  unfold resolveQuery
  cases e.schema.roots.get? selection.name with
  | none => exact .of_throw _
  | some root =>
    dsimp only
    refine .of_bind ?_ fun t => .of_bind (.of_engineLift _) fun query =>
      .of_bind (read_quiet he _ _) fun docs => .of_ite (.of_pure _) ?_
    · unfold requireType
      cases e.schema.type? root.type with
      | none => exact .of_throw _
      | some t => exact .of_pure _
    · cases docs with
      | nil => exact .of_pure _
      | cons doc docs => exact .of_pure _

end

theorem reportRejection_quiet (requestId : String) (t : DocumentType) (op : Operation)
    (cause : EngineError) : Quiet (reportRejection requestId t op cause) := by
  unfold reportRejection
  refine .of_ite (.of_bind (.of_modify ?_) fun _ => .of_modify ?_) (.of_pure _) <;>
    exact fun _ => rfl

/-- A step of a request that leaves the files as they are. -/
def KeepsFiles (x : ResolutionM α) : Prop :=
  ∀ r state, (after x r state).2.files = state.files

namespace KeepsFiles

variable {β : Type}

theorem of_pure (a : α) : KeepsFiles (pure a) := fun _ _ => rfl

theorem of_bind {x : ResolutionM α} {f : α → ResolutionM β} (hx : KeepsFiles x)
    (hf : ∀ a, KeepsFiles (f a)) : KeepsFiles (x >>= f) := fun r state =>
  (hf (after x r state).1.1 (after x r state).1.2 (after x r state).2).trans (hx r state)

theorem of_get : KeepsFiles (get : ResolutionM Resolution) := fun _ _ => rfl

theorem of_modify (f : Resolution → Resolution) : KeepsFiles (modify f : ResolutionM PUnit) :=
  fun _ _ => rfl

theorem of_attempt {x : EngineM α} (hx : Quiet x) : KeepsFiles (attempt x) :=
  fun _ state => hx state

theorem of_fail (requestId : String) (error : ResponseError) : KeepsFiles (fail requestId error) :=
  fun _ _ => rfl

theorem of_absorb (requestId : String) (p : Projected) : KeepsFiles (absorb requestId p) := by
  unfold absorb
  refine .of_bind ?_ fun _ => .of_bind (.of_modify _) fun _ => .of_pure _
  induction p.faults with
  | nil => exact .of_pure _
  | cons fault faults ih => exact .of_bind (.of_fail requestId fault) fun _ => ih

theorem of_takeOver (requestId : String) (path : ResponsePath)
    (result : Except EngineError Projected) : KeepsFiles (takeOver requestId path result) := by
  cases result with
  | ok projected => exact .of_absorb requestId projected
  | error cause => exact .of_bind (.of_fail requestId _) fun _ => .of_pure _

theorem of_foldlM {f : β → α → ResolutionM β} (hf : ∀ b a, KeepsFiles (f b a)) (b : β)
    (items : List α) : KeepsFiles (items.foldlM f b) := by
  induction items generalizing b with
  | nil => exact .of_pure b
  | cons item items ih =>
    rw [List.foldlM_cons]
    exact .of_bind (hf b item) ih

end KeepsFiles

theorem fillSlot_keepsFiles (failures : Keyed EngineError) (data : Json) (slot : Slot) :
    KeepsFiles (e.fillSlot requestId failures data slot) := by
  unfold fillSlot
  cases failures.get? slot.type with
  | some cause => exact .of_bind (.of_fail requestId _) fun _ => .of_pure _
  | none => exact .of_bind .of_get fun _ => .of_bind (.of_absorb requestId _) fun _ => .of_pure _

section

variable (he : e.ReadsQuietly)

include he

theorem loadType_keepsFiles (type : String) (ids : List String) :
    KeepsFiles (e.loadType requestId type ids) := by
  unfold loadType
  cases e.schema.type? type with
  | none => exact .of_pure _
  | some t =>
    refine .of_bind (.of_attempt (loadBatch_quiet he ids)) fun outcome => ?_
    cases outcome with
    | error cause => exact .of_pure _
    | ok docs => exact .of_bind (.of_modify _) fun _ => .of_pure _

theorem loadMissing_keepsFiles (entries : Keyed (List String)) :
    KeepsFiles (e.loadMissing requestId entries) := by
  induction entries with
  | nil => exact .of_pure _
  | cons entry entries ih =>
    exact .of_bind (loadType_keepsFiles he entry.1 entry.2) fun _ => .of_bind ih fun _ => .of_pure _

/-- Filling the slots of a request changes no file. -/
theorem flush_keepsFiles (data : Json) : KeepsFiles (e.flush requestId data) := by
  have hround : ∀ data, KeepsFiles (e.resolveRound requestId data) := fun data =>
    .of_bind .of_get fun _ => .of_bind (.of_modify _) fun _ =>
      .of_bind (loadMissing_keepsFiles he _) fun failures =>
        .of_foldlM (fillSlot_keepsFiles failures) data _
  have hrounds : ∀ fuel data, KeepsFiles (e.resolveRounds requestId fuel data) := by
    intro fuel
    induction fuel with
    | zero => exact fun data => .of_pure data
    | succ fuel ih =>
      intro data
      refine .of_bind .of_get fun r => ?_
      split
      · exact .of_bind (hround data) ih
      · exact .of_pure data
  exact .of_bind .of_get fun r => hrounds r.batch.rounds data

end

end Engine

end DocumentEngine
