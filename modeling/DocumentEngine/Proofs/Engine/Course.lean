import DocumentEngine.Proofs.Engine.Query
import DocumentEngine.Proofs.Projection.Answers

/-!
The course of a request, whatever its handlers do. A root field comes to a projection of documents
or to null with an error, and leaves the slots of the projection behind those that wait. A round
fills every slot that waited with what the batch knows after its fetches, or with null and the error
of the fetch for its type; what the fillings leave open is all that waits afterwards.
-/

namespace DocumentEngine.Engine

open Action

/-- What a root field of a request can come to: an error, a plain value, or the projection of
documents. -/
inductive RootOutcome (s : Schema) (selection : Selection) : Projected → Prop
  | failed (cause : EngineError) :
      RootOutcome s selection ⟨.null, [], [⟨[.key selection.responseKey], cause⟩]⟩
  | plain (v : Json) : RootOutcome s selection ⟨v, [], []⟩
  | list (t : DocumentType) (docs : List Document) :
      RootOutcome s selection
        (Projection.projectList s t docs selection.selections [.key selection.responseKey])
  | document (t : DocumentType) (doc : Document) :
      RootOutcome s selection
        (Projection.project s t doc selection.selections [.key selection.responseKey] .stored)

variable {e : Engine} {requestId : String} {selection : Selection} {state state' : State}
  {p : Projected}

theorem RootOutcome.answers {s : Schema} (h : RootOutcome s selection p) :
    p.Answers selection [.key selection.responseKey] := by
  cases h with
  | failed cause => exact .fault ..
  | plain v => exact .value ..
  | list t docs => exact Projection.projectList_answers s t docs selection _
  | document t doc => exact Projection.project_answers s t doc selection _ .stored

theorem rootOutcome_of_query
    (h : exec (e.resolveQuery requestId selection [.key selection.responseKey]) state =
      (.ok p, state')) : RootOutcome e.schema selection p := by
  unfold resolveQuery at h
  cases hroot : e.schema.roots.get? selection.name with
  | none =>
    rw [hroot] at h
    cases h
  | some root =>
    rw [hroot] at h
    obtain ⟨t, _, -, h⟩ := exec_bind_eq_ok h
    obtain ⟨query, _, -, h⟩ := exec_bind_eq_ok h
    obtain ⟨docs, _, -, h⟩ := exec_bind_eq_ok h
    cases hplural : root.plural with
    | true =>
      rw [hplural, if_pos rfl] at h
      cases h
      exact .list t docs
    | false =>
      rw [hplural, if_neg Bool.false_ne_true] at h
      cases docs with
      | nil =>
        cases h
        exact .plain .null
      | cons doc docs =>
        cases h
        exact .document t doc

theorem rootOutcome_of_runMutation {t : DocumentType} {op : Operation}
    (h : exec (e.runMutation requestId t op selection [.key selection.responseKey]) state =
      (.ok p, state')) : RootOutcome e.schema selection p := by
  have hwrite : ∀ {state state' : State},
      exec (e.write requestId t op selection.arguments >>= fun doc =>
        pure (Projection.project e.schema t doc selection.selections
          [.key selection.responseKey] .stored)) state = (.ok p, state') →
      RootOutcome e.schema selection p := by
    intro state state' h
    obtain ⟨doc, _, -, h⟩ := exec_bind_eq_ok h
    cases h
    exact .document t doc
  unfold runMutation at h
  cases hcontext : op.context with
  | delete =>
    rw [hcontext] at h
    obtain ⟨_, _, -, h⟩ := exec_bind_eq_ok h
    cases h
    exact .plain (.bool true)
  | create =>
    rw [hcontext] at h
    exact hwrite h
  | modify =>
    rw [hcontext] at h
    exact hwrite h

theorem rootOutcome_of_mutation
    (h : exec (e.resolveMutation requestId selection [.key selection.responseKey]) state =
      (.ok p, state')) : RootOutcome e.schema selection p := by
  unfold resolveMutation at h
  cases hentry : e.mutations.get? selection.name with
  | none =>
    rw [hentry] at h
    cases h
  | some entry =>
    rw [hentry] at h
    obtain ⟨t, between, -, h⟩ := exec_bind_eq_ok h
    rw [exec_bind_ok (exec_outcome _ between)] at h
    rcases hrun : exec (e.runMutation requestId t entry.operation selection
      [.key selection.responseKey]) between with ⟨cause | p', left⟩
    · rw [hrun] at h
      obtain ⟨_, _, -, h⟩ := exec_bind_eq_ok h
      cases h
    · rw [hrun] at h
      cases h
      exact rootOutcome_of_runMutation hrun

/-- What a step gives and leaves where it reports that. -/
theorem Reports.exists_after {α : Type} {x : ResolutionM α} {r : Resolution} {state : State} {a : α}
    {b : Batch} {errors : List ResponseError} (h : Reports x r state a b errors) :
    ∃ left, after x r state = ((a, ⟨b, r.errors ++ errors⟩), left) := by
  refine ⟨(after x r state).2, Prod.ext (Prod.ext h.value_eq ?_) rfl⟩
  rw [← h.batch_eq, ← h.errors_eq]

/-- A root field leaves the slots of what it comes to behind those that wait, and its faults behind
the errors so far. -/
theorem exists_rootOutcome (e : Engine) (requestId : String) (kind : RequestKind)
    (selection : Selection) (r : Resolution) (state : State) :
    ∃ p left, RootOutcome e.schema selection p ∧
      after (e.resolveRoot requestId kind selection) r state =
        ((p.value, ⟨{ r.batch with pending := r.batch.pending ++ p.slots }, r.errors ++ p.faults⟩),
          left) := by
  have htaken : ∀ (x : EngineM Projected) (between : State) (result : Except EngineError Projected),
      exec x state = (result, between) → (∀ p, result = .ok p → RootOutcome e.schema selection p) →
      ∃ p left, RootOutcome e.schema selection p ∧
        after (attempt x >>= takeOver requestId [.key selection.responseKey]) r state =
          ((p.value,
            ⟨{ r.batch with pending := r.batch.pending ++ p.slots }, r.errors ++ p.faults⟩),
            left) := by
    intro x between result hx hresult
    have hafter : after (attempt x >>= takeOver requestId [.key selection.responseKey]) r state =
        after (takeOver requestId [.key selection.responseKey] (exec x state).1) r
          (exec x state).2 := rfl
    obtain ⟨left, hleft⟩ := (@Reports.of_takeOver r between requestId
      [.key selection.responseKey] result).exists_after
    rw [hafter, hx, hleft]
    cases result with
    | ok p => exact ⟨p, left, hresult p rfl, rfl⟩
    | error cause => exact ⟨_, left, .failed cause, rfl⟩
  rw [resolveRoot_eq]
  cases kind with
  | query =>
    rcases hexec : exec (e.resolveQuery requestId selection [.key selection.responseKey]) state
      with ⟨result, between⟩
    exact htaken _ between result hexec fun p hp => rootOutcome_of_query (hp ▸ hexec)
  | mutation =>
    rcases hexec : exec (e.resolveMutation requestId selection [.key selection.responseKey]) state
      with ⟨result, between⟩
    exact htaken _ between result hexec fun p hp => rootOutcome_of_mutation (hp ▸ hexec)

/-- A root field of a query adds its value to the data. -/
theorem after_addRoot_query {v : Json} {r r' : Resolution} {left : State}
    (h : after (e.resolveRoot requestId .query selection) r state = ((v, r'), left))
    (data : Document) :
    after (e.addRoot requestId .query data selection) r state =
      ((data.insert selection.responseKey v, r'), left) := by
  let root := after (e.resolveRoot requestId .query selection) r state
  have hafter : after (e.addRoot requestId .query data selection) r state =
      ((data.insert selection.responseKey root.1.1, root.1.2), root.2) := rfl
  rw [hafter]
  change root = _ at h
  rw [h]

/-- A root field of a mutation adds its value to the data and flushes them. -/
theorem after_addRoot_mutation {v : Json} {r r' : Resolution} {left : State}
    (h : after (e.resolveRoot requestId .mutation selection) r state = ((v, r'), left))
    (data : Document) :
    let flushed := after (e.flush requestId (.obj (data.insert selection.responseKey v))) r' left
    after (e.addRoot requestId .mutation data selection) r state =
      ((flushed.1.1.obj?.getD [], flushed.1.2), flushed.2) := by
  let root := after (e.resolveRoot requestId .mutation selection) r state
  let flushed := after (e.flush requestId (.obj (data.insert selection.responseKey root.1.1)))
    root.1.2 root.2
  have hafter : after (e.addRoot requestId .mutation data selection) r state =
      ((flushed.1.1.obj?.getD [], flushed.1.2), flushed.2) := rfl
  intro expected
  have hsame : flushed = expected := by
    change after (e.flush requestId (.obj (data.insert selection.responseKey root.1.1)))
      root.1.2 root.2 = _
    change root = _ at h
    rw [h]
  rw [hafter, hsame]

/-- What fills a slot of a round: the documents that a batch knows, or null with the error of the
fetch for its type. -/
def filled (e : Engine) (failures : Keyed EngineError) (b : Batch) (slot : Slot) : Projected :=
  match failures.get? slot.type with
  | some cause => ⟨.null, [], [⟨slot.path, cause⟩]⟩
  | none => b.fill e.schema slot

/-- A slot is filled with slots that are below it and smaller. -/
theorem filled_bounded (e : Engine) (failures : Keyed EngineError) (b : Batch) (slot : Slot) :
    (e.filled failures b slot).Bounded slot.path (slot.size - 1) := by
  unfold filled
  cases failures.get? slot.type with
  | some cause => exact .closed .null _
  | none => exact b.fill_bounded e.schema slot

theorem filled_answers (e : Engine) (failures : Keyed EngineError) (b : Batch) (slot : Slot) :
    (e.filled failures b slot).Answers slot.selection slot.path := by
  unfold filled
  cases failures.get? slot.type with
  | some cause => exact .fault ..
  | none => exact slot.filling_answers e.schema b.lookup

theorem foldl_fillInto (e : Engine) (failures : Keyed EngineError) (data : Json) (b : Batch)
    (round : List Slot) :
    round.foldl (fillInto e failures) (data, b) =
      (Direct.fillAll (fun slot => e.filled failures b slot) data round,
        { b with
          pending := b.pending ++ round.flatMap fun slot => (e.filled failures b slot).slots }) := by
  induction round generalizing data b with
  | nil =>
    rw [List.foldl_nil, List.flatMap_nil, List.append_nil]
    rfl
  | cons slot round ih =>
    have hone : fillInto e failures (data, b) slot =
        (data.setAt (e.filled failures b slot).value slot.path,
          { b with pending := b.pending ++ (e.filled failures b slot).slots }) := by
      unfold fillInto filled
      cases failures.get? slot.type with
      | some cause =>
        dsimp only
        rw [List.append_nil]
      | none =>
        dsimp only
        rw [Batch.foldl_defer]
    rw [List.foldl_cons, hone, ih, List.flatMap_cons, ← List.append_assoc]
    rfl

/-- A step that leaves the slots that wait and the errors as they are. -/
def LoadsOnly {α : Type} (x : ResolutionM α) : Prop :=
  ∀ r state, (after x r state).1.2.batch.pending = r.batch.pending ∧
    (after x r state).1.2.errors = r.errors

namespace LoadsOnly

variable {α β : Type}

theorem of_pure (a : α) : LoadsOnly (pure a) := fun _ _ => ⟨rfl, rfl⟩

theorem of_bind {x : ResolutionM α} {f : α → ResolutionM β} (hx : LoadsOnly x)
    (hf : ∀ a, LoadsOnly (f a)) : LoadsOnly (x >>= f) := fun r state =>
  have hrest := hf (after x r state).1.1 (after x r state).1.2 (after x r state).2
  ⟨hrest.1.trans (hx r state).1, hrest.2.trans (hx r state).2⟩

end LoadsOnly

theorem loadsOnly_loadMissing (e : Engine) (requestId : String) (entries : Keyed (List String)) :
    LoadsOnly (e.loadMissing requestId entries) := by
  have htype : ∀ type ids, LoadsOnly (e.loadType requestId type ids) := by
    intro type ids
    unfold loadType
    cases e.schema.type? type with
    | none => exact .of_pure _
    | some t =>
      refine .of_bind (x := attempt _) (fun _ _ => ⟨rfl, rfl⟩) fun outcome => ?_
      cases outcome with
      | error cause => exact .of_pure _
      | ok docs =>
        exact .of_bind (x := modify _) (fun r _ => ⟨Batch.pending_rememberAll ids docs, rfl⟩)
          fun _ => .of_pure _
  induction entries with
  | nil => exact .of_pure _
  | cons entry entries ih =>
    exact .of_bind (htype entry.1 entry.2) fun _ => .of_bind ih fun _ => .of_pure _

/-- Slots that are filled one after the other leave what is open in their fillings behind the slots
that wait, and what is wrong with these behind the errors so far. -/
theorem exists_fillSlots (e : Engine) (requestId : String) (failures : Keyed EngineError)
    (round : List Slot) (data : Json) (r : Resolution) (state : State) :
    ∃ left, after (round.foldlM (e.fillSlot requestId failures) data) r state =
      ((Direct.fillAll (e.filled failures r.batch) data round,
        ⟨{ r.batch with
            pending := r.batch.pending ++
              round.flatMap fun slot => (e.filled failures r.batch slot).slots },
          r.errors ++ round.flatMap fun slot => (e.filled failures r.batch slot).faults⟩),
        left) := by
  obtain ⟨left, hleft⟩ :=
    (@reports_fillSlots e requestId r state failures round data).exists_after
  have hfaults : ∀ slot, slotErrors e failures r.batch slot =
      (e.filled failures r.batch slot).faults := by
    intro slot
    unfold slotErrors filled
    cases failures.get? slot.type <;> rfl
  refine ⟨left, ?_⟩
  rw [hleft, foldl_fillInto, List.flatMap_congr fun slot _ => hfaults slot]

/-- A round fills the slots that waited; what their fillings leave open waits afterwards, and what
is wrong with them stands behind the errors so far. -/
theorem exists_round (e : Engine) (requestId : String) (data : Json) (r : Resolution)
    (state : State) :
    ∃ failures loaded left, after (e.resolveRound requestId data) r state =
      ((Direct.fillAll (e.filled failures loaded) data r.batch.pending,
        ⟨{ loaded with
            pending := r.batch.pending.flatMap fun slot => (e.filled failures loaded slot).slots },
          r.errors ++ r.batch.pending.flatMap fun slot => (e.filled failures loaded slot).faults⟩),
        left) := by
  let taken : Resolution := { r with batch := { r.batch with pending := [] } }
  let loads := after (e.loadMissing requestId
    (taken.batch.missing r.batch.pending)) taken state
  have hafter : after (e.resolveRound requestId data) r state =
      after (r.batch.pending.foldlM (e.fillSlot requestId loads.1.1) data) loads.1.2 loads.2 := rfl
  obtain ⟨hpending, herrors⟩ := loadsOnly_loadMissing e requestId
    (taken.batch.missing r.batch.pending) taken state
  change loads.1.2.batch.pending = [] at hpending
  change loads.1.2.errors = r.errors at herrors
  obtain ⟨left, hleft⟩ := e.exists_fillSlots requestId loads.1.1 r.batch.pending data loads.1.2
    loads.2
  refine ⟨loads.1.1, loads.1.2.batch, left, ?_⟩
  rw [hafter, hleft, hpending, herrors, List.nil_append]

end DocumentEngine.Engine
