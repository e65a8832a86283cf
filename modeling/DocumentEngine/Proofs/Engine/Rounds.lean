import DocumentEngine.Proofs.Engine.Reading

/-!
Rounds as functions. What a step of a request gives, what batch it leaves and which errors it
records depend only on the batch and the files that it starts from; counters, the log and the errors
so far change nothing.
-/

namespace DocumentEngine.Engine

open Action

variable {α β : Type}

/-- Takes the outcome of a root field over: its projection, or its error with null in its place. -/
def takeOver (requestId : String) (path : ResponsePath) :
    Except EngineError Projected → ResolutionM Json
  | .ok projected => absorb requestId projected
  | .error cause => do
    fail requestId ⟨path, cause⟩
    return .null

/-- What a step gives, and the request and the state that it leaves. -/
def after (x : ResolutionM α) (r : Resolution) (state : State) : (α × Resolution) × State :=
  (x.run r).run state

/-- A step that gives a value and leaves a batch, and a state like the one it started from. -/
structure Yields (x : ResolutionM α) (r : Resolution) (state : State) (a : α) (b : Batch) :
    Prop where
  value_eq : (after x r state).1.1 = a
  batch_eq : (after x r state).1.2.batch = b
  alike : (after x r state).2.Alike state

namespace Yields

variable {r : Resolution} {state : State}

theorem of_pure (a : α) : Yields (pure a) r state a r.batch := ⟨rfl, rfl, .refl state⟩

theorem of_bind {x : ResolutionM α} {f : α → ResolutionM β} {a : α} {b : Batch} {c : β} {d : Batch}
    (hx : Yields x r state a b)
    (hf : ∀ r' state', r'.batch = b → state'.Alike state → Yields (f a) r' state' c d) :
    Yields (x >>= f) r state c d := by
  have hbind : after (x >>= f) r state =
      after (f (after x r state).1.1) (after x r state).1.2 (after x r state).2 := rfl
  have hrest := hf (after x r state).1.2 (after x r state).2 hx.batch_eq hx.alike
  rw [← hx.value_eq] at hrest
  exact ⟨by rw [hbind, hrest.value_eq], by rw [hbind, hrest.batch_eq],
    by rw [hbind]; exact hrest.alike.trans hx.alike⟩

theorem of_get : Yields (get : ResolutionM Resolution) r state r r.batch :=
  ⟨rfl, rfl, .refl state⟩

theorem of_modify (f : Resolution → Resolution) :
    Yields (modify f : ResolutionM PUnit) r state ⟨⟩ (f r).batch :=
  ⟨rfl, rfl, .refl state⟩

theorem of_fail (requestId : String) (error : ResponseError) :
    Yields (fail requestId error) r state ⟨⟩ r.batch :=
  ⟨rfl, rfl, ⟨rfl, rfl⟩⟩

theorem of_attempt {x : EngineM α} {result : Except EngineError α} {state' : State}
    (hx : exec x state = (result, state')) (halike : state'.Alike state) :
    Yields (attempt x) r state result r.batch := by
  have hafter : after (attempt x) r state = (((exec x state).1, r), (exec x state).2) := rfl
  rw [hx] at hafter
  exact ⟨by rw [hafter], by rw [hafter], by rw [hafter]; exact halike⟩

end Yields

/-- A step that gives a value, leaves a batch and records errors. -/
structure Reports (x : ResolutionM α) (r : Resolution) (state : State) (a : α) (b : Batch)
    (errors : List ResponseError) : Prop extends Yields x r state a b where
  errors_eq : (after x r state).1.2.errors = r.errors ++ errors

namespace Reports

variable {r : Resolution} {state : State}

theorem of_quiet {x : ResolutionM α} {a : α} {b : Batch} (h : Yields x r state a b)
    (herrors : (after x r state).1.2.errors = r.errors) : Reports x r state a b [] where
  toYields := h
  errors_eq := by rw [herrors, List.append_nil]

theorem of_pure (a : α) : Reports (pure a) r state a r.batch [] := .of_quiet (.of_pure a) rfl

theorem of_bind {x : ResolutionM α} {f : α → ResolutionM β} {a : α} {b : Batch} {c : β} {d : Batch}
    {errors errors' : List ResponseError} (hx : Reports x r state a b errors)
    (hf : ∀ r' state', r'.batch = b → state'.Alike state →
      Reports (f a) r' state' c d errors') :
    Reports (x >>= f) r state c d (errors ++ errors') where
  toYields := .of_bind hx.toYields fun r' state' hr' halike => (hf r' state' hr' halike).toYields
  errors_eq := by
    have hbind : after (x >>= f) r state =
        after (f (after x r state).1.1) (after x r state).1.2 (after x r state).2 := rfl
    have hrest := hf (after x r state).1.2 (after x r state).2 hx.batch_eq hx.alike
    rw [← hx.value_eq] at hrest
    rw [hbind, hrest.errors_eq, hx.errors_eq, List.append_assoc]

/-- After a step that records nothing the errors are those of the next. -/
theorem of_quiet_bind {x : ResolutionM α} {f : α → ResolutionM β} {a : α} {b : Batch} {c : β}
    {d : Batch} {errors : List ResponseError} (hx : Reports x r state a b [])
    (hf : ∀ r' state', r'.batch = b → state'.Alike state → Reports (f a) r' state' c d errors) :
    Reports (x >>= f) r state c d errors := .of_bind hx hf

theorem of_get : Reports (get : ResolutionM Resolution) r state r r.batch [] :=
  .of_quiet .of_get rfl

theorem of_modify (f : Batch → Batch) :
    Reports (modify fun r => { r with batch := f r.batch } : ResolutionM PUnit) r state ⟨⟩
      (f r.batch) [] := .of_quiet (.of_modify _) rfl

theorem of_fail (requestId : String) (error : ResponseError) :
    Reports (fail requestId error) r state ⟨⟩ r.batch [error] := ⟨.of_fail requestId error, rfl⟩

theorem of_attempt {x : EngineM α} {result : Except EngineError α} {state' : State}
    (hx : exec x state = (result, state')) (halike : state'.Alike state) :
    Reports (attempt x) r state result r.batch [] := .of_quiet (.of_attempt hx halike) rfl

/-- A value after a step that was given a batch leaves the batch. -/
theorem of_pure_at {b : Batch} (hr : r.batch = b) (a : α) : Reports (pure a) r state a b [] :=
  hr ▸ .of_pure a

/-- A projection that is taken over leaves its slots behind those that wait. -/
theorem of_absorb (requestId : String) (p : Projected) :
    Reports (absorb requestId p) r state p.value
      { r.batch with pending := r.batch.pending ++ p.slots } p.faults := by
  have hfaults : ∀ (faults : List ResponseError) (r : Resolution) (state : State),
      Reports (faults.forM (fail requestId)) r state ⟨⟩ r.batch faults := by
    intro faults
    induction faults with
    | nil => exact fun r state => .of_pure _
    | cons fault faults ih =>
      intro r state
      have hrest := @of_bind _ _ r state (fail requestId fault)
        (fun _ => faults.forM (fail requestId)) _ _ _ r.batch [fault] faults
        (.of_fail requestId fault) fun r' state' hr' _ => hr' ▸ ih r' state'
      exact hrest
  rw [← List.append_nil p.faults]
  refine .of_bind (hfaults p.faults r state) fun r' state' hr' _ => ?_
  refine .of_quiet_bind (.of_modify fun b => p.slots.foldl Batch.defer b) fun r'' _ hr'' _ => ?_
  refine .of_pure_at ?_ _
  rw [hr'', hr', Batch.foldl_defer]

/-- An outcome that is taken over leaves the slots of its projection behind those that wait, and
its faults or its error at the path. -/
theorem of_takeOver (requestId : String) (path : ResponsePath)
    (result : Except EngineError Projected) :
    Reports (takeOver requestId path result) r state (result.toOption.getD ⟨.null, [], []⟩).value
      { r.batch with
        pending := r.batch.pending ++ (result.toOption.getD ⟨.null, [], []⟩).slots }
      (match result with
        | .ok p => p.faults
        | .error cause => [⟨path, cause⟩]) := by
  cases result with
  | ok p => exact .of_absorb requestId p
  | error cause =>
    have hslots : (Except.toOption (.error cause : Except EngineError Projected)).getD
        ⟨.null, [], []⟩ = ⟨.null, [], []⟩ := rfl
    rw [hslots, List.append_nil]
    exact .of_bind (.of_fail requestId _) fun r' _ hr' _ => .of_pure_at hr' _

end Reports

variable (e : Engine) (files : FileTree)

/-- The batch with the documents of a fetch by ids, if that succeeds. -/
def loadInto (b : Batch) (entry : String × List String) : Batch :=
  match e.loaded files entry.1 entry.2 with
  | .ok (t, docs) => b.rememberAll t entry.2 docs
  | .error _ => b

/-- The error of a fetch by ids, if it fails. -/
def loadFailure? (entry : String × List String) : Option (String × EngineError) :=
  match e.loaded files entry.1 entry.2 with
  | .ok _ => none
  | .error cause => some (entry.1, cause)

/-- The data with a slot filled, and the batch with what the filling leaves open. -/
def fillInto (failures : Keyed EngineError) (found : Json × Batch) (slot : Slot) : Json × Batch :=
  match failures.get? slot.type with
  | some _ => (found.1.setAt .null slot.path, found.2)
  | none =>
    let filling := found.2.fill e.schema slot
    (found.1.setAt filling.value slot.path, filling.slots.foldl Batch.defer found.2)

/-- The data and the batch after a round. -/
def roundOf (data : Json) (b : Batch) : Json × Batch :=
  let entries := b.take.2.missing b.take.1
  b.take.1.foldl (fillInto e (entries.filterMap (loadFailure? e files)))
    (data, entries.foldl (loadInto e files) b.take.2)

/-- The data and the batch after rounds until no slot waits, at most as many as the fuel allows. -/
def roundsOf : Nat → Json → Batch → Json × Batch
  | 0, data, b => (data, b)
  | fuel + 1, data, b =>
    if b.hasPending then roundsOf fuel (roundOf e files data b).1 (roundOf e files data b).2
    else (data, b)

/-- The error that a fetch by ids has for callers, if it has one. -/
def refusedLoad? (refusal : Refusal) (entry : String × List String) :
    Option (String × EngineError) :=
  match e.presented refusal files entry.1 entry.2 with
  | .ok _ => none
  | .error cause => some (entry.1, cause)

/-- The batch with the documents of the fetches that have no error for callers. -/
def admittedLoads (refusal : Refusal) (b : Batch) (entries : Keyed (List String)) : Batch :=
  (entries.filter fun entry => (e.presented refusal files entry.1 entry.2).isOk).foldl
    (loadInto e files) b

/-- The errors of filling a slot with what a batch knows. -/
def slotErrors (failures : Keyed EngineError) (b : Batch) (slot : Slot) : List ResponseError :=
  match failures.get? slot.type with
  | some cause => [⟨slot.path, cause⟩]
  | none => (b.fill e.schema slot).faults

/-- The errors of the fetches of a round, by types. -/
def roundFailures (refusal : Refusal) (b : Batch) : Keyed EngineError :=
  (b.take.2.missing b.take.1).filterMap (refusedLoad? e files refusal)

/-- The batch with what the fetches of a round find. -/
def roundLoads (refusal : Refusal) (b : Batch) : Batch :=
  admittedLoads e files refusal b.take.2 (b.take.2.missing b.take.1)

/-- The data and the batch after a round in which documents may be refused. -/
def refusedRound (refusal : Refusal) (data : Json) (b : Batch) : Json × Batch :=
  b.take.1.foldl (fillInto e (roundFailures e files refusal b))
    (data, roundLoads e files refusal b)

/-- The errors of a round. -/
def roundErrors (refusal : Refusal) (b : Batch) : List ResponseError :=
  b.take.1.flatMap (slotErrors e (roundFailures e files refusal b) (roundLoads e files refusal b))

/-- The data and the batch after rounds in which documents may be refused. -/
def refusedRounds (refusal : Refusal) : Nat → Json → Batch → Json × Batch
  | 0, data, b => (data, b)
  | fuel + 1, data, b =>
    if b.hasPending then
      refusedRounds refusal fuel (refusedRound e files refusal data b).1
        (refusedRound e files refusal data b).2
    else (data, b)

/-- The errors of rounds. -/
def roundsErrors (refusal : Refusal) : Nat → Json → Batch → List ResponseError
  | 0, _, _ => []
  | fuel + 1, data, b =>
    if b.hasPending then
      roundErrors e files refusal b ++
        roundsErrors refusal fuel (refusedRound e files refusal data b).1
          (refusedRound e files refusal data b).2
    else []

section

variable {e : Engine} {files : FileTree} {refusal : Refusal} {requestId : String} {r : Resolution}
  {state : State}

theorem admittedLoads_cons (b : Batch) (entry : String × List String)
    (entries : Keyed (List String)) :
    admittedLoads e files refusal b (entry :: entries) =
      admittedLoads e files refusal (admittedLoads e files refusal b [entry]) entries := by
  unfold admittedLoads
  rw [← List.singleton_append, List.filter_append, List.foldl_append]

theorem admittedLoads_singleton (b : Batch) (entry : String × List String) :
    admittedLoads e files refusal b [entry] =
      match e.presented refusal files entry.1 entry.2 with
      | .ok (t, docs) => b.rememberAll t entry.2 docs
      | .error _ => b := by
  unfold admittedLoads
  rw [List.filter_singleton]
  cases hpresented : e.presented refusal files entry.1 entry.2 with
  | error cause => rfl
  | ok found =>
    change loadInto e files b entry = _
    rw [loadInto, loaded_of_presented hpresented]

theorem refusedLoad?_eq_none_iff (entry : String × List String) :
    refusedLoad? e files refusal entry = none ↔
      (e.presented refusal files entry.1 entry.2).isOk = true := by
  unfold refusedLoad?
  cases e.presented refusal files entry.1 entry.2 with
  | error cause => simp [Except.isOk, Except.toBool]
  | ok found => simp [Except.isOk, Except.toBool]

theorem refusedLoad?_type {entry : String × List String} {failure : String × EngineError}
    (h : refusedLoad? e files refusal entry = some failure) : failure.1 = entry.1 := by
  unfold refusedLoad? at h
  split at h <;> cases h
  rfl

theorem reports_loadType (hr : e.Refuses requestId refusal) (entry : String × List String) :
    Reports (e.loadType requestId entry.1 entry.2) r state
      ((refusedLoad? e state.files refusal entry).map Prod.snd)
      (admittedLoads e state.files refusal r.batch [entry]) [] := by
  rw [admittedLoads_singleton, refusedLoad?]
  unfold loadType
  cases htype : e.schema.type? entry.1 with
  | none =>
    rw [presented_of_no_type htype]
    exact .of_pure _
  | some t =>
    obtain ⟨state', hload, halike⟩ := hr.exec_loadBatch t entry.2 state
    rw [presented_of_type htype]
    refine .of_quiet_bind (.of_attempt hload halike) fun r' state'' hr' _ => ?_
    cases (e.store.found state.files t.name
        { filter := some (.inList t.identifierName (entry.2.map .str)) }).mapError
          EngineError.ofStore >>= refusal.pass t.name with
    | error cause => exact .of_pure_at hr' _
    | ok docs =>
      refine .of_quiet_bind (.of_modify fun b => b.rememberAll t entry.2 docs)
        fun r'' _ hr'' _ => .of_pure_at ?_ _
      rw [hr'', hr']
      rfl

theorem reports_loadMissing (hr : e.Refuses requestId refusal) (entries : Keyed (List String)) :
    Reports (e.loadMissing requestId entries) r state
      (entries.filterMap (refusedLoad? e state.files refusal))
      (admittedLoads e state.files refusal r.batch entries) [] := by
  induction entries generalizing r state with
  | nil => exact .of_pure _
  | cons entry entries ih =>
    unfold loadMissing
    rw [admittedLoads_cons]
    refine .of_quiet_bind (reports_loadType hr entry) fun r' state' hr' halike => ?_
    have hrest := @ih r' state'
    rw [halike.files, hr'] at hrest
    refine .of_quiet_bind hrest fun r'' state'' hr'' _ => ?_
    rw [List.filterMap_cons]
    cases hfailure : refusedLoad? e state.files refusal entry with
    | none => exact .of_pure_at hr'' _
    | some failure =>
      have heq : (entry.1, failure.2) = failure := by rw [← refusedLoad?_type hfailure]
      exact heq ▸ .of_pure_at hr'' _

theorem reports_fillSlot (failures : Keyed EngineError) (data : Json) (slot : Slot) :
    Reports (e.fillSlot requestId failures data slot) r state
      (fillInto e failures (data, r.batch) slot).1 (fillInto e failures (data, r.batch) slot).2
      (slotErrors e failures r.batch slot) := by
  unfold fillSlot fillInto slotErrors
  cases failures.get? slot.type with
  | some cause => exact .of_bind (.of_fail requestId _) fun r' _ hr' _ => .of_pure_at hr' _
  | none =>
    refine .of_quiet_bind .of_get fun r' state' hr' _ => ?_
    dsimp only
    rw [← List.append_nil (r.batch.fill e.schema slot).faults, Batch.foldl_defer]
    refine .of_bind (.of_absorb requestId _) fun r'' state'' hr'' _ => .of_pure_at ?_ _
    rw [hr'', hr']

/-- Filling a slot changes nothing that a batch knows, so it changes no error of another slot. -/
theorem slotErrors_fillInto (failures : Keyed EngineError) (data : Json) (b : Batch)
    (slot : Slot) :
    slotErrors e failures (fillInto e failures (data, b) slot).2 = slotErrors e failures b := by
  unfold fillInto
  cases failures.get? slot.type with
  | some cause => rfl
  | none =>
    dsimp only
    rw [Batch.foldl_defer]
    rfl

theorem reports_fillSlots (failures : Keyed EngineError) (round : List Slot) (data : Json) :
    Reports (round.foldlM (e.fillSlot requestId failures) data) r state
      (round.foldl (fillInto e failures) (data, r.batch)).1
      (round.foldl (fillInto e failures) (data, r.batch)).2
      (round.flatMap (slotErrors e failures r.batch)) := by
  induction round generalizing data r state with
  | nil => exact .of_pure _
  | cons slot round ih =>
    rw [List.foldlM_cons, List.flatMap_cons]
    refine .of_bind (reports_fillSlot failures data slot) fun r' state' hr' _ => ?_
    have hrest := @ih r' state' (fillInto e failures (data, r.batch) slot).1
    rw [hr', slotErrors_fillInto] at hrest
    exact hrest

/-- A round gives, leaves and records what it does as a function. -/
theorem reports_resolveRound (hr : e.Refuses requestId refusal) (data : Json) :
    Reports (e.resolveRound requestId data) r state
      (refusedRound e state.files refusal data r.batch).1
      (refusedRound e state.files refusal data r.batch).2
      (roundErrors e state.files refusal r.batch) := by
  unfold resolveRound
  refine .of_quiet_bind .of_get fun r' state' hr' halike => ?_
  dsimp only
  refine .of_quiet_bind (.of_modify fun _ => r.batch.take.2) fun r'' state'' hr'' halike' => ?_
  have hload := @reports_loadMissing e refusal requestId r'' state'' hr
    (r.batch.take.2.missing r.batch.take.1)
  rw [hr'', halike'.files, halike.files] at hload
  refine .of_quiet_bind hload fun loaded after hloaded _ => ?_
  have hrest := @reports_fillSlots e requestId loaded after
    (roundFailures e state.files refusal r.batch) r.batch.take.1 data
  rw [hloaded] at hrest
  exact hrest

/-- The rounds of a request give, leave and record what they do as a function. -/
theorem reports_flush (hr : e.Refuses requestId refusal) (data : Json) :
    Reports (e.flush requestId data) r state
      (refusedRounds e state.files refusal r.batch.rounds data r.batch).1
      (refusedRounds e state.files refusal r.batch.rounds data r.batch).2
      (roundsErrors e state.files refusal r.batch.rounds data r.batch) := by
  have hrounds : ∀ (fuel : Nat) (data : Json) (r : Resolution) (state : State),
      Reports (e.resolveRounds requestId fuel data) r state
        (refusedRounds e state.files refusal fuel data r.batch).1
        (refusedRounds e state.files refusal fuel data r.batch).2
        (roundsErrors e state.files refusal fuel data r.batch) := by
    intro fuel
    induction fuel with
    | zero => exact fun data r state => .of_pure _
    | succ fuel ih =>
      intro data r state
      unfold resolveRounds refusedRounds roundsErrors
      refine .of_quiet_bind .of_get fun r' state' hr' halike => ?_
      by_cases hpending : r.batch.hasPending
      · rw [if_pos hpending, if_pos hpending, if_pos hpending]
        have hround := @reports_resolveRound e refusal requestId r' state' hr data
        rw [hr', halike.files] at hround
        refine .of_bind hround fun r'' state'' hr'' halike' => ?_
        have hrest := ih (refusedRound e state.files refusal data r.batch).1 r'' state''
        rw [hr'', halike'.files, halike.files] at hrest
        exact hrest
      · rw [if_neg hpending, if_neg hpending, if_neg hpending]
        exact .of_pure_at hr' _
  unfold flush
  refine .of_quiet_bind .of_get fun r' state' hr' halike => ?_
  have hrest := hrounds r.batch.rounds data r' state'
  rw [hr', halike.files] at hrest
  exact hrest

theorem admittedLoads_never (b : Batch) (entries : Keyed (List String)) :
    admittedLoads e files .never b entries = entries.foldl (loadInto e files) b := by
  induction entries generalizing b with
  | nil => rfl
  | cons entry entries ih =>
    rw [admittedLoads_cons, ih, List.foldl_cons]
    rw [admittedLoads_singleton, presented_never]
    rfl

theorem refusedRound_never (data : Json) (b : Batch) :
    refusedRound e files .never data b = roundOf e files data b := by
  have hloads : refusedLoad? e files .never = loadFailure? e files := by
    funext entry
    rw [refusedLoad?, presented_never]
    rfl
  rw [refusedRound, roundFailures, roundLoads, hloads, admittedLoads_never]
  rfl

theorem refusedRounds_never (fuel : Nat) (data : Json) (b : Batch) :
    refusedRounds e files .never fuel data b = roundsOf e files fuel data b := by
  induction fuel generalizing data b with
  | zero => rfl
  | succ fuel ih => rw [refusedRounds, refusedRound_never, ih, roundsOf]

/-- The rounds of a request give and leave what they do as a function. -/
theorem yields_flush (he : e.ReadsPlainly) (data : Json) :
    Yields (e.flush requestId data) r state
      (roundsOf e state.files r.batch.rounds data r.batch).1
      (roundsOf e state.files r.batch.rounds data r.batch).2 := by
  have hreports := @reports_flush e .never requestId r state (he.refuses requestId) data
  rw [refusedRounds_never] at hreports
  exact hreports.toYields

end

end DocumentEngine.Engine
