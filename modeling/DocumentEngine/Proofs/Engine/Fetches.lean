import DocumentEngine.Proofs.Engine.Course

/-!
Fetches of related documents. A request with a record writes down every fetch that its rounds make
and is, without the record, the request itself. A round asks for the documents of a type at most
once, and what a fetch has told of an id, that it is there or that it is not, no later fetch asks
for again: a batch remembers what the recorded fetches have told, and what it lacks is what it does
not remember.
-/

namespace DocumentEngine

/-- A fetch of related documents: the round that makes it, the type and the ids it asks for, and
what comes of it. -/
structure Fetch where
  round : Nat
  type : DocumentType
  ids : List String
  outcome : Except EngineError (List Document)

namespace Fetch

/-- The ids of which a fetch tells whether they are there: where it succeeds those that it asks for
and those of the documents it finds. -/
def settled (f : Fetch) : List String :=
  match f.outcome with
  | .ok docs => f.ids ++ docs.filterMap f.type.idOf?
  | .error _ => []

/-- The batch that remembers what a fetch has told. -/
def remember (b : Batch) (f : Fetch) : Batch :=
  match f.outcome with
  | .ok docs => b.rememberAll f.type f.ids docs
  | .error _ => b

end Fetch

/-- The number of rounds begun, and the fetches so far. -/
structure Record where
  rounds : Nat := 0
  fetches : List Fetch := []

namespace Record

/-- The batch that remembers what all recorded fetches have told. -/
def told (record : Record) : Batch := record.fetches.foldl Fetch.remember {}

/-- The record with a round begun. -/
def begin (record : Record) : Record := { record with rounds := record.rounds + 1 }

/-- The record with a fetch of the round that runs. -/
def add (record : Record) (t : DocumentType) (ids : List String)
    (outcome : Except EngineError (List Document)) : Record :=
  { record with fetches := record.fetches ++ [⟨record.rounds, t, ids, outcome⟩] }

end Record

/-- Steps of a request that keep a record. -/
abbrev RecordedM := StateT Record ResolutionM

namespace Engine

/-- `loadType` with its fetch written down. -/
def recordType (e : Engine) (requestId type : String) (ids : List String) :
    RecordedM (Option EngineError) := do
  match e.schema.type? type with
  | none => return some (.schema (.unknownType type))
  | some t =>
    let outcome ← attempt (e.loadBatch requestId t ids)
    modifyThe Record fun record => record.add t ids outcome
    match outcome with
    | .error cause => return some cause
    | .ok docs =>
      modifyThe Resolution fun r => { r with batch := r.batch.rememberAll t ids docs }
      return none

/-- `loadMissing` with its fetches written down. -/
def recordMissing (e : Engine) (requestId : String) :
    Keyed (List String) → RecordedM (Keyed EngineError)
  | [] => return []
  | (type, ids) :: rest => do
    let failure ← e.recordType requestId type ids
    let failures ← e.recordMissing requestId rest
    return match failure with
      | some cause => (type, cause) :: failures
      | none => failures

/-- `resolveRound` with its fetches written down. -/
def recordRound (e : Engine) (requestId : String) (data : Json) : RecordedM Json := do
  let (round, batch) := (← getThe Resolution).batch.take
  modifyThe Resolution fun r => { r with batch := batch }
  modifyThe Record Record.begin
  let failures ← e.recordMissing requestId (batch.missing round)
  (round.foldlM (e.fillSlot requestId failures) data : ResolutionM Json)

/-- `resolveRounds` with its fetches written down. -/
def recordRounds (e : Engine) (requestId : String) : Nat → Json → RecordedM Json
  | 0, data => return data
  | fuel + 1, data => do
    if (← getThe Resolution).batch.hasPending then
      e.recordRounds requestId fuel (← e.recordRound requestId data)
    else return data

/-- `flush` with its fetches written down. -/
def recordFlush (e : Engine) (requestId : String) (data : Json) : RecordedM Json := do
  e.recordRounds requestId (← getThe Resolution).batch.rounds data

/-- `addRoot` with its fetches written down. -/
def recordRoot (e : Engine) (requestId : String) (kind : RequestKind) (data : Document)
    (selection : Selection) : RecordedM Document := do
  let value ← (e.resolveRoot requestId kind selection : ResolutionM Json)
  let data := data.insert selection.responseKey value
  match kind with
  | .query => return data
  | .mutation => return (← e.recordFlush requestId (.obj data)).obj?.getD []

/-- `resolveAll` with its fetches written down. -/
def recordAll (e : Engine) (requestId : String) (request : Request) : RecordedM Json := do
  let data ← request.selections.foldlM (e.recordRoot requestId request.kind) []
  e.recordFlush requestId (.obj data)

/-- A recorded step that is, without its record, another step. -/
def Erases {α : Type} (y : RecordedM α) (x : ResolutionM α) : Prop :=
  ∀ record, Prod.fst <$> y.run record = x

namespace Erases

variable {α β : Type}

theorem of_pure (a : α) : Erases (pure a) (pure a) := fun record => by
  rw [StateT.run_pure, map_pure]

theorem of_lift (x : ResolutionM α) : Erases (monadLift x) x := fun record => by
  rw [StateT.run_monadLift, map_bind]
  simp only [map_pure, bind_pure, monadLift_self]

theorem of_bind {y : RecordedM α} {x : ResolutionM α} {g : α → RecordedM β} {f : α → ResolutionM β}
    (hy : Erases y x) (hg : ∀ a, Erases (g a) (f a)) : Erases (y >>= g) (x >>= f) := by
  intro record
  rw [StateT.run_bind, map_bind, ← hy record, bind_map_left]
  exact bind_congr fun written => hg written.1 written.2

/-- What is written down is gone. -/
theorem of_record {y : PUnit → RecordedM α} {x : ResolutionM α} (f : Record → Record)
    (hy : Erases (y ⟨⟩) x) : Erases (modifyThe Record f >>= y) x := fun record => hy (f record)

end Erases

section

variable (e : Engine) (requestId : String)

theorem erases_recordType (type : String) (ids : List String) :
    Erases (e.recordType requestId type ids) (e.loadType requestId type ids) := by
  unfold recordType loadType
  cases e.schema.type? type with
  | none => exact .of_pure _
  | some t =>
    refine .of_bind (.of_lift _) fun outcome => .of_record _ ?_
    cases outcome with
    | error cause => exact .of_pure _
    | ok docs => exact .of_bind (.of_lift _) fun _ => .of_pure _

theorem erases_recordMissing (entries : Keyed (List String)) :
    Erases (e.recordMissing requestId entries) (e.loadMissing requestId entries) := by
  induction entries with
  | nil => exact .of_pure _
  | cons entry entries ih =>
    exact .of_bind (erases_recordType e requestId entry.1 entry.2) fun _ =>
      .of_bind ih fun _ => .of_pure _

theorem erases_recordFlush (data : Json) :
    Erases (e.recordFlush requestId data) (e.flush requestId data) := by
  have hround : ∀ data, Erases (e.recordRound requestId data) (e.resolveRound requestId data) :=
    fun data => .of_bind (.of_lift _) fun _ => .of_bind (.of_lift _) fun _ => .of_record _
      (.of_bind (erases_recordMissing e requestId _) fun _ => .of_lift _)
  have hrounds : ∀ fuel data,
      Erases (e.recordRounds requestId fuel data) (e.resolveRounds requestId fuel data) := by
    intro fuel
    induction fuel with
    | zero => exact fun data => .of_pure data
    | succ fuel ih =>
      intro data
      refine .of_bind (.of_lift _) fun r => ?_
      split
      · exact .of_bind (hround data) ih
      · exact .of_pure data
  exact .of_bind (.of_lift _) fun r => hrounds r.batch.rounds data

/-- Without its record a recorded request is the request. -/
theorem erases_recordAll (request : Request) :
    Erases (e.recordAll requestId request) (e.resolveAll requestId request) := by
  have hroot : ∀ data selection, Erases (e.recordRoot requestId request.kind data selection)
      (e.addRoot requestId request.kind data selection) := by
    intro data selection
    unfold recordRoot addRoot
    refine .of_bind (.of_lift _) fun value => ?_
    cases request.kind with
    | query => exact .of_pure _
    | mutation => exact .of_bind (erases_recordFlush e requestId _) fun _ => .of_pure _
  have hroots : ∀ (selections : List Selection) (data : Document),
      Erases (selections.foldlM (e.recordRoot requestId request.kind) data)
        (selections.foldlM (e.addRoot requestId request.kind) data) := by
    intro selections
    induction selections with
    | nil => exact fun data => .of_pure data
    | cons selection selections ih =>
      intro data
      rw [List.foldlM_cons, List.foldlM_cons]
      exact .of_bind (hroot data selection) ih
  exact .of_bind (hroots request.selections []) fun data => erases_recordFlush e requestId _

end

end Engine

/-- Fetches that ask for no type twice in a round and for no id that one before has told of, and
a batch that remembers what they have told. -/
structure Record.Coalesced (record : Record) (b : Batch) : Prop where
  remembered : b.memo = record.told.memo
  begun : ∀ f ∈ record.fetches, f.round ≤ record.rounds
  once : record.fetches.Pairwise fun f g => f.round = g.round → f.type.name ≠ g.type.name
  apart : record.fetches.Pairwise fun f g =>
    f.type.name = g.type.name → ∀ id ∈ f.settled, id ∉ g.ids

namespace Record

theorem told_add (record : Record) (t : DocumentType) (ids : List String)
    (outcome : Except EngineError (List Document)) :
    (record.add t ids outcome).told =
      Fetch.remember record.told ⟨record.rounds, t, ids, outcome⟩ := by
  rw [told, add, List.foldl_append]
  rfl

/-- What a recorded fetch has told is known. -/
theorem isMemoized_told {record : Record} {f : Fetch} (hf : f ∈ record.fetches) {id : String}
    (hid : id ∈ f.settled) : record.told.isMemoized f.type.name id = true := by
  have hstays : ∀ (fetches : List Fetch) (b : Batch), b.isMemoized f.type.name id = true →
      (fetches.foldl Fetch.remember b).isMemoized f.type.name id = true := by
    intro fetches
    induction fetches with
    | nil => exact fun _ h => h
    | cons g fetches ih =>
      intro b h
      refine ih _ ?_
      unfold Fetch.remember
      cases g.outcome with
      | error cause => exact h
      | ok docs => exact Batch.isMemoized_rememberAll h g.ids docs
  have hself : ∀ b : Batch, (Fetch.remember b f).isMemoized f.type.name id = true := by
    intro b
    unfold Fetch.settled at hid
    unfold Fetch.remember
    cases houtcome : f.outcome with
    | error cause =>
      rw [houtcome] at hid
      cases hid
    | ok docs =>
      rw [houtcome] at hid
      rcases List.mem_append.mp hid with hid | hid
      · exact Batch.isMemoized_of_mem hid docs
      · obtain ⟨doc, hdoc, hheld⟩ := List.mem_filterMap.mp hid
        exact Batch.isMemoized_rememberMissed (Batch.isMemoized_of_mem_found hdoc hheld) f.ids
  unfold told
  generalize record.fetches = fetches at hf
  generalize ({} : Batch) = b
  induction fetches generalizing b with
  | nil => cases hf
  | cons g fetches ih =>
    rcases List.mem_cons.mp hf with rfl | hf
    · exact hstays fetches _ (hself b)
    · exact ih hf _

namespace Coalesced

variable {record : Record} {b b' : Batch}

theorem empty : Coalesced {} {} := ⟨rfl, by simp, .nil, .nil⟩

theorem of_memo (h : record.Coalesced b) (hmemo : b'.memo = b.memo) : record.Coalesced b' :=
  ⟨hmemo.trans h.remembered, h.begun, h.once, h.apart⟩

theorem begin (h : record.Coalesced b) : record.begin.Coalesced b :=
  ⟨h.remembered, fun f hf => (h.begun f hf).trans (Nat.le_succ _), h.once, h.apart⟩

/-- A fetch of a type that the round has not asked for yet, by ids of which nothing is known. -/
theorem add (h : record.Coalesced b) {t : DocumentType} {ids : List String}
    (hunknown : ∀ id ∈ ids, b.isMemoized t.name id = false)
    (hfirst : ∀ f ∈ record.fetches, f.round = record.rounds → f.type.name ≠ t.name)
    (outcome : Except EngineError (List Document)) :
    (record.add t ids outcome).Coalesced
      (Fetch.remember b ⟨record.rounds, t, ids, outcome⟩) where
  remembered := by
    rw [told_add]
    unfold Fetch.remember
    cases outcome with
    | error cause => exact h.remembered
    | ok docs => exact Batch.memo_rememberAll_congr h.remembered ids docs
  begun f hf := by
    rcases List.mem_append.mp hf with hf | hf
    · exact h.begun f hf
    · rw [List.mem_singleton.mp hf]
      exact le_rfl
  once := by
    refine List.pairwise_append.mpr ⟨h.once, List.pairwise_singleton .., fun f hf g hg => ?_⟩
    rw [List.mem_singleton.mp hg]
    exact hfirst f hf
  apart := by
    refine List.pairwise_append.mpr ⟨h.apart, List.pairwise_singleton .., fun f hf g hg => ?_⟩
    rw [List.mem_singleton.mp hg]
    intro htype id hid hasked
    have hknown := isMemoized_told hf hid
    have hsame : b.isMemoized f.type.name id = record.told.isMemoized f.type.name id := by
      rw [Batch.isMemoized, Batch.isMemoized, Batch.known?, Batch.known?, h.remembered]
    rw [← hsame, htype, hunknown id hasked] at hknown
    cases hknown

end Coalesced

end Record

namespace Engine

/-- What a recorded step gives and what it leaves: the record, the request and the state. -/
def written {α : Type} (y : RecordedM α) (record : Record) (r : Resolution) (state : State) :
    ((α × Record) × Resolution) × State := after (y.run record) r state

/-- A recorded step that keeps fetches coalesced. -/
def Coalesces {α : Type} (y : RecordedM α) : Prop :=
  ∀ record r state, record.Coalesced r.batch →
    (written y record r state).1.1.2.Coalesced (written y record r state).1.2.batch

namespace Coalesces

variable {α β : Type}

theorem of_pure (a : α) : Coalesces (pure a) := fun _ _ _ h => h

theorem of_bind {y : RecordedM α} {g : α → RecordedM β} (hy : Coalesces y)
    (hg : ∀ a, Coalesces (g a)) : Coalesces (y >>= g) := fun record r state h =>
  hg _ _ _ _ (hy record r state h)

/-- A step of a request that remembers nothing new. -/
theorem of_lift {x : ResolutionM α}
    (hx : ∀ r state, (after x r state).1.2.batch.memo = r.batch.memo) :
    Coalesces (monadLift x : RecordedM α) := fun _ r state h => h.of_memo (hx r state)

end Coalesces

/-- Entries of types that the round has not asked for yet, with ids of which nothing is known. -/
structure Awaits (entries : Keyed (List String)) (record : Record) (b : Batch) : Prop where
  types : (entries.map Prod.fst).Nodup
  unknown : ∀ entry ∈ entries, ∀ id ∈ entry.2, b.isMemoized entry.1 id = false
  first : ∀ entry ∈ entries, ∀ f ∈ record.fetches, f.round = record.rounds →
    f.type.name ≠ entry.1

section

variable {e : Engine} {requestId : String}

/-- A fetch for a type of the schema is written down and remembered. -/
theorem written_recordType (type : String) (ids : List String) (record : Record) (r : Resolution)
    (state : State) :
    let w := written (e.recordType requestId type ids) record r state
    (w.1.1.2 = record ∧ w.1.2.batch = r.batch) ∨
      ∃ t outcome, t.name = type ∧ w.1.1.2 = record.add t ids outcome ∧
        w.1.2.batch = Fetch.remember r.batch ⟨record.rounds, t, ids, outcome⟩ := by
  unfold recordType
  cases htype : e.schema.type? type with
  | none => exact .inl ⟨rfl, rfl⟩
  | some t =>
    let run := Action.exec (e.loadBatch requestId t ids) state
    refine .inr ⟨t, run.1, Projection.type?_name e.schema htype, ?_⟩
    let continued (outcome : Except EngineError (List Document)) :
        RecordedM (Option EngineError) := do
      match outcome with
      | .error cause => return some cause
      | .ok docs =>
        modifyThe Resolution fun r => { r with batch := r.batch.rememberAll t ids docs }
        return none
    change (written (continued run.1) (record.add t ids run.1) r run.2).1.1.2 = _ ∧
      (written (continued run.1) (record.add t ids run.1) r run.2).1.2.batch = _
    rcases run.1 with cause | docs
    · exact ⟨rfl, rfl⟩
    · exact ⟨rfl, rfl⟩

theorem Awaits.tail {type : String} {ids : List String} {entries : Keyed (List String)}
    {record record' : Record} {b b' : Batch} (h : Awaits ((type, ids) :: entries) record b)
    (hstep : (record' = record ∧ b' = b) ∨ ∃ t outcome, t.name = type ∧
      record' = record.add t ids outcome ∧
        b' = Fetch.remember b ⟨record.rounds, t, ids, outcome⟩) : Awaits entries record' b' := by
  obtain ⟨hnotin, htypes⟩ := List.nodup_cons.mp h.types
  have hrest : ∀ entry ∈ entries, entry ∈ (type, ids) :: entries :=
    fun entry => List.mem_cons_of_mem _
  rcases hstep with ⟨rfl, rfl⟩ | ⟨t, outcome, rfl, rfl, rfl⟩
  · exact ⟨htypes, fun entry hentry => h.unknown entry (hrest entry hentry),
      fun entry hentry => h.first entry (hrest entry hentry)⟩
  have hother : ∀ entry ∈ entries, entry.1 ≠ t.name := fun entry hentry heq =>
    hnotin (List.mem_map.mpr ⟨entry, hentry, heq⟩)
  refine ⟨htypes, fun entry hentry id hid => ?_, fun entry hentry f hf hround => ?_⟩
  · have hunknown := h.unknown entry (hrest entry hentry) id hid
    unfold Fetch.remember
    cases outcome with
    | error cause => exact hunknown
    | ok docs =>
      refine Bool.eq_false_iff.mpr fun hknown => ?_
      rw [Batch.isMemoized_of_rememberAll (hother entry hentry) hknown] at hunknown
      cases hunknown
  · rcases List.mem_append.mp hf with hf | hf
    · exact h.first entry (hrest entry hentry) f hf hround
    · rw [List.mem_singleton.mp hf]
      exact (hother entry hentry).symm

/-- The fetches of a round keep fetches coalesced. -/
theorem coalesced_recordMissing {entries : Keyed (List String)} {record : Record} {r : Resolution}
    (h : record.Coalesced r.batch) (hentries : Awaits entries record r.batch) (state : State) :
    let w := written (e.recordMissing requestId entries) record r state
    w.1.1.2.Coalesced w.1.2.batch := by
  induction entries generalizing record r state with
  | nil => exact h
  | cons entry entries ih =>
    obtain ⟨type, ids⟩ := entry
    have hstep := @written_recordType e requestId type ids record r state
    have hthen : (written (e.recordType requestId type ids) record r state).1.1.2.Coalesced
        (written (e.recordType requestId type ids) record r state).1.2.batch := by
      rcases hstep with ⟨hrecord, hbatch⟩ | ⟨t, outcome, rfl, hrecord, hbatch⟩
      · rw [hrecord, hbatch]
        exact h
      · rw [hrecord, hbatch]
        exact h.add (hentries.unknown _ List.mem_cons_self) (hentries.first _ List.mem_cons_self)
          outcome
    exact ih hthen (hentries.tail hstep) _

theorem coalesces_recordRound (data : Json) : Coalesces (e.recordRound requestId data) := by
  intro record r state h
  let taken : Resolution := { r with batch := { r.batch with pending := [] } }
  let entries := taken.batch.missing r.batch.pending
  let loads := written (e.recordMissing requestId entries) record.begin taken state
  -- Fetches of the rounds before have smaller numbers, so the round that begins has none yet.
  have hentries : Awaits entries record.begin taken.batch := by
    refine ⟨Batch.nodup_types_missing _ _, fun entry hentry id hid =>
      Batch.isMemoized_of_mem_missing _ hentry hid, fun entry _ f hf hround => ?_⟩
    have hbegun := h.begun f hf
    have hnext : f.round = record.rounds + 1 := hround
    omega
  have hbegun : record.begin.Coalesced taken.batch := h.begin.of_memo rfl
  have hloaded : loads.1.1.2.Coalesced loads.1.2.batch :=
    @coalesced_recordMissing e requestId entries record.begin taken hbegun hentries state
  obtain ⟨left, hfilled⟩ := e.exists_fillSlots requestId loads.1.1.1 r.batch.pending data loads.1.2
    loads.2
  have hmemo := congrArg (fun w => w.1.2.batch.memo) hfilled
  exact hloaded.of_memo hmemo

theorem coalesces_recordFlush (data : Json) : Coalesces (e.recordFlush requestId data) := by
  have hrounds : ∀ fuel data, Coalesces (e.recordRounds requestId fuel data) := by
    intro fuel
    induction fuel with
    | zero => exact fun data => .of_pure data
    | succ fuel ih =>
      intro data
      refine .of_bind (.of_lift fun _ _ => rfl) fun r => ?_
      split
      · exact .of_bind (coalesces_recordRound data) ih
      · exact .of_pure data
  exact .of_bind (.of_lift fun _ _ => rfl) fun r => hrounds r.batch.rounds data

theorem coalesces_recordAll (request : Request) : Coalesces (e.recordAll requestId request) := by
  have hroot : ∀ data selection, Coalesces (e.recordRoot requestId request.kind data selection) := by
    intro data selection
    unfold recordRoot
    refine .of_bind (.of_lift fun r state => ?_) fun value => ?_
    · obtain ⟨p, left, -, hafter⟩ := exists_rootOutcome e requestId request.kind selection r state
      rw [hafter]
    · cases request.kind with
      | query => exact .of_pure _
      | mutation => exact .of_bind (coalesces_recordFlush _) fun _ => .of_pure _
  have hroots : ∀ (selections : List Selection) (data : Document),
      Coalesces (selections.foldlM (e.recordRoot requestId request.kind) data) := by
    intro selections
    induction selections with
    | nil => exact fun data => .of_pure data
    | cons selection selections ih =>
      intro data
      rw [List.foldlM_cons]
      exact .of_bind (hroot data selection) ih
  exact .of_bind (hroots request.selections []) fun data => coalesces_recordFlush _

end

/-- Fetches of related documents are coalesced, over all rounds and flushes of a request and with
any handlers. A request with a record is the request, and its batch knows in the end what the
recorded fetches have told and nothing else. No round asks twice for the documents of a type, and no
fetch asks for an id of which one of its type has told before. -/
theorem fetches_coalesced (e : Engine) (requestId : String) (request : Request) (state : State) :
    let w := written (e.recordAll requestId request) {} {} state
    let fetches := w.1.1.2.fetches
    after (e.resolveAll requestId request) {} state = ((w.1.1.1, w.1.2), w.2) ∧
      w.1.2.batch.memo = (fetches.foldl Fetch.remember {}).memo ∧
      fetches.Pairwise (fun f g => f.round = g.round → f.type.name ≠ g.type.name) ∧
      fetches.Pairwise (fun f g => f.type.name = g.type.name → ∀ id ∈ f.settled, id ∉ g.ids) := by
  intro w fetches
  have hcoalesced := @coalesces_recordAll e requestId request {} {} state .empty
  refine ⟨?_, hcoalesced.remembered, hcoalesced.once, hcoalesced.apart⟩
  rw [← erases_recordAll e requestId request {}]
  rfl

end Engine

end DocumentEngine
