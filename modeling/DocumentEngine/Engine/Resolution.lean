import DocumentEngine.Engine.Read
import DocumentEngine.Projection.Fill

/-!
Resolution of the slots of a request, round by round. A round loads the documents that its slots
wait for with one fetch for each type, and fills the slots in order; what the fillings leave open
is the next round. A fetch that fails fails the slots of its type.
-/

namespace DocumentEngine

/-- The state of a request: the slots that wait, the documents known, and the errors so far. -/
structure Resolution where
  batch : Batch := {}
  errors : List ResponseError := []

/-- Steps of a request, which do not fail. -/
abbrev ResolutionM := StateT Resolution (StateM State)

namespace Engine

/-- The outcome of an action within a request. -/
def attempt {α : Type} (x : EngineM α) : ResolutionM (Except EngineError α) := x.run

/-- Records and reports an error. -/
def fail (requestId : String) (error : ResponseError) : ResolutionM Unit := do
  modifyThe State fun state => state.report .fieldFailed
    [("request_id", requestId), ("path", error.path.text), ("code", error.cause.code),
     ("error", error.cause.message)]
  modify fun r => { r with errors := r.errors ++ [error] }

/-- Takes a projection over: its faults are recorded and its slots wait. -/
def absorb (requestId : String) (p : Projected) : ResolutionM Json := do
  p.faults.forM (fail requestId)
  modify fun r => { r with batch := p.slots.foldl Batch.defer r.batch }
  return p.value

/-- The documents of a type with some ids, as callers get them. -/
def loadBatch (e : Engine) (requestId : String) (t : DocumentType) (ids : List String) :
    EngineM (List Document) := do
  let filter := Filter.inList t.identifierName (ids.map Json.str)
  let docs ← e.read requestId t.name { filter := some filter }
  EngineM.count Metrics.countBatch
  EngineM.report .batchLoaded
    [("request_id", requestId), ("type", t.name), ("requested", toString ids.length),
     ("loaded", toString docs.length)]
  return docs

/-- Loads and remembers the missing documents of a type, or gives the error of the fetch. -/
def loadType (e : Engine) (requestId type : String) (ids : List String) :
    ResolutionM (Option EngineError) := do
  match e.schema.type? type with
  | none => return some (.schema (.unknownType type))
  | some t =>
    match ← attempt (e.loadBatch requestId t ids) with
    | .error cause => return some cause
    | .ok docs =>
      modify fun r => { r with batch := r.batch.rememberAll t ids docs }
      return none

/-- Loads the missing documents of a round and gives the errors of the types that failed. -/
def loadMissing (e : Engine) (requestId : String) :
    Keyed (List String) → ResolutionM (Keyed EngineError)
  | [] => return []
  | (type, ids) :: rest => do
    let failure ← e.loadType requestId type ids
    let failures ← e.loadMissing requestId rest
    return match failure with
      | some cause => (type, cause) :: failures
      | none => failures

/-- Fills a slot in the data. -/
def fillSlot (e : Engine) (requestId : String) (failures : Keyed EngineError) (data : Json)
    (slot : Slot) : ResolutionM Json := do
  match failures.get? slot.type with
  | some cause =>
    fail requestId ⟨slot.path, cause⟩
    return data.setAt .null slot.path
  | none =>
    let filling := (← get).batch.fill e.schema slot
    return data.setAt (← absorb requestId filling) slot.path

/-- One round: loads what is missing and fills the slots that wait. -/
def resolveRound (e : Engine) (requestId : String) (data : Json) : ResolutionM Json := do
  let (round, batch) := (← get).batch.take
  modify fun r => { r with batch := batch }
  let failures ← e.loadMissing requestId (batch.missing round)
  round.foldlM (e.fillSlot requestId failures) data

/-- Rounds until no slot waits, at most as many as the fuel allows. -/
def resolveRounds (e : Engine) (requestId : String) : Nat → Json → ResolutionM Json
  | 0, data => return data
  | fuel + 1, data => do
    if (← get).batch.hasPending then
      e.resolveRounds requestId fuel (← e.resolveRound requestId data)
    else return data

/-- Fills every slot that waits and all that the fillings leave open. -/
def flush (e : Engine) (requestId : String) (data : Json) : ResolutionM Json := do
  e.resolveRounds requestId (← get).batch.rounds data

end Engine

end DocumentEngine
