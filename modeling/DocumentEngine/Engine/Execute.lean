import DocumentEngine.Engine.Resolution
import DocumentEngine.Mutation.Write
import DocumentEngine.Request.Reader

/-!
Execution of requests. The root fields run in order; one that fails is null and leaves an error.
What the fields of a query leave open is resolved together at the end, what a mutation leaves open
before the next mutation runs.
-/

namespace DocumentEngine.Engine

/-- The projection of a root field of a query. -/
def resolveQuery (e : Engine) (requestId : String) (selection : Selection) (path : ResponsePath) :
    EngineM Projected := do
  match e.schema.roots.get? selection.name with
  | none => throw (.unknownField "Query" selection.name)
  | some root =>
    let t ← e.requireType root.type
    let query ←
      EngineM.ofFilter (Query.compile e.schema t e.config.maxLimit selection.arguments)
    let docs ← e.read requestId t.name query
    if root.plural then
      return Projection.projectList e.schema t docs selection.selections path
    else
      match docs with
      | [] => return ⟨.null, [], []⟩
      | doc :: _ => return Projection.project e.schema t doc selection.selections path .stored

/-- Runs a mutation and projects what it leaves: the document written, or true for a deletion. -/
def runMutation (e : Engine) (requestId : String) (t : DocumentType) (op : Operation)
    (selection : Selection) (path : ResponsePath) : EngineM Projected := do
  match op.context with
  | .delete =>
    e.delete requestId t op selection.arguments
    return ⟨.bool true, [], []⟩
  | _ =>
    let doc ← e.write requestId t op selection.arguments
    return Projection.project e.schema t doc selection.selections path .stored

/-- Counts and reports a mutation that was refused. -/
def reportRejection (requestId : String) (t : DocumentType) (op : Operation)
    (cause : EngineError) : EngineM Unit := do
  if cause.isRejection then
    EngineM.count Metrics.countRejected
    EngineM.report .mutationRejected
      [("request_id", requestId), ("type", t.name), ("operation", op.name),
       ("code", cause.code)]

/-- The projection of a root field of a mutation. -/
def resolveMutation (e : Engine) (requestId : String) (selection : Selection)
    (path : ResponsePath) : EngineM Projected := do
  match e.mutations.get? selection.name with
  | none => throw (.unknownField "Mutation" selection.name)
  | some entry =>
    let t ← e.requireType entry.type
    match ← EngineM.outcome (e.runMutation requestId t entry.operation selection path) with
    | .ok projected => return projected
    | .error cause =>
      reportRejection requestId t entry.operation cause
      throw cause

/-- The value of a root field, with its slots left open. -/
def resolveRoot (e : Engine) (requestId : String) (kind : RequestKind) (selection : Selection) :
    ResolutionM Json := do
  let path : ResponsePath := [.key selection.responseKey]
  let resolved ← attempt (match kind with
    | .query => e.resolveQuery requestId selection path
    | .mutation => e.resolveMutation requestId selection path)
  match resolved with
  | .ok projected => absorb requestId projected
  | .error cause =>
    fail requestId ⟨path, cause⟩
    return .null

/-- The data with a root field added. -/
def addRoot (e : Engine) (requestId : String) (kind : RequestKind) (data : Document)
    (selection : Selection) : ResolutionM Document := do
  let value ← e.resolveRoot requestId kind selection
  let data := data.insert selection.responseKey value
  match kind with
  | .query => return data
  | .mutation => return (← e.flush requestId (.obj data)).obj?.getD []

/-- The data of a request. -/
def resolveAll (e : Engine) (requestId : String) (request : Request) : ResolutionM Json := do
  let data ← request.selections.foldlM (e.addRoot requestId request.kind) []
  e.flush requestId (.obj data)

/-- Executes a request. -/
def executeRequest (e : Engine) (requestId : String) (request : Request) :
    StateM State Response := do
  let (data, resolution) ← (e.resolveAll requestId request).run {}
  modify fun state => (state.count Metrics.countRequest).report .requestExecuted
    [("request_id", requestId), ("kind", request.kind.name),
     ("root_fields", toString request.selections.length),
     ("errors", toString resolution.errors.length)]
  return ⟨data, resolution.errors⟩

/-- Executes the request that a text spells. -/
def executeText (e : Engine) (requestId text : String) : StateM State Response := do
  match Request.ofText text with
  | .ok request => e.executeRequest requestId request
  | .error fault =>
    let cause : EngineError := .malformed fault.reason
    modify fun state => (state.count Metrics.countRequest).report .requestExecuted
      [("request_id", requestId), ("outcome", "syntax_error"), ("error", cause.message)]
    return .failed cause

/-- Executes the request that a text spells, under an identifier of its own. -/
def execute (e : Engine) (text : String) : StateM State Response := do
  let (requestId, state) := (← get).mint
  set state
  e.executeText requestId text

end DocumentEngine.Engine
