import DocumentEngine.Engine.Basic
import DocumentEngine.Filter.Compile

/-!
Reading documents for callers: restrictions narrow the filter of a fetch before it runs; then each
document is redacted and passes the handlers behind reads.
-/

namespace DocumentEngine.Engine

/-- The query with its filter passed through the restrictions of a type. -/
def restrict (e : Engine) (requestId type : String) (query : Query) : EngineM Query :=
  match e.restrictions.handlersFor e.space type Registry.restrictionStage with
  | [] => return query
  | handlers => do
    let filter ← Pipeline.run (e.contextOf requestId type) handlers query.filter
    return { query with filter := filter }

/-- The stored documents that a query finds under the restrictions of a type. -/
def fetchRestricted (e : Engine) (requestId type : String) (query : Query) :
    EngineM (List Document) := do
  let query ← e.restrict requestId type query
  EngineM.ofStore (e.store.fetch type query)

/-- A stored document as callers get it. -/
def present (e : Engine) (requestId type : String) (doc : Document) : EngineM Document :=
  Pipeline.run (e.contextOf requestId type)
    (e.hooks.handlersFor e.space type Registry.readStage)
    (e.collaborators.redact e.space type doc)

/-- The documents that a query finds, as callers get them. -/
def read (e : Engine) (requestId type : String) (query : Query) : EngineM (List Document) := do
  (← e.fetchRestricted requestId type query).mapM (e.present requestId type)

/-- The stored document that an id names under the restrictions of its type. -/
def lookup (e : Engine) (requestId : String) (t : DocumentType) (id : Json) :
    EngineM (Option Document) := do
  let query ← EngineM.ofFilter (Query.compile e.schema t e.config.maxLimit [("id", id)])
  return (← e.fetchRestricted requestId t.name query).head?

end DocumentEngine.Engine
