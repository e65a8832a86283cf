import DocumentEngine.Engine.Policy
import DocumentEngine.Operation.Catalog
import DocumentEngine.Pipeline.Basic
import DocumentEngine.Store.Scan
import DocumentEngine.Store.Write

/-!
An engine: the store and the operations of a namespace, with the handlers and the collaborators
around them. Each type has two root fields for queries, one for a list and one for one document.
-/

namespace DocumentEngine

/-- A root field of queries: a list of documents of a type, or the first of them. -/
structure RootField where
  type : String
  plural : Bool
  deriving DecidableEq

/-- The root fields of a schema under their names. Of two with one name the last counts. -/
def Schema.roots (s : Schema) : Keyed RootField :=
  Keyed.ofList (s.types.flatMap fun t =>
    [(t.pluralName, ⟨t.name, true⟩), (t.singularName, ⟨t.name, false⟩)])

/-- An engine. -/
structure Engine where
  config : Config
  store : Store
  catalog : Catalog
  restrictions : Registry (Option Filter) := {}
  hooks : Registry Document := {}
  collaborators : Collaborators

namespace Engine

/-- The namespace of the engine. -/
def space (e : Engine) : String := e.store.space

/-- The schema of the engine. -/
def schema (e : Engine) : Schema := e.store.schema

/-- The mutations of the engine under their names. -/
def mutations (e : Engine) : Keyed MutationEntry := e.catalog.resolvers e.space

/-- The type of a name, which has to be there. -/
def requireType (e : Engine) (name : String) : EngineM DocumentType :=
  match e.schema.type? name with
  | some t => return t
  | none => throw (.schema (.unknownType name))

/-- What handlers know of a request on documents of a type. -/
def contextOf (e : Engine) (requestId : String) (type : String) : StageContext :=
  ⟨requestId, e.space, type, none⟩

/-- A decision of a collaborator, with its notes left. -/
def decided {α : Type} (decision : Noted α) : EngineM α := do
  decision.notes.forM EngineM.note
  return decision.value

end Engine

end DocumentEngine
