import DocumentEngine.Config
import DocumentEngine.Filter.Error
import DocumentEngine.Operation.Basic
import DocumentEngine.Schema.Error
import DocumentEngine.Store.Error

/-!
Why a request, or a field of it, fails. The faults of the parts of the engine come through with
their own messages; each kind of error has a code that callers can rely on.
-/

namespace DocumentEngine

/-- An error as callers see it. -/
inductive EngineError where
  | compile (cause : FilterError)
  | notFound (what : String)
  | reference (reason : String)
  | constraint (violations : List Violation)
  | authorization (reason : String)
  | storage (cause : StoreError)
  | schema (cause : SchemaError)
  | mutation (cause : OperationError)
  | config (cause : ConfigError)
  | unknownField (type field : String)
  | malformed (reason : String)
  | internal (reason : String)
  deriving DecidableEq

namespace EngineError

/-- The code of the kind of error. -/
def code : EngineError → String
  | .compile _ => "COMPILE_ERROR"
  | .notFound _ => "NOT_FOUND"
  | .reference _ => "REFERENCE_ERROR"
  | .constraint _ => "CONSTRAINT_VIOLATION"
  | .authorization _ => "ACCESS_DENIED"
  | .storage _ => "STORAGE_ERROR"
  | .schema _ => "SCHEMA_ERROR"
  | .mutation _ => "MUTATION_ERROR"
  | .config _ => "CONFIG_ERROR"
  | .unknownField _ _ => "UNKNOWN_FIELD"
  | .malformed _ => "SYNTAX_ERROR"
  | .internal _ => "INTERNAL_ERROR"

/-- The message of the error. -/
def message : EngineError → String
  | .compile cause => cause.message
  | .notFound what => s!"Not found: {what}"
  | .reference reason => s!"Reference error: {reason}"
  | .constraint violations =>
    "Constraint violation: " ++ "; ".intercalate (violations.map Violation.text)
  | .authorization reason => s!"Access denied: {reason}"
  | .storage cause => cause.message
  | .schema cause => cause.message
  | .mutation cause => cause.message
  | .config cause => cause.message
  | .unknownField type field => s!"Cannot query field '{field}' on type '{type}'"
  | .malformed reason => s!"Syntax error: {reason}"
  | .internal reason => s!"Internal error: {reason}"

/-- What responses say about the error beside its message: the code, with the violations or the
filter key where there are any. -/
def extensions (e : EngineError) : Json :=
  let details := match e with
    | .constraint violations => [("constraints", Json.arr (violations.map fun v =>
        Json.object [("field", .str v.field), ("message", .str v.message)]))]
    | .compile cause => (cause.key?.map fun key => ("key", Json.str key)).toList
    | _ => []
  Json.object (("code", .str e.code) :: details)

/-- Whether the error is found before the store is touched. -/
def isRejection : EngineError → Bool
  | .compile _ => true
  | .reference _ => true
  | .constraint _ => true
  | .authorization _ => true
  | _ => false

/-- A failure of the store as callers see it. -/
def ofStore : StoreError → EngineError
  | .notFound type id => .notFound (StoreError.notFound type id).message
  | e => .storage e

end EngineError

end DocumentEngine
