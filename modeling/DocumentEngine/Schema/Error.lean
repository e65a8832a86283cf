/-!
What can be wrong with a schema, and what can be wrong with a document under it.
-/

namespace DocumentEngine

/-- A fault of a schema. -/
inductive SchemaError where
  | unknownType (name : String)
  | missingIdentifier (type : String)
  | multipleIdentifiers (type : String)
  | duplicateField (type field : String)
  | unknownReference (type field target : String)
  | duplicateAccessor (name : String)
  | malformed (origin reason : String)
  deriving DecidableEq

namespace SchemaError

/-- The name of the kind of fault. -/
def kind : SchemaError → String
  | .unknownType _ => "UnknownType"
  | .missingIdentifier _ => "MissingIdentifier"
  | .multipleIdentifiers _ => "MultipleIdentifiers"
  | .duplicateField _ _ => "DuplicateField"
  | .unknownReference _ _ _ => "UnknownReference"
  | .duplicateAccessor _ => "DuplicateAccessor"
  | .malformed _ _ => "Malformed"

/-- The message of the fault. -/
def message : SchemaError → String
  | .unknownType name => s!"Unknown type: {name}"
  | .missingIdentifier type => s!"Type '{type}' declares no identifier field"
  | .multipleIdentifiers type => s!"Type '{type}' declares more than one identifier field"
  | .duplicateField type field => s!"Type '{type}' declares field '{field}' twice"
  | .unknownReference type field target =>
    s!"Field '{type}.{field}' references unknown type '{target}'"
  | .duplicateAccessor name => s!"Root accessor '{name}' is declared by more than one type"
  | .malformed origin reason => s!"Malformed schema {origin}: {reason}"

end SchemaError

/-- One field of a document that breaks a rule. -/
structure Violation where
  field : String
  message : String
  deriving DecidableEq

namespace Violation

/-- The violation in one line. -/
def text (v : Violation) : String := s!"field '{v.field}': {v.message}"

/-- A required field that is absent or null. -/
def missing (field : String) : Violation := ⟨field, "field is required"⟩

/-- A field that the type does not have. -/
def undeclared (field : String) : Violation := ⟨field, "field is not declared by the type"⟩

end Violation

end DocumentEngine
