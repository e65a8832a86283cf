import DocumentEngine.Schema.Basic
import DocumentEngine.Schema.Error

/-!
Well-formed schemas: every type has exactly one identifier field, no field name twice and only
references to types of the schema, and no two root accessors share a name. The first fault in the
order of the schema is reported.
-/

namespace DocumentEngine.Schema

/-- The number of identifier fields is one. -/
def checkIdentifier (t : DocumentType) : Except SchemaError Unit :=
  match t.fields.countP (·.identifier) with
  | 0 => .error (.missingIdentifier t.name)
  | 1 => .ok ()
  | _ => .error (.multipleIdentifiers t.name)

/-- Each field has a name that none of the `seen` has, and refers to a type of the schema. -/
def checkFields (s : Schema) (t : DocumentType) (seen : List String) :
    List Field → Except SchemaError Unit
  | [] => .ok ()
  | f :: fs =>
    if seen.contains f.name then .error (.duplicateField t.name f.name)
    else
      match f.target? with
      | some target =>
        if (s.type? target).isNone then .error (.unknownReference t.name f.name target)
        else checkFields s t (f.name :: seen) fs
      | none => checkFields s t (f.name :: seen) fs

/-- None of the accessors is among the `seen`, nor is one of them twice. -/
def checkAccessors (seen : List String) : List String → Except SchemaError (List String)
  | [] => .ok seen
  | a :: as =>
    if seen.contains a then .error (.duplicateAccessor a) else checkAccessors (a :: seen) as

/-- Checks types in order after the accessors of those before them. -/
def checkTypes (s : Schema) (seen : List String) : List DocumentType → Except SchemaError Unit
  | [] => .ok ()
  | t :: ts => do
    checkIdentifier t
    checkFields s t [] t.fields
    let seen ← checkAccessors seen [t.singularName, t.pluralName]
    checkTypes s seen ts

/-- Checks a whole schema. -/
def check (s : Schema) : Except SchemaError Unit := checkTypes s [] s.types

end DocumentEngine.Schema
