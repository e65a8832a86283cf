import DocumentEngine.Json.Record
import DocumentEngine.Schema.Structure

/-!
Schemas in JSON. The type of a field is one name: with values beside it an enumeration, else a
scalar if it names one, else a reference. An identifier is never nullable.
-/

namespace DocumentEngine

open Json (Written)

namespace Field

/-- The kind that a type name and a list of values stand for. -/
def kindOf (typeName : String) (values : List String) : FieldKind :=
  if !values.isEmpty then .enumeration typeName values
  else
    match ScalarKind.ofName? typeName with
    | some kind => .scalar kind
    | none => .reference typeName

/-- A field from its record. -/
def ofWritten? (w : Written) : Option Field := do
  match ← w.record? ["name", "type", "values", "nullable", "list", "identifier", "inline"] with
  | [name, type, values, nullable, list, identifier, inline] =>
    let name ← Written.required? Written.string? name
    let type ← Written.required? Written.string? type
    let values ← Written.optional? [] (Written.list? Written.string?) values
    let nullable ← Written.optional? true Written.flag? nullable
    let list ← Written.optional? false Written.flag? list
    let identifier ← Written.optional? false Written.flag? identifier
    let inline ← Written.optional? false Written.flag? inline
    return ⟨name, kindOf type values, nullable && !identifier, list, identifier, inline⟩
  | _ => none

/-- The record of a field; only an enumeration lists values. -/
def toJson (f : Field) : Json :=
  let values := match f.kind with
    | .enumeration _ (v :: vs) => [("values", Json.strings (v :: vs))]
    | _ => []
  Json.object ([
    ("name", .str f.name), ("type", .str f.kind.typeName), ("nullable", .bool f.nullable),
    ("list", .bool f.list), ("identifier", .bool f.identifier), ("inline", .bool f.inline)]
    ++ values)

end Field

namespace MutationRules

/-- Mutation rules from their record. -/
def ofWritten? (w : Written) : Option MutationRules := do
  match ← w.record? ["create", "update", "delete", "operations"] with
  | [create, update, delete, operations] =>
    let create ← Written.optional? true Written.flag? create
    let update ← Written.optional? true Written.flag? update
    let delete ← Written.optional? true Written.flag? delete
    let operations ← Written.optional? [] (Written.list? Written.string?) operations
    return ⟨create, update, delete, operations⟩
  | _ => none

/-- The record of mutation rules. -/
def toJson (m : MutationRules) : Json := Json.object [
  ("create", .bool m.create), ("update", .bool m.update), ("delete", .bool m.delete),
  ("operations", Json.strings m.operations)]

end MutationRules

namespace DocumentType

/-- A type from its record. -/
def ofWritten? (w : Written) : Option DocumentType := do
  match ← w.record? ["name", "fields", "plural", "singular", "mutations"] with
  | [name, fields, plural, singular, mutations] =>
    let name ← Written.required? Written.string? name
    let fields ← Written.required? (Written.list? Field.ofWritten?) fields
    let plural ← Written.optional? none (Written.nullable? Written.string?) plural
    let singular ← Written.optional? none (Written.nullable? Written.string?) singular
    let mutations ← Written.optional? {} MutationRules.ofWritten? mutations
    return ⟨name, fields, plural, singular, mutations⟩
  | _ => none

/-- The record of a type; accessors are written where they are given. -/
def toJson (t : DocumentType) : Json :=
  let given (name : String) (value : Option String) : List (String × Json) :=
    match value with
    | some s => [(name, .str s)]
    | none => []
  Json.object ([
    ("name", .str t.name), ("fields", .arr (t.fields.map Field.toJson)),
    ("mutations", t.mutations.toJson)] ++ given "plural" t.plural ++ given "singular" t.singular)

end DocumentType

namespace Schema

/-- A schema from its record. -/
def ofWritten? (w : Written) : Option Schema := do
  match ← w.record? ["types"] with
  | [types] => return ⟨← Written.required? (Written.list? DocumentType.ofWritten?) types⟩
  | _ => none

/-- A schema from a JSON value, not yet checked. -/
def ofJson? (v : Json) : Option Schema := ofWritten? v.written

/-- The record of a schema. -/
def toJson (s : Schema) : Json := Json.object [("types", .arr (s.types.map DocumentType.toJson))]

/-- A checked schema from text; `origin` says where the text comes from. -/
def ofText (origin text : String) : Except SchemaError Schema := do
  match Written.ofText? text >>= ofWritten? with
  | none => throw (.malformed origin s!"Invalid JSON: {Json.faultPlace}")
  | some s =>
    s.check
    return s

end Schema

end DocumentEngine
