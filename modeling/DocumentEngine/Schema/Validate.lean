import DocumentEngine.Schema.Coerce
import DocumentEngine.Schema.Error
import DocumentEngine.Text.Split

/-!
Validation of documents against a schema. Every violation is reported: first the required fields
that are missing, in the order of the type, then the faults of the fields that are there, in key
order.
-/

namespace DocumentEngine

/-- Whether a document is whole, or names only the fields that change. -/
inductive ValidationMode where
  | full
  | partialUpdate
  deriving DecidableEq

namespace DocumentType

/-- Whether a document has a value other than null for a field, under its name or, without that,
under its pointer key. -/
def isPresent (doc : Document) (f : Field) : Bool :=
  match doc.get? f.name <|> doc.get? f.pointerKey with
  | some v => !v.isNull
  | none => false

/-- The required fields that a document lacks. An identifier is never asked for. -/
def missingFields (t : DocumentType) (doc : Document) : List Violation :=
  (t.fields.filter fun f => !f.nullable && !f.identifier && !isPresent doc f).map
    fun f => .missing f.name

/-- The field that a key belongs to: the field of that name, or the reference whose pointer key it
is. -/
def declaredField? (t : DocumentType) (key : String) : Option Field :=
  t.field? key <|> do
    let f ← t.field? (← Text.dropEnding? "_id" key)
    if f.target?.isSome then some f else none

end DocumentType

namespace Field

/-- The violation of one value of a field, reported at `path`. -/
def itemViolations (f : Field) (path : String) (v : Json) : List Violation :=
  match f.kind with
  | .scalar kind =>
    match kind.coerce v with
    | .ok _ => []
    | .error e => [⟨path, e.message⟩]
  | .enumeration name values =>
    let known := match v with
      | .str s => values.contains s
      | _ => false
    let choices := ", ".intercalate values
    if known then [] else [⟨path, s!"expected one of {name} ({choices})"⟩]
  | .reference target =>
    match v with
    | .str _ => []
    | .num _ => []
    | .obj _ => []
    | _ => [⟨path, s!"expected a {target} id, got {v.kindName}"⟩]

/-- The violations of the items of a list field, from an index on. -/
def listViolations (f : Field) (path : String) : Nat → List Json → List Violation
  | _, [] => []
  | i, v :: vs => f.itemViolations s!"{path}[{i}]" v ++ f.listViolations path (i + 1) vs

/-- The violations of the value of a field, reported at `path`. -/
def violations (f : Field) (path : String) (v : Json) : List Violation :=
  match v with
  | .null => if f.nullable then [] else [⟨path, "null is not allowed"⟩]
  | .arr items => if f.list then f.listViolations path 0 items else f.itemViolations path v
  | _ =>
    if f.list then [⟨path, s!"expected a list, got {v.kindName}"⟩] else f.itemViolations path v

end Field

namespace Schema

/-- The violations of a document of a type. -/
def validate (s : Schema) (type : String) (doc : Document) (mode : ValidationMode) :
    List Violation :=
  match s.type? type with
  | none => [⟨"$type", s!"unknown type '{type}'"⟩]
  | some t =>
    (match mode with
      | .full => t.missingFields doc
      | .partialUpdate => []) ++
    doc.flatMap fun (key, v) =>
      match t.declaredField? key with
      | some f => f.violations key v
      | none => [.undeclared key]

end Schema

end DocumentEngine
