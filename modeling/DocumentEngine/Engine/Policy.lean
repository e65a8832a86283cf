import DocumentEngine.Pipeline.Rule
import DocumentEngine.Schema.Validate

/-!
What an engine leaves to others: who may do what, how input is cleaned, what is kept back from
callers, and what input is valid. Such collaborators can be given as data: guards that deny by
matching, edits of documents of one type, and validators with a fixed answer.
-/

namespace DocumentEngine

/-- A mutation that is about to run: what came in, and the stored documents it touches. -/
structure Attempt where
  operation : String
  space : String
  type : String
  incoming : Document
  existing : List Document

/-- A decision with the notes left on the way to it. -/
structure Noted (α : Type) where
  value : α
  notes : List String := []

/-- The collaborators of an engine. -/
structure Collaborators where
  guard : Attempt → Noted Bool
  sanitize : (space type : String) → Document → Document
  redact : (space type : String) → Document → Document
  validate : (space type : String) → Document → ValidationMode → Noted (List Violation)

/-- Collaborators that allow everything, change nothing, and validate against a schema. -/
def Collaborators.permissive (s : Schema) : Collaborators where
  guard := fun _ => ⟨true, []⟩
  sanitize := fun _ _ doc => doc
  redact := fun _ _ doc => doc
  validate := fun _ type doc mode => ⟨s.validate type doc mode, []⟩

/-- What is denied. Where a part is left out it matches everything. -/
structure Denial where
  operation : Option String := none
  type : Option String := none
  incomingHas : Option String := none
  existingHas : Option String := none
  deriving DecidableEq

/-- Whether a denial matches a mutation. -/
def Denial.covers (d : Denial) (a : Attempt) : Bool :=
  d.operation.all (· == a.operation) && d.type.all (· == a.type) &&
    d.incomingHas.all a.incoming.contains &&
    d.existingHas.all fun field => a.existing.any (Keyed.contains · field)

/-- The guard of denials, with a note of each question where it traces. -/
def Denial.guard (denials : List Denial) (trace : Bool) (a : Attempt) : Noted Bool :=
  let incoming := (Json.obj a.incoming).compact
  let existing := (Json.arr (a.existing.map .obj)).compact
  { value := !denials.any (·.covers a)
    notes :=
      if trace then [s!"guard {a.operation} {a.space} {a.type} {incoming} {existing}"] else [] }

/-- An edit of the documents of a type, or of all types: it puts fields, takes fields out, and
trims the text of fields. -/
structure TypeEdit where
  type : Option String := none
  set : Document := []
  remove : List String := []
  trim : List String := []

namespace TypeEdit

/-- Trims the text of a field. -/
def trimField (doc : Document) (field : String) : Document :=
  match doc.get? field with
  | some (.str s) => doc.insert field (.str (Text.trim s))
  | _ => doc

/-- The document after an edit. -/
def apply (e : TypeEdit) (type : String) (doc : Document) : Document :=
  if e.type.all (· == type) then
    e.trim.foldl trimField (DocumentEdit.change doc e.set e.remove)
  else doc

end TypeEdit

/-- A validator that asks a schema or has the same violations for every document, with a note of
each question where it traces. -/
structure FixedValidator where
  schema : Option Schema := none
  violations : List Violation := []
  trace : Bool := false

namespace FixedValidator

/-- The name of a mode in notes. -/
def modeName : ValidationMode → String
  | .full => "Full"
  | .partialUpdate => "Partial"

/-- The violations of a document, with the notes. -/
def validate (v : FixedValidator) (space type : String) (doc : Document) (mode : ValidationMode) :
    Noted (List Violation) :=
  let content := (Json.obj doc).compact
  { value := match v.schema with
      | some s => s.validate type doc mode
      | none => v.violations
    notes := if v.trace then [s!"validate {space} {type} {modeName mode} {content}"] else [] }

end FixedValidator

end DocumentEngine
