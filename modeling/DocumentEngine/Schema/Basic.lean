import DocumentEngine.Text.Case

/-!
Schemas: a catalog of document types. A type has fields in order, one of them the identifier; a
field holds a scalar, an enumerated string, or a reference to a document of another type.
-/

namespace DocumentEngine

/-- The kinds of scalar values. -/
inductive ScalarKind where
  | id
  | string
  | int
  | float
  | boolean
  | dateTime
  deriving DecidableEq

namespace ScalarKind

/-- The name of the kind in a schema. -/
def name : ScalarKind → String
  | .id => "ID"
  | .string => "String"
  | .int => "Int"
  | .float => "Float"
  | .boolean => "Boolean"
  | .dateTime => "DateTime"

/-- The kind of a name. -/
def ofName? : String → Option ScalarKind
  | "ID" => some .id
  | "String" => some .string
  | "Int" => some .int
  | "Float" => some .float
  | "Boolean" => some .boolean
  | "DateTime" => some .dateTime
  | _ => none

end ScalarKind

/-- What a field holds. -/
inductive FieldKind where
  | scalar (kind : ScalarKind)
  | enumeration (name : String) (values : List String)
  | reference (target : String)
  deriving DecidableEq

/-- The type name of the kind in a schema. -/
def FieldKind.typeName : FieldKind → String
  | .scalar kind => kind.name
  | .enumeration name _ => name
  | .reference target => target

/-- A field of a document type. An inline reference keeps a copy of the document it names, any
other reference only a pointer. -/
structure Field where
  name : String
  kind : FieldKind
  nullable : Bool := true
  list : Bool := false
  identifier : Bool := false
  inline : Bool := false
  deriving DecidableEq

namespace Field

/-- A nullable scalar field. -/
def ofScalar (name : String) (kind : ScalarKind) : Field :=
  ⟨name, .scalar kind, true, false, false, false⟩

/-- An identifier field. -/
def ofIdentifier (name : String) : Field := ⟨name, .scalar .id, false, false, true, false⟩

/-- A nullable reference field. -/
def ofReference (name target : String) : Field :=
  ⟨name, .reference target, true, false, false, false⟩

/-- A nullable field of one of some texts. -/
def ofEnumeration (name enumeration : String) (values : List String) : Field :=
  ⟨name, .enumeration enumeration values, true, false, false, false⟩

/-- The field with a value required. -/
def required (f : Field) : Field := { f with nullable := false }

/-- The field with a list in place of one value. -/
def ofList (f : Field) : Field := { f with list := true }

/-- The reference with copies in place of pointers. -/
def inlined (f : Field) : Field := { f with inline := true }

/-- The type that a reference names. -/
def target? (f : Field) : Option String :=
  match f.kind with
  | .reference target => some target
  | _ => none

/-- The key of the pointer of a reference that is not inline. -/
def pointerKey (f : Field) : String := f.name ++ "_id"

end Field

/-- Which mutations a type offers, and descriptors of further operations. -/
structure MutationRules where
  create : Bool := true
  update : Bool := true
  delete : Bool := true
  operations : List String := []
  deriving DecidableEq

/-- A document type. -/
structure DocumentType where
  name : String
  fields : List Field
  plural : Option String := none
  singular : Option String := none
  mutations : MutationRules := {}
  deriving DecidableEq

namespace DocumentType

/-- The first field of a name. -/
def field? (t : DocumentType) (name : String) : Option Field :=
  t.fields.find? fun f => f.name == name

/-- The field of a name, or else the first whose name differs only in the case of its first
letter. -/
def looseField? (t : DocumentType) (name : String) : Option Field :=
  t.field? name <|>
    t.fields.find? fun f => Text.lowerFirst f.name == Text.lowerFirst name

/-- The identifier field. -/
def identifier? (t : DocumentType) : Option Field := t.fields.find? (·.identifier)

/-- The name of the identifier field, `id` where there is none. -/
def identifierName (t : DocumentType) : String :=
  match t.identifier? with
  | some f => f.name
  | none => "id"

/-- The root accessor of one document. -/
def singularName (t : DocumentType) : String := t.singular.getD (Text.lowerFirst t.name)

/-- The root accessor of a list of documents. -/
def pluralName (t : DocumentType) : String := t.plural.getD (t.singularName ++ "s")

end DocumentType

/-- A catalog of document types. -/
structure Schema where
  types : List DocumentType
  deriving DecidableEq

/-- The first type of a name. -/
def Schema.type? (s : Schema) (name : String) : Option DocumentType :=
  s.types.find? fun t => t.name == name

end DocumentEngine
