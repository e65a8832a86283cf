import DocumentEngine.Operation.Descriptor
import DocumentEngine.Schema.Basic

/-!
The operations of a type: `create`, `update` and `delete` as its rules allow, then those of its
descriptors in order; a field that a descriptor assigns is left to it. The catalog holds all
operations of a schema in one namespace, and the table from the names of mutations to them.
-/

namespace DocumentEngine.DocumentType

/-- The context of a descriptor, `modify` where it names none. -/
def contextOf (d : Descriptor) : Except OperationError OperationContext :=
  match d.context with
  | none => .ok .modify
  | some text =>
    match OperationContext.ofText? text with
    | some context => .ok context
    | none => .error (.unknownContext d.name text)

/-- The operation of a descriptor; it assigns only fields of the type. -/
def declaredOperation (t : DocumentType) (text : String) : Except OperationError Operation := do
  let d ← Descriptor.ofText text
  let context ← contextOf d
  match d.assign.find? fun field => (t.field? field).isNone with
  | some field => throw (.unknownAssignField t.name d.name field)
  | none => return ⟨d.name, context, d.assign, d.set, false⟩

/-- Puts declared operations after others; no name stands twice. -/
def appendOperations (t : DocumentType) :
    List Operation → List Operation → Except OperationError (List Operation)
  | operations, [] => .ok operations
  | operations, op :: ops =>
    if operations.any fun other => other.name == op.name then
      .error (.duplicateOperation t.name op.name)
    else appendOperations t (operations ++ [op]) ops

/-- The implicit operations that the rules of a type allow. -/
def implicitOperations (t : DocumentType) (assign : List String) : List Operation :=
  (if t.mutations.create then [.ofImplicit "create" .create assign] else []) ++
  (if t.mutations.update then [.ofImplicit "update" .modify assign] else []) ++
  (if t.mutations.delete then [.ofImplicit "delete" .delete []] else [])

/-- The operations of a type. -/
def operations (t : DocumentType) : Except OperationError (List Operation) := do
  let identifier ← match t.identifier? with
    | some f => pure f.name
    | none => throw (.missingIdentifier t.name)
  let declared ← t.mutations.operations.mapM t.declaredOperation
  let claimed := declared.flatMap (·.assign)
  let assign := (t.fields.map (·.name)).filter fun name =>
    name != identifier && !claimed.contains name
  t.appendOperations (t.implicitOperations assign) declared

end DocumentEngine.DocumentType

namespace DocumentEngine

/-- A type with one of its operations. -/
structure MutationEntry where
  type : String
  operation : Operation

/-- The operations of each type of a namespace. -/
structure Catalog where
  space : String
  byType : Keyed (List Operation)

namespace Catalog

/-- Adds the operations of types in order; of two types with one name the last counts. -/
def addTypes (byType : Keyed (List Operation)) :
    List DocumentType → Except OperationError (Keyed (List Operation))
  | [] => .ok byType
  | t :: ts => do addTypes (byType.insert t.name (← t.operations)) ts

/-- The catalog of a schema. -/
def ofSchema (space : String) (s : Schema) : Except OperationError Catalog := do
  return ⟨space, ← addTypes [] s.types⟩

/-- The operations of a type in a namespace. -/
def operations? (c : Catalog) (space type : String) : Option (List Operation) :=
  if space = c.space then c.byType.get? type else none

/-- The mutations of a type under their names. -/
def entriesOf (type : String) (operations : List Operation) : List (String × MutationEntry) :=
  operations.map fun op => (op.resolverName (Text.lowerFirst type), ⟨type, op⟩)

/-- The mutations of a namespace under their names. Types come in the order of their names; of two
mutations with one name the last counts. -/
def resolvers (c : Catalog) (space : String) : Keyed MutationEntry :=
  if space = c.space then
    Keyed.ofList (c.byType.flatMap fun (type, operations) => entriesOf type operations)
  else []

end Catalog

end DocumentEngine
