import DocumentEngine.Engine.Error
import DocumentEngine.Json.Printer
import DocumentEngine.Operation.Basic
import DocumentEngine.Schema.Basic
import DocumentEngine.Schema.Coerce
import DocumentEngine.Text.Split

/-!
The input of mutations: what the arguments say, which fields an operation takes, which documents are
referred to, and how valid input is merged into a document. Values of scalar fields are stored as
their kind holds them; a reference is stored as a copy or as a pointer, and takes the place of
either.
-/

namespace DocumentEngine.Mutation

/-- The argument that may hold the whole input. -/
def inputArgument : String := "input"

/-- The input of arguments: the object of a lone input argument, or the arguments themselves. -/
def inputOf (arguments : Document) : Except EngineError Document :=
  match arguments with
  | [(name, v)] =>
    if name = inputArgument then
      match v with
      | .obj input => .ok input
      | other => .error (.constraint [⟨inputArgument, s!"expected an object, got {other.compact}"⟩])
    else .ok arguments
  | _ => .ok arguments

/-- The argument that names the document to delete: the identifier, `id`, the input, or the only
argument there is. -/
def deleteArgument? (identifier : String) (arguments : Document) : Option Json :=
  arguments.get? identifier <|> arguments.get? "id" <|> arguments.get? inputArgument <|>
    match arguments with
    | [(_, v)] => some v
    | _ => none

/-- The id of the document to delete. -/
def deleteTarget? (identifier : String) (arguments : Document) : Option Json :=
  match deleteArgument? identifier arguments with
  | some (.obj input) => Keyed.get? input identifier
  | some .null => none
  | other => other

/-- The reference that a key of the input names: by the name of the field, or by that with the
ending of pointers. -/
def referenceField? (t : DocumentType) (key : String) : Option Field := do
  let f ← t.field? key <|> do t.field? (← Text.dropEnding? "_id" key)
  if f.target?.isSome then some f else none

/-- The name under which an operation takes a key of the input. -/
def assignedName (t : DocumentType) (key : String) : String :=
  match referenceField? t key with
  | some f => f.name
  | none => key

/-- Checks that an operation takes every key of its input. The identifier is taken by all. -/
def checkAssignable (t : DocumentType) (op : Operation) (input : Document) :
    Except EngineError Unit :=
  let refused := input.keys.filter fun key =>
    key ≠ t.identifierName && !op.assigns (assignedName t key)
  if refused.isEmpty then .ok ()
  else .error (.constraint (refused.map fun key =>
    ⟨key, s!"field is not assignable by operation '{op.name}'"⟩))

mutual

/-- The ids that the value of a reference names: a value that is an id, the `id` of an object, and
those of the items of a list. -/
def referencedIds : Json → List String
  | .arr items => referencedItemIds items
  | .obj members => ((Keyed.get? members "id") >>= Json.idText?).toList
  | v => v.idText?.toList

/-- The ids that the items of a list name. -/
def referencedItemIds : List Json → List String
  | [] => []
  | v :: vs => referencedIds v ++ referencedItemIds vs

end

/-- The id of a document as messages show it. -/
def shownId (id : Json) : String := id.idText?.getD id.compact

/-- The pointer that a reference stores. -/
def pointerValue (f : Field) (v : Json) : Json :=
  let ids := (referencedIds v).map Json.str
  if f.list then .arr ids else ids.head?.getD .null

/-- The value as a kind holds it, or as it is where the kind does not. -/
def coerced (kind : ScalarKind) (v : Json) : Json :=
  match kind.coerce v with
  | .ok w => w
  | .error _ => v

/-- The value that a field stores. -/
def storedValue (t : DocumentType) (key : String) (v : Json) : Json :=
  match t.field? key with
  | some f =>
    match f.kind, v with
    | .scalar kind, .arr items =>
      if f.list then .arr (items.map (coerced kind)) else coerced kind v
    | .scalar kind, _ => coerced kind v
    | _, _ => v
  | none => v

/-- The document with a reference set, or taken out where the value is null. -/
def mergeReference (f : Field) (related : Keyed Json) (doc : Document) (v : Json) : Document :=
  let doc := (doc.erase f.name).erase f.pointerKey
  if v.isNull then doc
  else if f.inline then
    match related.get? f.name with
    | some copy => doc.insert f.name copy
    | none => doc
  else doc.insert f.pointerKey (pointerValue f v)

/-- The document with a key of the input merged in. -/
def mergeKey (t : DocumentType) (related : Keyed Json) (doc : Document) (key : String) (v : Json) :
    Document :=
  match referenceField? t key with
  | some f => mergeReference f related doc v
  | none => doc.insert key (storedValue t key v)

/-- The document with the input merged in, key by key. -/
def merge (t : DocumentType) (related : Keyed Json) (doc input : Document) : Document :=
  input.foldl (fun doc (key, v) => mergeKey t related doc key v) doc

end DocumentEngine.Mutation
