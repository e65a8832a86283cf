import DocumentEngine.Proofs.Projection.Place
import DocumentEngine.Projection.Fill

/-!
Projection without slots. Every pointer is followed at once with a function that finds documents,
and what an embedded copy lacks is read from the document that was copied. The value of a slot is
what the pointer or the missing field gives this way.
-/

namespace DocumentEngine

/-- How a document of a type and an id is found. -/
abbrev Finder := String → String → Option Document

namespace Finder

/-- The document that an embedded copy was made of. -/
def original? (find : Finder) (t : DocumentType) (copy : Document) : Option Document :=
  copy.get? t.identifierName >>= Json.idText? >>= find t.name

/-- What a pointer leads to, with a value for each document. A document that is not found is null,
or no item in a list. -/
def follow (find : Finder) (type : String) (value : Document → Json) : Pointer → Json
  | .one id => ((find type id).map value).getD .null
  | .many ids => .arr ((ids.filterMap (find type)).map value)

end Finder

namespace Direct

open Projection (typeNameField)

mutual

/-- The value of a field of a document, with a value for what the document lacks. -/
def field (s : Schema) (find : Finder) (t : DocumentType) (doc : Document) (missing : Json) :
    Selection → Json
  | .field _ name _ below =>
    if name = typeNameField then .str t.name
    else
      match t.field? name with
      | none => .null
      | some f =>
        match f.target? with
        | none => (doc.get? f.name).getD missing
        | some target =>
          match s.type? target with
          | none => .null
          | some u =>
            let value (origin : Origin) (d : Document) : Json :=
              if below.isEmpty then .obj d
              else .obj (Keyed.ofList (fields s find u d origin below))
            let pointed : Json :=
              match doc.get? f.name <|> doc.get? f.pointerKey with
              | none => missing
              | some pointer =>
                if below.isEmpty then pointer
                else ((Pointer.ofJson? pointer).map (find.follow u.name (value .stored))).getD .null
            match doc.get? f.name with
            | some (.obj copy) => value .embedded copy
            | some .null => .null
            | some (.arr items) =>
              if items.any fun item => item.obj?.isSome then
                .arr (items.map fun item =>
                  match item with
                  | .obj copy => value .embedded copy
                  | other => other)
              else pointed
            | _ => pointed

/-- The values of fields of a document under the keys of the response. What a stored document lacks
is null, what a copy lacks is read from the document that was copied. -/
def fields (s : Schema) (find : Finder) (t : DocumentType) (doc : Document) (origin : Origin) :
    List Selection → List (String × Json)
  | [] => []
  | selection :: rest =>
    let missing :=
      match origin with
      | .stored => .null
      | .embedded =>
        ((find.original? t doc).map fun d => field s find t d .null selection).getD .null
    (selection.responseKey, field s find t doc missing selection) ::
      fields s find t doc origin rest

end

/-- What stands for a field that a document lacks. -/
def missing (s : Schema) (find : Finder) (t : DocumentType) (doc : Document) (origin : Origin)
    (selection : Selection) : Json :=
  match origin with
  | .stored => .null
  | .embedded => ((find.original? t doc).map fun d => field s find t d .null selection).getD .null

theorem fields_cons (s : Schema) (find : Finder) (t : DocumentType) (doc : Document)
    (origin : Origin) (selection : Selection) (rest : List Selection) :
    fields s find t doc origin (selection :: rest) =
      (selection.responseKey, field s find t doc (missing s find t doc origin selection) selection)
        :: fields s find t doc origin rest := by
  rw [fields.eq_def]
  rfl

/-- A document with the selected fields. Where none are selected it is the whole document. -/
def document (s : Schema) (find : Finder) (t : DocumentType) (origin : Origin)
    (selections : List Selection) (doc : Document) : Json :=
  if selections.isEmpty then .obj doc
  else .obj (Keyed.ofList (fields s find t doc origin selections))

/-- What is to stand in a slot. -/
def slot (s : Schema) (find : Finder) (slot : Slot) : Json :=
  match s.type? slot.type with
  | none => .null
  | some t =>
    match slot.kind with
    | .relation =>
      find.follow t.name (document s find t .stored slot.selection.selections) slot.pointer
    | .parentField =>
      ((slot.pointer.ids.head? >>= find t.name).map fun d =>
        field s find t d .null slot.selection).getD .null

/-- The data with what is to stand in slots. -/
def settle (s : Schema) (find : Finder) (data : Json) (slots : List Slot) : Json :=
  slots.foldl (fun data open_ => data.setAt (slot s find open_) open_.path) data

end Direct

end DocumentEngine
