import DocumentEngine.Projection.Batch
import DocumentEngine.Schema.Basic

/-!
Projection of documents onto selected fields. A field that needs another stored document is left
open as a slot; a field that the type does not have is a fault and null.
-/

namespace DocumentEngine

/-- Where a document comes from. What a stored document lacks is null; what an embedded copy lacks
may stand in the stored document that was copied. -/
inductive Origin where
  | stored
  | embedded
  deriving DecidableEq

/-- A projected value with the slots left open in it and the faults met, in the order of the
fields. -/
structure Projected where
  value : Json
  slots : List Slot := []
  faults : List ResponseError := []

namespace Projected

/-- The object of projected fields. Of two fields with one key the value of the last counts. -/
def object (fields : List (String × Projected)) : Projected where
  value := .obj (Keyed.ofList (fields.map fun (key, p) => (key, p.value)))
  slots := fields.flatMap fun (_, p) => p.slots
  faults := fields.flatMap fun (_, p) => p.faults

/-- The list of projected items. -/
def list (items : List Projected) : Projected where
  value := .arr (items.map Projected.value)
  slots := items.flatMap Projected.slots
  faults := items.flatMap Projected.faults

end Projected

namespace Projection

/-- The field that selects the name of the type. -/
def typeNameField : String := "__typename"

/-- Leaves a slot for the documents that a pointer names. Where nothing is selected of them the
pointer itself is the value. -/
def deferRelation (target : String) (pointer : Json) (selection : Selection)
    (path : ResponsePath) : Projected :=
  if selection.selections.isEmpty then ⟨pointer, [], []⟩
  else
    match Pointer.ofJson? pointer with
    | none => ⟨.null, [], []⟩
    | some ids => ⟨ids.placeholder, [⟨path, target, ids, selection, .relation⟩], []⟩

/-- Leaves a slot for a field that an embedded copy lacks, if the copy has an id. -/
def deferParent (t : DocumentType) (doc : Document) (selection : Selection) (path : ResponsePath)
    (origin : Origin) : Projected :=
  match origin, doc.get? t.identifierName >>= Json.idText? with
  | .embedded, some id => ⟨.null, [⟨path, t.name, .one id, selection, .parentField⟩], []⟩
  | _, _ => ⟨.null, [], []⟩

/-- The value of a reference that is not embedded: under its name, under its pointer key, or in
the document that this one is a copy of. -/
def reference (t : DocumentType) (f : Field) (target : String) (doc : Document)
    (selection : Selection) (path : ResponsePath) (origin : Origin) : Projected :=
  match doc.get? f.name <|> doc.get? f.pointerKey with
  | some pointer => deferRelation target pointer selection path
  | none => deferParent t doc selection path origin

mutual

/-- The projection of a document onto one field. -/
def projectField (s : Schema) (t : DocumentType) (doc : Document) (path : ResponsePath)
    (origin : Origin) : Selection → Projected
  | .field label name arguments below =>
    let selection := Selection.field label name arguments below
    if name = typeNameField then ⟨.str t.name, [], []⟩
    else
      match t.field? name with
      | none => ⟨.null, [], [⟨path, .unknownField t.name name⟩]⟩
      | some f =>
        match f.target? with
        | none =>
          match doc.get? f.name with
          | some v => ⟨v, [], []⟩
          | none => deferParent t doc selection path origin
        | some target =>
          match s.type? target with
          | none => ⟨.null, [], []⟩
          | some u =>
            match doc.get? f.name with
            | some (.obj copy) =>
              if below.isEmpty then ⟨.obj copy, [], []⟩
              else .object (projectFields s u copy path .embedded below)
            | some .null => ⟨.null, [], []⟩
            | some (.arr items) =>
              if items.any fun item => item.obj?.isSome then
                .list (items.mapIdx fun i item =>
                  match item with
                  | .obj copy =>
                    if below.isEmpty then ⟨.obj copy, [], []⟩
                    else .object (projectFields s u copy (path ++ [.index i]) .embedded below)
                  | other => ⟨other, [], []⟩)
              else reference t f target doc selection path origin
            | _ => reference t f target doc selection path origin

/-- The projections of a document onto fields, under the keys of the response. -/
def projectFields (s : Schema) (t : DocumentType) (doc : Document) (path : ResponsePath)
    (origin : Origin) : List Selection → List (String × Projected)
  | [] => []
  | selection :: rest =>
    let key := selection.responseKey
    (key, projectField s t doc (path ++ [.key key]) origin selection) ::
      projectFields s t doc path origin rest

end

/-- The projection of a document onto fields. Where none are selected it is the whole document. -/
def project (s : Schema) (t : DocumentType) (doc : Document) (selections : List Selection)
    (path : ResponsePath) (origin : Origin) : Projected :=
  if selections.isEmpty then ⟨.obj doc, [], []⟩
  else .object (projectFields s t doc path origin selections)

/-- The projections of documents of a list. -/
def projectList (s : Schema) (t : DocumentType) (docs : List Document)
    (selections : List Selection) (path : ResponsePath) : Projected :=
  .list (docs.mapIdx fun i doc => project s t doc selections (path ++ [.index i]) .stored)

end Projection

end DocumentEngine
