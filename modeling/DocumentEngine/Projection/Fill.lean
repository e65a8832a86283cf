import DocumentEngine.Projection.Basic

/-!
Filling slots with the documents of a batch, and a bound on how long that can go on: every slot
that is left in the filling of a slot is smaller than that one.
-/

namespace DocumentEngine

mutual

/-- The height of the tree of a selection. -/
def Selection.height : Selection → Nat
  | .field _ _ _ below => Selection.heightBelow below + 1

/-- The height of the highest of selections. -/
def Selection.heightBelow : List Selection → Nat
  | [] => 0
  | selection :: rest => max (Selection.height selection) (Selection.heightBelow rest)

end

/-- The size of a slot. -/
def Slot.size (slot : Slot) : Nat :=
  2 * slot.selection.height + (if slot.kind = .parentField then 1 else 0)

namespace Batch

/-- A bound on the number of rounds that the pending slots can take. -/
def rounds (b : Batch) : Nat := b.pending.foldl (fun n slot => max n slot.size) 0

/-- Remembers the documents found for ids of a type, and that the other ids were missed. A document
is remembered under the id it holds. -/
def rememberAll (b : Batch) (t : DocumentType) (ids : List String) (docs : List Document) : Batch :=
  let found := docs.foldl (fun (b : Batch) doc =>
    match doc.get? t.identifierName >>= Json.idText? with
    | some id => b.remember t.name id (some doc)
    | none => b) b
  ids.foldl (fun (b : Batch) id =>
    if b.isMemoized t.name id then b else b.remember t.name id none) found

/-- The filling of a slot. Documents that were missed leave null, or no item in a list. -/
def fill (b : Batch) (s : Schema) (slot : Slot) : Projected :=
  match s.type? slot.type with
  | none => ⟨.null, [], []⟩
  | some t =>
    match slot.kind, slot.pointer with
    | .relation, .one id =>
      match b.lookup t.name id with
      | some doc =>
        Projection.project s t doc slot.selection.selections slot.path .stored
      | none => ⟨.null, [], []⟩
    | .relation, .many ids =>
      Projection.projectList s t (ids.filterMap (b.lookup t.name)) slot.selection.selections
        slot.path
    | .parentField, pointer =>
      match pointer.ids.head? >>= b.lookup t.name with
      | some doc => Projection.projectField s t doc slot.path .stored slot.selection
      | none => ⟨.null, [], []⟩

end Batch

end DocumentEngine
