import DocumentEngine.Json.Basic
import DocumentEngine.Request.Basic
import DocumentEngine.Response.Basic

/-!
Pointers of references, which hold the id of one document or a list of ids, and batches of slots that
wait for the documents. The slots of a round are collected first; then every document that is not
yet known is loaded, type by type, and what was found or missed is remembered for the rounds to
come.
-/

namespace DocumentEngine

/-- The documents that a reference names. -/
inductive Pointer where
  | one (id : String)
  | many (ids : List String)
  deriving DecidableEq

namespace Pointer

/-- The pointer that a value is. Items of a list that are no ids are left out. -/
def ofJson? : Json → Option Pointer
  | .arr items => some (.many (items.filterMap Json.idText?))
  | v => v.idText?.map .one

/-- The ids in order. -/
def ids : Pointer → List String
  | .one id => [id]
  | .many ids => ids

/-- What stands for the documents until they are found. -/
def placeholder : Pointer → Json
  | .one _ => .null
  | .many _ => .arr []

end Pointer

/-- What is to stand in a slot: the documents that a reference names, or a field that an embedded
copy of a document lacks. -/
inductive SlotKind where
  | relation
  | parentField
  deriving DecidableEq

/-- A place in the response that waits for stored documents. -/
structure Slot where
  path : ResponsePath
  type : String
  pointer : Pointer
  selection : Selection
  kind : SlotKind

/-- The slots of the coming round, and the documents found and missed so far. -/
structure Batch where
  pending : List Slot := []
  memo : Keyed (Keyed (Option Document)) := []

namespace Batch

/-- Adds a slot to the coming round. -/
def defer (b : Batch) (slot : Slot) : Batch := { b with pending := b.pending ++ [slot] }

/-- Whether there are slots for another round. -/
def hasPending (b : Batch) : Bool := !b.pending.isEmpty

/-- The slots of the coming round, and the batch without them. -/
def take (b : Batch) : List Slot × Batch := (b.pending, { b with pending := [] })

/-- What is known of a document: that it was found, or that it was missed. -/
def known? (b : Batch) (type id : String) : Option (Option Document) := do
  (← b.memo.get? type).get? id

/-- Whether a document was looked for before. -/
def isMemoized (b : Batch) (type id : String) : Bool := (b.known? type id).isSome

/-- The document of a type and an id, if it was found. -/
def lookup (b : Batch) (type id : String) : Option Document := (b.known? type id).join

/-- Remembers a document that was found, or that there is none. -/
def remember (b : Batch) (type id : String) (doc : Option Document) : Batch :=
  { b with memo := b.memo.update type [] fun docs => docs.insert id doc }

/-- Adds the ids of a slot that were not looked for to those of its type. -/
def addMissing (b : Batch) (found : Keyed (Keyed Unit)) (slot : Slot) : Keyed (Keyed Unit) :=
  (slot.pointer.ids.filter fun id => !b.isMemoized slot.type id).foldl
    (fun found id => found.update slot.type [] fun ids => ids.insert id ()) found

/-- The ids that the slots of a round wait for and that were not looked for yet: for each type in
order, without repetition and in order. -/
def missing (b : Batch) (round : List Slot) : Keyed (List String) :=
  (round.foldl b.addMissing []).mapValues Keyed.keys

end Batch

end DocumentEngine
