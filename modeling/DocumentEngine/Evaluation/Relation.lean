import DocumentEngine.Json.Basic
import DocumentEngine.Schema.Basic
import DocumentEngine.Text.Split

/-!
Values at dotted paths. On the way a relation that the document has only as a pointer is replaced
by the documents it names; these are loaded once for each type and id and kept in a memo.
-/

namespace DocumentEngine.Evaluation

/-- How the document of a type and an id is found. -/
abbrev Loader := String → String → Option Document

/-- A document that was asked for, and what was found. -/
structure Load where
  type : String
  id : String
  found : Option Document

/-- Every document asked for so far, the first one first. -/
abbrev Memo := List Load

/-- What was found for a type and an id, if it was asked for. -/
def Memo.find? (memo : Memo) (type id : String) : Option (Option Document) :=
  (List.find? (fun load => load.type == type && load.id == id) memo).map Load.found

/-- The document of a type and an id, from the memo or else from the loader. -/
def load (loader : Loader) (memo : Memo) (type id : String) : Option Document × Memo :=
  match memo.find? type id with
  | some found => (found, memo)
  | none => (loader type id, memo ++ [⟨type, id, loader type id⟩])

/-- The documents that the items of a pointer name; items that name none are left out. -/
def loadItems (loader : Loader) (type : String) : Memo → List Json → List Json × Memo
  | memo, [] => ([], memo)
  | memo, item :: items =>
    match item.idText? with
    | none => loadItems loader type memo items
    | some id =>
      let (found, memo) := load loader memo type id
      let (docs, memo) := loadItems loader type memo items
      match found with
      | some doc => (.obj doc :: docs, memo)
      | none => (docs, memo)

/-- The value of a pointer with documents in place of their ids. -/
def expand (loader : Loader) (memo : Memo) (type : String) (pointer : Json) :
    Option Json × Memo :=
  match pointer with
  | .arr items =>
    let (docs, memo) := loadItems loader type memo items
    (some (.arr docs), memo)
  | pointer =>
    match pointer.idText? with
    | none => (none, memo)
    | some id =>
      let (found, memo) := load loader memo type id
      (found.map .obj, memo)

/-- The value at a path, the document with the relations filled in that were met, and the memo. -/
structure Resolution where
  value : Option Json
  doc : Document
  memo : Memo

/-- The values that one item adds to those of a list. -/
def contribution : Option Json → List Json
  | none => []
  | some (.arr values) => values
  | some v => [v]

/-- The values at a path below the objects of a list, and the list with its objects filled in. -/
def resolveItems (below : Document → Memo → Resolution) :
    Memo → List Json → List Json × List Json × Memo
  | memo, [] => ([], [], memo)
  | memo, .obj related :: items =>
    let r := below related memo
    let (values, filled, memo) := resolveItems below r.memo items
    (contribution r.value ++ values, .obj r.doc :: filled, memo)
  | memo, item :: items =>
    let (values, filled, memo) := resolveItems below memo items
    (values, item :: filled, memo)

/-- The value of a field of a document; a reference that is absent shows its pointer. -/
def fieldValue (t : DocumentType) (doc : Document) (name : String) : Option Json :=
  match doc.get? name with
  | some v => some v
  | none =>
    match t.field? name with
    | some f => if f.target?.isSome then doc.get? f.pointerKey else none
    | none => none

/-- Goes on below the value of a relation that the document holds. -/
def resolveBelow (below : Document → Memo → Resolution) (doc : Document) (name : String)
    (memo : Memo) : Json → Resolution
  | .obj related =>
    let r := below related memo
    ⟨r.value, doc.insert name (.obj r.doc), r.memo⟩
  | .arr items =>
    let (values, filled, memo) := resolveItems below memo items
    ⟨if values.isEmpty then none else some (.arr values), doc.insert name (.arr filled), memo⟩
  | _ => ⟨none, doc, memo⟩

/-- The value at a path of a document of a type. The identifier of an absent relation is its
pointer, which is read without loading anything. -/
def resolve (s : Schema) (loader : Loader) (t : DocumentType) (doc : Document) (memo : Memo) :
    List String → Resolution
  | [] => ⟨none, doc, memo⟩
  | [name] => ⟨fieldValue t doc name, doc, memo⟩
  | name :: next :: rest =>
    match t.field? name with
    | none => ⟨none, doc, memo⟩
    | some f =>
      match f.target? >>= s.type? with
      | none => ⟨none, doc, memo⟩
      | some target =>
        let below := fun related memo => resolve s loader target related memo (next :: rest)
        match doc.get? name, doc.get? f.pointerKey with
        | some v, _ => resolveBelow below doc name memo v
        | none, none => ⟨none, doc, memo⟩
        | none, some pointer =>
          if rest.isEmpty && next = target.identifierName then ⟨some pointer, doc, memo⟩
          else
            match expand loader memo target.name pointer with
            | (none, memo) => ⟨none, doc, memo⟩
            | (some v, memo) => resolveBelow below (doc.insert name v) name memo v

/-- The value at a dotted path. -/
def resolvePath (s : Schema) (loader : Loader) (t : DocumentType) (doc : Document) (memo : Memo)
    (path : String) : Resolution :=
  resolve s loader t doc memo (Text.splitAt '.' path)

end DocumentEngine.Evaluation
