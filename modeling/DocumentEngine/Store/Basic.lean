import DocumentEngine.Schema.Basic
import DocumentEngine.Store.Error
import DocumentEngine.State

/-!
The store of a namespace: a directory for each type, and in it one file for each document, named
by the id of the document and holding it as indented JSON. Files with the suffix of unfinished
writes are no documents.
-/

namespace DocumentEngine

/-- The directory of a namespace and the schema of its documents. -/
structure Store where
  root : Path
  space : String
  schema : Schema

/-- Operations on the store, which fail with an error or change the state. -/
abbrev StoreM := ExceptT StoreError (StateM State)

namespace Store

/-- The suffix of unfinished writes. -/
def tempSuffix : String := ".tmp"

/-- Whether a file name is that of an unfinished write. -/
def isTempName (name : String) : Bool := tempSuffix.toList.isSuffixOf name.toList

/-- What is wrong with an id, if anything: an id is a plain file name. -/
def idFault? (id : String) : Option IdFault :=
  let cs := id.toList
  if id = "" then some .empty
  else if id = "." || id = ".." then some .relative
  else if cs.contains '/' || cs.contains '\\' || cs.contains '\x00' then some .separator
  else if isTempName id then some .tempSuffix
  else none

/-- The directory of the documents of a type. -/
def typeDir (s : Store) (type : String) : Path := s.root.join type

/-- The file of a document. -/
def documentPath (s : Store) (type id : String) : Except StoreError Path :=
  match idFault? id with
  | some fault => .error (.invalidId id fault)
  | none => .ok ((s.typeDir type).join id)

/-- The document that the text of a file holds. -/
def decode (path : Path) (text : String) : Except StoreError Document :=
  match Json.ofText? text with
  | some (.obj doc) => .ok doc
  | some _ => .error (.decode path .notAnObject)
  | none => .error (.decode path .unreadable)

/-- The document in a file, or none where there is no file. -/
def readDocument? (files : FileTree) (path : Path) : Except StoreError (Option Document) :=
  match files.readText path with
  | .ok text => (decode path text).map some
  | .error .missing => .ok none
  | .error cause => .error (.io path cause)

/-- The document of a type and an id, if it is stored. -/
def find? (s : Store) (files : FileTree) (type id : String) : Except StoreError (Option Document) :=
  match s.documentPath type id with
  | .ok path => readDocument? files path
  | .error e => .error e

/-- Reads the document of a type and an id. -/
def load (s : Store) (type id : String) : StoreM (Option Document) := do
  let state ← get
  MonadExcept.ofExcept (s.find? state.files type id)

/-- An error or a value, as an operation that changes nothing. -/
def lift {α : Type} (x : Except StoreError α) : StoreM α := MonadExcept.ofExcept x

end Store

end DocumentEngine
