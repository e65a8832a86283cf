import DocumentEngine.FileTree.Basic
import DocumentEngine.Json.Reader

/-!
Why an operation of the store fails.
-/

namespace DocumentEngine

/-- What is wrong with a document id. -/
inductive IdFault where
  | empty
  | relative
  | separator
  | tempSuffix
  deriving DecidableEq

/-- The reason in words. -/
def IdFault.reason : IdFault → String
  | .empty => "id is empty"
  | .relative => "id is a relative path"
  | .separator => "id contains a path separator"
  | .tempSuffix => "id uses the temp file suffix"

/-- What is wrong with the content of a document file. -/
inductive DecodeFault where
  | unreadable
  | notAnObject
  deriving DecidableEq

/-- The reason in words. -/
def DecodeFault.reason : DecodeFault → String
  | .unreadable => Json.faultPlace
  | .notAnObject => "document is not a JSON object"

/-- A failed operation of the store. -/
inductive StoreError where
  | io (path : Path) (cause : FileError)
  | invalidId (id : String) (fault : IdFault)
  | alreadyExists (type id : String)
  | notFound (type id : String)
  | decode (path : Path) (fault : DecodeFault)
  | unknownType (name : String)
  deriving DecidableEq

namespace StoreError

/-- The name of the kind of error. -/
def kind : StoreError → String
  | .io _ _ => "Io"
  | .invalidId _ _ => "InvalidId"
  | .alreadyExists _ _ => "AlreadyExists"
  | .notFound _ _ => "NotFound"
  | .decode _ _ => "Decode"
  | .unknownType _ => "UnknownType"

/-- The message of the error. -/
def message : StoreError → String
  | .io path cause => s!"I/O error at {path.text}: {cause.message}"
  | .invalidId id fault => s!"Invalid document id '{id}': {fault.reason}"
  | .alreadyExists type id => s!"Document {type}/{id} already exists"
  | .notFound type id => s!"Document {type}/{id} not found"
  | .decode path fault => s!"Failed to decode {path.text}: {fault.reason}"
  | .unknownType name => s!"Unknown type: {name}"

/-- Whether the caller is at fault, and not the files. -/
def isClientError : StoreError → Bool
  | .io _ _ => false
  | .decode _ _ => false
  | _ => true

end StoreError

end DocumentEngine
