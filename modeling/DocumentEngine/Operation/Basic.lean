import DocumentEngine.Json.Basic
import DocumentEngine.Text.Split
import DocumentEngine.Text.Case

/-!
Mutation operations. An operation creates, modifies or deletes a document; it takes the fields it
may assign from the caller and sets values of its own over them. Why the operations of a type cannot
be derived is an error of its own; a malformed descriptor is reported with its text.
-/

namespace DocumentEngine

/-- What makes a descriptor malformed. -/
inductive DescriptorFault where
  | badName (name : String)
  | stray (text : String)
  | separator
  | unknownKey (key : String)
  | notAList
  | notAMap
  | entryWithoutColon (entry : String)
  | emptyEntryKey
  deriving DecidableEq

/-- The reason in words. -/
def DescriptorFault.reason : DescriptorFault → String
  | .badName name => s!"invalid operation name '{name}'"
  | .stray text => s!"expected `key = value`, found '{text}'"
  | .separator => "fragments must be separated by one comma"
  | .unknownKey key => s!"unknown key '{key}'"
  | .notAList => "assign expects a [list]"
  | .notAMap => "set expects a \x7bmap\x7d"
  | .entryWithoutColon entry => s!"set entry '{entry}' has no ':'"
  | .emptyEntryKey => "set entry has an empty key"

/-- A fault in the operations of a type. -/
inductive OperationError where
  | missingName (descriptor : String)
  | malformed (descriptor : String) (fault : DescriptorFault)
  | unknownContext (operation context : String)
  | unknownAssignField (type operation field : String)
  | duplicateOperation (type operation : String)
  | missingIdentifier (type : String)
  deriving DecidableEq

namespace OperationError

/-- The name of the kind of fault. -/
def kind : OperationError → String
  | .missingName _ => "MissingName"
  | .malformed _ _ => "Malformed"
  | .unknownContext _ _ => "UnknownContext"
  | .unknownAssignField _ _ _ => "UnknownAssignField"
  | .duplicateOperation _ _ => "DuplicateOperation"
  | .missingIdentifier _ => "MissingIdentifier"

/-- The message of the fault. -/
def message : OperationError → String
  | .missingName descriptor => s!"Operation descriptor '{descriptor}' has no name"
  | .malformed descriptor fault =>
    s!"Malformed operation descriptor '{descriptor}': {fault.reason}"
  | .unknownContext operation context =>
    s!"Operation '{operation}' has unknown context '{context}'"
  | .unknownAssignField type operation field =>
    s!"Operation '{operation}' assigns unknown field '{field}' of type '{type}'"
  | .duplicateOperation type operation =>
    s!"Type '{type}' declares operation '{operation}' twice"
  | .missingIdentifier type => s!"Type '{type}' has no identifier field"

end OperationError

/-- What an operation does to a stored document. -/
inductive OperationContext where
  | create
  | modify
  | delete
  deriving DecidableEq

namespace OperationContext

/-- The written name of a context. -/
def name : OperationContext → String
  | .create => "create"
  | .modify => "modify"
  | .delete => "delete"

/-- The name that a text gives, blanks and the case of ASCII letters aside. -/
def normalName (s : String) : String :=
  String.ofList ((Text.trimChars s.toList).map Char.toLower)

/-- The context that a text names. -/
def ofText? (s : String) : Option OperationContext :=
  match normalName s with
  | "create" => some .create
  | "modify" => some .modify
  | "update" => some .modify
  | "delete" => some .delete
  | _ => none

/-- The context that a text names, or the error that it names none. -/
def ofText (s : String) : Except OperationError OperationContext :=
  match ofText? s with
  | some context => .ok context
  | none => .error (.unknownContext "" (normalName s))

end OperationContext

/-- An operation on the documents of a type. -/
structure Operation where
  name : String
  context : OperationContext
  assign : List String
  set : Keyed Json
  implicit : Bool

namespace Operation

/-- An operation that every type has unless its schema says otherwise. -/
def ofImplicit (name : String) (context : OperationContext) (assign : List String) : Operation :=
  ⟨name, context, assign, [], true⟩

/-- The name of the mutation under an accessor, such as `personCreate`. -/
def resolverName (op : Operation) (accessor : String) : String :=
  accessor ++ Text.upperFirst op.name

/-- The stages of handlers around the change of the store, the outermost first. Deletions run only
their own stage; any other operation runs inside the common stage of writes. -/
def hookSuffixes (op : Operation) : List String :=
  match op.context with
  | .delete => [Text.upperFirst op.name]
  | _ => ["Write", Text.upperFirst op.name]

/-- Whether the caller may supply a field. -/
def assigns (op : Operation) (field : String) : Bool := op.assign.contains field

end Operation

end DocumentEngine
