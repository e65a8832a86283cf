import DocumentEngine.Filter.Basic

/-!
Why filter keys and query arguments are refused.
-/

namespace DocumentEngine

/-- What makes a filter key malformed. -/
inductive KeyFault where
  | empty
  | trailingConnector
  | noField
  | noValue
  deriving DecidableEq

/-- The reason in words. -/
def KeyFault.reason : KeyFault → String
  | .empty => "empty filter key"
  | .trailingConnector => "key ends with a separator"
  | .noField => "no field in filter key"
  | .noValue => "no value supplied"

/-- A refused filter key or argument. -/
inductive FilterError where
  | unknownField (key field : String)
  | membershipNotLast (key : String) (operator : Operator)
  | valueCount (key : String) (expected got : Nat)
  | malformedKey (key : String) (fault : KeyFault)
  | invalidArgument (name reason : String)
  | unknownType (name : String)
  deriving DecidableEq

namespace FilterError

/-- The name of the kind of error. -/
def kind : FilterError → String
  | .unknownField _ _ => "UnknownField"
  | .membershipNotLast _ _ => "MembershipNotLast"
  | .valueCount _ _ _ => "ValueCount"
  | .malformedKey _ _ => "MalformedKey"
  | .invalidArgument _ _ => "InvalidArgument"
  | .unknownType _ => "UnknownType"

/-- The message of the error. -/
def message : FilterError → String
  | .unknownField key field => s!"Unknown field {field} in filter key '{key}'"
  | .membershipNotLast key operator =>
    s!"Invalid filter key '{key}': {operator.name} must be the last condition"
  | .valueCount key expected got =>
    s!"Invalid filter key '{key}': expected {expected} value(s), got {got}"
  | .malformedKey key fault => s!"Invalid filter key '{key}': {fault.reason}"
  | .invalidArgument name reason => s!"Invalid argument '{name}': {reason}"
  | .unknownType name => s!"Unknown type: {name}"

/-- The key or argument that is refused. -/
def key? : FilterError → Option String
  | .unknownField key _ => some key
  | .membershipNotLast key _ => some key
  | .valueCount key _ _ => some key
  | .malformedKey key _ => some key
  | .invalidArgument name _ => some name
  | .unknownType _ => none

end FilterError

end DocumentEngine
