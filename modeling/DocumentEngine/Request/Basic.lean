import DocumentEngine.Json.Basic

/-!
Requests: a query or a mutation, as a tree of selected fields with arguments.
-/

namespace DocumentEngine

/-- What a request does. -/
inductive RequestKind where
  | query
  | mutation
  deriving DecidableEq

/-- The written name of a kind of request. -/
def RequestKind.name : RequestKind → String
  | .query => "query"
  | .mutation => "mutation"

/-- A field asked for, with the fields asked for below it. -/
inductive Selection where
  | field (label : Option String) (name : String) (arguments : Keyed Json)
    (selections : List Selection)

namespace Selection

/-- The name under which the answer is to appear. -/
def label : Selection → Option String
  | .field label _ _ _ => label

/-- The name of the field. -/
def name : Selection → String
  | .field _ name _ _ => name

/-- The arguments of the field. -/
def arguments : Selection → Keyed Json
  | .field _ _ arguments _ => arguments

/-- The fields asked for below. -/
def selections : Selection → List Selection
  | .field _ _ _ selections => selections

/-- The key of the field in the answer. -/
def responseKey (s : Selection) : String := s.label.getD s.name

end Selection

/-- A request. -/
structure Request where
  kind : RequestKind
  name : Option String
  selections : List Selection

end DocumentEngine
