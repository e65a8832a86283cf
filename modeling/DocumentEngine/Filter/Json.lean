import DocumentEngine.Filter.Basic

/-!
Filters and sort rules in JSON. A node has a member `kind`; it may also be a list of its kind and
its members in order. A kind is a name, and inside another node also a number.
-/

namespace DocumentEngine

/-- The operator of a name, or of an object with the name as its only member and nothing in it. -/
def Operator.ofJson? : Json → Option Operator
  | .str s => Operator.ofName? s
  | .obj [(s, .null)] => Operator.ofName? s
  | .obj [(s, .obj [])] => Operator.ofName? s
  | _ => none

namespace Operand

/-- A list stands for its values, anything else for itself. -/
def ofJson : Json → Operand
  | .arr vs => .list vs
  | v => .single v

/-- The value or the values as a list. -/
def toJson : Operand → Json
  | .single v => v
  | .list vs => .arr vs

end Operand

namespace Condition

/-- A condition from its members. -/
def ofMembers? (field operator operand : Option Json) : Option Condition := do
  return ⟨← (← field).str?, ← Operator.ofJson? (← operator), Operand.ofJson (← operand)⟩

/-- The object of a condition. -/
def toJson (c : Condition) : Json := .obj [
  ("field", .str c.field), ("kind", .str "condition"), ("operator", .str c.operator.name),
  ("value", c.operand.toJson)]

end Condition

namespace Filter

mutual

/-- The object of a filter. -/
def toJson : Filter → Json
  | .condition c => c.toJson
  | .and fs => .obj [("children", .arr (listToJson fs)), ("kind", .str "and")]
  | .or fs => .obj [("children", .arr (listToJson fs)), ("kind", .str "or")]

/-- The objects of filters. -/
def listToJson : List Filter → List Json
  | [] => []
  | f :: fs => toJson f :: listToJson fs

end

/-- The kinds of node. -/
inductive Kind where
  | condition
  | and
  | or
deriving DecidableEq, Repr

/-- The kind of a name. -/
def Kind.ofName? : String → Option Kind
  | "condition" => some .condition
  | "and" => some .and
  | "or" => some .or
  | _ => none

/-- The kind of a name or of a number, the kinds being counted from zero. -/
def Kind.ofJson? : Json → Option Kind
  | .str s => ofName? s
  | .int n => if n = 0 then some .condition else if n = 1 then some .and
    else if n = 2 then some .or else none
  | _ => none

mutual

/-- A filter from its object or list, each node with the name or the number of its kind. -/
def nodeOfJson? : Json → Option Filter
  | .obj members =>
    match (Keyed.get? members "kind").bind Kind.ofJson? with
    | some .condition =>
      (Condition.ofMembers? (Keyed.get? members "field") (Keyed.get? members "operator")
        (Keyed.get? members "value")).map .condition
    | some .and => (childrenOfJson? members).map .and
    | some .or => (childrenOfJson? members).map .or
    | none => none
  | .arr [kind, .arr children] =>
    match Kind.ofJson? kind with
    | some .and => (nodesOfJson? children).map .and
    | some .or => (nodesOfJson? children).map .or
    | _ => none
  | .arr [kind, field, operator, operand] =>
    if Kind.ofJson? kind = some .condition then
      (Condition.ofMembers? (some field) (some operator) (some operand)).map .condition
    else none
  | _ => none

/-- The filters of the first member `children`. -/
def childrenOfJson? : List (String × Json) → Option (List Filter)
  | [] => none
  | (k, v) :: members =>
    if k = "children" then
      match v with
      | .arr children => nodesOfJson? children
      | _ => none
    else childrenOfJson? members

/-- Filters from a list. -/
def nodesOfJson? : List Json → Option (List Filter)
  | [] => some []
  | v :: vs => do
    let f ← nodeOfJson? v
    let fs ← nodesOfJson? vs
    return f :: fs

end

/-- Whether a node gives its kind by name. -/
def namesKind : Json → Bool
  | .obj members => ((Keyed.get? members "kind").bind Json.str?).isSome
  | .arr (.str _ :: _) => true
  | _ => false

/-- A filter from its object or list. Only a node inside another may give its kind by number. -/
def ofJson? (v : Json) : Option Filter := if namesKind v then nodeOfJson? v else none

end Filter

namespace SortRule

/-- The direction of a name, or of an object with the name as its only member. -/
def directionOfJson? : Json → Option Direction
  | .str "ASC" => some .ascending
  | .str "DESC" => some .descending
  | .obj [("ASC", .null)] => some .ascending
  | .obj [("DESC", .null)] => some .descending
  | _ => none

/-- A sort rule from its object or list. -/
def ofJson? : Json → Option SortRule
  | .obj members => do
    let field ← (← Keyed.get? members "field").str?
    return ⟨field, ← directionOfJson? (← Keyed.get? members "direction")⟩
  | .arr [.str field, direction] => (directionOfJson? direction).map (⟨field, ·⟩)
  | _ => none

/-- The object of a sort rule. -/
def toJson (r : SortRule) : Json :=
  .obj [("direction", .str r.direction.name), ("field", .str r.field)]

/-- Sort rules from a list. -/
def listOfJson? : Json → Option (List SortRule)
  | .arr vs => vs.mapM ofJson?
  | _ => none

end SortRule

/-- The object of a query. -/
def Query.toJson (q : Query) : Json := .obj [
  ("filter", match q.filter with
    | some f => f.toJson
    | none => .null),
  ("limit", match q.limit with
    | some n => .int n
    | none => .null),
  ("since", .obj q.since), ("sort", .arr (q.sort.map SortRule.toJson))]

end DocumentEngine
