import DocumentEngine.Json.Record

/-!
Filters are trees of conditions on the fields of a document. A query adds an order, a cursor and a
limit to a filter.
-/

namespace DocumentEngine

/-- Comparison operators. -/
inductive Operator where
  | eq
  | ne
  | gt
  | gte
  | lt
  | lte
  | like
  | containing
  | startingWith
  | endingWith
  | isIn
  | notIn
  | between
  deriving DecidableEq

/-- How many values an operator takes: one, two, or all that are left. -/
inductive Arity where
  | one
  | two
  | rest
  deriving DecidableEq

namespace Operator

/-- The written name of an operator. -/
def name : Operator → String
  | .eq => "EQ"
  | .ne => "NE"
  | .gt => "GT"
  | .gte => "GTE"
  | .lt => "LT"
  | .lte => "LTE"
  | .like => "LIKE"
  | .containing => "CONTAINING"
  | .startingWith => "STARTING_WITH"
  | .endingWith => "ENDING_WITH"
  | .isIn => "IN"
  | .notIn => "NOT_IN"
  | .between => "BETWEEN"

/-- Every operator. -/
def all : List Operator :=
  [.eq, .ne, .gt, .gte, .lt, .lte, .like, .containing, .startingWith, .endingWith, .isIn, .notIn,
   .between]

/-- The operator of a written name. -/
def ofName? (name : String) : Option Operator := all.find? fun op => op.name == name

/-- The number of values that an operator takes. -/
def arity : Operator → Arity
  | .between => .two
  | .isIn => .rest
  | .notIn => .rest
  | _ => .one

/-- Whether an operator asks for membership in a list. -/
def isMembership : Operator → Bool
  | .isIn => true
  | .notIn => true
  | _ => false

end Operator

/-- The right-hand side of a condition. -/
inductive Operand where
  | single (value : Json)
  | list (values : List Json)

/-- The values of a right-hand side. -/
def Operand.values : Operand → List Json
  | .single v => [v]
  | .list vs => vs

/-- A comparison of the field at a dotted path. -/
structure Condition where
  field : String
  operator : Operator
  operand : Operand

/-- A tree of conditions. -/
inductive Filter where
  | condition (c : Condition)
  | and (children : List Filter)
  | or (children : List Filter)

namespace Filter

/-- All of the filters; a single one stands for itself. -/
def all : List Filter → Filter
  | [f] => f
  | fs => .and fs

/-- One of the filters; a single one stands for itself. -/
def any : List Filter → Filter
  | [f] => f
  | fs => .or fs

/-- Equality of a field with a value. -/
def equals (field : String) (value : Json) : Filter := .condition ⟨field, .eq, .single value⟩

/-- Membership of a field in a list of values. -/
def inList (field : String) (values : List Json) : Filter := .condition ⟨field, .isIn, .list values⟩

mutual

/-- The conditions of a filter from left to right. -/
def conditions : Filter → List Condition
  | .condition c => [c]
  | .and fs => listConditions fs
  | .or fs => listConditions fs

/-- The conditions of filters from left to right. -/
def listConditions : List Filter → List Condition
  | [] => []
  | f :: fs => conditions f ++ listConditions fs

end

mutual

/-- The filter with every node of a single child replaced by the child. -/
def collapse : Filter → Filter
  | .condition c => .condition c
  | .and fs => all (collapseList fs)
  | .or fs => any (collapseList fs)

/-- Every filter collapsed. -/
def collapseList : List Filter → List Filter
  | [] => []
  | f :: fs => collapse f :: collapseList fs

end

end Filter

/-- Which way a sort goes. -/
inductive Direction where
  | ascending
  | descending
  deriving DecidableEq

/-- The written name of a direction. -/
def Direction.name : Direction → String
  | .ascending => "ASC"
  | .descending => "DESC"

/-- A sort by the field at a dotted path. -/
structure SortRule where
  field : String
  direction : Direction
  deriving DecidableEq

/-- What a fetch asks for: documents that pass the filter and are greater than the cursor at each
of its paths, in the order of the rules, and no more than the limit. -/
structure Query where
  filter : Option Filter := none
  sort : List SortRule := []
  since : Keyed Json := []
  limit : Option Nat := none

end DocumentEngine
