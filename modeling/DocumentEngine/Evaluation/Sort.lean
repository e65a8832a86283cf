import DocumentEngine.Filter.Basic

/-!
The order of results. Values of different sorts come in a fixed order, an absent value first;
numbers compare as binary64 numbers, lists and objects all tie. The first rule that tells two rows
apart decides, and rows that none tells apart stay as they were.
-/

namespace DocumentEngine.Evaluation

/-- The place of a value's sort. -/
def sortRank : Option Json → Nat
  | none => 0
  | some .null => 1
  | some (.bool _) => 2
  | some (.num _) => 3
  | some (.str _) => 4
  | some (.arr _) => 5
  | some (.obj _) => 6

/-- The order of two values. -/
def compareValues (a b : Option Json) : Ordering :=
  match a, b with
  | some (.bool x), some (.bool y) => compare x y
  | some (.num x), some (.num y) => x.toDouble.compare y.toDouble
  | some (.str x), some (.str y) => compare x y
  | a, b => compare (sortRank a) (sortRank b)

/-- A document with the value at the path of each sort rule. -/
structure Row where
  keys : List (Option Json)
  doc : Document

/-- The order of the keys of two rows under sort rules. A key that is not there counts as absent. -/
def compareKeys : List SortRule → List (Option Json) → List (Option Json) → Ordering
  | [], _, _ => .eq
  | rule :: rules, as, bs =>
    let here := compareValues (as.headD none) (bs.headD none)
    let directed := match rule.direction with
      | .ascending => here
      | .descending => here.swap
    directed.then (compareKeys rules as.tail bs.tail)

/-- Rows in the order of sort rules. -/
def sortRows (rules : List SortRule) (rows : List Row) : List Row :=
  rows.mergeSort fun a b => compareKeys rules a.keys b.keys != .gt

end DocumentEngine.Evaluation
