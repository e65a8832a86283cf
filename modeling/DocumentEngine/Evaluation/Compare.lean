import DocumentEngine.Json.Basic
import DocumentEngine.Text.Split

/-!
Comparison of scalar values. Numbers compare as binary64 numbers, also with text that spells a
number; texts compare by code points; flags compare with the words for them.
-/

namespace DocumentEngine.Evaluation

/-- The number that a text spells, blanks at its ends aside. -/
def spelledNumber? (s : String) : Option ExtendedDouble :=
  Number.double? (Text.trimChars s.toList)

/-- The flag that a text spells. -/
def spelledFlag? : String → Option Bool
  | "true" => some true
  | "false" => some false
  | _ => none

/-- The order of two scalars, if they can be compared. -/
def compare? : Json → Json → Option Ordering
  | .num x, .num y => some (x.toDouble.compare y.toDouble)
  | .num x, .str s => do (ExtendedDouble.finite x.toDouble).compare? (← spelledNumber? s)
  | .str s, .num y => do (← spelledNumber? s).compare? (.finite y.toDouble)
  | .str x, .str y => some (compare x y)
  | .bool x, .bool y => some (compare x y)
  | .bool x, .str s => (spelledFlag? s).map (compare x)
  | .str s, .bool y => (spelledFlag? s).map (compare · y)
  | _, _ => none

/-- Equality in structure or in order. -/
def looseEq (a b : Json) : Bool := a.same b || compare? a b == some .eq

/-- The text of a scalar. -/
def scalarText? : Json → Option String
  | .str s => some s
  | .num n => some n.text
  | .bool b => some (if b then "true" else "false")
  | _ => none

end DocumentEngine.Evaluation
