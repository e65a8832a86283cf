import DocumentEngine.Keyed
import DocumentEngine.Number.Shortest
import DocumentEngine.Number.Reading

/-!
JSON values. Integers that fit 64 bits and binary64 numbers are kept apart, and an object holds its
members in key order.
-/

namespace DocumentEngine

/-- A JSON number: a 64-bit integer, with a sign or without, or a finite binary64 number. -/
inductive Number where
  | int (value : Int)
  | double (value : Double)
  deriving DecidableEq

namespace Number

/-- The number as a binary64 number. -/
def toDouble : Number → Double
  | .int n => Double.ofInt n
  | .double d => d

/-- The number as a 64-bit integer with a sign. -/
def toSigned? : Number → Option Int
  | .int n => if minSigned ≤ n && n ≤ maxSigned then some n else none
  | .double _ => none

/-- The number as a 64-bit integer without a sign. -/
def toUnsigned? : Number → Option Nat
  | .int n => if 0 ≤ n then some n.toNat else none
  | .double _ => none

/-- Decimal digits for an integer, the shortest text for a binary64 number. -/
def text : Number → String
  | .int n => toString n
  | .double d => d.text

/-- Equality within each kind of number; an integer never equals a binary64 number. -/
def same : Number → Number → Bool
  | .int a, .int b => a == b
  | .double a, .double b => a.same b
  | _, _ => false

end Number

/-- A JSON value. -/
inductive Json where
  | null
  | bool (value : Bool)
  | num (value : Number)
  | str (value : String)
  | arr (items : List Json)
  | obj (members : List (String × Json))

/-- A stored or submitted document: its fields in key order. -/
abbrev Document := Keyed Json

namespace Json

instance : Inhabited Json := ⟨.null⟩

/-- A JSON integer. -/
abbrev int (n : Int) : Json := .num (.int n)

mutual

/-- Structural equality, numbers within their kind. -/
def same : Json → Json → Bool
  | .null, .null => true
  | .bool a, .bool b => a == b
  | .num a, .num b => a.same b
  | .str a, .str b => a == b
  | .arr a, .arr b => sameItems a b
  | .obj a, .obj b => sameMembers a b
  | _, _ => false

/-- Equality item by item. -/
def sameItems : List Json → List Json → Bool
  | [], [] => true
  | a :: as, b :: bs => same a b && sameItems as bs
  | _, _ => false

/-- Equality member by member. -/
def sameMembers : List (String × Json) → List (String × Json) → Bool
  | [], [] => true
  | (k, a) :: as, (l, b) :: bs => k == l && same a b && sameMembers as bs
  | _, _ => false

end

/-- The name of the kind of a value, as messages give it. -/
def kindName : Json → String
  | .null => "null"
  | .bool _ => "boolean"
  | .num _ => "number"
  | .str _ => "string"
  | .arr _ => "array"
  | .obj _ => "object"

/-- Whether the value is null. -/
def isNull : Json → Bool
  | .null => true
  | _ => false

/-- The text of a string value. -/
def str? : Json → Option String
  | .str s => some s
  | _ => none

/-- The flag of a boolean value. -/
def bool? : Json → Option Bool
  | .bool b => some b
  | _ => none

/-- The items of a list value. -/
def arr? : Json → Option (List Json)
  | .arr items => some items
  | _ => none

/-- The members of an object value. -/
def obj? : Json → Option Document
  | .obj members => some members
  | _ => none

/-- The text of a value that names a document: a string, or a number as it is written. -/
def idText? : Json → Option String
  | .str s => some s
  | .num n => some n.text
  | _ => none

/-- The member of an object value. -/
def get? (v : Json) (key : String) : Option Json :=
  match v with
  | .obj members => Keyed.get? members key
  | _ => none

end Json

end DocumentEngine
