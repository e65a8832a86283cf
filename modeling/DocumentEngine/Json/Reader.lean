import DocumentEngine.Json.Written

/-!
JSON values from text. A number without point and exponent that fits 64 bits is an integer. Any
other is its leading digits, as many as fit 64 bits, times or divided by a power of ten, each of
the three rounded; where the result is infinite the text has no value. Nesting is limited.
-/

namespace DocumentEngine.Json

namespace Numeral

/-- Appends digits to a number while it fits 64 bits, and gives the digits left over. -/
def takeDigits : Nat → List Char → Nat × List Char
  | n, [] => (n, [])
  | n, c :: cs =>
    let next := 10 * n + Number.digitValue c
    if (next : Int) ≤ Number.maxUnsigned then takeDigits next cs else (n, c :: cs)

/-- The product of two magnitudes, as a rank. -/
def timesRank (a b : Nat) : Nat :=
  Double.nearestRank (Double.units a * Double.units b) (Double.unitsPerOne * Double.unitsPerOne)

/-- The quotient of two magnitudes, as a rank. -/
def overRank (a b : Nat) : Nat := Double.nearestRank (Double.units a) (Double.units b)

/-- The rank of a power of ten. -/
def powerRank (n : Nat) : Nat := Double.nearestRank (Nat.pow 10 n) 1

/-- A magnitude times `10 ^ exponent`. Powers beyond `1e308` are taken in steps. -/
def scaled? (rank : Nat) (exponent : Int) : Option Nat :=
  if exponent < -308 then
    if rank = 0 then some 0
    else scaled? (overRank rank (powerRank 308)) (exponent + 308)
  else if exponent < 0 then some (overRank rank (powerRank exponent.natAbs))
  else if rank = 0 then some 0
  else if 308 < exponent then none
  else
    let product := timesRank rank (powerRank exponent.natAbs)
    if product < Double.rankLimit then some product else none
termination_by exponent.natAbs

/-- An exponent beyond 32 bits makes every number zero or infinite. -/
def maxExponent : Nat := 2147483647

/-- The rank of a numeral's magnitude, if it is finite. -/
def rank? (n : Numeral) : Option Nat :=
  let (leading, left) := takeDigits 0 n.whole
  let (digits, unread) := takeDigits leading n.fraction
  let shift : Int := (left.length : Int) - (n.fraction.length - unread.length : Int)
  match n.exponent with
  | none => scaled? (Double.nearestRank digits 1) shift
  | some e =>
    if e.natAbs > maxExponent then (if digits ≠ 0 && 0 < e then none else some 0)
    else scaled? (Double.nearestRank digits 1) (shift + e)

/-- The number a numeral spells. A negative zero is a binary64 number. -/
def read? (n : Numeral) : Option Number :=
  let whole : Int := Number.digitsValue n.whole
  let integer : Option Int :=
    if !n.fraction.isEmpty || n.exponent.isSome then none
    else if !n.negative then (if whole ≤ Number.maxUnsigned then some whole else none)
    else if 0 < whole && whole ≤ -Number.minSigned then some (-whole)
    else none
  match integer with
  | some value => some (.int value)
  | none => do
    let rank ← n.rank?
    let d ← Double.ofRank? n.negative rank
    return .double d

end Numeral

/-- The deepest nesting of lists and objects that is read. -/
def maxDepth : Nat := 127

namespace Written

mutual

/-- The value of a text as written, nested `depth` deep at most. Of members with one key the last
counts. -/
def toJson? : Nat → Written → Option Json
  | _, .null => some .null
  | _, .bool b => some (.bool b)
  | _, .num n => n.read?.map .num
  | _, .str s => s.map .str
  | 0, .arr _ => none
  | depth + 1, .arr items => (itemsToJson? depth items).map .arr
  | 0, .obj _ => none
  | depth + 1, .obj members => (membersToJson? depth members).map fun ms => .obj (Keyed.ofList ms)

/-- The values of items. -/
def itemsToJson? : Nat → List Written → Option (List Json)
  | _, [] => some []
  | depth, v :: vs => do
    let x ← toJson? depth v
    let xs ← itemsToJson? depth vs
    return x :: xs

/-- The values of members under their keys. -/
def membersToJson? : Nat → List (Option String × Written) → Option (List (String × Json))
  | _, [] => some []
  | depth, (k, v) :: ms => do
    let key ← k
    let x ← toJson? depth v
    let xs ← membersToJson? depth ms
    return (key, x) :: xs

end

end Written

/-- What messages show in place of the nature and position of a fault in JSON text. -/
def faultPlace : String := "<json>"

/-- The value of a JSON text. -/
def ofText? (text : String) : Option Json :=
  Written.ofText? text >>= Written.toJson? maxDepth

end DocumentEngine.Json
