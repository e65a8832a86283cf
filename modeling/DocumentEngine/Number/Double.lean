/-!
Finite binary64 numbers in exact arithmetic. A number is a sign and the rank of its magnitude: the
count of smaller magnitudes, so that order is order of ranks. Magnitudes are whole multiples of
the least positive one, and rounding goes to the nearest, ties to the even rank.
-/

namespace DocumentEngine

/-- The count of finite magnitudes. -/
abbrev Double.rankLimit : Nat := 2047 * Nat.pow 2 52

/-- A finite binary64 number. -/
structure Double where
  negative : Bool
  rank : Nat
  rank_lt : rank < Double.rankLimit := by decide
  deriving DecidableEq

namespace Double

/-- The significand of the magnitude of a rank, below `2 ^ 53`. -/
def significand (rank : Nat) : Nat :=
  if rank < Nat.pow 2 53 then rank else rank % Nat.pow 2 52 + Nat.pow 2 52

/-- The power of two by which the significand is scaled. -/
def scale (rank : Nat) : Nat :=
  if rank < Nat.pow 2 53 then 0 else rank / Nat.pow 2 52 - 1

/-- The magnitude of a rank as a multiple of `2 ^ -1074`. -/
def units (rank : Nat) : Nat := significand rank * Nat.pow 2 (scale rank)

/-- The count of units in one. -/
abbrev unitsPerOne : Nat := Nat.pow 2 1074

/-- The quotient to the nearest whole number, a tie to the even one. -/
def roundDiv (num den : Nat) : Nat :=
  let q := num / den
  let r := num % den
  if 2 * r > den || (2 * r == den && q % 2 == 1) then q + 1 else q

/-- The rank whose magnitude is nearest to `num / den`, ties to even. It reaches `rankLimit` where
the quotient is too large. -/
def nearestRank (num den : Nat) : Nat :=
  let whole := num * unitsPerOne / den
  let shift := whole.log2 - 52
  shift * Nat.pow 2 52 + roundDiv (num * unitsPerOne) (den * Nat.pow 2 shift)

/-- The number with a sign and a rank, unless the rank is too large. -/
def ofRank? (negative : Bool) (rank : Nat) : Option Double :=
  if h : rank < rankLimit then some ⟨negative, rank, h⟩ else none

/-- The number with a sign and a rank; a rank too large becomes the largest. -/
def ofRank (negative : Bool) (rank : Nat) : Double :=
  ⟨negative, min rank (rankLimit - 1), by
    have : rankLimit - 1 < rankLimit := by decide
    omega⟩

/-- The number nearest to an integer. -/
def ofInt (n : Int) : Double := ofRank (decide (n < 0)) (nearestRank n.natAbs 1)

/-- Zero. -/
def zero : Double := ⟨false, 0, by decide⟩

/-- The position on the line of numbers; both zeros lie at zero. -/
def position (d : Double) : Int := if d.negative then -(d.rank : Int) else d.rank

/-- The order of the numbers; the zeros are equal. -/
def compare (a b : Double) : Ordering := Ord.compare a.position b.position

/-- Equality as numbers: the zeros are equal. -/
def same (a b : Double) : Bool := a.position == b.position

/-- Whether the number has no fraction. -/
def isWhole (d : Double) : Bool := units d.rank % unitsPerOne == 0

/-- The number without its fraction. -/
def truncate (d : Double) : Int :=
  let whole : Int := units d.rank / unitsPerOne
  if d.negative then -whole else whole

end Double

/-- A binary64 number that may be infinite, or no number at all. -/
inductive ExtendedDouble where
  | finite (value : Double)
  | infinite (negative : Bool)
  | undefined
  deriving DecidableEq

namespace ExtendedDouble

/-- The number with a sign and a rank, infinite where the rank is too large. -/
def ofRank (negative : Bool) (rank : Nat) : ExtendedDouble :=
  match Double.ofRank? negative rank with
  | some d => .finite d
  | none => .infinite negative

/-- The position on the line, with the infinities beyond all ranks; none where there is no
number. -/
def position? : ExtendedDouble → Option Int
  | .finite d => some d.position
  | .infinite negative => some (if negative then -Double.rankLimit else Double.rankLimit)
  | .undefined => none

/-- The order of two numbers; what is no number stands in no order. -/
def compare? (a b : ExtendedDouble) : Option Ordering :=
  match a.position?, b.position? with
  | some x, some y => some (Ord.compare x y)
  | _, _ => none

/-- The finite number, if it is one. -/
def finite? : ExtendedDouble → Option Double
  | .finite d => some d
  | _ => none

end ExtendedDouble

end DocumentEngine
