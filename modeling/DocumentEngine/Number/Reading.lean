import DocumentEngine.Number.Double

/-!
Reading numbers from text: integers of a given range, and decimals rounded to the nearest binary64
number. Digits are the ASCII digits.
-/

namespace DocumentEngine.Number

/-- The least and the greatest 64-bit integers with a sign, and the greatest without. -/
def minSigned : Int := -9223372036854775808

/-- The greatest 64-bit integer with a sign. -/
def maxSigned : Int := 9223372036854775807

/-- The greatest 64-bit integer without a sign. -/
def maxUnsigned : Int := 18446744073709551615

/-- The value of a digit character. -/
def digitValue (c : Char) : Nat := c.toNat - '0'.toNat

/-- The number that digits spell after a number read so far. -/
def digitsValue (digits : List Char) : Nat :=
  digits.foldl (fun n c => 10 * n + digitValue c) 0

/-- One or more digits, as a number. -/
def natural? (cs : List Char) : Option Nat :=
  if cs.isEmpty || !cs.all Char.isDigit then none else some (digitsValue cs)

/-- An integer with an optional sign in front. -/
def integer? : List Char → Option Int
  | '+' :: cs => (natural? cs).map Int.ofNat
  | '-' :: cs => (natural? cs).map fun n => -(n : Int)
  | cs => (natural? cs).map Int.ofNat

/-- A 64-bit integer with an optional sign in front. -/
def signed? (cs : List Char) : Option Int :=
  (integer? cs).filter fun n => minSigned ≤ n && n ≤ maxSigned

/-- A 64-bit integer without a sign; a plus in front is allowed. -/
def unsigned? (cs : List Char) : Option Nat :=
  let digits := match cs with
    | '+' :: rest => rest
    | _ => cs
  (natural? digits).filter fun n => (n : Int) ≤ maxUnsigned

/-- The rank nearest to `digits * 10 ^ exponent`. Exponents far outside the range are decided
without the power. -/
def decimalRank (digits : Nat) (exponent : Int) : Nat :=
  if digits = 0 then 0
  else
    let leading : Int := (Nat.toDigits 10 digits).length + exponent
    if leading > 400 then Double.rankLimit
    else if leading < -400 then 0
    else Double.nearestRank (digits * Nat.pow 10 exponent.toNat) (Nat.pow 10 (-exponent).toNat)

/-- An exponent mark with its integer, or nothing at all. -/
def exponentPart? : List Char → Option Int
  | [] => some 0
  | c :: cs => if c = 'e' || c = 'E' then integer? cs else none

/-- The magnitude that unsigned decimal text spells: digits with an optional point, at least one
digit in all, and an optional exponent. -/
def magnitude? (cs : List Char) : Option Nat :=
  let whole := cs.takeWhile Char.isDigit
  let rest := cs.dropWhile Char.isDigit
  let (fraction, tail) := match rest with
    | '.' :: more => (more.takeWhile Char.isDigit, more.dropWhile Char.isDigit)
    | _ => ([], rest)
  if whole.isEmpty && fraction.isEmpty then none
  else (exponentPart? tail).map fun e =>
    decimalRank (digitsValue (whole ++ fraction)) (e - fraction.length)

/-- Decimal text, or one of the words for infinity and for no number, after an optional sign. -/
def double? (cs : List Char) : Option ExtendedDouble :=
  let (negative, body) := match cs with
    | '-' :: rest => (true, rest)
    | '+' :: rest => (false, rest)
    | _ => (false, cs)
  let word := String.ofList (body.map Char.toLower)
  if word == "inf" || word == "infinity" then some (.infinite negative)
  else if word == "nan" then some .undefined
  else (magnitude? body).map (ExtendedDouble.ofRank negative)

end DocumentEngine.Number
