import DocumentEngine.Number.Double

/-!
The shortest decimal text of a finite binary64 number. The reals that round to a magnitude form an
interval; the coarsest power-of-ten grid with a point in it gives the digits, the nearer point
where there are two.
-/

namespace DocumentEngine.Double

/-- Twice the lower end of the interval of reals that round to a positive rank, in units. -/
def lowEnd (rank : Nat) : Nat := units (rank - 1) + units rank

/-- Twice the upper end of the interval, in units. -/
def highEnd (rank : Nat) : Nat := units rank + units (rank + 1)

/-- A decimal magnitude: `digits * 10 ^ exponent`. -/
structure Decimal where
  digits : Nat
  exponent : Int

/-- Whether `2 * digits * 10 ^ exponent` lies between the ends of the interval of a rank; the ends
belong to it where the rank is even. -/
def inInterval (rank digits : Nat) (exponent : Int) : Bool :=
  let scaleUp := Nat.pow 10 (-exponent).toNat
  let point := 2 * digits * unitsPerOne * Nat.pow 10 exponent.toNat
  let low := lowEnd rank * scaleUp
  let high := highEnd rank * scaleUp
  if rank % 2 == 0 then decide (low ≤ point ∧ point ≤ high)
  else decide (low < point ∧ point < high)

/-- The point of the grid of step `10 ^ exponent` nearest to the magnitude of a rank, if it or its
neighbour on the other side lies in the interval. -/
def gridPoint? (rank : Nat) (exponent : Int) : Option Decimal :=
  let num := units rank * Nat.pow 10 (-exponent).toNat
  let den := unitsPerOne * Nat.pow 10 exponent.toNat
  let below := num / den
  let nearest := roundDiv num den
  let farther := if nearest = below then below + 1 else below
  if nearest ≠ 0 && inInterval rank nearest exponent then some ⟨nearest, exponent⟩
  else if farther ≠ 0 && inInterval rank farther exponent then some ⟨farther, exponent⟩
  else none

/-- A power of ten above the magnitude of a rank, close to it. -/
def topExponent (rank : Nat) : Int :=
  ((units rank).log2 - 1074 : Int) * 30103 / 100000 + 2

/-- The decimal with the fewest digits that rounds to the magnitude of a rank. Seventeen digits
always suffice, so the finest grid tried is never needed. -/
def shortest (rank : Nat) : Decimal :=
  let top := topExponent rank
  ((List.range 22).findSome? fun (i : Nat) => gridPoint? rank (top - i)).getD ⟨0, 0⟩

/-- Where the point stands: positional notation for magnitudes from `1e-5` up to `1e16`, else one
digit, the rest behind a point, and an exponent with its sign. -/
def Decimal.text (d : Decimal) : String :=
  let ds := Nat.toDigits 10 d.digits
  let leading : Int := ds.length + d.exponent - 1
  if -5 ≤ leading && leading < 16 then
    if leading < 0 then
      String.ofList ('0' :: '.' :: List.replicate (-leading - 1).toNat '0' ++ ds)
    else
      let whole := leading.toNat + 1
      let padded := ds ++ List.replicate (whole - ds.length) '0'
      let fraction := padded.drop whole
      String.ofList (padded.take whole ++ '.' :: (if fraction.isEmpty then ['0'] else fraction))
  else
    let fraction := ds.drop 1
    let mantissa := ds.take 1 ++ (if fraction.isEmpty then [] else '.' :: fraction)
    let sign := if leading < 0 then '-' else '+'
    String.ofList (mantissa ++ 'e' :: sign :: Nat.toDigits 10 leading.natAbs)

/-- The shortest text of a number that reads back as it. -/
def text (d : Double) : String :=
  let magnitude := if d.rank = 0 then "0.0" else (shortest d.rank).text
  if d.negative then "-" ++ magnitude else magnitude

end DocumentEngine.Double
