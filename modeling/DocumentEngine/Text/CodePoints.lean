/-!
Sets of code points and case mappings in a compact form. A set is given by its boundaries in
ascending order: a code point belongs to it when an odd number of boundaries lie at or below it.
-/

namespace DocumentEngine.Text

/-- Whether an odd number of the ascending `boundaries` lie at or below `n`. -/
def within : List Nat → Nat → Bool
  | [], _ => false
  | b :: boundaries, n => if n < b then false else !within boundaries n

/-- Every `step`-th code point from `first` to `last`, each moved by `shift`. -/
structure CaseRun where
  first : Nat
  last : Nat
  step : Nat
  shift : Int

/-- The code point that `n` moves to, if it lies on the run. -/
def CaseRun.image? (r : CaseRun) (n : Nat) : Option Nat :=
  if r.first ≤ n && n ≤ r.last && (n - r.first) % r.step == 0 then
    some (Int.toNat (n + r.shift))
  else none

/-- The characters that `c` maps to under a table of runs and expansions; itself if neither
names it. -/
def mapCase (runs : List CaseRun) (expansions : List (Nat × List Nat)) (c : Char) : List Char :=
  match runs.findSome? (·.image? c.toNat) with
  | some n => [Char.ofNat n]
  | none =>
    match expansions.lookup c.toNat with
    | some ns => ns.map Char.ofNat
    | none => [c]

end DocumentEngine.Text
