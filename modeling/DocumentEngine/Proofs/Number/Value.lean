import DocumentEngine.Json.Basic
import DocumentEngine.Proofs.Number.Nearest
import Mathlib.Algebra.Order.Field.Basic
import Mathlib.Data.Rat.Cast.Order
import Mathlib.Tactic.FieldSimp

/-!
The values of numbers, and the number that is nearest to a value. The ranks go on behind the finite
magnitudes as though exponents had no bound, so that a value is too large for binary64 where the
nearest of all ranks is no longer finite. The decimals in the interval of a rank are those to which
it is nearest, and a number without a fraction is the integer of its value.
-/

namespace DocumentEngine

/-- A magnitude with a sign. -/
def withSign (negative : Bool) (q : ℚ) : ℚ := if negative then -q else q

theorem abs_withSign_sub (negative : Bool) (p q : ℚ) :
    |withSign negative p - withSign negative q| = |p - q| := by
  cases negative with
  | false => rfl
  | true =>
    change |-p - -q| = |p - q|
    rw [← abs_neg]
    congr 1
    ring

theorem abs_withSign_sub_not (negative : Bool) (p q : ℚ) :
    |withSign negative p - withSign (!negative) q| = |p + q| := by
  cases negative with
  | false =>
    change |p - -q| = |p + q|
    rw [sub_neg_eq_add]
  | true =>
    change |-p - q| = |p + q|
    rw [← abs_neg]
    congr 1
    ring

theorem withSign_inj {negative : Bool} {p q : ℚ} :
    withSign negative p = withSign negative q ↔ p = q := by
  cases negative with
  | false => rfl
  | true => exact neg_inj

theorem withSign_intCast (negative : Bool) (n : ℕ) :
    withSign negative n = ((if negative then -(n : ℤ) else n : ℤ) : ℚ) := by
  cases negative with
  | false => simp [withSign]
  | true => simp [withSign]

namespace Double

/-- The magnitude of a rank. -/
def magnitude (rank : Nat) : ℚ := units rank / unitsPerOne

/-- The value of a binary64 number. -/
def value (d : Double) : ℚ := withSign d.negative (magnitude d.rank)

/-- Every rank under either sign is farther from a value, or as far, and then the two are the same
number or the rank is even. -/
def Nearest (q : ℚ) (d : Double) : Prop :=
  ∀ negative rank, |q - d.value| < |q - withSign negative (magnitude rank)| ∨
    |q - d.value| = |q - withSign negative (magnitude rank)| ∧
      (withSign negative (magnitude rank) = d.value ∨ d.rank % 2 = 0)

/-- A value lies between the midpoints to the neighbours of a rank, or on one of them where the rank
is even. -/
structure Between (q : ℚ) (rank : Nat) : Prop where
  low : magnitude (rank - 1) + magnitude rank < 2 * q ∨
    magnitude (rank - 1) + magnitude rank = 2 * q ∧ rank % 2 = 0
  high : 2 * q < magnitude rank + magnitude (rank + 1) ∨
    2 * q = magnitude rank + magnitude (rank + 1) ∧ rank % 2 = 0

theorem unitsPerOne_cast_pos : (0 : ℚ) < unitsPerOne := Nat.cast_pos.mpr unitsPerOne_pos

theorem magnitude_zero : magnitude 0 = 0 := by
  rw [magnitude, units_zero, Nat.cast_zero, zero_div]

theorem magnitude_nonneg (rank : Nat) : 0 ≤ magnitude rank :=
  div_nonneg (Nat.cast_nonneg _) unitsPerOne_cast_pos.le

theorem magnitude_lt {a b : Nat} (h : a < b) : magnitude a < magnitude b :=
  (div_lt_div_iff_of_pos_right unitsPerOne_cast_pos).mpr (Nat.cast_lt.mpr (units_lt h))

theorem magnitude_inj {a b : Nat} : magnitude a = magnitude b ↔ a = b :=
  (strictMono_nat_of_lt_succ fun rank => magnitude_lt (Nat.lt_succ_self rank)).injective.eq_iff

theorem magnitude_le {a b : Nat} (h : a ≤ b) : magnitude a ≤ magnitude b :=
  div_le_div_of_nonneg_right (Nat.cast_le.mpr (units_le h)) unitsPerOne_cast_pos.le

section

variable {a b q : ℚ}

/-- Of two points the greater one is closer behind the midpoint. -/
theorem abs_sub_lt_abs_sub_iff (h : a < b) : |q - b| < |q - a| ↔ a + b < 2 * q := by
  rw [← sq_lt_sq]
  constructor <;> intro hq <;> nlinarith

/-- Of two points the lesser one is closer before the midpoint. -/
theorem abs_sub_lt_abs_sub_iff' (h : a < b) : |q - a| < |q - b| ↔ 2 * q < a + b := by
  rw [← sq_lt_sq]
  constructor <;> intro hq <;> nlinarith

theorem abs_sub_eq_abs_sub_iff (h : a < b) : |q - a| = |q - b| ↔ 2 * q = a + b := by
  rw [← sq_eq_sq_iff_abs_eq_abs]
  constructor
  · intro hq
    have hgap : (b - a) * (a + b - 2 * q) = 0 := by linarith
    rcases mul_eq_zero.mp hgap with hzero | hzero <;> linarith
  · intro hq
    have hb : b = 2 * q - a := by linarith
    rw [hb]
    ring

end

variable {q : ℚ} {rank : Nat}

/-- Between the midpoints to its neighbours a rank is closer than any other, and on the midpoints as
close. -/
theorem between_iff (hq : 0 ≤ q) : Between q rank ↔
    ∀ other, |q - magnitude rank| < |q - magnitude other| ∨
      |q - magnitude rank| = |q - magnitude other| ∧ (other = rank ∨ rank % 2 = 0) := by
  constructor
  · rintro ⟨hlow, hhigh⟩ other
    rcases Nat.lt_trichotomy other rank with hbelow | rfl | habove
    · have hlt := magnitude_lt hbelow
      have hprevious := magnitude_le (show other ≤ rank - 1 by omega)
      rw [abs_sub_lt_abs_sub_iff hlt, eq_comm, abs_sub_eq_abs_sub_iff hlt]
      rcases hlow with hlow | ⟨hlow, heven⟩
      · exact .inl (by linarith)
      · rcases (show magnitude other + magnitude rank ≤ 2 * q by linarith).lt_or_eq with hfar | hfar
        · exact .inl hfar
        · exact .inr ⟨hfar.symm, .inr heven⟩
    · exact .inr ⟨rfl, .inl rfl⟩
    · have hlt := magnitude_lt habove
      have hnext := magnitude_le (show rank + 1 ≤ other by omega)
      rw [abs_sub_lt_abs_sub_iff' hlt, abs_sub_eq_abs_sub_iff hlt]
      rcases hhigh with hhigh | ⟨hhigh, heven⟩
      · exact .inl (by linarith)
      · rcases (show 2 * q ≤ magnitude rank + magnitude other by linarith).lt_or_eq with hfar | hfar
        · exact .inl hfar
        · exact .inr ⟨hfar, .inr heven⟩
  · intro hclosest
    constructor
    · by_cases hzero : rank = 0
      · -- the lowest rank has no midpoint below it
        rw [hzero, Nat.zero_sub, magnitude_zero]
        rcases hq.lt_or_eq with hpos | heq
        · exact .inl (by linarith)
        · exact .inr ⟨by linarith, rfl⟩
      · have hbelow : rank - 1 < rank := by omega
        have hlt := magnitude_lt hbelow
        refine (hclosest (rank - 1)).imp (abs_sub_lt_abs_sub_iff hlt).mp fun ⟨heq, hsame⟩ => ?_
        exact ⟨((abs_sub_eq_abs_sub_iff hlt).mp heq.symm).symm, hsame.resolve_left hbelow.ne⟩
    · have habove : rank < rank + 1 := Nat.lt_succ_self rank
      have hlt := magnitude_lt habove
      refine (hclosest (rank + 1)).imp (abs_sub_lt_abs_sub_iff' hlt).mp fun ⟨heq, hsame⟩ => ?_
      exact ⟨(abs_sub_eq_abs_sub_iff hlt).mp heq, hsame.resolve_left habove.ne'⟩

/-- The nearest number to a value has its sign, and a rank between whose midpoints it lies. -/
theorem nearest_iff_between {d : Double} (hq : 0 ≤ q) :
    Nearest (withSign d.negative q) d ↔ Between q d.rank := by
  have hsame : ∀ rank, |withSign d.negative q - withSign d.negative (magnitude rank)| =
      |q - magnitude rank| := fun rank => abs_withSign_sub _ _ _
  rw [between_iff hq]
  constructor
  · intro hnearest other
    have hother := hnearest d.negative other
    rwa [value, hsame, hsame, withSign_inj, magnitude_inj] at hother
  · intro hclosest negative rank
    rw [value, hsame]
    by_cases hsign : negative = d.negative
    · rw [hsign, hsame, withSign_inj, magnitude_inj]
      exact hclosest rank
    · -- under the other sign zero is the closest, and zero is a rank under this sign
      rw [Bool.eq_not_of_ne hsign, abs_withSign_sub_not,
        abs_of_nonneg (add_nonneg hq (magnitude_nonneg rank))]
      have hzero := hclosest 0
      rw [magnitude_zero, sub_zero, abs_of_nonneg hq] at hzero
      have hnonneg := magnitude_nonneg rank
      rcases hzero with hcloser | ⟨heq, heven⟩
      · exact .inl (by linarith)
      · rcases hnonneg.lt_or_eq with hpos | hvanishes
        · exact .inl (by linarith)
        · exact .inr ⟨by linarith, .inr (heven.elim (fun hrank => by rw [← hrank]) id)⟩

/-- A decimal as a quotient of whole numbers. -/
theorem decimal_eq_div (digits : Nat) (exponent : Int) : (digits * 10 ^ exponent : ℚ) =
    (digits * 10 ^ exponent.toNat : ℕ) / (10 ^ (-exponent).toNat : ℕ) := by
  have hsplit : exponent = exponent.toNat - (-exponent).toNat := by omega
  push_cast
  nth_rewrite 1 [hsplit]
  rw [zpow_sub₀ (by norm_num), zpow_natCast, zpow_natCast, mul_div_assoc]

section

variable {point digits ones den : ℕ}

theorem div_lt_two_mul_div_iff (hones : 0 < ones) (hden : 0 < den) :
    (point : ℚ) / ones < 2 * (digits / den) ↔ point * den < 2 * (digits * ones) := by
  rw [← mul_div_assoc, div_lt_div_iff₀ (Nat.cast_pos.mpr hones) (Nat.cast_pos.mpr hden), mul_assoc]
  exact_mod_cast Iff.rfl

theorem two_mul_div_lt_div_iff (hones : 0 < ones) (hden : 0 < den) :
    2 * (digits / den : ℚ) < point / ones ↔ 2 * (digits * ones) < point * den := by
  rw [← mul_div_assoc, div_lt_div_iff₀ (Nat.cast_pos.mpr hden) (Nat.cast_pos.mpr hones), mul_assoc]
  exact_mod_cast Iff.rfl

theorem div_eq_two_mul_div_iff (hones : 0 < ones) (hden : 0 < den) :
    (point : ℚ) / ones = 2 * (digits / den) ↔ point * den = 2 * (digits * ones) := by
  rw [← mul_div_assoc, div_eq_div_iff (Nat.cast_pos.mpr hones).ne' (Nat.cast_pos.mpr hden).ne',
    mul_assoc]
  exact_mod_cast Iff.rfl

theorem two_mul_div_eq_div_iff (hones : 0 < ones) (hden : 0 < den) :
    2 * (digits / den : ℚ) = point / ones ↔ 2 * (digits * ones) = point * den := by
  rw [eq_comm, div_eq_two_mul_div_iff hones hden, eq_comm]

end

/-- The decimals of the interval of a rank are those to which the rank is the nearest. -/
theorem inInterval_iff_between {digits : Nat} {exponent : Int} :
    inInterval rank digits exponent = true ↔ Between (digits * 10 ^ exponent) rank := by
  have hones := unitsPerOne_pos
  have hden : 0 < 10 ^ (-exponent).toNat := Nat.pow_pos (by decide)
  have hlow : magnitude (rank - 1) + magnitude rank = (lowEnd rank : ℚ) / unitsPerOne := by
    rw [magnitude, magnitude, ← add_div, lowEnd, Nat.cast_add]
  have hhigh : magnitude rank + magnitude (rank + 1) = (highEnd rank : ℚ) / unitsPerOne := by
    rw [magnitude, magnitude, ← add_div, highEnd, Nat.cast_add]
  rw [inInterval_iff, decimal_eq_div]
  generalize digits * 10 ^ exponent.toNat = num
  generalize 10 ^ (-exponent).toNat = den at *
  rw [← div_lt_two_mul_div_iff hones hden, ← div_eq_two_mul_div_iff hones hden,
    ← two_mul_div_lt_div_iff hones hden,
    ← two_mul_div_eq_div_iff hones hden, ← hlow, ← hhigh]
  exact ⟨fun h => ⟨h.1, h.2⟩, fun h => ⟨h.low, h.high⟩⟩

/-! The integer of a number without a fraction. -/

section

variable {d : Double} {i : ℤ}

theorem value_of_isWhole (h : d.isWhole = true) : d.value = d.truncate := by
  obtain ⟨whole, hwhole⟩ := Nat.dvd_of_mod_eq_zero (beq_iff_eq.mp h)
  have hmagnitude : magnitude d.rank = (whole : ℚ) := by
    rw [magnitude, hwhole, Nat.cast_mul, mul_comm, mul_div_assoc,
      div_self unitsPerOne_cast_pos.ne', mul_one]
  have htruncate : d.truncate = if d.negative then -(whole : ℤ) else whole := by
    unfold truncate
    rw [hwhole, ← Int.natCast_div, Nat.mul_div_cancel_left whole unitsPerOne_pos]
  rw [value, hmagnitude, withSign_intCast, htruncate]

/-- A number is without a fraction where its value is an integer. -/
theorem isWhole_iff : d.isWhole = true ↔ ∃ i : ℤ, d.value = i := by
  refine ⟨fun h => ⟨_, value_of_isWhole h⟩, fun ⟨i, hi⟩ => ?_⟩
  have hmagnitude : ∃ j : ℤ, magnitude d.rank = j := by
    rw [value, withSign] at hi
    split at hi
    · exact ⟨-i, by rw [Int.cast_neg, ← hi, neg_neg]⟩
    · exact ⟨i, hi⟩
  obtain ⟨j, hj⟩ := hmagnitude
  rw [magnitude, div_eq_iff unitsPerOne_cast_pos.ne'] at hj
  have hunits : (units d.rank : ℤ) = j * unitsPerOne := by exact_mod_cast hj
  exact beq_iff_eq.mpr (Nat.mod_eq_zero_of_dvd
    (Int.natCast_dvd_natCast.mp ⟨j, by rw [hunits, Int.mul_comm]⟩))

theorem truncate_eq (h : d.value = i) : d.truncate = i := by
  have hvalue := value_of_isWhole (isWhole_iff.mpr ⟨i, h⟩)
  rw [h] at hvalue
  exact (Int.cast_injective hvalue).symm

end

end Double

namespace Number

/-- The value of a number. -/
def value : Number → ℚ
  | .int i => i
  | .double d => d.value

end Number

end DocumentEngine
