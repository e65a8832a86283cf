import DocumentEngine.Proofs.Number.Shortest

/-!
Decimals read back. A decimal in the interval of a rank reads as that rank, whatever zeros are
written behind its digits, and the text of a shortest decimal is read as such a decimal.
-/

namespace DocumentEngine.Double

theorem inInterval_congr {rank digits digits' : Nat} {exponent exponent' : Int}
    (h : digits' * 10 ^ exponent'.toNat * 10 ^ (-exponent).toNat =
      digits * 10 ^ exponent.toNat * 10 ^ (-exponent').toNat) :
    inInterval rank digits' exponent' = inInterval rank digits exponent := by
  have hup : 0 < 10 ^ (-exponent).toNat := Nat.pow_pos (by decide)
  have hup' : 0 < 10 ^ (-exponent').toNat := Nat.pow_pos (by decide)
  rw [Bool.eq_iff_iff, inInterval_iff, inInterval_iff]
  generalize unitsPerOne = u
  generalize 10 ^ (-exponent).toNat = up at *
  generalize 10 ^ (-exponent').toNat = up' at *
  generalize digits * 10 ^ exponent.toNat = point at *
  generalize digits' * 10 ^ exponent'.toNat = point' at *
  have hswap : ∀ e : Nat, e * up' * up = e * up * up' := by
    intro e
    ring
  have hpoint : 2 * (point' * u) * up = 2 * (point * u) * up' := by
    calc 2 * (point' * u) * up = 2 * (point' * up * u) := by ring
      _ = 2 * (point * up' * u) := by rw [h]
      _ = 2 * (point * u) * up' := by ring
  have hlt : ∀ e : Nat, e * up' < 2 * (point' * u) ↔ e * up < 2 * (point * u) := by
    intro e
    rw [← Nat.mul_lt_mul_right hup, hpoint, hswap, Nat.mul_lt_mul_right hup']
  have hgt : ∀ e : Nat, 2 * (point' * u) < e * up' ↔ 2 * (point * u) < e * up := by
    intro e
    rw [← Nat.mul_lt_mul_right hup, hpoint, hswap, Nat.mul_lt_mul_right hup']
  have heq : ∀ e : Nat, e * up' = 2 * (point' * u) ↔ e * up = 2 * (point * u) := by
    intro e
    rw [← Nat.mul_left_inj hup.ne', hpoint, hswap, Nat.mul_left_inj hup'.ne']
  rw [hlt, hgt, heq, @eq_comm Nat (2 * (point' * u)), heq, @eq_comm Nat (2 * (point * u))]

theorem highEnd_le {rank : Nat} (h : rank < rankLimit) : highEnd rank ≤ 2 * 2 ^ 2098 := by
  obtain ⟨k, s, rfl, hs, hks⟩ := exists_split rank
  have hlimit : rankLimit = 2047 * 2 ^ 52 := rfl
  have hnext : units (k * 2 ^ 52 + s + 1) = (s + 1) * 2 ^ k := by
    rw [Nat.add_assoc, units_eq k (s + 1) (by omega) (by omega)]
  have hcap : 2 ^ 53 * 2 ^ k ≤ 2 ^ 2098 := by
    rw [← Nat.pow_add]
    exact Nat.pow_le_pow_right (by decide) (by omega)
  have h1 : s * 2 ^ k ≤ 2 ^ 53 * 2 ^ k := Nat.mul_le_mul_right _ (by omega)
  have h2 : (s + 1) * 2 ^ k ≤ 2 ^ 53 * 2 ^ k := Nat.mul_le_mul_right _ (by omega)
  rw [highEnd, units_eq k s (by omega) hks, hnext]
  omega

theorem lt_pow_length_toDigits (n : Nat) : n < 10 ^ (Nat.toDigits 10 n).length :=
  (Nat.length_toDigits_le_iff (by decide) Nat.length_toDigits_pos).mp le_rfl

theorem pow_length_toDigits_le {n : Nat} (h : n ≠ 0) :
    10 ^ ((Nat.toDigits 10 n).length - 1) ≤ n := by
  by_cases hlen : (Nat.toDigits 10 n).length = 1
  · rw [hlen]
    exact Nat.one_le_iff_ne_zero.mpr h
  · have hpos : 0 < (Nat.toDigits 10 n).length := Nat.length_toDigits_pos
    by_contra hlt
    have := (Nat.length_toDigits_le_iff (b := 10) (n := n)
      (k := (Nat.toDigits 10 n).length - 1) (by decide) (by omega)).mpr (by omega)
    omega

/-- The powers of ten that are decided without the power lie beyond all magnitudes. -/
theorem powers_beyond :
    2 ^ 2098 < 10 ^ 400 * unitsPerOne ∧ 2 * unitsPerOne < 10 ^ 401 := by
  decide +kernel

theorem leading_le {rank digits : Nat} {exponent : Int} (h : rank < rankLimit)
    (hdigits : digits ≠ 0) (hin : inInterval rank digits exponent = true) :
    ((Nat.toDigits 10 digits).length : Int) + exponent ≤ 400 := by
  by_contra hbig
  obtain ⟨-, hhigh⟩ := (inInterval_iff rank digits exponent).mp hin
  have hleast := pow_length_toDigits_le hdigits
  have hend := Nat.mul_le_mul_right (10 ^ (-exponent).toNat) (highEnd_le h)
  have hbeyond := powers_beyond.1
  have hup : 0 < 10 ^ (-exponent).toNat := Nat.pow_pos (by decide)
  have hpow : 10 ^ 400 * 10 ^ (-exponent).toNat ≤
      10 ^ ((Nat.toDigits 10 digits).length - 1) * 10 ^ exponent.toNat := by
    rw [← Nat.pow_add, ← Nat.pow_add]
    exact Nat.pow_le_pow_right (by decide) (by omega)
  have hpoint : 10 ^ 400 * 10 ^ (-exponent).toNat ≤ digits * 10 ^ exponent.toNat :=
    hpow.trans (Nat.mul_le_mul_right _ hleast)
  have hunits := Nat.mul_le_mul_right unitsPerOne hpoint
  generalize 10 ^ (-exponent).toNat = up at *
  generalize digits * 10 ^ exponent.toNat = point at *
  have hle : 10 ^ 400 * unitsPerOne * up ≤ 2 ^ 2098 * up := by
    have h1 : 10 ^ 400 * up * unitsPerOne = 10 ^ 400 * unitsPerOne * up := by ring
    have h2 : 2 * 2 ^ 2098 * up = 2 * (2 ^ 2098 * up) := by ring
    omega
  exact absurd (Nat.le_of_mul_le_mul_right hle hup) (Nat.not_le.mpr hbeyond)

/-- A decimal whose first digit stands far behind the point is less than half of the least positive
magnitude. -/
theorem lt_of_leading_lt {digits : Nat} {exponent : Int}
    (h : ((Nat.toDigits 10 digits).length : Int) + exponent < -400) :
    2 * (digits * 10 ^ exponent.toNat * unitsPerOne) < 10 ^ (-exponent).toNat := by
  have hmost := lt_pow_length_toDigits digits
  have hbeyond := powers_beyond.2
  have hpow : 10 ^ 401 * (10 ^ (Nat.toDigits 10 digits).length * 10 ^ exponent.toNat) ≤
      10 ^ (-exponent).toNat := by
    rw [← Nat.pow_add, ← Nat.pow_add]
    exact Nat.pow_le_pow_right (by decide) (by omega)
  have hcap : 0 < 10 ^ (Nat.toDigits 10 digits).length * 10 ^ exponent.toNat :=
    Nat.mul_pos (Nat.pow_pos (by decide)) (Nat.pow_pos (by decide))
  have hpoint : digits * 10 ^ exponent.toNat ≤
      10 ^ (Nat.toDigits 10 digits).length * 10 ^ exponent.toNat :=
    Nat.mul_le_mul_right _ hmost.le
  have hunits := Nat.mul_le_mul_right unitsPerOne hpoint
  generalize 10 ^ (-exponent).toNat = up at *
  generalize digits * 10 ^ exponent.toNat = point at *
  generalize 10 ^ (Nat.toDigits 10 digits).length * 10 ^ exponent.toNat = cap at *
  have hlt : 2 * unitsPerOne * cap < 10 ^ 401 * cap := Nat.mul_lt_mul_of_pos_right hbeyond hcap
  have hsame : 2 * unitsPerOne * cap = 2 * (cap * unitsPerOne) := by ring
  omega

theorem leading_ge {rank digits : Nat} {exponent : Int} (hrank : 0 < rank)
    (hin : inInterval rank digits exponent = true) :
    -400 ≤ ((Nat.toDigits 10 digits).length : Int) + exponent := by
  by_contra hsmall
  obtain ⟨hlow, -⟩ := (inInterval_iff rank digits exponent).mp hin
  have hlt := lt_of_leading_lt (Int.not_le.mp hsmall)
  have hend : 1 * 10 ^ (-exponent).toNat ≤ lowEnd rank * 10 ^ (-exponent).toNat := by
    have := units_pos hrank
    exact Nat.mul_le_mul_right _ (by rw [lowEnd]; omega)
  omega

/-- A decimal in the interval of a positive rank reads as that rank. -/
theorem decimalRank_of_inInterval {rank digits : Nat} {exponent : Int} (hrank : 0 < rank)
    (h : rank < rankLimit) (hdigits : digits ≠ 0) (hin : inInterval rank digits exponent = true) :
    Number.decimalRank digits exponent = rank := by
  have hle := leading_le h hdigits hin
  have hge := leading_ge hrank hin
  unfold Number.decimalRank
  rw [if_neg hdigits]
  dsimp only
  rw [if_neg (by omega), if_neg (by omega), Nat.pow_eq, Nat.pow_eq]
  exact nearestRank_of_inInterval hrank hin

end DocumentEngine.Double
