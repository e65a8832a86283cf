import DocumentEngine.Number.Double
import Mathlib.Tactic.Linarith
import Mathlib.Tactic.Ring

/-!
Rounding to ranks. Whatever lies between the midpoints around a magnitude is rounded to its rank.
-/

namespace DocumentEngine.Double

theorem unitsPerOne_pos : 0 < unitsPerOne := Nat.two_pow_pos 1074

/-- A whole number to which a quotient is nearest, or as near as the next one if it is even, is the
rounded quotient. -/
theorem roundDiv_eq {num den q : Nat} (hden : 0 < den)
    (hlow : 2 * q * den < 2 * num + den ∨ 2 * q * den = 2 * num + den ∧ q % 2 = 0)
    (hhigh : 2 * num < (2 * q + 1) * den ∨ 2 * num = (2 * q + 1) * den ∧ q % 2 = 0) :
    roundDiv num den = q := by
  have hdiv := Nat.div_add_mod num den
  have hmod := Nat.mod_lt num hden
  unfold roundDiv
  generalize num / den = a at *
  generalize num % den = r at *
  have hmul : den * a = a * den := Nat.mul_comm den a
  have hupper : 2 * q * den ≤ 2 * num + den := by
    rcases hlow with h | h <;> omega
  have hlower : 2 * num ≤ 2 * q * den + den := by
    have : (2 * q + 1) * den = 2 * q * den + den := by ring
    rcases hhigh with h | h <;> omega
  have hqa : q ≤ a + 1 := by
    by_contra hc
    have : (a + 2) * den ≤ q * den := Nat.mul_le_mul_right den (by omega)
    nlinarith
  have haq : a ≤ q := by
    by_contra hc
    have : (q + 1) * den ≤ a * den := Nat.mul_le_mul_right den (by omega)
    nlinarith
  have hcases : q = a ∨ q = a + 1 := by omega
  rcases hcases with rfl | rfl
  · have hnot : ¬(2 * r > den ∨ 2 * r = den ∧ q % 2 = 1) := by
      have : (2 * q + 1) * den = 2 * (q * den) + den := by ring
      rcases hhigh with h | h <;> omega
    exact if_neg (by simpa using hnot)
  · have hyes : 2 * r > den ∨ 2 * r = den ∧ a % 2 = 1 := by
      have : 2 * (a + 1) * den = 2 * (a * den) + 2 * den := by ring
      rcases hlow with h | h <;> omega
    exact if_pos (by simpa using hyes)

theorem roundDiv_even {num den q : Nat} (hden : 0 < den) (heven : q % 2 = 0)
    (hlow : 2 * q * den ≤ 2 * num + den) (hhigh : 2 * num ≤ (2 * q + 1) * den) :
    roundDiv num den = q :=
  roundDiv_eq hden (hlow.lt_or_eq.imp_right fun h => ⟨h, heven⟩)
    (hhigh.lt_or_eq.imp_right fun h => ⟨h, heven⟩)

/-- The magnitude of a rank that is split into a scale and a significand. The significand may also
be the least one of the next scale. -/
theorem units_eq (k s : Nat) (hs : s ≤ 2 ^ 53) (h : k = 0 ∨ 2 ^ 52 ≤ s) :
    units (k * 2 ^ 52 + s) = s * 2 ^ k := by
  unfold units significand scale
  simp only [Nat.pow_eq]
  by_cases hsmall : k * 2 ^ 52 + s < 2 ^ 53
  · rw [if_pos hsmall, if_pos hsmall]
    have hk : k = 0 := by omega
    subst hk
    simp
  · rw [if_neg hsmall, if_neg hsmall]
    by_cases hnext : s = 2 ^ 53
    · subst hnext
      have hdiv : (k * 2 ^ 52 + 2 ^ 53) / 2 ^ 52 - 1 = k + 1 := by omega
      have hmod : (k * 2 ^ 52 + 2 ^ 53) % 2 ^ 52 + 2 ^ 52 = 2 ^ 52 := by omega
      rw [hdiv, hmod, Nat.pow_succ]
      ring
    · have hdiv : (k * 2 ^ 52 + s) / 2 ^ 52 - 1 = k := by omega
      have hmod : (k * 2 ^ 52 + s) % 2 ^ 52 + 2 ^ 52 = s := by omega
      rw [hdiv, hmod]

/-- Every rank splits into a scale and a significand. -/
theorem exists_split (rank : Nat) :
    ∃ k s, rank = k * 2 ^ 52 + s ∧ s < 2 ^ 53 ∧ (k = 0 ∨ 2 ^ 52 ≤ s) := by
  by_cases h : rank < 2 ^ 53
  · exact ⟨0, rank, by omega, h, .inl rfl⟩
  · exact ⟨rank / 2 ^ 52 - 1, rank % 2 ^ 52 + 2 ^ 52, by omega, by omega, .inr (by omega)⟩

/-- The nearest rank of a quotient between the magnitudes of two scales. -/
theorem nearestRank_of_scale {num den k n : Nat} (hden : 0 < den) (hn : num * unitsPerOne = n)
    (hlow : k = 0 ∨ 2 ^ 52 * (den * 2 ^ k) ≤ n) (hhigh : n < 2 ^ 53 * (den * 2 ^ k)) :
    nearestRank num den = k * 2 ^ 52 + roundDiv n (den * 2 ^ k) := by
  have hpow : ∀ m : Nat, 2 ^ m * (den * 2 ^ k) = 2 ^ (m + k) * den := by
    intro m
    rw [Nat.pow_add]
    ring
  rw [hpow] at hlow hhigh
  have hshift : (n / den).log2 - 52 = k := by
    have hlt : n / den < 2 ^ (53 + k) := (Nat.div_lt_iff_lt_mul hden).mpr hhigh
    rcases hlow with rfl | hlow
    · by_cases hz : n / den = 0
      · rw [hz]
        rfl
      · have := (Nat.log2_lt hz).mpr hlt
        omega
    · have hle : 2 ^ (52 + k) ≤ n / den := (Nat.le_div_iff_mul_le hden).mpr hlow
      have hz : n / den ≠ 0 := by
        have := Nat.two_pow_pos (52 + k)
        omega
      have h1 := (Nat.log2_lt hz).mpr hlt
      have h2 := (Nat.le_log2 hz).mpr hle
      omega
  unfold nearestRank
  rw [hn]
  dsimp only
  rw [hshift, Nat.pow_eq, Nat.pow_eq]

/-- What lies between the midpoints around the least significand of a scale but the first has its
rank. The lower midpoint is the one to the last significand of the scale before, in which what lies
below is rounded. -/
theorem nearestRank_least {num den j n : Nat} (hden : 0 < den) (hn : num * unitsPerOne = n)
    (hlow : (2 ^ 54 - 1) * (den * 2 ^ j) ≤ 2 * n)
    (hhigh : 2 * n ≤ (2 ^ 53 + 1) * (den * 2 ^ (j + 1))) :
    nearestRank num den = (j + 1) * 2 ^ 52 + 2 ^ 52 := by
  have hwidth : 0 < den * 2 ^ j := Nat.mul_pos hden (Nat.two_pow_pos j)
  have hdouble : den * 2 ^ (j + 1) = 2 * (den * 2 ^ j) := by
    rw [Nat.pow_succ]
    ring
  rw [hdouble] at hhigh
  by_cases hside : n < 2 ^ 53 * (den * 2 ^ j)
  · have hround : roundDiv n (den * 2 ^ j) = 2 ^ 53 :=
      roundDiv_even hwidth (by norm_num) (by omega) (by omega)
    have hrank := nearestRank_of_scale hden hn (.inr (by omega)) hside
    rw [hround] at hrank
    exact hrank.trans (by ring)
  · have hround : roundDiv n (den * 2 ^ (j + 1)) = 2 ^ 52 := by
      rw [hdouble]
      exact roundDiv_even (by omega) (by norm_num) (by omega) (by omega)
    have hrank := nearestRank_of_scale (k := j + 1) hden hn (.inr (by omega)) (by omega)
    rwa [hround] at hrank

/-- What lies between the midpoints around another significand has its rank; the midpoints do where
the significand is even. -/
theorem nearestRank_within {num den k s n : Nat} (hden : 0 < den) (hn : num * unitsPerOne = n)
    (hs : s < 2 ^ 53) (hks : k = 0 ∧ 0 < s ∨ 2 ^ 52 < s)
    (hlow : (2 * s - 1) * (den * 2 ^ k) < 2 * n ∨
      (2 * s - 1) * (den * 2 ^ k) = 2 * n ∧ s % 2 = 0)
    (hhigh : 2 * n < (2 * s + 1) * (den * 2 ^ k) ∨
      2 * n = (2 * s + 1) * (den * 2 ^ k) ∧ s % 2 = 0) :
    nearestRank num den = k * 2 ^ 52 + s := by
  have hwidth : 0 < den * 2 ^ k := Nat.mul_pos hden (Nat.two_pow_pos k)
  -- the upper end lies below the next scale: its significand is even where the end belongs to it
  have hbelow : n < 2 ^ 53 * (den * 2 ^ k) := by
    rcases hhigh with h | ⟨h, he⟩
    · have : (2 * s + 1) * (den * 2 ^ k) ≤ 2 ^ 54 * (den * 2 ^ k) :=
        Nat.mul_le_mul_right _ (by omega)
      omega
    · have : (2 * s + 1) * (den * 2 ^ k) ≤ (2 ^ 54 - 2) * (den * 2 ^ k) :=
        Nat.mul_le_mul_right _ (by omega)
      omega
  have hinside : k = 0 ∨ 2 ^ 52 * (den * 2 ^ k) ≤ n := by
    refine hks.imp And.left fun hlarge => ?_
    have : (2 ^ 53 + 1) * (den * 2 ^ k) ≤ (2 * s - 1) * (den * 2 ^ k) :=
      Nat.mul_le_mul_right _ (by omega)
    omega
  have hprod : 2 * s * (den * 2 ^ k) = (2 * s - 1) * (den * 2 ^ k) + den * 2 ^ k := by
    have hone : 2 * s = 2 * s - 1 + 1 := by omega
    rw [← Nat.succ_mul, Nat.succ_eq_add_one, ← hone]
  rw [nearestRank_of_scale hden hn hinside hbelow, roundDiv_eq (q := s) hwidth (by omega) (by omega)]

/-- What lies between the midpoints around the magnitude of a positive rank has that rank; the
midpoints do where the rank is even. -/
theorem nearestRank_eq {num den rank n : Nat} (hden : 0 < den) (hn : num * unitsPerOne = n)
    (hrank : 0 < rank)
    (hlow : (units (rank - 1) + units rank) * den < 2 * n ∨
      (units (rank - 1) + units rank) * den = 2 * n ∧ rank % 2 = 0)
    (hhigh : 2 * n < (units rank + units (rank + 1)) * den ∨
      2 * n = (units rank + units (rank + 1)) * den ∧ rank % 2 = 0) :
    nearestRank num den = rank := by
  obtain ⟨k, s, rfl, hs, hks⟩ := exists_split rank
  have hself : units (k * 2 ^ 52 + s) = s * 2 ^ k := units_eq k s (by omega) hks
  have hnext : units (k * 2 ^ 52 + s + 1) = (s + 1) * 2 ^ k := by
    rw [Nat.add_assoc, units_eq k (s + 1) (by omega) (by omega)]
  have heven : (k * 2 ^ 52 + s) % 2 = s % 2 := by omega
  have hend : (s * 2 ^ k + (s + 1) * 2 ^ k) * den = (2 * s + 1) * (den * 2 ^ k) := by ring
  rw [hself, heven] at hlow hhigh
  rw [hnext, hend] at hhigh
  by_cases hedge : k ≠ 0 ∧ s = 2 ^ 52
  · obtain ⟨hk, rfl⟩ := hedge
    obtain ⟨j, rfl⟩ := Nat.exists_eq_add_one_of_ne_zero hk
    have hprev : units ((j + 1) * 2 ^ 52 + 2 ^ 52 - 1) = (2 ^ 53 - 1) * 2 ^ j := by
      have hr : (j + 1) * 2 ^ 52 + 2 ^ 52 - 1 = j * 2 ^ 52 + (2 ^ 53 - 1) := by omega
      rw [hr, units_eq j (2 ^ 53 - 1) (by omega) (by omega)]
    have hstart : ((2 ^ 53 - 1) * 2 ^ j + 2 ^ 52 * 2 ^ (j + 1)) * den =
        (2 ^ 54 - 1) * (den * 2 ^ j) := by
      rw [Nat.pow_succ 2 j]
      ring
    have hodd : 2 * 2 ^ 52 + 1 = 2 ^ 53 + 1 := by norm_num
    rw [hprev, hstart] at hlow
    rw [hodd] at hhigh
    exact nearestRank_least hden hn (hlow.elim Nat.le_of_lt fun h => h.1.le)
      (hhigh.elim Nat.le_of_lt fun h => h.1.le)
  · have hprev : (units (k * 2 ^ 52 + s - 1) + s * 2 ^ k) * den =
        (2 * s - 1) * (den * 2 ^ k) := by
      have hr : k * 2 ^ 52 + s - 1 = k * 2 ^ 52 + (s - 1) := by omega
      have hsum : s - 1 + s = 2 * s - 1 := by omega
      rw [hr, units_eq k (s - 1) (by omega) (by omega), ← Nat.add_mul, hsum]
      ring
    rw [hprev] at hlow
    exact nearestRank_within hden hn hs (by omega) hlow hhigh

end DocumentEngine.Double
