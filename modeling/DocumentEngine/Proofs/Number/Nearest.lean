import DocumentEngine.Proofs.Number.Decimal
import DocumentEngine.Proofs.Number.Order

/-!
The number that a decimal spells is the nearest: exactly the decimals of the interval of a rank are
read as that rank, the end of an interval as the even one of its two ranks.
-/

namespace DocumentEngine.Double

/-- A decimal lies in the interval of the rank that it is rounded to. -/
theorem inInterval_nearestRank (digits : Nat) (exponent : Int) :
    inInterval (nearestRank (digits * 10 ^ exponent.toNat) (10 ^ (-exponent).toNat)) digits
      exponent = true := by
  have hden : 0 < 10 ^ (-exponent).toNat := Nat.pow_pos (by decide)
  obtain ⟨rank, hreached, hbelow, hnearest⟩ := nearestRank_cases hden (@rfl _ (_ * unitsPerOne))
  rw [inInterval_iff]
  generalize digits * 10 ^ exponent.toNat * unitsPerOne = n at *
  generalize 10 ^ (-exponent).toNat = den at *
  have hends : ∀ r, lowEnd (r + 1) = highEnd r := fun r => rfl
  have hhigh : ∀ r, highEnd r * den = units r * den + units (r + 1) * den := fun r => by
    rw [highEnd, Nat.add_mul]
  rcases hnearest with ⟨hrank, hdown⟩ | ⟨hrank, hup⟩
  · rw [hrank]
    refine ⟨?_, hdown⟩
    rcases rank with _ | rank
    · have hzero : lowEnd 0 = 0 := by decide
      rw [hzero]
      omega
    · have hprevious : units rank * den < units (rank + 1) * den :=
        Nat.mul_lt_mul_of_pos_right (units_lt_succ rank) hden
      have hsum := hhigh rank
      rw [hends]
      omega
  · have hpast : units (rank + 1) * den < units (rank + 1 + 1) * den :=
      Nat.mul_lt_mul_of_pos_right (units_lt_succ (rank + 1)) hden
    have hsum := hhigh (rank + 1)
    rw [hrank, hends]
    exact ⟨hup, .inl (by omega)⟩

/-- No decimal lies in the intervals of two ranks. -/
theorem eq_of_inInterval {rank rank' digits : Nat} {exponent : Int}
    (h : inInterval rank digits exponent = true) (h' : inInterval rank' digits exponent = true) :
    rank = rank' := by
  have hnot : ∀ {a b : Nat}, a < b → inInterval a digits exponent = true →
      inInterval b digits exponent ≠ true := by
    intro a b hab ha hb
    obtain ⟨-, hhigh⟩ := (inInterval_iff a digits exponent).mp ha
    obtain ⟨hlow, -⟩ := (inInterval_iff b digits exponent).mp hb
    have hup : 0 < 10 ^ (-exponent).toNat := Nat.pow_pos (by decide)
    have hself : units a ≤ units (b - 1) := units_le (by omega)
    have hnext : units (a + 1) ≤ units b := units_le (by omega)
    have hends : highEnd a * 10 ^ (-exponent).toNat ≤ lowEnd b * 10 ^ (-exponent).toNat :=
      Nat.mul_le_mul_right _ (Nat.add_le_add hself hnext)
    -- the intervals meet in an end at most, which belongs to the even one of two neighbours
    have hmeet : highEnd a * 10 ^ (-exponent).toNat = lowEnd b * 10 ^ (-exponent).toNat := by omega
    have hsame : units (a + 1) = units b := by
      have hsum := Nat.mul_right_cancel hup hmeet
      rw [highEnd, lowEnd] at hsum
      omega
    have hneighbour : b = a + 1 := by
      by_contra hne
      have hlt := units_lt (show a + 1 < b by omega)
      omega
    omega
  rcases Nat.lt_trichotomy rank rank' with hlt | heq | hgt
  · exact absurd h' (hnot hlt h)
  · exact heq
  · exact absurd h (hnot hgt h')

/-- A decimal lies in the interval of the rank that it is read as, unless it is far too large. -/
theorem inInterval_decimalRank {digits : Nat} {exponent : Int}
    (h : digits ≠ 0 → ((Nat.toDigits 10 digits).length : Int) + exponent ≤ 400) :
    inInterval (Number.decimalRank digits exponent) digits exponent = true := by
  have hzero : lowEnd 0 = 0 ∧ highEnd 0 = 1 := by decide
  have hup : 0 < 10 ^ (-exponent).toNat := Nat.pow_pos (by decide)
  unfold Number.decimalRank
  by_cases hdigits : digits = 0
  · rw [if_pos hdigits, hdigits, inInterval_iff, hzero.1, hzero.2]
    omega
  rw [if_neg hdigits]
  dsimp only
  rw [if_neg (Int.not_lt.mpr (h hdigits))]
  by_cases hsmall : ((Nat.toDigits 10 digits).length : Int) + exponent < -400
  · have hlt := lt_of_leading_lt hsmall
    rw [if_pos hsmall, inInterval_iff, hzero.1, hzero.2]
    omega
  · rw [if_neg hsmall, Nat.pow_eq, Nat.pow_eq]
    exact inInterval_nearestRank digits exponent

/-- The decimals that are read as a rank are those of its interval. -/
theorem decimalRank_eq_iff {rank digits : Nat} {exponent : Int} (h : rank < rankLimit) :
    Number.decimalRank digits exponent = rank ↔ inInterval rank digits exponent = true := by
  constructor
  · rintro rfl
    refine inInterval_decimalRank fun hdigits => ?_
    by_contra hlarge
    unfold Number.decimalRank at h
    rw [if_neg hdigits] at h
    dsimp only at h
    rw [if_pos (Int.not_le.mp hlarge)] at h
    exact lt_irrefl _ h
  · intro hin
    exact eq_of_inInterval (inInterval_decimalRank fun hdigits => leading_le h hdigits hin) hin

end DocumentEngine.Double
