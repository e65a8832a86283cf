import DocumentEngine.Proofs.Number.Order
import DocumentEngine.Proofs.Number.Text

/-!
Integers as binary64 numbers. Rounding keeps the order of integers and may merge two of them, but
none with an integer below `2 ^ 53`, up to which every integer is a binary64 number of its own.
-/

namespace DocumentEngine

instance : DecidablePred Number.InRange
  | .int n => inferInstanceAs (Decidable (Number.minSigned ≤ n ∧ n ≤ Number.maxUnsigned))
  | .double _ => inferInstanceAs (Decidable True)

namespace Double

/-- The rank nearest to a quotient ends its interval above it. -/
theorem le_highEnd_nearestRank {num den : Nat} (hden : 0 < den) :
    2 * (num * unitsPerOne) ≤ highEnd (nearestRank num den) * den := by
  obtain ⟨rank, -, hbelow, hnearest⟩ := nearestRank_cases hden (@rfl _ (num * unitsPerOne))
  rcases hnearest with ⟨hrank, hdown⟩ | ⟨hrank, -⟩
  · rw [hrank]
    omega
  · have hpast := Nat.mul_lt_mul_of_pos_right (units_lt_succ (rank + 1)) hden
    rw [hrank, highEnd, Nat.add_mul]
    omega

/-- Rounding keeps the order of whole numbers. -/
theorem nearestRank_mono {a b : Nat} (h : a ≤ b) : nearestRank a 1 ≤ nearestRank b 1 := by
  rcases Nat.eq_or_lt_of_le h with rfl | hlt
  · exact Nat.le_refl _
  · refine nearestRank_le_of_lt_highEnd Nat.one_pos ?_
    have hgrow := Nat.mul_lt_mul_of_pos_right hlt unitsPerOne_pos
    have hend := @le_highEnd_nearestRank b 1 Nat.one_pos
    omega

/-- Up to `2 ^ 53` a whole number is the magnitude of a rank. -/
theorem exists_units_eq {n : Nat} (h : n ≤ 2 ^ 53) : ∃ rank, units rank = n * unitsPerOne := by
  by_cases hzero : n = 0
  · exact ⟨0, by rw [units_zero, hzero, Nat.zero_mul]⟩
  -- scaled up to a significand of 53 bits
  let shift := 52 - n.log2
  have hlow : 2 ^ n.log2 ≤ n := Nat.log2_self_le hzero
  have hhigh : n < 2 ^ (n.log2 + 1) := Nat.lt_log2_self
  have hleast : 2 ^ 52 ≤ n * 2 ^ shift := by
    calc 2 ^ 52 ≤ 2 ^ (n.log2 + shift) := Nat.pow_le_pow_right (by decide) (by omega)
      _ = 2 ^ n.log2 * 2 ^ shift := Nat.pow_add 2 _ _
      _ ≤ n * 2 ^ shift := Nat.mul_le_mul_right _ hlow
  have hmost : n * 2 ^ shift ≤ 2 ^ 53 := by
    by_cases hlarge : n.log2 ≤ 52
    · calc n * 2 ^ shift ≤ 2 ^ (n.log2 + 1) * 2 ^ shift := Nat.mul_le_mul_right _ hhigh.le
        _ = 2 ^ (n.log2 + 1 + shift) := (Nat.pow_add 2 _ _).symm
        _ = 2 ^ 53 := congrArg (2 ^ ·) (show n.log2 + 1 + shift = 53 by omega)
    · have hshift : shift = 0 := by omega
      rw [hshift, Nat.pow_zero, Nat.mul_one]
      exact h
  have hscale : shift + (1074 - shift) = 1074 := by omega
  refine ⟨(1074 - shift) * 2 ^ 52 + n * 2 ^ shift, ?_⟩
  rw [units_eq _ _ hmost (.inr hleast), Nat.mul_assoc, ← Nat.pow_add]
  exact congrArg (fun e => n * Nat.pow 2 e) hscale

/-- Below `2 ^ 53` rounding tells whole numbers apart. -/
theorem nearestRank_lt_of_lt {a b : Nat} (h : a < b) (ha : a < 2 ^ 53) :
    nearestRank a 1 < nearestRank b 1 := by
  obtain ⟨rank, hrank⟩ := exists_units_eq ha.le
  obtain ⟨next, hnext⟩ := exists_units_eq (Nat.succ_le_of_lt ha)
  have hlow : nearestRank a 1 ≤ rank := nearestRank_le Nat.one_pos (by omega)
  have hhigh : next ≤ nearestRank b 1 := by
    refine le_nearestRank Nat.one_pos ?_
    rw [hnext, Nat.mul_one]
    exact Nat.mul_le_mul_right _ h
  have hbetween : rank < next := by
    refine lt_of_units_lt ?_
    rw [hrank, hnext]
    exact Nat.mul_lt_mul_of_pos_right (Nat.lt_succ_self a) unitsPerOne_pos
  omega

/-- The position on the line of numbers of the number nearest to an integer. -/
theorem position_ofInt {n : Int} (h : (Number.int n).InRange) : (ofInt n).position =
    if n < 0 then -(nearestRank n.natAbs 1 : Int) else nearestRank n.natAbs 1 := by
  have hrank : nearestRank n.natAbs 1 ≤ rankLimit - 1 := by
    have hlow := h.1
    have hhigh := h.2
    unfold Number.minSigned at hlow
    unfold Number.maxUnsigned at hhigh
    exact Nat.le_sub_one_of_lt (nearestRank_lt (by omega))
  have hposition : (ofInt n).position = if decide (n < 0) = true then
      -((min (nearestRank n.natAbs 1) (rankLimit - 1) : Nat) : Int)
      else ((min (nearestRank n.natAbs 1) (rankLimit - 1) : Nat) : Int) := rfl
  rw [hposition, Nat.min_eq_left hrank]
  simp only [decide_eq_true_eq]

/-- Rounding keeps the order of integers. -/
theorem position_ofInt_le {n m : Int} (hn : (Number.int n).InRange) (hm : (Number.int m).InRange)
    (h : n ≤ m) : (ofInt n).position ≤ (ofInt m).position := by
  rw [position_ofInt hn, position_ofInt hm]
  by_cases hneg : m < 0
  · have hmono := nearestRank_mono (show m.natAbs ≤ n.natAbs by omega)
    rw [if_pos (by omega), if_pos hneg]
    omega
  · by_cases hneg' : n < 0
    · rw [if_pos hneg', if_neg hneg]
      omega
    · have hmono := nearestRank_mono (show n.natAbs ≤ m.natAbs by omega)
      rw [if_neg hneg', if_neg hneg]
      omega

/-- Rounding tells an integer below `2 ^ 53` from every other one. -/
theorem position_ofInt_lt {n m : Int} (hn : (Number.int n).InRange) (hm : (Number.int m).InRange)
    (h : n < m) (hsmall : n.natAbs < 2 ^ 53 ∨ m.natAbs < 2 ^ 53) :
    (ofInt n).position < (ofInt m).position := by
  rw [position_ofInt hn, position_ofInt hm]
  by_cases hneg : m < 0
  · have hlt := nearestRank_lt_of_lt (show m.natAbs < n.natAbs by omega) (by omega)
    rw [if_pos (by omega), if_pos hneg]
    omega
  · by_cases hneg' : n < 0
    · have hlt := nearestRank_lt_of_lt (show 0 < n.natAbs by omega) (by decide)
      rw [if_pos hneg', if_neg hneg]
      omega
    · have hlt := nearestRank_lt_of_lt (show n.natAbs < m.natAbs by omega) (by omega)
      rw [if_neg hneg', if_neg hneg]
      omega

end Double

end DocumentEngine
