import DocumentEngine.Number.Reading
import DocumentEngine.Number.Shortest
import DocumentEngine.Proofs.Number.Rounding

/-!
The shortest decimal of a magnitude rounds back to it. The finest grid that is tried has steps of
less than half the distance of neighbouring magnitudes, so a point of it lies in the interval; and
every point of the interval has the rank of the magnitude.
-/

namespace DocumentEngine.Double

/-- The points between the ends of the interval of a rank, and the ends of an even rank. -/
theorem inInterval_iff (rank digits : Nat) (exponent : Int) :
    inInterval rank digits exponent = true ↔
      (lowEnd rank * 10 ^ (-exponent).toNat < 2 * (digits * 10 ^ exponent.toNat * unitsPerOne) ∨
        lowEnd rank * 10 ^ (-exponent).toNat = 2 * (digits * 10 ^ exponent.toNat * unitsPerOne) ∧
          rank % 2 = 0) ∧
      (2 * (digits * 10 ^ exponent.toNat * unitsPerOne) < highEnd rank * 10 ^ (-exponent).toNat ∨
        2 * (digits * 10 ^ exponent.toNat * unitsPerOne) = highEnd rank * 10 ^ (-exponent).toNat ∧
          rank % 2 = 0) := by
  unfold inInterval
  generalize unitsPerOne = u
  have hpoint : 2 * digits * u * Nat.pow 10 exponent.toNat =
      2 * (digits * 10 ^ exponent.toNat * u) := by
    rw [Nat.pow_eq]
    ring
  dsimp only
  rw [hpoint, Nat.pow_eq]
  generalize lowEnd rank * 10 ^ (-exponent).toNat = low
  generalize highEnd rank * 10 ^ (-exponent).toNat = high
  generalize 2 * (digits * 10 ^ exponent.toNat * u) = point
  by_cases heven : rank % 2 = 0
  · simp only [heven, beq_self_eq_true, if_true, decide_eq_true_eq, and_true]
    omega
  · simp only [beq_iff_eq, heven, if_false, decide_eq_true_eq, and_false, or_false]

/-- A point in the interval of a rank is rounded to that rank. -/
theorem nearestRank_of_inInterval {rank digits : Nat} {exponent : Int} (hrank : 0 < rank)
    (h : inInterval rank digits exponent = true) :
    nearestRank (digits * 10 ^ exponent.toNat) (10 ^ (-exponent).toNat) = rank := by
  obtain ⟨hlow, hhigh⟩ := (inInterval_iff rank digits exponent).mp h
  exact nearestRank_eq (Nat.pow_pos (by decide)) rfl hrank hlow hhigh

theorem gridPoint?_spec {rank : Nat} {exponent : Int} {d : Decimal}
    (h : gridPoint? rank exponent = some d) :
    d.digits ≠ 0 ∧ inInterval rank d.digits d.exponent = true := by
  unfold gridPoint? at h
  generalize unitsPerOne = u at h
  dsimp only at h
  generalize roundDiv _ _ = nearest at h
  generalize (_ : Nat) / _ = below at h
  by_cases hnear : (decide (nearest ≠ 0) && inInterval rank nearest exponent) = true
  · rw [if_pos hnear] at h
    cases h
    simpa using hnear
  · rw [if_neg hnear] at h
    generalize (if nearest = below then below + 1 else below) = farther at h
    by_cases hfar : (decide (farther ≠ 0) && inInterval rank farther exponent) = true
    · rw [if_pos hfar] at h
      cases h
      simpa using hfar
    · rw [if_neg hfar] at h
      cases h

theorem roundDiv_near (num den : Nat) (hden : 0 < den) :
    2 * num ≤ 2 * (roundDiv num den * den) + den ∧ 2 * (roundDiv num den * den) ≤ 2 * num + den := by
  have hdiv := Nat.div_add_mod num den
  have hmod := Nat.mod_lt num hden
  have hcomm : den * (num / den) = num / den * den := Nat.mul_comm _ _
  unfold roundDiv
  dsimp only
  split
  · rename_i h
    have : (num / den + 1) * den = num / den * den + den := by ring
    simp at h
    omega
  · rename_i h
    simp at h
    omega

/-- The distance of a positive magnitude to its neighbours, in units: at least half a step of its
scale, and at least one unit. -/
theorem units_gap {rank : Nat} (hrank : 0 < rank) :
    2 * units (rank - 1) + 2 ^ ((units rank).log2 - 52) ≤ 2 * units rank ∧
      2 * units rank + 2 ^ ((units rank).log2 - 52) ≤ 2 * units (rank + 1) := by
  obtain ⟨k, s, rfl, hs, hks⟩ := exists_split rank
  have hself : units (k * 2 ^ 52 + s) = s * 2 ^ k := units_eq k s (by omega) hks
  have hnext : units (k * 2 ^ 52 + s + 1) = (s + 1) * 2 ^ k := by
    rw [Nat.add_assoc, units_eq k (s + 1) (by omega) (by omega)]
  have hpow : 0 < 2 ^ k := Nat.two_pow_pos k
  have hlog : (s * 2 ^ k).log2 - 52 = k := by
    have hz : s * 2 ^ k ≠ 0 := Nat.mul_ne_zero (by omega) hpow.ne'
    have hlt : s * 2 ^ k < 2 ^ (53 + k) := by
      rw [Nat.pow_add]
      exact Nat.mul_lt_mul_of_pos_right hs hpow
    have h1 := (Nat.log2_lt hz).mpr hlt
    rcases hks with rfl | hks
    · omega
    · have hle : 2 ^ (52 + k) ≤ s * 2 ^ k := by
        rw [Nat.pow_add]
        exact Nat.mul_le_mul_right _ hks
      have h2 := (Nat.le_log2 hz).mpr hle
      omega
  rw [hself, hnext, hlog]
  refine ⟨?_, by nlinarith⟩
  by_cases hedge : k ≠ 0 ∧ s = 2 ^ 52
  · obtain ⟨hk, hleast⟩ := hedge
    obtain ⟨j, rfl⟩ := Nat.exists_eq_add_one_of_ne_zero hk
    obtain ⟨a, ha⟩ : ∃ a, 2 * s = a + 1 := ⟨2 * s - 1, by omega⟩
    have hprev : units ((j + 1) * 2 ^ 52 + s - 1) = a * 2 ^ j := by
      have hr : (j + 1) * 2 ^ 52 + s - 1 = j * 2 ^ 52 + a := by omega
      rw [hr, units_eq j a (by omega) (by omega)]
    have hwhole : 2 * (s * 2 ^ (j + 1)) = 2 * (a * 2 ^ j) + 2 ^ (j + 1) := by
      have : 2 * (s * 2 ^ (j + 1)) = 2 * ((2 * s) * 2 ^ j) := by
        rw [Nat.pow_succ]
        ring
      rw [this, ha, Nat.pow_succ]
      ring
    rw [hprev, hwhole]
  · have hr : k * 2 ^ 52 + s - 1 = k * 2 ^ 52 + (s - 1) := by omega
    rw [hr, units_eq k (s - 1) (by omega) (by omega)]
    obtain ⟨a, rfl⟩ := Nat.exists_eq_add_one_of_ne_zero (show s ≠ 0 by omega)
    rw [Nat.add_sub_cancel]
    nlinarith

theorem gridPoint?_of_nearest {rank nearest : Nat} {exponent : Int}
    (hnearest : roundDiv (units rank * 10 ^ (-exponent).toNat)
      (unitsPerOne * 10 ^ exponent.toNat) = nearest)
    (hpos : nearest ≠ 0) (hin : inInterval rank nearest exponent = true) :
    gridPoint? rank exponent = some ⟨nearest, exponent⟩ := by
  unfold gridPoint?
  rw [Nat.pow_eq, Nat.pow_eq]
  dsimp only
  rw [hnearest, if_pos]
  simp [hpos, hin]

/-- The grid point that is nearest to a magnitude lies in its interval where the steps of the grid
are smaller than half the distance of magnitudes. -/
theorem exists_gridPoint? {rank : Nat} {exponent : Int} (hrank : 0 < rank)
    (hfine : 2 * (unitsPerOne * 10 ^ exponent.toNat) <
      2 ^ ((units rank).log2 - 52) * 10 ^ (-exponent).toNat) :
    ∃ d, gridPoint? rank exponent = some d := by
  obtain ⟨hbelow, habove⟩ := units_gap hrank
  have hden : 0 < unitsPerOne * 10 ^ exponent.toNat :=
    Nat.mul_pos (Nat.pow_pos (by decide)) (Nat.pow_pos (by decide))
  have hnear := roundDiv_near (units rank * 10 ^ (-exponent).toNat) _ hden
  generalize hnearest : roundDiv (units rank * 10 ^ (-exponent).toNat)
    (unitsPerOne * 10 ^ exponent.toNat) = nearest at hnear
  have hpoint : nearest * 10 ^ exponent.toNat * unitsPerOne =
      nearest * (unitsPerOne * 10 ^ exponent.toNat) := by
    generalize unitsPerOne = u
    ring
  have hin : nearest ≠ 0 ∧ inInterval rank nearest exponent = true := by
    rw [inInterval_iff, lowEnd, highEnd, hpoint]
    clear hnearest hpoint
    generalize unitsPerOne * 10 ^ exponent.toNat = den at *
    generalize 10 ^ (-exponent).toNat = up at *
    generalize 2 ^ ((units rank).log2 - 52) = step at *
    have h1 := Nat.mul_le_mul_right up hbelow
    have h2 := Nat.mul_le_mul_right up habove
    have e1 : (2 * units (rank - 1) + step) * up = 2 * (units (rank - 1) * up) + step * up := by
      ring
    have e2 : (2 * units rank + step) * up = 2 * (units rank * up) + step * up := by ring
    have e3 : 2 * units (rank + 1) * up = 2 * (units (rank + 1) * up) := by ring
    have e4 : 2 * units rank * up = 2 * (units rank * up) := by ring
    have e5 : (units (rank - 1) + units rank) * up = units (rank - 1) * up + units rank * up := by
      ring
    have e6 : (units rank + units (rank + 1)) * up = units rank * up + units (rank + 1) * up := by
      ring
    refine ⟨?_, .inl (by omega), .inl (by omega)⟩
    rintro rfl
    omega
  exact ⟨_, gridPoint?_of_nearest hnearest hin.1 hin.2⟩

theorem units_pos {rank : Nat} (hrank : 0 < rank) : 0 < units rank := by
  have hgap := (units_gap hrank).1
  have := Nat.two_pow_pos ((units rank).log2 - 52)
  omega

theorem log2_units_lt {rank : Nat} (hrank : 0 < rank) (h : rank < rankLimit) :
    (units rank).log2 < 2098 := by
  have hpos := units_pos hrank
  obtain ⟨k, s, rfl, hs, hks⟩ := exists_split rank
  have hlimit : rankLimit = 2047 * 2 ^ 52 := rfl
  rw [units_eq k s (by omega) hks] at hpos ⊢
  have hlt : s * 2 ^ k < 2 ^ (53 + k) := by
    rw [Nat.pow_add]
    exact Nat.mul_lt_mul_of_pos_right hs (Nat.two_pow_pos k)
  have := (Nat.log2_lt hpos.ne').mpr hlt
  omega

/-- The steps of the finest grid that is tried, for every binary logarithm of a magnitude. -/
theorem finestStep_lt :
    (List.range 2098).all (fun log =>
      Nat.blt (2 * (Nat.pow 2 1074 * Nat.pow 10 ((log * 30103 + 69378) / 100000 - 343)))
        (Nat.pow 2 (log - 52) * Nat.pow 10 (343 - (log * 30103 + 69378) / 100000))) = true := by
  decide +kernel

theorem topExponent_step {rank : Nat} (hrank : 0 < rank) (h : rank < rankLimit) :
    2 * (unitsPerOne * 10 ^ (topExponent rank - 21).toNat) <
      2 ^ ((units rank).log2 - 52) * 10 ^ (-(topExponent rank - 21)).toNat := by
  have hlog := log2_units_lt hrank h
  have hstep := List.all_eq_true.mp finestStep_lt _ (List.mem_range.mpr hlog)
  rw [Nat.blt_eq] at hstep
  unfold topExponent
  generalize (units rank).log2 = log at hlog hstep ⊢
  have hup : (((log : Int) - 1074) * 30103 / 100000 + 2 - 21).toNat =
      (log * 30103 + 69378) / 100000 - 343 := by omega
  have hdown : (-(((log : Int) - 1074) * 30103 / 100000 + 2 - 21)).toNat =
      343 - (log * 30103 + 69378) / 100000 := by omega
  rw [hup, hdown]
  exact hstep

/-- The shortest decimal of a positive magnitude lies in its interval. -/
theorem shortest_spec {rank : Nat} (hrank : 0 < rank) (h : rank < rankLimit) :
    (shortest rank).digits ≠ 0 ∧
      inInterval rank (shortest rank).digits (shortest rank).exponent = true := by
  obtain ⟨d, hd⟩ := exists_gridPoint? hrank (topExponent_step hrank h)
  have hsome : ((List.range 22).findSome? fun (i : Nat) =>
      gridPoint? rank (topExponent rank - i)).isSome := by
    rw [List.findSome?_isSome_iff]
    exact ⟨21, by decide, by rw [Nat.cast_ofNat, hd]; rfl⟩
  obtain ⟨found, hfound⟩ := Option.isSome_iff_exists.mp hsome
  obtain ⟨i, -, hi⟩ := List.exists_of_findSome?_eq_some hfound
  have hshortest : shortest rank = found := by
    simp only [shortest, hfound, Option.getD_some]
  rw [hshortest]
  exact gridPoint?_spec hi

end DocumentEngine.Double
