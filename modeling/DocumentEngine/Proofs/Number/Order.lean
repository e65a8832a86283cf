import DocumentEngine.Proofs.Number.Shortest

/-!
Ranks in the order of magnitudes. A quotient is rounded to the greatest rank whose magnitude it
reaches or to the next one, so that rounding keeps bounds, and it adds little to what is one or
more.
-/

namespace DocumentEngine.Double

theorem units_lt_succ (rank : Nat) : units rank < units (rank + 1) := by
  have hgap := (units_gap (Nat.succ_pos rank)).1
  have hpow := Nat.two_pow_pos ((units (rank + 1)).log2 - 52)
  rw [Nat.succ_sub_one] at hgap
  exact Nat.lt_of_mul_lt_mul_left (hgap.trans_lt' (Nat.lt_add_of_pos_right hpow))

theorem units_lt {a b : Nat} (h : a < b) : units a < units b :=
  strictMono_nat_of_lt_succ units_lt_succ h

theorem units_le {a b : Nat} (h : a ≤ b) : units a ≤ units b :=
  (strictMono_nat_of_lt_succ units_lt_succ).monotone h

theorem lt_of_units_lt {a b : Nat} (h : units a < units b) : a < b :=
  (strictMono_nat_of_lt_succ units_lt_succ).lt_iff_lt.mp h

theorem units_zero : units 0 = 0 := by decide

/-- Every multiple of a unit lies between the magnitudes of two ranks that follow each other. -/
theorem exists_units_between (n : Nat) {den : Nat} (hden : 0 < den) :
    ∃ rank, units rank * den ≤ n ∧ n < units (rank + 1) * den := by
  have hsome : ∃ rank, n < units (rank + 1) * den := by
    refine ⟨n, ?_⟩
    have hgrow : n + 1 ≤ units (n + 1) := (strictMono_nat_of_lt_succ units_lt_succ).id_le (n + 1)
    exact (Nat.lt_of_succ_le hgrow).trans_le (Nat.le_mul_of_pos_right _ hden)
  refine ⟨Nat.find hsome, ?_, Nat.find_spec hsome⟩
  rcases hfirst : Nat.find hsome with _ | rank
  · rw [units_zero, Nat.zero_mul]
    exact Nat.zero_le n
  · exact Nat.not_lt.mp (Nat.find_min hsome (hfirst ▸ Nat.lt_succ_self rank))

/-- A quotient is rounded to the greatest rank whose magnitude it reaches below the midpoint to the
next one, to the next one above it, and at the midpoint to the even one. -/
theorem nearestRank_cases {num den n : Nat} (hden : 0 < den) (hn : num * unitsPerOne = n) :
    ∃ rank, units rank * den ≤ n ∧ n < units (rank + 1) * den ∧
      (nearestRank num den = rank ∧
          (2 * n < highEnd rank * den ∨ 2 * n = highEnd rank * den ∧ rank % 2 = 0) ∨
        nearestRank num den = rank + 1 ∧
          (highEnd rank * den < 2 * n ∨ highEnd rank * den = 2 * n ∧ (rank + 1) % 2 = 0)) := by
  obtain ⟨rank, hreached, hbelow⟩ := exists_units_between n hden
  refine ⟨rank, hreached, hbelow, ?_⟩
  have hmiddle : highEnd rank * den = units rank * den + units (rank + 1) * den := by
    rw [highEnd, Nat.add_mul]
  have hpast : units (rank + 1) * den < units (rank + 1 + 1) * den :=
    Nat.mul_lt_mul_of_pos_right (units_lt_succ (rank + 1)) hden
  by_cases hup : highEnd rank * den < 2 * n ∨ highEnd rank * den = 2 * n ∧ (rank + 1) % 2 = 0
  · refine .inr ⟨nearestRank_eq hden hn (Nat.succ_pos rank) ?_ (.inl ?_), hup⟩
    · rwa [Nat.add_sub_cancel]
    · rw [Nat.add_mul]
      omega
  · have hdown : 2 * n < highEnd rank * den ∨ 2 * n = highEnd rank * den ∧ rank % 2 = 0 := by
      omega
    refine .inl ⟨?_, hdown⟩
    by_cases hzero : rank = 0
    · -- below half a unit: the quotient is rounded to nothing
      subst hzero
      have hhalf : 2 * n ≤ den := by
        have hone : highEnd 0 = 1 := by decide
        rw [hone, Nat.one_mul] at hup
        omega
      have hround : roundDiv n (den * 2 ^ 0) = 0 :=
        roundDiv_eq (by omega) (.inl (by omega)) (by omega)
      rw [nearestRank_of_scale hden hn (.inl rfl) (by omega), hround, Nat.zero_mul]
    · have hprevious : units (rank - 1) * den < units rank * den :=
        Nat.mul_lt_mul_of_pos_right (units_lt (by omega)) hden
      refine nearestRank_eq hden hn (Nat.pos_of_ne_zero hzero) (.inl ?_) hdown
      rw [Nat.add_mul]
      omega

/-- A quotient is rounded to the greatest rank whose magnitude it reaches or to the next one, and to
the next one only from the midpoint of the two. -/
theorem nearestRank_between {num den n : Nat} (hden : 0 < den) (hn : num * unitsPerOne = n) :
    ∃ rank, units rank * den ≤ n ∧ n < units (rank + 1) * den ∧
      (nearestRank num den = rank ∨
        nearestRank num den = rank + 1 ∧ highEnd rank * den ≤ 2 * n) := by
  obtain ⟨rank, hreached, hbelow, hnearest⟩ := nearestRank_cases hden hn
  refine ⟨rank, hreached, hbelow, hnearest.imp And.left fun ⟨hnext, hup⟩ => ⟨hnext, ?_⟩⟩
  exact hup.elim Nat.le_of_lt fun h => h.1.le

/-- What lies below the midpoint behind a rank is rounded to that rank at most. -/
theorem nearestRank_le_of_lt_highEnd {num den rank : Nat} (hden : 0 < den)
    (h : 2 * (num * unitsPerOne) < highEnd rank * den) : nearestRank num den ≤ rank := by
  obtain ⟨reached, hreached, -, hnearest⟩ := nearestRank_between hden (@rfl _ (num * unitsPerOne))
  have hle : ∀ {a b : Nat}, a ≤ b → units a * den ≤ units b * den :=
    fun hab => Nat.mul_le_mul_right den (units_le hab)
  rw [highEnd, Nat.add_mul] at h
  rcases hnearest with hdown | ⟨hup, hmiddle⟩
  · rw [hdown]
    by_contra hbeyond
    have hnext := hle (show rank + 1 ≤ reached by omega)
    have hself := hle (show rank ≤ reached by omega)
    omega
  · rw [hup]
    by_contra hbeyond
    have hself := hle (show rank ≤ reached by omega)
    have hnext := hle (show rank + 1 ≤ reached + 1 by omega)
    rw [highEnd, Nat.add_mul] at hmiddle
    omega

/-- What does not pass the magnitude of a rank is rounded to that rank at most. -/
theorem nearestRank_le {num den rank : Nat} (hden : 0 < den)
    (h : num * unitsPerOne ≤ units rank * den) : nearestRank num den ≤ rank := by
  refine nearestRank_le_of_lt_highEnd hden ?_
  have hnext := Nat.mul_lt_mul_of_pos_right (units_lt_succ rank) hden
  rw [highEnd, Nat.add_mul]
  omega

/-- What reaches the magnitude of a rank is rounded to that rank at least. -/
theorem le_nearestRank {num den rank : Nat} (hden : 0 < den)
    (h : units rank * den ≤ num * unitsPerOne) : rank ≤ nearestRank num den := by
  obtain ⟨reached, -, hbelow, hnearest⟩ := nearestRank_between hden (@rfl _ (num * unitsPerOne))
  have hlt : rank < reached + 1 :=
    lt_of_units_lt (Nat.lt_of_mul_lt_mul_right (h.trans_lt hbelow))
  omega

/-- The rank of one. -/
abbrev oneRank : Nat := 1023 * 2 ^ 52

theorem units_oneRank : units oneRank = unitsPerOne := by decide +kernel

/-- A magnitude of a whole significand and the next one differ by little. -/
theorem units_succ_le {rank : Nat} (h : 2 ^ 52 ≤ rank) :
    units (rank + 1) * (2 ^ 53 - 1) ≤ units rank * (2 ^ 53 + 1) := by
  obtain ⟨k, s, rfl, hs, hks⟩ := exists_split rank
  have hnext : units (k * 2 ^ 52 + s + 1) = (s + 1) * 2 ^ k := by
    rw [Nat.add_assoc, units_eq k (s + 1) (by omega) (by omega)]
  rw [hnext, units_eq k s (by omega) hks]
  calc (s + 1) * 2 ^ k * (2 ^ 53 - 1) = (s + 1) * (2 ^ 53 - 1) * 2 ^ k := by ring
    _ ≤ s * (2 ^ 53 + 1) * 2 ^ k := Nat.mul_le_mul_right _ (by omega)
    _ = s * 2 ^ k * (2 ^ 53 + 1) := by ring

/-- Rounding what is one or more adds one part in `2 ^ 53` at most. -/
theorem units_nearestRank_le {num den : Nat} (hden : 0 < den) (hone : den ≤ num) :
    units (nearestRank num den) * den * 2 ^ 53 ≤ num * unitsPerOne * (2 ^ 53 + 1) := by
  obtain ⟨reached, hreached, hbelow, hnearest⟩ :=
    nearestRank_between hden (@rfl _ (num * unitsPerOne))
  rcases hnearest with hdown | ⟨hup, hmiddle⟩
  · rw [hdown]
    exact Nat.mul_le_mul hreached (by decide)
  · have hwhole : 2 ^ 52 ≤ reached := by
      have hlow : units oneRank * den ≤ num * unitsPerOne := by
        rw [units_oneRank, Nat.mul_comm]
        exact Nat.mul_le_mul_right _ hone
      have hlt : oneRank < reached + 1 :=
        lt_of_units_lt (Nat.lt_of_mul_lt_mul_right (hlow.trans_lt hbelow))
      exact (show 2 ^ 52 ≤ oneRank by decide).trans (Nat.le_of_lt_succ hlt)
    have hstep := Nat.mul_le_mul_right den (units_succ_le hwhole)
    rw [hup]
    rw [highEnd, Nat.add_mul] at hmiddle
    generalize num * unitsPerOne = n at *
    have hleft : units (reached + 1) * (2 ^ 53 - 1) * den =
        (2 ^ 53 - 1) * (units (reached + 1) * den) := by ring
    have hright : units reached * (2 ^ 53 + 1) * den =
        (2 ^ 53 + 1) * (units reached * den) := by ring
    rw [hleft, hright] at hstep
    omega

end DocumentEngine.Double
