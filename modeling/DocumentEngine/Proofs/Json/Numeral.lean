import DocumentEngine.Json.Record
import DocumentEngine.Proofs.Number.Order
import DocumentEngine.Proofs.Number.Text

/-!
Numerals that spell a number. Reading rounds three times, so that a numeral close to the greatest
magnitude may leave the range. One that rounds to a finite number does not leave it: three ranks
below the greatest the three roundings stay below the limit.
-/

namespace DocumentEngine

namespace Json.Numeral

open Double Number

theorem le_units_powerRank (n : Nat) : unitsPerOne ≤ units (powerRank n) := by
  have hone : oneRank ≤ powerRank n := by
    refine le_nearestRank (by decide) ?_
    rw [units_oneRank, Nat.mul_one]
    exact Nat.le_mul_of_pos_left _ (Nat.pow_pos (by decide))
  rw [← units_oneRank]
  exact units_le hone

/-- A quotient by one or more is no greater than what is divided. -/
theorem overRank_le {a b : Nat} (h : unitsPerOne ≤ units b) : overRank a b ≤ a :=
  nearestRank_le (unitsPerOne_pos.trans_le h) (Nat.mul_le_mul_left (units a) h)

theorem scaled?_of_neg (rank : Nat) {exponent : Int} (h : exponent < 0) :
    ∃ r ≤ rank, scaled? rank exponent = some r := by
  fun_induction scaled? rank exponent with
  | case1 => exact ⟨0, Nat.le_refl 0, rfl⟩
  | case2 rank exponent hdeep _ ih =>
    obtain ⟨r, hr, hscaled⟩ := ih (by omega)
    exact ⟨r, hr.trans (overRank_le (le_units_powerRank 308)), hscaled⟩
  | case3 rank exponent => exact ⟨_, overRank_le (le_units_powerRank _), rfl⟩
  | case4 => omega
  | case5 => omega
  | case6 => omega
  | case7 => omega

theorem scaled?_of_nonneg {rank : Nat} {exponent : Int} (h : 0 ≤ exponent)
    (hfits : rank = 0 ∨
      exponent ≤ 308 ∧ timesRank rank (powerRank exponent.natAbs) < rankLimit) :
    ∃ r < rankLimit, scaled? rank exponent = some r := by
  have hlimit : 0 < rankLimit := by decide
  unfold scaled?
  rw [if_neg (by omega), if_neg (by omega)]
  by_cases hzero : rank = 0
  · rw [if_pos hzero]
    exact ⟨0, hlimit, rfl⟩
  · obtain ⟨hsmall, hproduct⟩ := hfits.resolve_left hzero
    rw [if_neg hzero, if_neg (by omega)]
    dsimp only
    rw [if_pos hproduct]
    exact ⟨_, hproduct, rfl⟩

/-- The digits that are taken, and those left over. -/
theorem takeDigits_spec {n : Nat} (hn : (n : Int) ≤ maxUnsigned) (cs : List Char) :
    ∃ taken, cs = taken ++ (takeDigits n cs).2 ∧
      (takeDigits n cs).1 = Nat.ofDigitChars 10 taken n ∧
      ((takeDigits n cs).1 : Int) ≤ maxUnsigned := by
  induction cs generalizing n with
  | nil => exact ⟨[], rfl, rfl, hn⟩
  | cons c cs ih =>
    unfold takeDigits
    dsimp only
    split
    · rename_i hnext
      obtain ⟨taken, hcs, hvalue, hfits⟩ := ih hnext
      exact ⟨c :: taken, by rw [List.cons_append, ← hcs], hvalue, hfits⟩
    · exact ⟨[], rfl, rfl, hn⟩

theorem le_ofDigitChars (cs : List Char) (n : Nat) : n ≤ Nat.ofDigitChars 10 cs n := by
  rw [Nat.ofDigitChars_eq_ofDigitChars_zero]
  have hpow : 0 < 10 ^ cs.length := Nat.pow_pos (by decide)
  exact (Nat.le_mul_of_pos_left n hpow).trans (Nat.le_add_right _ _)

/-- Digits are all taken where the number that they spell fits 64 bits. -/
theorem takeDigits_all {n : Nat} {cs : List Char}
    (h : (Nat.ofDigitChars 10 cs n : Int) ≤ maxUnsigned) :
    takeDigits n cs = (Nat.ofDigitChars 10 cs n, []) := by
  induction cs generalizing n with
  | nil => rfl
  | cons c cs ih =>
    have hnext : 10 * n + digitValue c ≤ Nat.ofDigitChars 10 (c :: cs) n := le_ofDigitChars cs _
    unfold takeDigits
    dsimp only
    rw [if_pos (by omega)]
    exact ih h

/-- The last midpoint below which three roundings stay in the range, twice its units. -/
def lowBound : Nat := highEnd (rankLimit - 3)

/-- The midpoint behind the greatest magnitude, twice its units. -/
def topBound : Nat := highEnd (rankLimit - 1)

/-- A decimal that three roundings keep below the limit of magnitudes. -/
def Low (digits : Nat) (exponent : Int) : Prop :=
  2 * (digits * 10 ^ exponent.toNat * unitsPerOne) ≤ lowBound * 10 ^ (-exponent).toNat

/-- Digits left over make a decimal no greater. -/
theorem Low.mono {digits taken k : Nat} {exponent : Int} (h : Low digits exponent)
    (htaken : taken * 10 ^ k ≤ digits) : Low taken (exponent + k) := by
  unfold Low at h ⊢
  have hup : 0 < 10 ^ (-exponent).toNat := Nat.pow_pos (by decide)
  have hpow : (exponent + k).toNat + (-exponent).toNat =
      exponent.toNat + k + (-(exponent + k)).toNat := by omega
  have hpoint : taken * 10 ^ (exponent + k).toNat * 10 ^ (-exponent).toNat ≤
      digits * 10 ^ exponent.toNat * 10 ^ (-(exponent + k)).toNat := by
    calc taken * 10 ^ (exponent + k).toNat * 10 ^ (-exponent).toNat
        = taken * 10 ^ ((exponent + k).toNat + (-exponent).toNat) := by rw [Nat.pow_add]; ring
      _ = taken * 10 ^ k * (10 ^ exponent.toNat * 10 ^ (-(exponent + k)).toNat) := by
        rw [hpow, Nat.pow_add, Nat.pow_add]
        ring
      _ ≤ digits * (10 ^ exponent.toNat * 10 ^ (-(exponent + k)).toNat) :=
        Nat.mul_le_mul_right _ htaken
      _ = digits * 10 ^ exponent.toNat * 10 ^ (-(exponent + k)).toNat := by ring
  refine Nat.le_of_mul_le_mul_right ?_ hup
  generalize lowBound = limit at *
  generalize unitsPerOne = one at *
  generalize 10 ^ (-exponent).toNat = up at *
  generalize 10 ^ (-(exponent + k)).toNat = up' at *
  generalize digits * 10 ^ exponent.toNat = point at *
  generalize taken * 10 ^ (exponent + k).toNat = point' at *
  calc 2 * (point' * one) * up = 2 * (point' * up * one) := by ring
    _ ≤ 2 * (point * up' * one) :=
      Nat.mul_le_mul_left _ (Nat.mul_le_mul_right _ hpoint)
    _ = 2 * (point * one) * up' := by ring
    _ ≤ limit * up * up' := Nat.mul_le_mul_right _ h
    _ = limit * up' * up := by ring

theorem lowBound_margin : lowBound * (2 ^ 53 + 1) ^ 2 < topBound * (2 ^ 53) ^ 2 := by
  decide +kernel

theorem lowBound_lt {k : Nat} (h : 309 ≤ k) : lowBound < 2 * (10 ^ k * unitsPerOne) := by
  induction k, h using Nat.le_induction with
  | base => decide +kernel
  | succ k _ ih =>
    have hgrow : 10 ^ k ≤ 10 ^ (k + 1) := Nat.pow_le_pow_right (by decide) (Nat.le_succ k)
    exact ih.trans_le (Nat.mul_le_mul_left 2 (Nat.mul_le_mul_right _ hgrow))

theorem nearestRank_lt_of_topBound {num den : Nat} (hden : 0 < den)
    (h : 2 * (num * unitsPerOne) < topBound * den) : nearestRank num den < rankLimit := by
  have hle := nearestRank_le_of_lt_highEnd hden h
  exact Nat.lt_of_le_pred (by decide) hle

/-- A low decimal without a fraction has a rank below the limit. -/
theorem Low.fits {digits : Nat} {exponent : Int} (h : Low digits exponent) (he : 0 ≤ exponent)
    (hdigits : digits ≠ 0) : exponent ≤ 308 ∧
      timesRank (nearestRank digits 1) (powerRank exponent.natAbs) < rankLimit := by
  obtain ⟨k, rfl⟩ := Int.eq_ofNat_of_zero_le he
  have hlow : 2 * (digits * 10 ^ k * unitsPerOne) ≤ lowBound := by
    have hnone : (-(k : Int)).toNat = 0 := by omega
    unfold Low at h
    generalize lowBound = low at h ⊢
    rwa [Int.toNat_natCast, hnone, Nat.pow_zero, Nat.mul_one] at h
  have hpow : 0 < 10 ^ k := Nat.pow_pos (by decide)
  refine ⟨?_, ?_⟩
  · by_contra hbig
    have hpoint : 10 ^ k ≤ digits * 10 ^ k :=
      Nat.le_mul_of_pos_left _ (Nat.pos_of_ne_zero hdigits)
    have hunits := Nat.mul_le_mul_left 2 (Nat.mul_le_mul_right unitsPerOne hpoint)
    exact absurd (hunits.trans hlow) (Nat.not_le.mpr (lowBound_lt (by omega)))
  · have hleft : units (nearestRank digits 1) * 1 * 2 ^ 53 ≤ digits * unitsPerOne * (2 ^ 53 + 1) :=
      units_nearestRank_le (by decide) (Nat.pos_of_ne_zero hdigits)
    have hright : units (powerRank k) * 1 * 2 ^ 53 ≤ 10 ^ k * unitsPerOne * (2 ^ 53 + 1) :=
      units_nearestRank_le (by decide) hpow
    have hmargin := lowBound_margin
    have hone := unitsPerOne_pos
    refine nearestRank_lt_of_topBound (Nat.mul_pos hone hone) ?_
    rw [Int.natAbs_natCast]
    rw [Nat.mul_one] at hleft hright
    generalize units (nearestRank digits 1) = a at *
    generalize units (powerRank k) = b at *
    generalize lowBound = low at *
    generalize topBound = high at *
    generalize unitsPerOne = one at *
    generalize 10 ^ k = power at *
    refine Nat.lt_of_mul_lt_mul_right (a := (2 ^ 53) ^ 2) ?_
    calc 2 * (a * b * one) * (2 ^ 53) ^ 2 = 2 * one * (a * 2 ^ 53 * (b * 2 ^ 53)) := by ring
      _ ≤ 2 * one * (digits * one * (2 ^ 53 + 1) * (power * one * (2 ^ 53 + 1))) :=
        Nat.mul_le_mul_left _ (Nat.mul_le_mul hleft hright)
      _ = 2 * (digits * power * one) * (2 ^ 53 + 1) ^ 2 * (one * one) := by ring
      _ ≤ low * (2 ^ 53 + 1) ^ 2 * (one * one) :=
        Nat.mul_le_mul_right _ (Nat.mul_le_mul_right _ hlow)
      _ < high * (2 ^ 53) ^ 2 * (one * one) :=
        Nat.mul_lt_mul_of_pos_right hmargin (Nat.mul_pos hone hone)
      _ = high * (one * one) * (2 ^ 53) ^ 2 := by ring

/-- A decimal whose scaling stays below the limit of magnitudes. -/
def Fits (digits : Nat) (exponent : Int) : Prop :=
  digits = 0 ∨ exponent < 0 ∨
    exponent ≤ 308 ∧ timesRank (nearestRank digits 1) (powerRank exponent.natAbs) < rankLimit

theorem Low.toFits {digits : Nat} {exponent : Int} (h : Low digits exponent) :
    Fits digits exponent := by
  by_cases hdigits : digits = 0
  · exact .inl hdigits
  · by_cases hneg : exponent < 0
    · exact .inr (.inl hneg)
    · exact .inr (.inr (h.fits (Int.not_lt.mp hneg) hdigits))

theorem scaled?_of_fits {digits : Nat} {exponent : Int} (hdigits : (digits : Int) ≤ maxUnsigned)
    (h : Fits digits exponent) :
    ∃ r < rankLimit, scaled? (nearestRank digits 1) exponent = some r := by
  have hlong : maxUnsigned = 18446744073709551615 := rfl
  have hfinite : nearestRank digits 1 < rankLimit := nearestRank_lt (by omega)
  by_cases hneg : exponent < 0
  · obtain ⟨r, hr, hscaled⟩ := scaled?_of_neg (nearestRank digits 1) hneg
    exact ⟨r, hr.trans_lt hfinite, hscaled⟩
  · refine scaled?_of_nonneg (Int.not_lt.mp hneg) ?_
    rcases h with hzero | hneg' | hfits
    · left
      have hle : nearestRank digits 1 ≤ 0 := by
        refine nearestRank_le (by decide) ?_
        rw [hzero, Nat.zero_mul]
        exact Nat.zero_le _
      exact Nat.le_zero.mp hle
    · exact absurd hneg' hneg
    · exact .inr hfits

variable {n : Numeral}

/-- The magnitude of a numeral is finite where the digits that are taken fit and the exponent is no
longer than 32 bits. -/
theorem rank?_of_fits (hwhole : (digitsValue n.whole : Int) ≤ maxUnsigned)
    (hexponent : ∀ e ∈ n.exponent, e.natAbs ≤ maxExponent)
    (h : Fits (takeDigits (digitsValue n.whole) n.fraction).1
      (n.scale + (takeDigits (digitsValue n.whole) n.fraction).2.length)) :
    ∃ r < rankLimit, n.rank? = some r := by
  obtain ⟨-, -, -, hdigits⟩ := takeDigits_spec hwhole n.fraction
  have hall : takeDigits 0 n.whole = (digitsValue n.whole, []) := takeDigits_all hwhole
  unfold rank?
  rw [hall]
  dsimp only
  obtain ⟨⟨digits, unread⟩, htaken⟩ : ∃ taken, takeDigits (digitsValue n.whole) n.fraction = taken :=
    ⟨_, rfl⟩
  rw [htaken] at h hdigits ⊢
  dsimp only at h hdigits ⊢
  unfold scale at h
  obtain ⟨r, hr, hscaled⟩ := scaled?_of_fits hdigits h
  refine ⟨r, hr, ?_⟩
  cases hexp : n.exponent with
  | none =>
    rw [hexp] at hscaled
    rw [← hscaled]
    dsimp only [List.length_nil]
    congr 1
    rw [Option.getD_none]
    omega
  | some e =>
    rw [hexp] at hscaled
    rw [← hscaled]
    dsimp only [List.length_nil]
    rw [if_neg (Nat.not_lt.mpr (hexponent e hexp))]
    congr 1
    rw [Option.getD_some]
    omega

theorem isSome_read?_of_rank? {r : Nat} (hr : r < rankLimit) (h : n.rank? = some r) :
    n.read?.isSome = true := by
  unfold read?
  dsimp only
  split
  · rfl
  · rw [h]
    simp [ofRank?, hr]

theorem isSome_read?_of_low (hwhole : (digitsValue n.whole : Int) ≤ maxUnsigned)
    (hexponent : ∀ e ∈ n.exponent, e.natAbs ≤ maxExponent) (h : Low n.digits n.scale) :
    n.read?.isSome = true := by
  obtain ⟨taken, hfraction, hvalue, -⟩ := takeDigits_spec hwhole n.fraction
  have hdigits : digitsValue (n.whole ++ taken) =
      (takeDigits (digitsValue n.whole) n.fraction).1 := by
    rw [hvalue, digitsValue_eq, digitsValue_eq, Nat.ofDigitChars_append]
  have hle : (takeDigits (digitsValue n.whole) n.fraction).1 *
      10 ^ (takeDigits (digitsValue n.whole) n.fraction).2.length ≤ n.digits := by
    have hsplit : n.digits =
        digitsValue (n.whole ++ taken ++ (takeDigits (digitsValue n.whole) n.fraction).2) := by
      rw [List.append_assoc, ← hfraction]
      rfl
    rw [hsplit, digitsValue_append, hdigits]
    exact Nat.le_add_right _ _
  obtain ⟨r, hr, hrank⟩ := rank?_of_fits hwhole hexponent (h.mono hle).toFits
  exact isSome_read?_of_rank? hr hrank

theorem isSome_read?_of_fits (hdigits : (n.digits : Int) ≤ maxUnsigned)
    (hexponent : ∀ e ∈ n.exponent, e.natAbs ≤ maxExponent) (h : Fits n.digits n.scale) :
    n.read?.isSome = true := by
  have hvalue : Nat.ofDigitChars 10 n.fraction (digitsValue n.whole) = n.digits := by
    rw [digits, digitsValue_eq, digitsValue_eq, Nat.ofDigitChars_append]
  have hall : takeDigits (digitsValue n.whole) n.fraction = (n.digits, []) := by
    rw [takeDigits_all (hvalue ▸ hdigits), hvalue]
  have hwhole : (digitsValue n.whole : Int) ≤ maxUnsigned := by
    have := le_ofDigitChars n.fraction (digitsValue n.whole)
    omega
  obtain ⟨r, hr, hrank⟩ := rank?_of_fits hwhole hexponent (by rw [hall]; simpa using h)
  exact isSome_read?_of_rank? hr hrank

theorem le_maxUnsigned_of_short {cs : List Char} (hdigits : ∀ c ∈ cs, c.isDigit = true)
    (h : cs.length ≤ 16) : (digitsValue cs : Int) ≤ maxUnsigned := by
  have hlong : maxUnsigned = 18446744073709551615 := rfl
  have hlt := digitsValue_lt hdigits
  have hpow : 10 ^ cs.length ≤ 10 ^ 16 := Nat.pow_le_pow_right (by decide) h
  omega

end Json.Numeral

namespace Json

open Number Double Numeral

/-- What may stand behind a number: nothing, a comma or a line break. -/
def Ended (rest : List Char) : Prop := ∀ c ∈ rest.head?, c = ',' ∨ c = '\n'

namespace Written

variable {cs rest : List Char}

theorem readDigits_append (hdigits : ∀ c ∈ cs, c.isDigit = true) (hne : cs ≠ [])
    (hrest : ∀ c ∈ rest.head?, c.isDigit = false) : readDigits (cs ++ rest) = some (cs, rest) := by
  have hnone : rest.takeWhile Char.isDigit = [] ∧ rest.dropWhile Char.isDigit = rest := by
    cases rest with
    | nil => exact ⟨rfl, rfl⟩
    | cons c rest => simp [hrest c rfl]
  have hempty : cs.isEmpty = false := by
    rwa [List.isEmpty_eq_false_iff]
  unfold readDigits
  dsimp only
  rw [List.takeWhile_append_of_pos hdigits, List.dropWhile_append_of_pos hdigits, hnone.1, hnone.2,
    List.append_nil, hempty]
  rfl

theorem readWhole_append (hdigits : ∀ c ∈ cs, c.isDigit = true) (hne : cs ≠ [])
    (hleading : cs.head? = some '0' → cs.length = 1)
    (hrest : ∀ c ∈ rest.head?, c.isDigit = false) : readWhole (cs ++ rest) = some (cs, rest) := by
  have hzero : ¬((decide (cs.head? = some '0') && decide (cs.length > 1)) = true) := by
    rw [Bool.and_eq_true, decide_eq_true_eq, decide_eq_true_eq]
    rintro ⟨hhead, hlong⟩
    have := hleading hhead
    omega
  unfold readWhole
  rw [readDigits_append hdigits hne hrest]
  dsimp only [bind, Option.bind]
  rw [if_neg hzero]
  rfl

theorem readFraction_append (hdigits : ∀ c ∈ cs, c.isDigit = true)
    (hrest : ∀ c ∈ rest.head?, c.isDigit = false ∧ c ≠ '.') :
    readFraction ((if cs.isEmpty then [] else '.' :: cs) ++ rest) = some (cs, rest) := by
  cases cs with
  | nil =>
    rw [List.isEmpty_nil, if_pos rfl, List.nil_append]
    unfold readFraction
    split
    · exact absurd rfl (hrest '.' rfl).2
    · rfl
  | cons c cs => exact readDigits_append hdigits (List.cons_ne_nil c cs) fun d hd => (hrest d hd).1

theorem readExponent_append (exponent : Option Int) (hrest : Ended rest) :
    readExponent (exponentText exponent ++ rest) = some (exponent, rest) := by
  have hdelimiter : ∀ c ∈ rest.head?, c.isDigit = false ∧ ¬(c = 'e' ∨ c = 'E') := by
    intro c hc
    rcases hrest c hc with rfl | rfl <;> decide
  cases exponent with
  | none =>
    cases rest with
    | nil => rfl
    | cons c rest =>
      have hmark := (hdelimiter c rfl).2
      simp [exponentText, readExponent, hmark]
  | some e =>
    have hdigits := readDigits_append (isDigit_toDigits e.natAbs) Nat.toDigits_ne_nil
      fun c hc => (hdelimiter c hc).1
    by_cases hneg : e < 0
    · simp [exponentText, readExponent, hneg, hdigits, digitsValue_toDigits, abs_of_neg hneg]
    · simp [exponentText, readExponent, hneg, hdigits, digitsValue_toDigits,
        abs_of_nonneg (Int.not_lt.mp hneg)]

/-- The text of a numeral is read as the numeral, if no zero stands before other digits. -/
theorem readNumeral_text {n : Numeral} (h : n.Proper)
    (hleading : n.whole.head? = some '0' → n.whole.length = 1) (hrest : Ended rest) :
    readNumeral (n.text ++ rest) = some (n, rest) := by
  obtain ⟨negative, whole, fraction, exponent⟩ := n
  obtain ⟨hwhole, hfraction, hne⟩ := h
  have htail : ∀ c ∈ (exponentText exponent ++ rest).head?, c.isDigit = false ∧ c ≠ '.' := by
    intro c hc
    cases exponent with
    | none => rcases hrest c hc with rfl | rfl <;> decide
    | some e =>
      cases hc
      decide
  have hbehind : ∀ c ∈ ((if fraction.isEmpty then [] else '.' :: fraction) ++
      (exponentText exponent ++ rest)).head?, c.isDigit = false := by
    intro c hc
    cases fraction with
    | nil => exact (htail c hc).1
    | cons d fraction =>
      cases hc
      decide
  have hbody : ∀ negative, ((readWhole (whole ++
      ((if fraction.isEmpty then [] else '.' :: fraction) ++ (exponentText exponent ++ rest)))).bind
        fun p => (readFraction p.2).bind fun q => (readExponent q.2).bind fun r =>
          some ((⟨negative, p.1, q.1, r.1⟩ : Numeral), r.2)) =
        some (⟨negative, whole, fraction, exponent⟩, rest) := by
    intro negative
    rw [readWhole_append hwhole hne hleading hbehind]
    rw [Option.bind_some, readFraction_append hfraction htail, Option.bind_some,
      readExponent_append exponent hrest, Option.bind_some]
  unfold Numeral.text
  dsimp only
  rw [List.append_assoc, List.append_assoc, List.append_assoc]
  cases negative with
  | true => exact hbody true
  | false =>
    cases whole with
    | nil => exact absurd rfl hne
    | cons c whole =>
      have hminus : c ≠ '-' := by
        rintro rfl
        exact absurd (hwhole '-' List.mem_cons_self) (by decide)
      unfold readNumeral
      split
      rename_i hsign
      split at hsign
      · rename_i hcons
        cases hcons
        exact absurd rfl hminus
      · cases hsign
        exact hbody false

end Written

/-- A numeral that a number has for its text, and that reads as a number. -/
structure Spells (m : Numeral) (n : Number) : Prop where
  proper : m.Proper
  leading : m.whole.head? = some '0' → m.whole.length = 1
  text : n.text.toList = m.text
  read : m.read?.isSome = true

/-- The digits of a 64-bit integer read as an integer. -/
theorem exists_spells_int {n : Int} (hlow : minSigned ≤ n) (hhigh : n ≤ maxUnsigned) :
    ∃ m, Spells m (.int n) := by
  refine ⟨⟨decide (n < 0), Nat.toDigits 10 n.natAbs, [], none⟩,
    ⟨isDigit_toDigits _, fun _ hc => absurd hc List.not_mem_nil, Nat.toDigits_ne_nil⟩, ?_, ?_, ?_⟩
  · intro hzero
    by_cases habs : n.natAbs = 0
    · dsimp only
      rw [habs]
      rfl
    · exact absurd hzero (head_toDigits habs)
  · rw [Number.text, Evaluation.toList_int]
    by_cases hneg : n < 0 <;> simp [Numeral.text, exponentText, hneg]
  · unfold read?
    dsimp only
    rw [digitsValue_toDigits]
    by_cases hneg : n < 0
    · simp [hneg, abs_of_neg hneg, hlow]
    · simp [hneg, abs_of_nonneg (Int.not_lt.mp hneg), hhigh]

/-- A numeral that shows the shortest decimal of a magnitude spells the number, if it reads. -/
theorem spells_of_shows {d : Double} {m : Numeral} (hrank : 0 < d.rank)
    (h : Shows m (shortest d.rank))
    (hread : ({ m with negative := d.negative } : Numeral).read?.isSome = true) :
    Spells { m with negative := d.negative } (.double d) where
  proper := ⟨h.proper.whole, h.proper.fraction, h.proper.nonempty⟩
  leading := h.leading (shortest_spec hrank d.rank_lt).1
  text := by
    obtain ⟨negative, whole, fraction, exponent⟩ := m
    obtain rfl := h.positive
    have htext := h.text
    unfold Number.text Double.text
    dsimp only
    rw [if_neg (Nat.pos_iff_ne_zero.mp hrank)]
    cases d.negative with
    | false => exact htext
    | true =>
      rw [if_pos rfl, String.toList_append, htext]
      rfl
  read := hread

theorem natAbs_leading_le {rank : Nat} (hrank : 0 < rank) (h : rank < rankLimit) :
    (shortest rank).leading.natAbs ≤ maxExponent := by
  obtain ⟨hdigits, hin⟩ := shortest_spec hrank h
  have hle := leading_le h hdigits hin
  have hge := leading_ge hrank hin
  have hmax : maxExponent = 2147483647 := rfl
  unfold Decimal.leading
  omega

/-- A decimal in the interval of a rank that is not among the greatest is low. -/
theorem low_of_inInterval {rank digits : Nat} {exponent : Int} (h : rank ≤ rankLimit - 3)
    (hin : inInterval rank digits exponent = true) : Low digits exponent := by
  obtain ⟨-, hhigh⟩ := (inInterval_iff rank digits exponent).mp hin
  have hend : highEnd rank ≤ lowBound :=
    Nat.add_le_add (units_le h) (units_le (Nat.add_le_add_right h 1))
  exact (hhigh.elim Nat.le_of_lt fun h => h.1.le).trans (Nat.mul_le_mul_right _ hend)

/-- The greatest two magnitudes have decimals that three roundings keep in the range, though they
come close to the limit. -/
theorem fits_top :
    ∀ rank ∈ [rankLimit - 2, rankLimit - 1], (shortest rank).leading = 308 ∧
      (shortest rank).digits < 2 ^ 64 ∧ (shortest rank).exponent = 292 ∧
      timesRank (nearestRank (shortest rank).digits 1) (powerRank 292) < rankLimit := by
  decide +kernel

/-- The text of a binary64 number reads as a number. -/
theorem exists_spells_double (d : Double) : ∃ m, Spells m (.double d) := by
  have hlong : maxUnsigned = 18446744073709551615 := rfl
  by_cases hzero : d.rank = 0
  · refine ⟨⟨d.negative, ['0'], ['0'], none⟩,
      ⟨isDigit_zeros 1, isDigit_zeros 1, List.cons_ne_nil _ _⟩, fun _ => rfl, ?_, ?_⟩
    · unfold Number.text Double.text
      dsimp only
      rw [if_pos hzero]
      cases d.negative <;> rfl
    · have hnothing : ((digitsValue ['0', '0'] : Nat) : Int) ≤ maxUnsigned := by decide
      exact isSome_read?_of_fits hnothing (fun _ he => nomatch he) (.inl rfl)
  have hrank : 0 < d.rank := Nat.pos_of_ne_zero hzero
  have hexponent := natAbs_leading_le hrank d.rank_lt
  by_cases hlow : d.rank ≤ rankLimit - 3
  · obtain ⟨m, hm⟩ := exists_shows (shortest d.rank)
    refine ⟨_, spells_of_shows hrank hm (isSome_read?_of_low ?_ ?_ ?_)⟩
    · exact le_maxUnsigned_of_short hm.proper.whole hm.short
    · intro e he
      rw [hm.exponent e he]
      exact hexponent
    · obtain ⟨k, hdigits, hscale⟩ := hm.value
      have hin := (shortest_spec hrank d.rank_lt).2
      rw [← inInterval_zeros d.rank _ k, ← hdigits, ← hscale] at hin
      exact low_of_inInterval hlow hin
  · have htop : d.rank ∈ [rankLimit - 2, rankLimit - 1] := by
      have hlt := d.rank_lt
      rw [List.mem_cons, List.mem_singleton]
      omega
    obtain ⟨hleading, hdigits, hexp, hfits⟩ := fits_top d.rank htop
    have hm := shows_power (d := shortest d.rank) (by omega)
    have hvalue : digitsValue ((Nat.toDigits 10 (shortest d.rank).digits).take 1 ++
        (Nat.toDigits 10 (shortest d.rank).digits).drop 1) = (shortest d.rank).digits := by
      rw [List.take_append_drop, digitsValue_toDigits]
    have hlength := length_toDigits (shortest d.rank)
    refine ⟨_, spells_of_shows hrank hm (isSome_read?_of_fits ?_ ?_ ?_)⟩
    · change ((digitsValue _ : Nat) : Int) ≤ _
      rw [hvalue]
      omega
    · intro e he
      rw [hm.exponent e he]
      exact hexponent
    · have hscale : (shortest d.rank).leading -
          ((Nat.toDigits 10 (shortest d.rank).digits).drop 1).length = (292 : Nat) := by
        rw [List.length_drop]
        omega
      change Fits (digitsValue _) ((shortest d.rank).leading - _)
      rw [hvalue, hscale]
      exact .inr (.inr ⟨by decide, hfits⟩)

theorem exists_spells {n : Number} (h : n.InRange) : ∃ m, Spells m n := by
  cases n with
  | int n => exact exists_spells_int h.1 h.2
  | double d => exact exists_spells_double d

theorem spells_ofNumber {n : Number} (h : n.InRange) : Spells (.ofNumber n) n := by
  obtain ⟨m, hm⟩ := exists_spells h
  have hread : Written.readNumeral (m.text ++ []) = some (m, []) :=
    Written.readNumeral_text hm.proper hm.leading (fun _ hc => absurd hc (by simp))
  have hself : Numeral.ofNumber n = m := by
    rw [List.append_nil, ← hm.text] at hread
    rw [Numeral.ofNumber, hread]
  rwa [hself]

/-- The text of a number is read up to its end, as a numeral that reads as a number. -/
theorem readNumeral_number {n : Number} (h : n.InRange) {rest : List Char} (hrest : Ended rest) :
    Written.readNumeral (n.text.toList ++ rest) = some (.ofNumber n, rest) := by
  have hspells := spells_ofNumber h
  rw [hspells.text]
  exact Written.readNumeral_text hspells.proper hspells.leading hrest

end Json

end DocumentEngine
