import DocumentEngine.Proofs.Number.Value
import DocumentEngine.Proofs.Request.Numeral
import DocumentEngine.Proofs.Schema.Coerce

/-!
The numbers that coercion makes of numbers and of texts. A text is read as the integer that it
spells, or as the number that is nearest to the decimal that it spells. Two kinds of input lose
their value: text for which there is no finite number becomes null, and a number without a fraction
becomes the last integer of 64 bits on its side where it lies beyond.
-/

namespace DocumentEngine

namespace Number

open Request (Numeral)

variable {cs body : List Char} {negative : Bool} {d : Double}

/-- The value of a numeral. -/
def numeralValue (m : Numeral) : ℚ := withSign m.negative (m.digits * 10 ^ m.scale)

/-- An integer in decimal digits, a sign of either kind in front of them or none. -/
def SpellsInteger (cs : List Char) (i : ℤ) : Prop :=
  ∃ sign digits, digits ≠ [] ∧ (∀ c ∈ digits, c.isDigit = true) ∧ cs = signText sign ++ digits ∧
    i = signed (sign.getD false) (digitsValue digits)

/-- A numeral behind a sign of either kind or none, with digits on one side of the point at least. -/
structure SpellsNumeral (cs : List Char) (m : Numeral) : Prop where
  whole : ∀ c ∈ m.whole, c.isDigit = true
  fraction : ∀ c ∈ m.fraction.getD [], c.isDigit = true
  exponent : ∀ x ∈ m.exponent, x.Proper
  nonempty : m.whole ≠ [] ∨ m.fraction.getD [] ≠ []
  text : ∃ sign, sign.getD false = m.negative ∧ cs = signText sign ++ m.body

/-- A word for infinity or for no number, behind a sign of either kind or none. -/
def SpellsSpecial (cs : List Char) : Prop :=
  ∃ sign word, cs = signText sign ++ word ∧ String.ofList (word.map Char.toLower) ∈ specialWords

theorem signed?_eq_some_iff {i : ℤ} :
    signed? cs = some i ↔ SpellsInteger cs i ∧ minSigned ≤ i ∧ i ≤ maxSigned := by
  rw [signed?, Option.filter_eq_some_iff, integer?_eq_some_iff]
  simp only [Bool.and_eq_true, decide_eq_true_eq]
  rfl

/-- The binary64 number nearest to a numeral, under its sign. -/
structure IsNearest (m : Numeral) (d : Double) : Prop where
  sign : d.negative = m.negative
  nearest : d.Nearest (numeralValue m)

/-- A text for which there is no finite number: a special word, or a numeral beyond all of them. -/
def SpellsNone (cs : List Char) : Prop :=
  SpellsSpecial cs ∨ ∃ m, SpellsNumeral cs m ∧ ∀ d, ¬IsNearest m d

theorem isNearest_iff {m : Numeral} :
    IsNearest m d ↔ d.negative = m.negative ∧ decimalRank m.digits m.scale = d.rank := by
  have hvalue : (0 : ℚ) ≤ m.digits * 10 ^ m.scale :=
    mul_nonneg (Nat.cast_nonneg _) (zpow_nonneg (by norm_num) _)
  rw [Double.decimalRank_eq_iff d.rank_lt, Double.inInterval_iff_between,
    ← Double.nearest_iff_between hvalue]
  constructor
  · rintro ⟨hsign, hnearest⟩
    exact ⟨hsign, by rwa [hsign]⟩
  · rintro ⟨hsign, hnearest⟩
    exact ⟨hsign, by rwa [numeralValue, ← hsign]⟩

/-- A numeral behind a sign is read as its rank. -/
theorem SpellsNumeral.exists_magnitude? {m : Numeral} (h : SpellsNumeral cs m) :
    ∃ body, magnitude? body = some (decimalRank m.digits m.scale) ∧
      double? cs = unsignedDouble? m.negative body := by
  obtain ⟨sign, hsign, rfl⟩ := h.text
  have hread : magnitude? m.body = some (decimalRank m.digits m.scale) :=
    Request.magnitude?_eq_some_iff.mpr
      ⟨m, h.whole, h.fraction, h.exponent, h.nonempty, rfl, rfl⟩
  obtain ⟨c, rest, hbody, hc⟩ := head_of_magnitude? hread
  refine ⟨m.body, hread, ?_⟩
  rw [← hsign]
  refine double?_signText fun d hd => ?_
  rw [hbody] at hd
  cases hd
  constructor <;> rintro rfl <;> revert hc <;> decide

/-- What is read behind a sign is a numeral. -/
theorem exists_spellsNumeral {sign : Option Bool} {r : Nat} (h : magnitude? body = some r) :
    ∃ m, SpellsNumeral (signText sign ++ body) m ∧ m.negative = sign.getD false ∧
      decimalRank m.digits m.scale = r := by
  obtain ⟨m, hwhole, hfraction, hexponent, hne, rfl, hrank⟩ := Request.magnitude?_eq_some_iff.mp h
  exact ⟨{ m with negative := sign.getD false },
    ⟨hwhole, hfraction, hexponent, hne, sign, rfl, rfl⟩, rfl, hrank⟩

/-- A text is read as a finite number where it spells a numeral to which that number is nearest. -/
theorem double?_eq_finite_iff_nearest :
    double? cs = some (.finite d) ↔ ∃ m, SpellsNumeral cs m ∧ IsNearest m d := by
  constructor
  · intro h
    obtain ⟨sign, body, rfl, hread⟩ := exists_unsigned cs
    rw [hread] at h
    obtain ⟨hnegative, hmagnitude⟩ := unsignedDouble?_eq_finite_iff.mp h
    obtain ⟨m, hspells, hsign, hrank⟩ := exists_spellsNumeral hmagnitude
    exact ⟨m, hspells, isNearest_iff.mpr ⟨hnegative.trans hsign.symm, hrank⟩⟩
  · rintro ⟨m, hspells, hnearest⟩
    obtain ⟨hsign, hrank⟩ := isNearest_iff.mp hnearest
    obtain ⟨body, hmagnitude, hread⟩ := hspells.exists_magnitude?
    rw [hread]
    exact unsignedDouble?_eq_finite_iff.mpr ⟨hsign, hrank ▸ hmagnitude⟩

/-- The special words are read as no finite number, under any sign. -/
theorem unsignedDouble?_special {negative : Bool}
    (h : String.ofList (body.map Char.toLower) ∈ specialWords) :
    ∃ x, unsignedDouble? negative body = some x ∧ x.finite? = none := by
  unfold unsignedDouble?
  simp only [specialWords, List.mem_cons, List.not_mem_nil, or_false] at h
  rcases h with h | h | h <;> rw [h]
  · exact ⟨.infinite negative, rfl, rfl⟩
  · exact ⟨.infinite negative, rfl, rfl⟩
  · exact ⟨.undefined, rfl, rfl⟩

/-- A text is read as no finite number where there is none for it. -/
theorem double?_not_finite_iff :
    (∃ x, double? cs = some x ∧ x.finite? = none) ↔ SpellsNone cs := by
  constructor
  · rintro ⟨x, hx, hfinite⟩
    obtain ⟨sign, body, rfl, hread⟩ := exists_unsigned cs
    by_cases hspecial : String.ofList (body.map Char.toLower) ∈ specialWords
    · exact .inl ⟨sign, body, rfl, hspecial⟩
    · rw [hread, unsignedDouble?_of_not_special hspecial] at hx
      obtain ⟨r, hr, rfl⟩ := Option.map_eq_some_iff.mp hx
      obtain ⟨m, hspells, hsign, hrank⟩ := @exists_spellsNumeral _ sign _ hr
      refine .inr ⟨m, hspells, fun d hnearest => ?_⟩
      obtain ⟨hnegative, hd⟩ := isNearest_iff.mp hnearest
      rw [ofRank_eq_finite_iff.mpr ⟨hnegative.trans hsign, hd.symm.trans hrank⟩] at hfinite
      cases hfinite
  · rintro (⟨sign, word, rfl, hword⟩ | ⟨m, hspells, hnone⟩)
    · obtain ⟨c, rest, rfl, hletter⟩ := head_of_special hword
      have hplain : ∀ d ∈ (c :: rest).head?, d ≠ '-' ∧ d ≠ '+' := by
        rintro d ⟨⟩
        constructor <;> rintro rfl <;> revert hletter <;> decide
      rw [double?_signText hplain]
      exact unsignedDouble?_special hword
    · obtain ⟨body, hmagnitude, hread⟩ := hspells.exists_magnitude?
      refine ⟨_, hread.trans (unsignedDouble?_of_magnitude? hmagnitude _), ?_⟩
      cases hx : ExtendedDouble.ofRank m.negative (decimalRank m.digits m.scale) with
      | finite d =>
        obtain ⟨hsign, hrank⟩ := ofRank_eq_finite_iff.mp hx
        exact absurd (isNearest_iff.mpr ⟨hsign, hrank.symm⟩) (hnone d)
      | infinite negative => rfl
      | undefined => rfl

end Number

namespace ScalarKind

open Number

variable {kind : ScalarKind} {v w : Json} {n : Number} {s : String}

/-- The integer that is made of a number whose value is an integer: what is held as binary64 is cut
to 64 bits. -/
def integerOf : Number → ℤ → ℤ
  | .int _, i => i
  | .double _, i => clampSigned i

theorem clampSigned_eq_iff {i : ℤ} : clampSigned i = i ↔ minSigned ≤ i ∧ i ≤ maxSigned := by
  unfold clampSigned
  have hbounds : minSigned ≤ maxSigned := by decide
  omega

/-- The value is kept of what is held as an integer, and of what fits 64 bits with a sign. -/
theorem integerOf_eq_iff {i : ℤ} (h : n.value = i) :
    integerOf n i = i ↔ n = .int i ∨ minSigned ≤ i ∧ i ≤ maxSigned := by
  cases n with
  | int j =>
    have hsame : j = i := Int.cast_injective h
    subst hsame
    exact ⟨fun _ => .inl rfl, fun _ => rfl⟩
  | double d =>
    rw [integerOf, clampSigned_eq_iff]
    exact ⟨.inr, fun hkept => hkept.resolve_left (by simp)⟩

/-- A number becomes an integer where its value is one. -/
theorem coerceInt_eq_ok_iff :
    coerceInt n = .ok w ↔ ∃ i : ℤ, n.value = i ∧ w = .int (integerOf n i) := by
  cases n with
  | int i =>
    constructor
    · rintro ⟨⟩
      exact ⟨i, rfl, rfl⟩
    · rintro ⟨j, hvalue, rfl⟩
      rw [integerOf, ← Int.cast_injective hvalue]
      rfl
  | double d =>
    change (if d.isWhole then _ else _) = _ ↔ _
    constructor
    · intro h
      split at h
      · rename_i hd
        cases h
        exact ⟨d.truncate, Double.value_of_isWhole hd, rfl⟩
      · cases h
    · rintro ⟨i, hvalue, rfl⟩
      rw [if_pos (Double.isWhole_iff.mpr ⟨i, hvalue⟩), Double.truncate_eq hvalue, integerOf]

/-- Text becomes the integer that it spells, if that has 64 bits. -/
theorem coerce_int_str_eq_ok_iff : coerce .int (.str s) = .ok w ↔
    ∃ i, SpellsInteger (Text.trimChars s.toList) i ∧ minSigned ≤ i ∧ i ≤ maxSigned ∧ w = .int i := by
  rw [coerce]
  constructor
  · intro h
    split at h
    · rename_i i hread
      cases h
      obtain ⟨hspells, hlow, hhigh⟩ := signed?_eq_some_iff.mp hread
      exact ⟨i, hspells, hlow, hhigh, rfl⟩
    · cases h
  · rintro ⟨i, hspells, hlow, hhigh, rfl⟩
    rw [signed?_eq_some_iff.mpr ⟨hspells, hlow, hhigh⟩]

/-- Text becomes the number that is nearest to what it spells, or null where there is none. -/
theorem coerce_float_str_eq_ok_iff : coerce .float (.str s) = .ok w ↔
    (∃ m d, SpellsNumeral (Text.trimChars s.toList) m ∧ IsNearest m d ∧ w = .num (.double d)) ∨
      SpellsNone (Text.trimChars s.toList) ∧ w = .null := by
  rw [← double?_not_finite_iff]
  constructor
  · intro h
    dsimp only [coerce] at h
    split at h
    · rename_i x hx
      cases h
      cases x with
      | finite d =>
        obtain ⟨m, hspells, hnearest⟩ := double?_eq_finite_iff_nearest.mp hx
        exact .inl ⟨m, d, hspells, hnearest, rfl⟩
      | infinite negative => exact .inr ⟨⟨_, hx, rfl⟩, rfl⟩
      | undefined => exact .inr ⟨⟨_, hx, rfl⟩, rfl⟩
    · cases h
  · rintro (⟨m, d, hspells, hnearest, rfl⟩ | ⟨⟨x, hx, hfinite⟩, rfl⟩)
    · rw [coerce, double?_eq_finite_iff_nearest.mpr ⟨m, hspells, hnearest⟩]
      rfl
    · rw [coerce, hx]
      dsimp only
      rw [doubleJson, hfinite]

/-- Null is made of null, and of text for which there is no finite number. -/
theorem coerce_eq_null_iff : kind.coerce v = .ok .null ↔
    v = .null ∨ kind = .float ∧ ∃ s, v = .str s ∧ SpellsNone (Text.trimChars s.toList) := by
  constructor
  · intro h
    rcases eq_null_of_coerce h with hnull | ⟨rfl, s, rfl⟩
    · exact .inl hnull
    · refine .inr ⟨rfl, s, rfl, ?_⟩
      rcases coerce_float_str_eq_ok_iff.mp h with ⟨m, d, -, -, hw⟩ | ⟨hnone, -⟩
      · cases hw
      · exact hnone
  · rintro (rfl | ⟨rfl, s, rfl, hnone⟩)
    · exact coerce_null kind
    · exact coerce_float_str_eq_ok_iff.mpr (.inr ⟨hnone, rfl⟩)

/-- Exactly what coercion makes of numbers and of texts for numbers. An integer of a number keeps its
value unless it was cut to 64 bits, and a number that is read from text is the nearest to it; where
no finite one is the nearest, null is stored in its place. -/
theorem coerce_exact (kind : ScalarKind) (v w : Json) (n : Number) (s : String) (i : ℤ) :
    (kind.coerce v = .ok .null ↔
      v = .null ∨ kind = .float ∧ ∃ s, v = .str s ∧ SpellsNone (Text.trimChars s.toList)) ∧
    (coerce .int (.num n) = .ok w ↔ ∃ i : ℤ, n.value = i ∧ w = .int (integerOf n i)) ∧
    (coerce .int (.num n) = .ok (.int i) ∧ n.value = i ↔
      n.value = i ∧ (n = .int i ∨ minSigned ≤ i ∧ i ≤ maxSigned)) ∧
    (coerce .int (.str s) = .ok w ↔ ∃ i, SpellsInteger (Text.trimChars s.toList) i ∧
      minSigned ≤ i ∧ i ≤ maxSigned ∧ w = .int i) ∧
    coerce .float (.num n) = .ok (.num n) ∧
    (coerce .float (.str s) = .ok w ↔
      (∃ m d, SpellsNumeral (Text.trimChars s.toList) m ∧ IsNearest m d ∧ w = .num (.double d)) ∨
        SpellsNone (Text.trimChars s.toList) ∧ w = .null) := by
  have hint : ∀ w, coerce .int (.num n) = .ok w ↔ ∃ i : ℤ, n.value = i ∧ w = .int (integerOf n i) :=
    fun w => coerceInt_eq_ok_iff
  refine ⟨coerce_eq_null_iff, hint w, ?_, coerce_int_str_eq_ok_iff, rfl, coerce_float_str_eq_ok_iff⟩
  constructor
  · rintro ⟨hmade, hvalue⟩
    obtain ⟨j, hj, hkept⟩ := (hint _).mp hmade
    have hsame : j = i := Int.cast_injective (hj.symm.trans hvalue)
    subst hsame
    have hinteger : j = integerOf n j := Number.int.inj (Json.num.inj hkept)
    exact ⟨hvalue, (integerOf_eq_iff hvalue).mp hinteger.symm⟩
  · rintro ⟨hvalue, hfits⟩
    refine ⟨(hint _).mpr ⟨i, hvalue, ?_⟩, hvalue⟩
    rw [(integerOf_eq_iff hvalue).mpr hfits]

/-- A word becomes null, and the first number beyond 64 bits becomes the last integer of 64 bits. -/
theorem exists_value_lost : coerce .float (.str "inf") = .ok .null ∧
    ∃ d : Double, coerce .int (.num (.double d)) = .ok (.int maxSigned) ∧
      d.value = (maxSigned + 1 : ℤ) := by
  have hword : double? (Text.trimChars "inf".toList) = some (.infinite false) := by decide +kernel
  obtain ⟨d, hwhole, hinteger⟩ : ∃ d : Double, d.isWhole = true ∧ d.truncate = maxSigned + 1 :=
    ⟨Double.ofInt (maxSigned + 1), by decide +kernel, by decide +kernel⟩
  have hvalue := Double.value_of_isWhole hwhole
  rw [hinteger] at hvalue
  have hcut : integerOf (.double d) (maxSigned + 1) = maxSigned := by
    rw [integerOf]
    decide
  refine ⟨?_, d, (coerceInt_eq_ok_iff (n := .double d)).mpr ⟨maxSigned + 1, hvalue, ?_⟩, hvalue⟩
  · rw [coerce, hword]
    rfl
  · rw [hcut]

end ScalarKind

end DocumentEngine
