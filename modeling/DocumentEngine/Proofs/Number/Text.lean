import DocumentEngine.Evaluation.Compare
import DocumentEngine.Proofs.Number.Numeral

/-!
The text of a number reads back as the number: the digits of an integer that fits 64 bits, and the
shortest text of a binary64 number. So every number is loosely equal to its own text.
-/

namespace DocumentEngine

namespace Number

/-- A number that a document can hold: a binary64 number, or an integer of 64 bits. -/
def InRange : Number → Prop
  | .int n => minSigned ≤ n ∧ n ≤ maxUnsigned
  | .double _ => True

theorem isBlank_of_isDigit {c : Char} (h : c.isDigit = true) : Text.isBlank c = false := by
  have hrange := Char.isDigit_iff_toNat.mp h
  have h0 : '0'.toNat = 48 := rfl
  have h9 : '9'.toNat = 57 := rfl
  simp only [Text.isBlank, Bool.or_eq_false_iff, Bool.and_eq_false_iff, decide_eq_false_iff_not,
    beq_eq_false_iff_ne, ne_eq]
  omega

/-- Decimal text begins with a digit or a point. -/
theorem head_of_magnitude? {cs : List Char} {r : Nat} (h : magnitude? cs = some r) :
    ∃ c rest, cs = c :: rest ∧ (c.isDigit = true ∨ c = '.') := by
  cases cs with
  | nil => simp [magnitude?] at h
  | cons c rest =>
    refine ⟨c, rest, rfl, ?_⟩
    by_contra hc
    simp only [not_or] at hc
    have hfalse : c.isDigit = false := by simpa using hc.1
    unfold magnitude? at h
    simp only [List.takeWhile_cons, List.dropWhile_cons, hfalse, Bool.false_eq_true, if_false] at h
    split at h
    · rename_i hcons
      cases hcons
      exact hc.2 rfl
    · simp at h

theorem toLower_of_head {c : Char} (h : c.isDigit = true ∨ c = '.') : c.toLower = c := by
  rcases h with h | rfl
  · have hrange := Char.isDigit_iff_toNat.mp h
    have h9 : '9'.toNat = 57 := rfl
    have hA : 'A'.toNat = 65 := rfl
    unfold Char.toLower
    refine dif_neg fun hupper => ?_
    have : 'A'.toNat ≤ c.toNat := UInt32.le_iff_toNat_le.mp hupper.1
    omega
  · rfl

theorem ofRank_eq_finite_iff {negative : Bool} {r : Nat} {d : Double} :
    ExtendedDouble.ofRank negative r = .finite d ↔ d.negative = negative ∧ d.rank = r := by
  unfold ExtendedDouble.ofRank Double.ofRank?
  constructor
  · intro h
    split at h
    · rename_i found hfound
      split at hfound
      · cases hfound
        cases h
        exact ⟨rfl, rfl⟩
      · cases hfound
    · cases h
  · rintro ⟨rfl, rfl⟩
    simp only [d.rank_lt, dite_true]

/-- The words for infinity and for no number. -/
def specialWords : List String := ["inf", "infinity", "nan"]

/-- The special words begin with a letter. -/
theorem head_of_special {body : List Char}
    (h : String.ofList (body.map Char.toLower) ∈ specialWords) :
    ∃ c rest, body = c :: rest ∧ (c.toLower = 'i' ∨ c.toLower = 'n') := by
  have hfirst : ∀ w ∈ specialWords, w.toList.head? = some 'i' ∨ w.toList.head? = some 'n' := by
    decide
  have hhead := hfirst _ h
  cases body with
  | nil => simp at hhead
  | cons c rest =>
    rw [String.toList_ofList, List.map_cons, List.head?_cons, Option.some_inj,
      Option.some_inj] at hhead
    exact ⟨c, rest, rfl, hhead⟩

/-- Decimal text is none of these words. -/
theorem not_special_of_magnitude? {cs : List Char} {r : Nat} (h : magnitude? cs = some r) :
    String.ofList (cs.map Char.toLower) ∉ specialWords := by
  intro hspecial
  obtain ⟨c, rest, rfl, hletter⟩ := head_of_special hspecial
  obtain ⟨d, rest', hcons, hd⟩ := head_of_magnitude? h
  cases hcons
  rw [toLower_of_head hd] at hletter
  rcases hletter with rfl | rfl <;> revert hd <;> decide

/-- The number that text without a sign spells, under a sign. -/
def unsignedDouble? (negative : Bool) (body : List Char) : Option ExtendedDouble :=
  let word := String.ofList (body.map Char.toLower)
  if word == "inf" || word == "infinity" then some (.infinite negative)
  else if word == "nan" then some .undefined
  else (magnitude? body).map (ExtendedDouble.ofRank negative)

theorem double?_minus (body : List Char) : double? ('-' :: body) = unsignedDouble? true body := rfl

theorem double?_plus (body : List Char) : double? ('+' :: body) = unsignedDouble? false body := rfl

theorem double?_plain {body : List Char} (h : ∀ c ∈ body.head?, c ≠ '-' ∧ c ≠ '+') :
    double? body = unsignedDouble? false body := by
  unfold double?
  split
  rename_i heq
  split at heq
  · exact absurd rfl (h '-' rfl).1
  · exact absurd rfl (h '+' rfl).2
  · cases heq
    rfl

theorem unsignedDouble?_of_not_special {body : List Char}
    (h : String.ofList (body.map Char.toLower) ∉ specialWords) (negative : Bool) :
    unsignedDouble? negative body = (magnitude? body).map (ExtendedDouble.ofRank negative) := by
  simp only [specialWords, List.mem_cons, List.not_mem_nil, or_false, not_or] at h
  obtain ⟨hinf, hinfinity, hnan⟩ := h
  simp only [unsignedDouble?, beq_eq_false_iff_ne.mpr hinf, beq_eq_false_iff_ne.mpr hinfinity,
    beq_eq_false_iff_ne.mpr hnan, Bool.or_self, Bool.false_eq_true, if_false]

theorem unsignedDouble?_of_magnitude? {body : List Char} {r : Nat} (h : magnitude? body = some r)
    (negative : Bool) : unsignedDouble? negative body = some (.ofRank negative r) := by
  rw [unsignedDouble?_of_not_special (not_special_of_magnitude? h), h, Option.map_some]

theorem unsignedDouble?_eq_finite_iff {negative : Bool} {body : List Char} {d : Double} :
    unsignedDouble? negative body = some (.finite d) ↔
      d.negative = negative ∧ magnitude? body = some d.rank := by
  constructor
  · intro h
    unfold unsignedDouble? at h
    dsimp only at h
    split at h
    · cases h
    split at h
    · cases h
    obtain ⟨r, hr, hfinite⟩ := Option.map_eq_some_iff.mp h
    obtain ⟨hnegative, rfl⟩ := ofRank_eq_finite_iff.mp hfinite
    exact ⟨hnegative, hr⟩
  · rintro ⟨rfl, hmagnitude⟩
    rw [unsignedDouble?_of_magnitude? hmagnitude, ofRank_eq_finite_iff.mpr ⟨rfl, rfl⟩]

/-- Decimal text reads as its magnitude, with the sign in front of it. -/
theorem double?_of_magnitude? {cs : List Char} {r : Nat} (h : magnitude? cs = some r) :
    double? cs = some (.ofRank false r) ∧ double? ('-' :: cs) = some (.ofRank true r) := by
  have hplain : ∀ c ∈ cs.head?, c ≠ '-' ∧ c ≠ '+' := by
    obtain ⟨c, rest, rfl, hc⟩ := head_of_magnitude? h
    rintro d ⟨⟩
    constructor <;> rintro rfl <;> revert hc <;> decide
  rw [double?_plain hplain, double?_minus]
  exact ⟨unsignedDouble?_of_magnitude? h false, unsignedDouble?_of_magnitude? h true⟩

theorem natural?_toDigits (n : Nat) : natural? (Nat.toDigits 10 n) = some n := by
  have hall : (Nat.toDigits 10 n).all Char.isDigit = true :=
    List.all_eq_true.mpr fun c hc => Nat.isDigit_of_mem_toDigits (by decide) (by decide) hc
  have hne : (Nat.toDigits 10 n).isEmpty = false := by
    rw [List.isEmpty_eq_false_iff]
    exact Nat.toDigits_ne_nil
  simp only [natural?, hall, hne, Bool.not_true, Bool.or_self, Bool.false_eq_true, if_false,
    digitsValue_toDigits]

/-- The magnitude of digits with no point behind them. -/
theorem magnitude?_whole {whole tail : List Char} (hwhole : ∀ c ∈ whole, c.isDigit = true)
    (hne : whole ≠ [])
    (htail : ∀ c ∈ tail.head?, c.isDigit = false ∧ c ≠ '.') :
    magnitude? (whole ++ tail) =
      (exponentPart? tail).map fun e => decimalRank (digitsValue whole) e := by
  have htake : (whole ++ tail).takeWhile Char.isDigit = whole := by
    rw [List.takeWhile_append_of_pos hwhole]
    cases tail with
    | nil => simp
    | cons c tail => simp [(htail c rfl).1]
  have hdrop : (whole ++ tail).dropWhile Char.isDigit = tail := by
    rw [List.dropWhile_append_of_pos hwhole]
    cases tail with
    | nil => rfl
    | cons c tail => simp [(htail c rfl).1]
  have hempty : whole.isEmpty = false := by
    rwa [List.isEmpty_eq_false_iff]
  unfold magnitude?
  rw [htake, hdrop]
  cases tail with
  | nil => simp [hempty]
  | cons c tail =>
    have hpoint := (htail c rfl).2
    dsimp only
    split
    · rename_i heq
      cases heq
      exact absurd rfl hpoint
    · simp [hempty]

/-- The magnitude of digits around a point, which may have them on one side only. -/
theorem magnitude?_point {whole fraction tail : List Char}
    (hwhole : ∀ c ∈ whole, c.isDigit = true) (hfraction : ∀ c ∈ fraction, c.isDigit = true)
    (hne : whole ≠ [] ∨ fraction ≠ []) (htail : ∀ c ∈ tail.head?, c.isDigit = false) :
    magnitude? (whole ++ '.' :: (fraction ++ tail)) =
      (exponentPart? tail).map fun e =>
        decimalRank (digitsValue (whole ++ fraction)) (e - fraction.length) := by
  have hpoint : Char.isDigit '.' = false := by decide
  have htake : (whole ++ '.' :: (fraction ++ tail)).takeWhile Char.isDigit = whole := by
    rw [List.takeWhile_append_of_pos hwhole]
    simp [hpoint]
  have hdrop : (whole ++ '.' :: (fraction ++ tail)).dropWhile Char.isDigit =
      '.' :: (fraction ++ tail) := by
    rw [List.dropWhile_append_of_pos hwhole]
    simp [hpoint]
  have htake' : (fraction ++ tail).takeWhile Char.isDigit = fraction := by
    rw [List.takeWhile_append_of_pos hfraction]
    cases tail with
    | nil => simp
    | cons c tail => simp [htail c rfl]
  have hdrop' : (fraction ++ tail).dropWhile Char.isDigit = tail := by
    rw [List.dropWhile_append_of_pos hfraction]
    cases tail with
    | nil => rfl
    | cons c tail => simp [htail c rfl]
  have hempty : (whole.isEmpty && fraction.isEmpty) = false := by
    rwa [Bool.and_eq_false_iff, List.isEmpty_eq_false_iff, List.isEmpty_eq_false_iff]
  unfold magnitude?
  rw [htake, hdrop]
  simp only [htake', hdrop', hempty, Bool.false_eq_true, if_false]

end Number

namespace Double

open Number
open Json.Numeral (exponentText)

theorem exponentPart?_signed (leading : Int) :
    exponentPart? ('e' :: (if leading < 0 then '-' else '+') :: Nat.toDigits 10 leading.natAbs) =
      some leading := by
  by_cases h : leading < 0
  · simp [exponentPart?, h, integer?, natural?_toDigits, abs_of_neg h]
  · simp [exponentPart?, h, integer?, natural?_toDigits, abs_of_nonneg (Int.not_lt.mp h)]

/-- A numeral without a sign is read as its digits, scaled. -/
theorem magnitude?_numeral {n : Json.Numeral} (h : n.Proper) (hsign : n.negative = false) :
    magnitude? n.text = some (decimalRank n.digits n.scale) := by
  obtain ⟨negative, whole, fraction, exponent⟩ := n
  cases hsign
  have hpart : exponentPart? (exponentText exponent) = some (exponent.getD 0) := by
    cases exponent with
    | none => rfl
    | some e => exact exponentPart?_signed e
  have hhead : ∀ c ∈ (exponentText exponent).head?, c.isDigit = false ∧ c ≠ '.' := by
    cases exponent <;> simp [exponentText]
  unfold Json.Numeral.text Json.Numeral.digits Json.Numeral.scale
  dsimp only
  by_cases hempty : fraction = []
  · subst hempty
    have hread := magnitude?_whole h.whole h.nonempty hhead
    rw [hpart] at hread
    simpa using hread
  · have hread := magnitude?_point h.whole h.fraction (.inl h.nonempty) fun c hc => (hhead c hc).1
    rw [hpart] at hread
    simpa [hempty] using hread

/-- Decimal text is read as its digits and its exponent, up to zeros behind the digits. -/
theorem magnitude?_text (d : Decimal) :
    ∃ k : Nat, magnitude? d.text.toList =
      some (decimalRank (d.digits * 10 ^ k) (d.exponent - k)) := by
  obtain ⟨n, hn⟩ := exists_shows d
  obtain ⟨k, hdigits, hscale⟩ := hn.value
  refine ⟨k, ?_⟩
  rw [hn.text, ← hdigits, ← hscale]
  exact magnitude?_numeral hn.proper hn.positive

/-- Decimal text has no blanks. -/
theorem isBlank_text (d : Decimal) : ∀ c ∈ d.text.toList, Text.isBlank c = false := by
  obtain ⟨n, hn⟩ := exists_shows d
  rw [hn.text]
  obtain ⟨negative, whole, fraction, exponent⟩ := n
  obtain ⟨hwhole, hfraction, -⟩ := hn.proper
  intro c hc
  unfold Json.Numeral.text at hc
  simp only [List.mem_append] at hc
  rcases hc with ((hc | hc) | hc) | hc
  · split at hc
    · rw [List.mem_singleton.mp hc]
      decide
    · cases hc
  · exact isBlank_of_isDigit (hwhole c hc)
  · split at hc
    · cases hc
    · rcases List.mem_cons.mp hc with rfl | hc
      · decide
      · exact isBlank_of_isDigit (hfraction c hc)
  · cases exponent with
    | none => cases hc
    | some e =>
      rcases List.mem_cons.mp hc with rfl | hc
      · decide
      · rcases List.mem_cons.mp hc with rfl | hc
        · split <;> decide
        · exact isBlank_of_isDigit (isDigit_toDigits _ c hc)

theorem ofRank_self (d : Double) : ExtendedDouble.ofRank d.negative d.rank = .finite d :=
  Number.ofRank_eq_finite_iff.mpr ⟨rfl, rfl⟩

theorem inInterval_zeros (rank digits k : Nat) (exponent : Int) :
    inInterval rank (digits * 10 ^ k) (exponent - k) = inInterval rank digits exponent := by
  refine inInterval_congr ?_
  have hpow : k + (exponent - k).toNat + (-exponent).toNat =
      exponent.toNat + (-(exponent - k)).toNat := by omega
  calc digits * 10 ^ k * 10 ^ (exponent - k).toNat * 10 ^ (-exponent).toNat
      = digits * 10 ^ (k + (exponent - k).toNat + (-exponent).toNat) := by ring
    _ = digits * 10 ^ exponent.toNat * 10 ^ (-(exponent - k)).toNat := by rw [hpow]; ring

theorem magnitude?_shortest {rank : Nat} (hrank : 0 < rank) (h : rank < rankLimit) :
    magnitude? (shortest rank).text.toList = some rank := by
  obtain ⟨hdigits, hin⟩ := shortest_spec hrank h
  obtain ⟨k, hk⟩ := magnitude?_text (shortest rank)
  rw [← inInterval_zeros rank _ k] at hin
  rw [hk, decimalRank_of_inInterval hrank h
    (Nat.mul_ne_zero hdigits (Nat.pow_pos (by decide)).ne') hin]

/-- The shortest text of a number reads back as the number. -/
theorem double?_text (d : Double) : double? d.text.toList = some (.finite d) := by
  have hmagnitude : magnitude? (if d.rank = 0 then "0.0" else (shortest d.rank).text).toList =
      some d.rank := by
    by_cases hz : d.rank = 0
    · rw [if_pos hz, hz]
      rfl
    · rw [if_neg hz]
      exact magnitude?_shortest (Nat.pos_of_ne_zero hz) d.rank_lt
  obtain ⟨hplain, hsigned⟩ := double?_of_magnitude? hmagnitude
  rw [← ofRank_self d]
  unfold Double.text
  cases d.negative with
  | false => exact hplain
  | true =>
    rw [if_pos rfl, String.toList_append]
    exact hsigned

/-- The rank of a 64-bit magnitude is that of a finite number. -/
theorem nearestRank_lt {n : Nat} (h : n < 2 ^ 64) : nearestRank n 1 < rankLimit := by
  have hlimit : rankLimit = 2047 * 2 ^ 52 := rfl
  have hlt : n * unitsPerOne < 2 ^ 1138 := by
    have hcap : 2 ^ 64 * unitsPerOne = 2 ^ 1138 := by decide +kernel
    rw [← hcap]
    exact Nat.mul_lt_mul_of_pos_right h unitsPerOne_pos
  unfold nearestRank
  dsimp only
  rw [Nat.div_one, Nat.one_mul, Nat.pow_eq, Nat.pow_eq]
  generalize n * unitsPerOne = m at *
  have hlog : m.log2 < 1138 := by
    by_cases hz : m = 0
    · rw [hz]
      decide
    · exact (Nat.log2_lt hz).mpr hlt
  have hpow : 0 < 2 ^ (m.log2 - 52) := Nat.two_pow_pos _
  have hround : roundDiv m (2 ^ (m.log2 - 52)) ≤ 2 ^ 53 := by
    have hnear := (roundDiv_near m _ hpow).2
    have hbound : m < 2 ^ 53 * 2 ^ (m.log2 - 52) := by
      rw [← Nat.pow_add]
      exact (Nat.lt_log2_self (n := m)).trans_le (Nat.pow_le_pow_right (by decide) (by omega))
    generalize 2 ^ (m.log2 - 52) = step at *
    by_contra hbig
    have := Nat.mul_le_mul_right step (show 2 ^ 53 + 1 ≤ roundDiv m step by omega)
    have hexpand : (2 ^ 53 + 1) * step = 2 ^ 53 * step + step := by ring
    omega
  omega

end Double

namespace Evaluation

open Number

theorem trimChars_of_no_blank {cs : List Char} (h : ∀ c ∈ cs, Text.isBlank c = false) :
    Text.trimChars cs = cs := by
  have hnone : ∀ cs : List Char, (∀ c ∈ cs, Text.isBlank c = false) →
      cs.dropWhile Text.isBlank = cs := by
    intro cs h
    cases cs with
    | nil => rfl
    | cons c cs => simp [h c List.mem_cons_self]
  unfold Text.trimChars
  rw [hnone cs h, hnone cs.reverse fun c hc => h c (List.mem_reverse.mp hc), List.reverse_reverse]

/-- The shortest text of a binary64 number spells that number. -/
theorem spelledNumber?_double (d : Double) : spelledNumber? d.text = some (.finite d) := by
  have hblank : ∀ c ∈ d.text.toList, Text.isBlank c = false := by
    intro c hc
    unfold Double.text at hc
    have hmagnitude : ∀ c ∈ (if d.rank = 0 then "0.0" else (Double.shortest d.rank).text).toList,
        Text.isBlank c = false := by
      split
      · have hzero : ("0.0".toList.all fun c => !Text.isBlank c) = true := by decide
        exact fun c hc => by simpa using List.all_eq_true.mp hzero c hc
      · exact Double.isBlank_text _
    cases hneg : d.negative with
    | false =>
      simp only [hneg, Bool.false_eq_true, if_false] at hc
      exact hmagnitude c hc
    | true =>
      simp only [hneg, if_true, String.toList_append, List.mem_append] at hc
      rcases hc with hc | hc
      · have hsign : ("-".toList.all fun c => !Text.isBlank c) = true := by decide
        simpa using List.all_eq_true.mp hsign c hc
      · exact hmagnitude c hc
  rw [spelledNumber?, trimChars_of_no_blank hblank, Double.double?_text]

theorem decimalRank_whole {n : Nat} (h : n < 2 ^ 64) :
    decimalRank n 0 = Double.nearestRank n 1 := by
  unfold decimalRank
  by_cases hz : n = 0
  · subst hz
    rw [if_pos rfl, Double.nearestRank, Nat.zero_mul]
    rfl
  · have hlen : (Nat.toDigits 10 n).length ≤ 20 :=
      (Nat.length_toDigits_le_iff (by decide) (by decide)).mpr (h.trans (by decide))
    rw [if_neg hz]
    dsimp only
    rw [if_neg (by omega), if_neg (by omega)]
    simp [Nat.pow_eq]

theorem toList_int (n : Int) : (toString n).toList =
    if n < 0 then '-' :: Nat.toDigits 10 n.natAbs else Nat.toDigits 10 n.natAbs := by
  rw [Int.toString_eq_repr, Int.repr_eq_if]
  by_cases hneg : n < 0
  · have habs : (-n).toNat = n.natAbs := by omega
    rw [if_neg (by omega), if_pos hneg, String.toList_append, Nat.toList_repr, habs]
    rfl
  · have habs : n.toNat = n.natAbs := by omega
    rw [if_pos (by omega), if_neg hneg, Nat.toList_repr, habs]

theorem isBlank_int (n : Int) : ∀ c ∈ (toString n).toList, Text.isBlank c = false := by
  have hdigits : ∀ c ∈ Nat.toDigits 10 n.natAbs, Text.isBlank c = false := fun c hc =>
    isBlank_of_isDigit (isDigit_toDigits _ c hc)
  intro c hc
  rw [toList_int] at hc
  split at hc
  · rcases List.mem_cons.mp hc with rfl | hc
    · decide
    · exact hdigits c hc
  · exact hdigits c hc

theorem ofRank_of_lt {rank : Nat} (h : rank < Double.rankLimit) (negative : Bool) :
    ExtendedDouble.ofRank negative rank = .finite (Double.ofRank negative rank) := by
  have hmin : min rank (Double.rankLimit - 1) = rank := Nat.min_eq_left (Nat.le_sub_one_of_lt h)
  simp only [ExtendedDouble.ofRank, Double.ofRank?, h, dite_true, Double.ofRank, hmin]

/-- The digits of a 64-bit integer spell the binary64 number nearest to it. -/
theorem spelledNumber?_int {n : Int} (hlow : minSigned ≤ n) (hhigh : n ≤ maxUnsigned) :
    spelledNumber? (toString n) = some (.finite (Double.ofInt n)) := by
  have hsize : n.natAbs < 2 ^ 64 := by
    unfold minSigned at hlow
    unfold maxUnsigned at hhigh
    omega
  have hmagnitude : magnitude? (Nat.toDigits 10 n.natAbs) =
      some (Double.nearestRank n.natAbs 1) := by
    have hread := @magnitude?_whole _ [] (isDigit_toDigits n.natAbs)
      Nat.toDigits_ne_nil (by simp)
    rw [List.append_nil, digitsValue_toDigits] at hread
    rw [hread, exponentPart?, Option.map_some, decimalRank_whole hsize]
  obtain ⟨hplain, hsigned⟩ := double?_of_magnitude? hmagnitude
  have hself := ofRank_of_lt (Double.nearestRank_lt hsize)
  rw [spelledNumber?, trimChars_of_no_blank (isBlank_int n), toList_int, Double.ofInt]
  by_cases hneg : n < 0
  · rw [if_pos hneg, hsigned, hself, decide_eq_true hneg]
  · rw [if_neg hneg, hplain, hself, decide_eq_false hneg]

/-- Every number is loosely equal to its own text. -/
theorem looseEq_text {n : Number} (h : n.InRange) : looseEq (.num n) (.str n.text) = true := by
  have hspelled : spelledNumber? n.text = some (.finite n.toDouble) := by
    cases n with
    | int n => exact spelledNumber?_int h.1 h.2
    | double d => exact spelledNumber?_double d
  simp [looseEq, compare?, hspelled, ExtendedDouble.compare?, ExtendedDouble.position?]

theorem looseEq_str_iff {s id : String} : looseEq (.str s) (.str id) = true ↔ s = id := by
  simp [looseEq, Json.same, compare?]

theorem compare?_finite_iff {d : Double} {x : ExtendedDouble} :
    (ExtendedDouble.finite d).compare? x = some .eq ↔ x.position? = some d.position := by
  have hplace : (ExtendedDouble.finite d).position? = some d.position := rfl
  rw [ExtendedDouble.compare?, hplace]
  cases x.position? with
  | none => simp
  | some place => rw [Option.some.injEq, Option.some.injEq, compare_eq_iff_eq, eq_comm]

/-- A number is what a text spells where both stand at one place. -/
theorem looseEq_num_iff {n : Number} {id : String} : looseEq (.num n) (.str id) = true ↔
    (spelledNumber? id).bind ExtendedDouble.position? = some n.toDouble.position := by
  have hloose : looseEq (.num n) (.str id) =
      (compare? (.num n) (.str id) == some .eq) := by
    simp [looseEq, Json.same]
  rw [hloose, compare?, beq_iff_eq]
  cases spelledNumber? id with
  | none => simp
  | some x => exact compare?_finite_iff

end Evaluation

end DocumentEngine
