import DocumentEngine.Json.Written
import DocumentEngine.Proofs.Number.Decimal

/-!
Numerals, and the text of a decimal taken apart. The shortest text of a number is a numeral: digits
around a point and an exponent, which say as much as the decimal up to zeros behind its digits.
-/

namespace DocumentEngine

namespace Number

theorem digitsValue_eq (cs : List Char) : digitsValue cs = Nat.ofDigitChars 10 cs 0 := rfl

theorem digitsValue_toDigits (n : Nat) : digitsValue (Nat.toDigits 10 n) = n :=
  Nat.ofDigitChars_ten_toDigits

theorem digitsValue_append (cs ds : List Char) :
    digitsValue (cs ++ ds) = digitsValue cs * 10 ^ ds.length + digitsValue ds := by
  rw [digitsValue_eq, digitsValue_eq, digitsValue_eq, Nat.ofDigitChars_append,
    Nat.ofDigitChars_eq_ofDigitChars_zero, Nat.mul_comm]

theorem digitsValue_zeros (cs : List Char) (k : Nat) :
    digitsValue (cs ++ List.replicate k '0') = digitsValue cs * 10 ^ k := by
  rw [digitsValue_eq, digitsValue_eq, Nat.ofDigitChars_append, Nat.ofDigitChars_replicate_zero,
    Nat.mul_comm]

theorem digitsValue_zeros_append (cs : List Char) (k : Nat) :
    digitsValue (List.replicate k '0' ++ cs) = digitsValue cs := by
  rw [digitsValue_eq, digitsValue_eq, Nat.ofDigitChars_append, Nat.ofDigitChars_replicate_zero,
    Nat.mul_zero]

theorem digitsValue_lt {cs : List Char} (h : ∀ c ∈ cs, c.isDigit = true) :
    digitsValue cs < 10 ^ cs.length := by
  induction cs with
  | nil => decide
  | cons c cs ih =>
    have hrest := ih fun d hd => h d (List.mem_cons_of_mem c hd)
    have hdigit : digitValue c ≤ 9 := by
      have hrange := Char.isDigit_iff_toNat.mp (h c List.mem_cons_self)
      have h0 : '0'.toNat = 48 := rfl
      have h9 : '9'.toNat = 57 := rfl
      unfold digitValue
      omega
    have hone : digitsValue [c] = digitValue c := by
      unfold digitsValue
      rw [List.foldl_cons, List.foldl_nil, Nat.mul_zero, Nat.zero_add]
    have hhead := Nat.mul_le_mul_right (10 ^ cs.length) hdigit
    rw [← List.singleton_append, digitsValue_append, hone, List.length_append,
      List.length_singleton, Nat.pow_add]
    omega

theorem natural?_eq_some_iff {cs : List Char} {n : Nat} :
    natural? cs = some n ↔ cs ≠ [] ∧ (∀ c ∈ cs, c.isDigit = true) ∧ digitsValue cs = n := by
  unfold natural?
  by_cases hne : cs = []
  · simp [hne]
  by_cases hall : cs.all Char.isDigit = true
  · have hdigits := List.all_eq_true.mp hall
    rw [if_neg (by simp [hne, hall])]
    simp only [Option.some.injEq, ne_eq, hne, not_false_eq_true, true_and]
    exact ⟨fun h => ⟨hdigits, h⟩, And.right⟩
  · rw [if_pos (by simp [hall])]
    simp only [reduceCtorEq, false_iff]
    exact fun h => hall (List.all_eq_true.mpr h.2.1)

theorem isDigit_toDigits (n : Nat) : ∀ c ∈ Nat.toDigits 10 n, c.isDigit = true := fun _ hc =>
  Nat.isDigit_of_mem_toDigits (by decide) (by decide) hc

theorem isDigit_zeros (k : Nat) : ∀ c ∈ List.replicate k '0', c.isDigit = true := by
  intro c hc
  rw [List.eq_of_mem_replicate hc]
  decide

/-- The digits of a positive number do not begin with a zero. -/
theorem head_toDigits {n : Nat} (h : n ≠ 0) : (Nat.toDigits 10 n).head? ≠ some '0' := by
  have hleast := Double.pow_length_toDigits_le h
  have hvalue := digitsValue_toDigits n
  have hdigits := isDigit_toDigits n
  intro hzero
  cases hcs : Nat.toDigits 10 n with
  | nil => exact Nat.toDigits_ne_nil hcs
  | cons c cs =>
    rw [hcs] at hleast hvalue hdigits hzero
    cases hzero
    have hrest := digitsValue_lt fun d hd => hdigits d (List.mem_cons_of_mem _ hd)
    have hsame := digitsValue_zeros_append cs 1
    rw [List.length_cons, Nat.add_sub_cancel] at hleast
    rw [List.replicate_one, List.singleton_append, hvalue] at hsame
    omega

end Number

namespace Json.Numeral

open Number

/-- The digits of a numeral as one number. -/
def digits (n : Numeral) : Nat := digitsValue (n.whole ++ n.fraction)

/-- The power of ten by which the digits of a numeral are scaled. -/
def scale (n : Numeral) : Int := n.exponent.getD 0 - n.fraction.length

/-- The text of an exponent with its sign, if there is one. -/
def exponentText : Option Int → List Char
  | none => []
  | some e => 'e' :: (if e < 0 then '-' else '+') :: Nat.toDigits 10 e.natAbs

/-- The text of a numeral. -/
def text (n : Numeral) : List Char :=
  (if n.negative then ['-'] else []) ++ n.whole ++
    (if n.fraction.isEmpty then [] else '.' :: n.fraction) ++ exponentText n.exponent

/-- A numeral of digits, at least one before the point. -/
structure Proper (n : Numeral) : Prop where
  whole : ∀ c ∈ n.whole, c.isDigit = true
  fraction : ∀ c ∈ n.fraction, c.isDigit = true
  nonempty : n.whole ≠ []

end Json.Numeral

namespace Double

open Number

variable {d : Decimal}

/-- The power of ten of the first digit of a decimal. -/
def Decimal.leading (d : Decimal) : Int := (Nat.toDigits 10 d.digits).length + d.exponent - 1

/-- The numeral that the text of a decimal shows. -/
structure Shows (n : Json.Numeral) (d : Decimal) : Prop where
  proper : n.Proper
  text : d.text.toList = n.text
  positive : n.negative = false
  short : n.whole.length ≤ 16
  leading : d.digits ≠ 0 → n.whole.head? = some '0' → n.whole.length = 1
  exponent : ∀ e ∈ n.exponent, e = d.leading
  value : ∃ k : Nat, n.digits = d.digits * 10 ^ k ∧ n.scale = d.exponent - k

theorem text_small (hlow : -5 ≤ d.leading) (hneg : d.leading < 0) :
    d.text.toList =
      '0' :: '.' :: (List.replicate (-d.leading - 1).toNat '0' ++ Nat.toDigits 10 d.digits) := by
  have hplain : (decide (-5 ≤ d.leading) && decide (d.leading < 16)) = true := by
    simp only [Bool.and_eq_true, decide_eq_true_eq]
    omega
  unfold Decimal.leading at *
  unfold Decimal.text
  dsimp only
  rw [if_pos hplain, if_pos hneg, String.toList_ofList]
  rfl

theorem text_large {w : Nat} (hlow : 0 ≤ d.leading) (hhigh : d.leading < 16)
    (hw : d.leading.toNat + 1 = w) :
    d.text.toList =
      (Nat.toDigits 10 d.digits ++
          List.replicate (w - (Nat.toDigits 10 d.digits).length) '0').take w ++
        '.' :: (if ((Nat.toDigits 10 d.digits ++
          List.replicate (w - (Nat.toDigits 10 d.digits).length) '0').drop w).isEmpty then ['0']
          else (Nat.toDigits 10 d.digits ++
            List.replicate (w - (Nat.toDigits 10 d.digits).length) '0').drop w) := by
  have hplain : (decide (-5 ≤ d.leading) && decide (d.leading < 16)) = true := by
    simp only [Bool.and_eq_true, decide_eq_true_eq]
    omega
  have hpos : ¬d.leading < 0 := by omega
  subst hw
  unfold Decimal.leading at *
  unfold Decimal.text
  dsimp only
  rw [if_pos hplain, if_neg hpos, String.toList_ofList]

theorem text_power (h : ¬(-5 ≤ d.leading ∧ d.leading < 16)) :
    d.text.toList =
      (Nat.toDigits 10 d.digits).take 1 ++
        (if ((Nat.toDigits 10 d.digits).drop 1).isEmpty then []
          else '.' :: (Nat.toDigits 10 d.digits).drop 1) ++
        'e' :: (if d.leading < 0 then '-' else '+') :: Nat.toDigits 10 d.leading.natAbs := by
  have hplain : ¬(decide (-5 ≤ d.leading) && decide (d.leading < 16)) = true := by
    simpa only [Bool.and_eq_true, decide_eq_true_eq] using h
  unfold Decimal.leading at *
  unfold Decimal.text
  dsimp only
  rw [if_neg hplain, String.toList_ofList]

theorem length_toDigits (d : Decimal) :
    ((Nat.toDigits 10 d.digits).length : Int) = d.leading - d.exponent + 1 := by
  unfold Decimal.leading
  omega

/-- Below one, zeros stand between the point and the digits. -/
theorem shows_small (hlow : -5 ≤ d.leading) (hneg : d.leading < 0) :
    Shows ⟨false, ['0'], List.replicate (-d.leading - 1).toNat '0' ++ Nat.toDigits 10 d.digits,
      none⟩ d where
  proper := by
    refine ⟨isDigit_zeros 1, fun c hc => ?_, List.cons_ne_nil _ _⟩
    rcases List.mem_append.mp hc with hc | hc
    · exact isDigit_zeros _ c hc
    · exact isDigit_toDigits _ c hc
  text := by
    have hsome : (List.replicate (-d.leading - 1).toNat '0' ++
        Nat.toDigits 10 d.digits).isEmpty = false := by
      rw [List.isEmpty_eq_false_iff, ne_eq, List.append_eq_nil_iff]
      exact fun h => Nat.toDigits_ne_nil h.2
    rw [text_small hlow hneg, Json.Numeral.text, hsome]
    simp [Json.Numeral.exponentText]
  positive := rfl
  short := by simp
  leading := fun _ _ => rfl
  exponent := fun _ he => nomatch he
  value := by
    have hzeros := digitsValue_zeros_append (Nat.toDigits 10 d.digits)
      ((-d.leading - 1).toNat + 1)
    rw [digitsValue_toDigits] at hzeros
    refine ⟨0, ?_, ?_⟩
    · rw [Nat.pow_zero, Nat.mul_one]
      exact hzeros
    · have hlength := length_toDigits d
      simp only [Json.Numeral.scale, List.length_append, List.length_replicate, Option.getD_none]
      omega

/-- A decimal whose digits all stand before the point. -/
theorem shows_whole (hlow : 0 ≤ d.leading) (hhigh : d.leading < 16) (hexp : 0 ≤ d.exponent) :
    Shows ⟨false, Nat.toDigits 10 d.digits ++ List.replicate d.exponent.toNat '0', ['0'], none⟩
      d where
  proper := by
    refine ⟨fun c hc => ?_, isDigit_zeros 1, ?_⟩
    · rcases List.mem_append.mp hc with hc | hc
      · exact isDigit_toDigits _ c hc
      · exact isDigit_zeros _ c hc
    · rw [ne_eq, List.append_eq_nil_iff]
      exact fun h => Nat.toDigits_ne_nil h.1
  text := by
    have hlength := length_toDigits d
    have hzeros : d.leading.toNat + 1 - (Nat.toDigits 10 d.digits).length = d.exponent.toNat := by
      omega
    have hwhole : (Nat.toDigits 10 d.digits ++ List.replicate d.exponent.toNat '0').length =
        d.leading.toNat + 1 := by
      rw [List.length_append, List.length_replicate]
      omega
    rw [text_large hlow hhigh rfl, hzeros, List.take_of_length_le hwhole.le,
      List.drop_of_length_le hwhole.le, Json.Numeral.text]
    simp [Json.Numeral.exponentText]
  positive := rfl
  short := by
    have hlength := length_toDigits d
    rw [List.length_append, List.length_replicate]
    omega
  leading := by
    intro hdigits hzero
    have hhead := head_toDigits hdigits
    cases hcs : Nat.toDigits 10 d.digits with
    | nil => exact absurd hcs Nat.toDigits_ne_nil
    | cons c cs =>
      rw [hcs] at hhead hzero
      exact absurd hzero hhead
  exponent := fun _ he => nomatch he
  value := by
    refine ⟨d.exponent.toNat + 1, ?_, ?_⟩
    · have hzeros := digitsValue_zeros (Nat.toDigits 10 d.digits) (d.exponent.toNat + 1)
      rw [digitsValue_toDigits, List.replicate_succ', ← List.append_assoc] at hzeros
      exact hzeros
    · simp only [Json.Numeral.scale, List.length_singleton, Option.getD_none]
      omega

/-- A decimal with the point between its digits. -/
theorem shows_point (hlow : 0 ≤ d.leading) (hhigh : d.leading < 16) (hexp : d.exponent < 0) :
    Shows ⟨false, (Nat.toDigits 10 d.digits).take (d.leading.toNat + 1),
      (Nat.toDigits 10 d.digits).drop (d.leading.toNat + 1), none⟩ d where
  proper := by
    refine ⟨fun c hc => isDigit_toDigits _ c (List.mem_of_mem_take hc),
      fun c hc => isDigit_toDigits _ c (List.mem_of_mem_drop hc), ?_⟩
    rw [ne_eq, List.take_eq_nil_iff]
    exact fun h => h.elim (fun h => by omega) Nat.toDigits_ne_nil
  text := by
    have hlength := length_toDigits d
    have hnone : d.leading.toNat + 1 - (Nat.toDigits 10 d.digits).length = 0 := by omega
    have hsome : ((Nat.toDigits 10 d.digits).drop (d.leading.toNat + 1)).isEmpty = false := by
      rw [List.isEmpty_eq_false_iff, ne_eq, List.drop_eq_nil_iff]
      omega
    rw [text_large hlow hhigh rfl, hnone, List.replicate_zero, List.append_nil, hsome,
      Json.Numeral.text, hsome]
    simp [Json.Numeral.exponentText]
  positive := rfl
  short := by
    rw [List.length_take]
    omega
  leading := by
    intro hdigits hzero
    have hhead := head_toDigits hdigits
    rw [List.head?_take, if_neg (by omega)] at hzero
    exact absurd hzero hhead
  exponent := fun _ he => nomatch he
  value := by
    have hlength := length_toDigits d
    refine ⟨0, ?_, ?_⟩
    · rw [Json.Numeral.digits, List.take_append_drop, digitsValue_toDigits, Nat.pow_zero,
        Nat.mul_one]
    · simp only [Json.Numeral.scale, List.length_drop, Option.getD_none]
      omega

/-- Very small and very large decimals have one digit before the point, and an exponent. -/
theorem shows_power (h : ¬(-5 ≤ d.leading ∧ d.leading < 16)) :
    Shows ⟨false, (Nat.toDigits 10 d.digits).take 1, (Nat.toDigits 10 d.digits).drop 1,
      some d.leading⟩ d where
  proper := by
    refine ⟨fun c hc => isDigit_toDigits _ c (List.mem_of_mem_take hc),
      fun c hc => isDigit_toDigits _ c (List.mem_of_mem_drop hc), ?_⟩
    rw [ne_eq, List.take_eq_nil_iff]
    exact fun h => h.elim (fun h => by omega) Nat.toDigits_ne_nil
  text := by
    rw [text_power h, Json.Numeral.text]
    simp [Json.Numeral.exponentText]
  positive := rfl
  short := by
    rw [List.length_take]
    omega
  leading := by
    intro hdigits hzero
    have hhead := head_toDigits hdigits
    rw [List.head?_take, if_neg (by omega)] at hzero
    exact absurd hzero hhead
  exponent := by
    intro e he
    cases he
    rfl
  value := by
    have hlength := length_toDigits d
    have hpos : 0 < (Nat.toDigits 10 d.digits).length := Nat.length_toDigits_pos
    refine ⟨0, ?_, ?_⟩
    · rw [Json.Numeral.digits, List.take_append_drop, digitsValue_toDigits, Nat.pow_zero,
        Nat.mul_one]
    · simp only [Json.Numeral.scale, List.length_drop, Option.getD_some]
      omega

/-- The text of a decimal is that of a numeral. -/
theorem exists_shows (d : Decimal) : ∃ n, Shows n d := by
  by_cases hplain : -5 ≤ d.leading ∧ d.leading < 16
  · by_cases hneg : d.leading < 0
    · exact ⟨_, shows_small hplain.1 hneg⟩
    · by_cases hexp : 0 ≤ d.exponent
      · exact ⟨_, shows_whole (Int.not_lt.mp hneg) hplain.2 hexp⟩
      · exact ⟨_, shows_point (Int.not_lt.mp hneg) hplain.2 (Int.not_le.mp hexp)⟩
  · exact ⟨_, shows_power hplain⟩

end Double

end DocumentEngine
