import DocumentEngine.Proofs.Number.Nearest
import DocumentEngine.Proofs.Number.Text
import DocumentEngine.Request.Token
import Mathlib.Data.List.TakeWhile

/-!
Numbers as requests write them: digits with an optional point and an optional exponent, behind an
optional minus. Digits alone spell an integer where it fits 64 bits with a sign; whatever else is
written spells the binary64 number that is nearest to it, if that is finite.
-/

namespace DocumentEngine

namespace Number

/-- What stands for a sign that is written: nothing, a minus or a plus. -/
def signText : Option Bool → List Char
  | none => []
  | some true => ['-']
  | some false => ['+']

/-- A number that a request can hold: a binary64 number, or an integer of 64 bits with a sign. -/
def IsSigned : Number → Prop
  | .int n => minSigned ≤ n ∧ n ≤ maxSigned
  | .double _ => True

theorem IsSigned.inRange {n : Number} (h : n.IsSigned) : n.InRange := by
  cases n with
  | int i =>
    have hbound : maxSigned ≤ maxUnsigned := by decide
    exact ⟨h.1, h.2.trans hbound⟩
  | double d => trivial

/-- A magnitude with a sign. -/
def signed (negative : Bool) (magnitude : Nat) : Int := if negative then -magnitude else magnitude

theorem signed_natAbs (i : Int) : signed (decide (i < 0)) i.natAbs = i := by
  unfold signed
  split
  · rename_i h
    rw [decide_eq_true_eq] at h
    omega
  · rename_i h
    rw [decide_eq_true_eq] at h
    omega

theorem integer?_minus (cs : List Char) :
    integer? ('-' :: cs) = (natural? cs).map fun n => signed true n := by
  simp only [integer?]
  cases natural? cs <;> rfl

theorem integer?_of_ne {cs : List Char} (h : ∀ c ∈ cs.head?, c ≠ '+' ∧ c ≠ '-') :
    integer? cs = (natural? cs).map Int.ofNat := by
  unfold integer?
  split
  · exact absurd rfl (h '+' rfl).1
  · exact absurd rfl (h '-' rfl).2
  · rfl

/-- An integer is written as digits behind an optional sign. -/
theorem integer?_eq_some_iff {cs : List Char} {i : Int} :
    integer? cs = some i ↔ ∃ sign digits, digits ≠ [] ∧ (∀ c ∈ digits, c.isDigit = true) ∧
      cs = signText sign ++ digits ∧ i = signed (sign.getD false) (digitsValue digits) := by
  constructor
  · intro h
    unfold integer? at h
    split at h
    · obtain ⟨n, hn, rfl⟩ := Option.map_eq_some_iff.mp h
      obtain ⟨hne, hall, rfl⟩ := natural?_eq_some_iff.mp hn
      exact ⟨some false, _, hne, hall, rfl, rfl⟩
    · rename_i cs
      change integer? ('-' :: cs) = some i at h
      rw [integer?_minus] at h
      obtain ⟨n, hn, rfl⟩ := Option.map_eq_some_iff.mp h
      obtain ⟨hne, hall, rfl⟩ := natural?_eq_some_iff.mp hn
      exact ⟨some true, cs, hne, hall, rfl, rfl⟩
    · obtain ⟨n, hn, rfl⟩ := Option.map_eq_some_iff.mp h
      obtain ⟨hne, hall, rfl⟩ := natural?_eq_some_iff.mp hn
      exact ⟨none, _, hne, hall, rfl, rfl⟩
  · rintro ⟨sign, digits, hne, hall, rfl, rfl⟩
    have hnatural := natural?_eq_some_iff.mpr ⟨hne, hall, rfl⟩
    rcases sign with _ | _ | _
    · have hplain : ∀ c ∈ digits.head?, c ≠ '+' ∧ c ≠ '-' := by
        intro c hc
        have hdigit := hall c (List.mem_of_mem_head? hc)
        constructor <;> rintro rfl <;> revert hdigit <;> decide
      rw [signText, List.nil_append, integer?_of_ne hplain, hnatural]
      rfl
    · rw [signText, List.singleton_append, integer?, hnatural]
      rfl
    · rw [signText, List.singleton_append, integer?_minus, hnatural]
      rfl

/-- A text is read as what stands behind its sign. -/
theorem exists_unsigned (cs : List Char) : ∃ sign body, cs = signText sign ++ body ∧
    double? cs = unsignedDouble? (sign.getD false) body := by
  by_cases hplain : ∀ c ∈ cs.head?, c ≠ '-' ∧ c ≠ '+'
  · exact ⟨none, cs, rfl, double?_plain hplain⟩
  · cases cs with
    | nil => simp at hplain
    | cons c body =>
      have hsign : c = '-' ∨ c = '+' := by
        by_contra hnot
        exact hplain fun d hd => by simp_all
      rcases hsign with rfl | rfl
      · exact ⟨some true, body, rfl, double?_minus body⟩
      · exact ⟨some false, body, rfl, double?_plus body⟩

theorem double?_signText {sign : Option Bool} {body : List Char}
    (h : ∀ c ∈ body.head?, c ≠ '-' ∧ c ≠ '+') :
    double? (signText sign ++ body) = unsignedDouble? (sign.getD false) body := by
  rcases sign with _ | _ | _
  · exact double?_plain h
  · exact double?_plus body
  · exact double?_minus body

end Number

namespace Request

open Double (inInterval)
open Number

/-- An exponent as it is written: its mark, which may be a capital, a sign, which may be left out,
and digits. -/
structure Exponent where
  capital : Bool
  sign : Option Bool
  digits : List Char

namespace Exponent

def text (x : Exponent) : List Char :=
  (if x.capital then 'E' else 'e') :: (signText x.sign ++ x.digits)

def value (x : Exponent) : Int := signed (x.sign.getD false) (digitsValue x.digits)

structure Proper (x : Exponent) : Prop where
  nonempty : x.digits ≠ []
  digits : ∀ c ∈ x.digits, c.isDigit = true

end Exponent

/-- A number as it is written: a minus, the digits before the point, those behind it if there is a
point, and an exponent. -/
structure Numeral where
  negative : Bool
  whole : List Char
  fraction : Option (List Char)
  exponent : Option Exponent

namespace Numeral

/-- The point and the digits behind it. -/
def fractionText : Option (List Char) → List Char
  | none => []
  | some digits => '.' :: digits

def exponentText : Option Exponent → List Char
  | none => []
  | some x => x.text

/-- The text behind the sign. -/
def body (m : Numeral) : List Char :=
  m.whole ++ (fractionText m.fraction ++ exponentText m.exponent)

def text (m : Numeral) : List Char := (if m.negative then ['-'] else []) ++ m.body

/-- The digits as one number. -/
def digits (m : Numeral) : Nat := digitsValue (m.whole ++ m.fraction.getD [])

/-- The power of ten by which the digits are scaled. -/
def scale (m : Numeral) : Int :=
  (m.exponent.map Exponent.value).getD 0 - (m.fraction.getD []).length

/-- Digits stand on one side of the point at least, before it unless there is a minus, and behind
the mark of an exponent. -/
structure Proper (m : Numeral) : Prop where
  whole : ∀ c ∈ m.whole, c.isDigit = true
  fraction : ∀ c ∈ m.fraction.getD [], c.isDigit = true
  exponent : ∀ x ∈ m.exponent, x.Proper
  nonempty : m.whole ≠ [] ∨ m.negative = true ∧ m.fraction.getD [] ≠ []

/-- Digits alone, of an integer that fits 64 bits with a sign. -/
structure IsInteger (m : Numeral) : Prop where
  fraction : m.fraction = none
  exponent : m.exponent = none
  least : minSigned ≤ signed m.negative m.digits
  most : signed m.negative m.digits ≤ maxSigned

/-- The number that a text stands for: an integer, or else the binary64 number that is nearest. -/
def Spells (m : Numeral) : Number → Prop
  | .int n => m.IsInteger ∧ n = signed m.negative m.digits
  | .double d => ¬m.IsInteger ∧ d.negative = m.negative ∧ inInterval d.rank m.digits m.scale = true

end Numeral

open Numeral (fractionText exponentText)

theorem exponentPart?_eq_some_iff {cs : List Char} {e : Int} :
    exponentPart? cs = some e ↔ ∃ exponent : Option Exponent, (∀ x ∈ exponent, x.Proper) ∧
      cs = exponentText exponent ∧ e = (exponent.map Exponent.value).getD 0 := by
  constructor
  · intro h
    cases cs with
    | nil =>
      cases h
      exact ⟨none, by simp, rfl, rfl⟩
    | cons c cs =>
      rw [exponentPart?] at h
      by_cases hmark : (decide (c = 'e') || decide (c = 'E')) = true
      · rw [if_pos hmark] at h
        obtain ⟨sign, digits, hne, hall, rfl, rfl⟩ := integer?_eq_some_iff.mp h
        refine ⟨some ⟨c = 'E', sign, digits⟩, ?_, ?_, rfl⟩
        · rintro x ⟨⟩
          exact ⟨hne, hall⟩
        · simp only [Bool.or_eq_true, decide_eq_true_eq] at hmark
          rcases hmark with rfl | rfl <;> rfl
      · rw [if_neg hmark] at h
        cases h
  · rintro ⟨_ | x, hproper, rfl, rfl⟩
    · rfl
    · obtain ⟨hne, hall⟩ := hproper x rfl
      have hread := integer?_eq_some_iff.mpr ⟨x.sign, x.digits, hne, hall, rfl, rfl⟩
      have hmark : (decide ((if x.capital then 'E' else 'e') = 'e') ||
          decide ((if x.capital then 'E' else 'e') = 'E')) = true := by
        cases x.capital <;> rfl
      change exponentPart? x.text = _
      rw [Exponent.text, exponentPart?, if_pos hmark, hread]
      rfl

/-- Behind the digits of a number stands no digit and no point. -/
theorem head_exponentText (exponent : Option Exponent) :
    ∀ c ∈ (exponentText exponent).head?, c.isDigit = false ∧ c ≠ '.' := by
  rcases exponent with _ | ⟨_ | _, sign, digits⟩ <;> simp [exponentText, Exponent.text]

/-- Decimal text without a sign is read as its digits, scaled. -/
theorem magnitude?_eq_some_iff {cs : List Char} {r : Nat} :
    magnitude? cs = some r ↔ ∃ m : Numeral, (∀ c ∈ m.whole, c.isDigit = true) ∧
      (∀ c ∈ m.fraction.getD [], c.isDigit = true) ∧ (∀ x ∈ m.exponent, x.Proper) ∧
      (m.whole ≠ [] ∨ m.fraction.getD [] ≠ []) ∧ cs = m.body ∧
      decimalRank m.digits m.scale = r := by
  constructor
  · intro h
    have hall : ∀ cs : List Char, ∀ c ∈ cs.takeWhile Char.isDigit, c.isDigit = true :=
      fun cs c hc => List.mem_takeWhile_imp hc
    have hcut : cs.takeWhile Char.isDigit ++ cs.dropWhile Char.isDigit = cs :=
      List.takeWhile_append_dropWhile
    unfold magnitude? at h
    dsimp only at h
    split at h
    · rename_i more hmore
      dsimp only at h
      split at h
      · cases h
      rename_i hne
      rw [Bool.and_eq_true, List.isEmpty_iff, List.isEmpty_iff, not_and_or] at hne
      obtain ⟨e, he, rfl⟩ := Option.map_eq_some_iff.mp h
      obtain ⟨exponent, hproper, htail, rfl⟩ := exponentPart?_eq_some_iff.mp he
      refine ⟨⟨false, _, some (more.takeWhile Char.isDigit), exponent⟩, hall cs, hall more, hproper,
        hne, ?_, rfl⟩
      rw [Numeral.body, ← htail, fractionText, List.cons_append, List.takeWhile_append_dropWhile,
        ← hmore, hcut]
    · dsimp only at h
      split at h
      · cases h
      rename_i hne
      rw [Bool.and_eq_true, List.isEmpty_iff, List.isEmpty_iff, not_and_or] at hne
      obtain ⟨e, he, rfl⟩ := Option.map_eq_some_iff.mp h
      obtain ⟨exponent, hproper, htail, rfl⟩ := exponentPart?_eq_some_iff.mp he
      refine ⟨⟨false, _, none, exponent⟩, hall cs, by simp, hproper, hne, ?_, rfl⟩
      rw [Numeral.body, ← htail, fractionText, List.nil_append, hcut]
  · rintro ⟨⟨negative, whole, fraction, exponent⟩, hwhole, hfraction, hproper, hne, rfl, rfl⟩
    have hpart := exponentPart?_eq_some_iff.mpr ⟨exponent, hproper, rfl, rfl⟩
    have hhead := head_exponentText exponent
    dsimp only at hwhole hfraction hne
    rcases fraction with _ | fraction
    · have hread := magnitude?_whole hwhole (hne.resolve_right (by simp)) hhead
      rw [hpart] at hread
      simpa [Numeral.body, Numeral.digits, Numeral.scale, fractionText] using hread
    · have hread := magnitude?_point hwhole hfraction hne fun c hc => (hhead c hc).1
      rw [hpart] at hread
      simpa [Numeral.body, Numeral.digits, Numeral.scale, fractionText] using hread

/-- A finite number is read of its magnitude, behind the sign. -/
theorem double?_eq_finite_iff {cs : List Char} {d : Double}
    (h : ∀ c ∈ cs.head?, c = '-' ∨ c.isDigit = true) :
    double? cs = some (.finite d) ↔ ∃ negative body, cs = (if negative then ['-'] else []) ++ body ∧
      d.negative = negative ∧ magnitude? body = some d.rank := by
  constructor
  · intro hread
    obtain ⟨sign, body, rfl, hbody⟩ := exists_unsigned cs
    rw [hbody] at hread
    obtain ⟨hnegative, hmagnitude⟩ := unsignedDouble?_eq_finite_iff.mp hread
    refine ⟨sign.getD false, body, ?_, hnegative, hmagnitude⟩
    rcases sign with _ | _ | _
    · rfl
    · exact absurd (h '+' rfl) (by decide)
    · rfl
  · rintro ⟨negative, body, rfl, hnegative, hmagnitude⟩
    obtain ⟨hplain, hsigned⟩ := double?_of_magnitude? hmagnitude
    rw [← Double.ofRank_self d, hnegative]
    cases negative with
    | false => exact hplain
    | true => exact hsigned

namespace Numeral

variable {m : Numeral} {i : Int}

/-- Digits alone are read as an integer. -/
theorem integer?_text (h : m.Proper) (hfraction : m.fraction = none) (hexponent : m.exponent = none) :
    integer? m.text = some (signed m.negative m.digits) := by
  obtain ⟨negative, whole, fraction, exponent⟩ := m
  dsimp only at hfraction hexponent
  subst hfraction hexponent
  have hne : whole ≠ [] := h.nonempty.resolve_right (by simp)
  refine integer?_eq_some_iff.mpr
    ⟨if negative then some true else none, whole, hne, h.whole, ?_, ?_⟩
  · cases negative <;> simp [text, body, fractionText, exponentText, signText]
  · cases negative <;> simp [digits]

/-- What is read as an integer has no point and no exponent. -/
theorem plain_of_integer? (h : integer? m.text = some i) : m.fraction = none ∧ m.exponent = none := by
  obtain ⟨sign, digits, -, hall, htext, -⟩ := integer?_eq_some_iff.mp h
  have hnot : ∀ c ∈ m.text, c = '-' ∨ c = '+' ∨ c.isDigit = true := by
    intro c hc
    rw [htext, List.mem_append] at hc
    rcases hc with hc | hc
    · rcases sign with _ | _ | _ <;> simp_all [signText]
    · exact .inr (.inr (hall c hc))
  obtain ⟨negative, whole, fraction, exponent⟩ := m
  constructor
  · cases fraction with
    | none => rfl
    | some fraction => exact absurd (hnot '.' (by simp [text, body, fractionText])) (by decide)
  · cases exponent with
    | none => rfl
    | some x =>
      have hmark := hnot (if x.capital then 'E' else 'e')
        (by simp [text, body, exponentText, Exponent.text])
      exact absurd hmark (by cases x.capital <;> decide)

theorem signed?_text_iff (h : m.Proper) :
    signed? m.text = some i ↔ m.IsInteger ∧ i = signed m.negative m.digits := by
  unfold signed?
  rw [Option.filter_eq_some_iff]
  constructor
  · rintro ⟨hread, hrange⟩
    obtain ⟨hfraction, hexponent⟩ := plain_of_integer? hread
    rw [integer?_text h hfraction hexponent] at hread
    cases hread
    simp only [Bool.and_eq_true, decide_eq_true_eq] at hrange
    exact ⟨⟨hfraction, hexponent, hrange.1, hrange.2⟩, rfl⟩
  · rintro ⟨⟨hfraction, hexponent, hleast, hmost⟩, rfl⟩
    exact ⟨integer?_text h hfraction hexponent, by simp [hleast, hmost]⟩

end Numeral

/-- A text that begins with a digit or a minus is the number of a numeral with that text. -/
theorem number?_eq_some_iff {cs : List Char} {n : Number}
    (h : ∀ c ∈ cs.head?, c = '-' ∨ c.isDigit = true) :
    number? cs = some n ↔ ∃ m : Numeral, m.Proper ∧ m.text = cs ∧ m.Spells n := by
  constructor
  · intro hread
    unfold number? at hread
    split at hread
    · rename_i i hsigned
      cases hread
      obtain ⟨sign, digits, hne, hall, rfl, -⟩ :=
        integer?_eq_some_iff.mp (Option.filter_eq_some_iff.mp hsigned).1
      have htext : (⟨sign.getD false, digits, none, none⟩ : Numeral).text =
          signText sign ++ digits := by
        rcases sign with _ | _ | _
        · simp [Numeral.text, Numeral.body, fractionText, exponentText, signText]
        · exact absurd (h '+' rfl) (by decide)
        · simp [Numeral.text, Numeral.body, fractionText, exponentText, signText]
      have hproper : (⟨sign.getD false, digits, none, none⟩ : Numeral).Proper :=
        ⟨hall, by simp, by simp, .inl hne⟩
      rw [← htext] at hsigned
      exact ⟨_, hproper, htext, (Numeral.signed?_text_iff hproper).mp hsigned⟩
    · rename_i hnone
      split at hread
      · rename_i d hd
        cases hread
        obtain ⟨negative, body, rfl, hnegative, hmagnitude⟩ := (double?_eq_finite_iff h).mp hd
        obtain ⟨m, hwhole, hfraction, hexponent, hne, rfl, hrank⟩ :=
          magnitude?_eq_some_iff.mp hmagnitude
        have hproper : ({ m with negative := negative } : Numeral).Proper := by
          refine ⟨hwhole, hfraction, hexponent, ?_⟩
          cases negative with
          | true => exact hne.imp id fun hbehind => ⟨rfl, hbehind⟩
          | false =>
            refine .inl fun hempty => ?_
            obtain ⟨negative, whole, _ | fraction, exponent⟩ := m
            · exact hne.elim (fun hbefore => hbefore hempty) fun hbehind => hbehind rfl
            · dsimp only at hempty
              subst hempty
              exact absurd (h '.' rfl) (by decide)
        refine ⟨{ m with negative := negative }, hproper, rfl, fun hinteger => ?_, hnegative, ?_⟩
        · have hsome := (Numeral.signed?_text_iff hproper).mpr ⟨hinteger, rfl⟩
          exact absurd (hnone.symm.trans hsome) (by simp)
        · exact (Double.decimalRank_eq_iff d.rank_lt).mp hrank
      · cases hread
  · rintro ⟨m, hproper, rfl, hspells⟩
    unfold number?
    cases n with
    | int i => rw [(Numeral.signed?_text_iff hproper).mpr hspells]
    | double d =>
      obtain ⟨hinteger, hnegative, hin⟩ := hspells
      have hnone : signed? m.text = none :=
        Option.eq_none_iff_forall_ne_some.mpr fun i hi =>
          hinteger ((Numeral.signed?_text_iff hproper).mp hi).1
      have hmagnitude : magnitude? m.body = some d.rank :=
        magnitude?_eq_some_iff.mpr ⟨m, hproper.whole, hproper.fraction, hproper.exponent,
          hproper.nonempty.imp id And.right, rfl, (Double.decimalRank_eq_iff d.rank_lt).mpr hin⟩
      have hread := (double?_eq_finite_iff h).mpr ⟨m.negative, m.body, rfl, hnegative, hmagnitude⟩
      rw [hnone, hread]

namespace Numeral

variable {m : Numeral} {n : Number}

theorem Spells.isSigned (h : m.Spells n) : n.IsSigned := by
  cases n with
  | int i =>
    obtain ⟨hinteger, rfl⟩ := h
    exact ⟨hinteger.least, hinteger.most⟩
  | double d => trivial

/-- Every number of a request is spelled by some numeral: an integer by its digits, any other by its
shortest digits and their power of ten. -/
theorem exists_spells (h : n.IsSigned) : ∃ m : Numeral, m.Proper ∧ m.Spells n := by
  cases n with
  | int i =>
    obtain ⟨hleast, hmost⟩ := h
    have hvalue : signed (decide (i < 0))
        (⟨decide (i < 0), Nat.toDigits 10 i.natAbs, none, none⟩ : Numeral).digits = i := by
      rw [digits, Option.getD_none, List.append_nil, digitsValue_toDigits, signed_natAbs]
    refine ⟨⟨decide (i < 0), Nat.toDigits 10 i.natAbs, none, none⟩,
      ⟨isDigit_toDigits _, by simp, by simp, .inl Nat.toDigits_ne_nil⟩,
      ⟨rfl, rfl, by rwa [hvalue], by rwa [hvalue]⟩, hvalue.symm⟩
  | double d =>
    have hdecimal : ∃ decimal : Double.Decimal,
        inInterval d.rank decimal.digits decimal.exponent = true := by
      by_cases hrank : d.rank = 0
      · refine ⟨⟨0, 0⟩, ?_⟩
        rw [hrank]
        decide +kernel
      · exact ⟨_, (Double.shortest_spec (Nat.pos_of_ne_zero hrank) d.rank_lt).2⟩
    obtain ⟨⟨digits, exponent⟩, hin⟩ := hdecimal
    have hexponent : Exponent.value ⟨false, some (decide (exponent < 0)),
        Nat.toDigits 10 exponent.natAbs⟩ = exponent := by
      rw [Exponent.value, digitsValue_toDigits, Option.getD_some, signed_natAbs]
    refine ⟨⟨d.negative, Nat.toDigits 10 digits, none,
        some ⟨false, some (decide (exponent < 0)), Nat.toDigits 10 exponent.natAbs⟩⟩,
      ⟨isDigit_toDigits _, by simp, ?_, .inl Nat.toDigits_ne_nil⟩,
      ⟨fun hinteger => ?_, rfl, ?_⟩⟩
    · rintro x ⟨⟩
      exact ⟨Nat.toDigits_ne_nil, isDigit_toDigits _⟩
    · cases hinteger.exponent
    · rw [Numeral.digits, scale, Option.getD_none, List.append_nil, digitsValue_toDigits,
        Option.map_some, Option.getD_some, hexponent]
      simpa using hin

theorem continuesNumber_of_isDigit {c : Char} (h : c.isDigit = true) : continuesNumber c = true := by
  simp [continuesNumber, h]

/-- A numeral consists of characters of numbers. -/
theorem continuesNumber_text (h : m.Proper) : ∀ c ∈ m.text, continuesNumber c = true := by
  obtain ⟨negative, whole, fraction, exponent⟩ := m
  intro c hc
  simp only [text, body, List.mem_append] at hc
  rcases hc with hc | hc | hc | hc
  · cases negative <;> simp_all [continuesNumber]
  · exact continuesNumber_of_isDigit (h.whole c hc)
  · rcases fraction with _ | fraction
    · cases hc
    · rcases List.mem_cons.mp hc with rfl | hc
      · decide
      · exact continuesNumber_of_isDigit (h.fraction c hc)
  · rcases exponent with _ | ⟨capital, sign, digits⟩
    · cases hc
    · rcases List.mem_cons.mp hc with rfl | hc
      · cases capital <;> rfl
      · rcases List.mem_append.mp hc with hc | hc
        · rcases sign with _ | _ | _ <;> simp_all [signText, continuesNumber]
        · exact continuesNumber_of_isDigit ((h.exponent _ rfl).digits c hc)

/-- A numeral begins with a digit or a minus. -/
theorem exists_text (h : m.Proper) : ∃ c cs, m.text = c :: cs ∧ (c = '-' ∨ c.isDigit = true) := by
  obtain ⟨negative, whole, fraction, exponent⟩ := m
  cases negative with
  | true => exact ⟨'-', _, rfl, .inl rfl⟩
  | false =>
    cases whole with
    | nil => exact absurd (h.nonempty.resolve_left fun hne => hne rfl).1 (by simp)
    | cons c whole => exact ⟨c, _, rfl, .inr (h.whole c List.mem_cons_self)⟩

end Numeral

end Request

end DocumentEngine
