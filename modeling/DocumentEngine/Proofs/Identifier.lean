import DocumentEngine.State
import Mathlib.Data.Nat.Digits.Defs
import Mathlib.Tactic.Common

/-!
Identifiers that are made up. They have letters, digits and hyphens, and no two counts have the same
one, also where the hyphens are left out. Up to twelve digits of a count they are of one length.
-/

namespace DocumentEngine.State

/-- The number that a hexadecimal digit stands for. -/
def hexDigit (c : Char) : Nat := if c.toNat ≤ 57 then c.toNat - 48 else c.toNat - 87

/-- The number that hexadecimal digits stand for. -/
def hexValue (cs : List Char) : Nat := cs.foldl (fun n c => 16 * n + hexDigit c) 0

theorem digitChar_spec : ∀ n < 16,
    hexDigit (Nat.digitChar n) = n ∧ (Nat.digitChar n).isAlphanum = true := by decide

theorem toDigits_spec (n : Nat) : hexValue (Nat.toDigits 16 n) = n ∧
    ∀ c ∈ Nat.toDigits 16 n, c.isAlphanum = true := by
  induction n using Nat.strongRecOn with
  | ind n ih =>
    by_cases hn : n < 16
    · obtain ⟨hvalue, halphanum⟩ := digitChar_spec n hn
      rw [Nat.toDigits_of_lt_base hn]
      exact ⟨by simpa [hexValue] using hvalue, fun c hc => by rwa [List.mem_singleton.mp hc]⟩
    · have hdigits := Nat.toDigits_of_base_le (b := 16) (by decide) (Nat.le_of_not_lt hn)
      obtain ⟨hvalue, halphanum⟩ := digitChar_spec (n % 16) (Nat.mod_lt _ (by decide))
      obtain ⟨hrest, hall⟩ := ih (n / 16) (by omega)
      rw [hdigits]
      refine ⟨?_, fun c hc => ?_⟩
      · unfold hexValue at hrest ⊢
        rw [List.foldl_append, hrest, List.foldl_cons, List.foldl_nil, hvalue]
        omega
      · rcases List.mem_append.mp hc with hc | hc
        · exact hall c hc
        · rwa [List.mem_singleton.mp hc]

theorem hexTwelve_spec (n : Nat) : hexValue (hexTwelve n).toList = n ∧
    ∀ c ∈ (hexTwelve n).toList, c.isAlphanum = true := by
  have hzeros : ∀ (k : Nat) (cs : List Char), hexValue (List.replicate k '0' ++ cs) = hexValue cs := by
    intro k cs
    induction k with
    | zero => rfl
    | succ k ih => exact ih
  obtain ⟨hvalue, hall⟩ := toDigits_spec n
  unfold hexTwelve
  dsimp only
  rw [String.toList_ofList]
  refine ⟨by rw [hzeros, hvalue], fun c hc => ?_⟩
  rcases List.mem_append.mp hc with hc | hc
  · rw [List.eq_of_mem_replicate hc]
    decide
  · exact hall c hc

/-- An identifier has letters, digits and hyphens. -/
theorem mem_identifier {n : Nat} {c : Char} (h : c ∈ (identifier n).toList) :
    c.isAlphanum = true ∨ c = '-' := by
  unfold identifier at h
  rw [String.toList_append] at h
  have hfront : ∀ c ∈ "00000000-0000-4000-8000-".toList, c.isAlphanum = true ∨ c = '-' := by
    simp
  rcases List.mem_append.mp h with h | h
  · exact hfront c h
  · exact .inl ((hexTwelve_spec n).2 c h)

theorem filter_hexTwelve (n : Nat) :
    (hexTwelve n).toList.filter (· ≠ '-') = (hexTwelve n).toList := by
  refine List.filter_eq_self.mpr fun c hc => ?_
  have halphanum := (hexTwelve_spec n).2 c hc
  rw [decide_eq_true_eq]
  rintro rfl
  revert halphanum
  decide

/-- Identifiers without their hyphens tell counts apart. -/
theorem identifier_inj {m n : Nat} (h : (identifier m).toList.filter (· ≠ '-') =
    (identifier n).toList.filter (· ≠ '-')) : m = n := by
  unfold identifier at h
  rw [String.toList_append, String.toList_append, List.filter_append, List.filter_append,
    filter_hexTwelve, filter_hexTwelve] at h
  rw [← (hexTwelve_spec m).1, List.append_cancel_left h, (hexTwelve_spec n).1]

theorem length_hexTwelve {n : Nat} (hn : n < 16 ^ 12) : (hexTwelve n).toList.length = 12 := by
  have hdigits := Nat.toDigits_length 16 n 12 (by decide) hn
  unfold hexTwelve
  dsimp only
  rw [String.toList_ofList, List.length_append, List.length_replicate]
  exact Nat.sub_add_cancel hdigits

theorem length_identifier {n : Nat} (hn : n < 16 ^ 12) :
    ((identifier n).toList.filter (· ≠ '-')).length = 32 := by
  unfold identifier
  rw [String.toList_append, List.filter_append, filter_hexTwelve, List.length_append,
    length_hexTwelve hn]
  rfl

/-- Letters and digits are single bytes, and none of them is zero. -/
theorem toNat_of_isAlphanum {c : Char} (h : c.isAlphanum = true) :
    0 < c.toNat ∧ c.toNat < 0x80 := by
  have hranges : ((decide (65 ≤ c.val ∧ c.val ≤ 90) ||
      decide (97 ≤ c.val) && decide (c.val ≤ 122)) ||
      decide (48 ≤ c.val) && decide (c.val ≤ 57)) = true := h
  simp only [Bool.or_eq_true, Bool.and_eq_true, decide_eq_true_eq,
    UInt32.le_iff_toNat_le, UInt32.reduceToNat] at hranges
  have hvalue : c.val.toNat = c.toNat := rfl
  omega

end DocumentEngine.State
