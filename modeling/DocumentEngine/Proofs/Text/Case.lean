import DocumentEngine.Proofs.Text
import DocumentEngine.Text.Case

/-!
The first letter of a name in lower case. A letter that has been lowered stays as it is, so that a
name is lowered once for all; and no letter becomes a dot. An ASCII name keeps its size.
-/

namespace DocumentEngine.Text

/-- No character from `low` to `high` lies on the run. Where only every second of them counts, the run
may have the characters between those. -/
def CaseRun.avoids (r : CaseRun) (low high : Nat) (alternate : Bool) : Bool :=
  high.blt r.first || r.last.blt low || (alternate && r.step == 2 && (low - r.first) % 2 == 1)

/-- No run has a character that another character on a run is lowered to. -/
def loweredApart (r : CaseRun) : Bool :=
  lowercaseRuns.all fun other => other.avoids (r.first + r.shift).toNat (r.last + r.shift).toNat
    (r.first == r.last || r.step == 2)

namespace CaseRun

variable {r : CaseRun} {m n : Nat}

theorem image?_eq_some_iff : r.image? n = some m ↔
    r.first ≤ n ∧ n ≤ r.last ∧ r.step ∣ n - r.first ∧ m = (n + r.shift).toNat := by
  unfold image?
  rw [Option.ite_none_right_eq_some]
  simp only [Bool.and_eq_true, decide_eq_true_eq, beq_iff_eq, Nat.dvd_iff_mod_eq_zero, and_assoc,
    Option.some.injEq]
  exact and_congr_right fun _ => and_congr_right fun _ => and_congr_right fun _ => eq_comm

theorem image?_eq_none_of_avoids {low high : Nat} {alternate : Bool}
    (h : r.avoids low high alternate = true) (hlow : low ≤ m) (hhigh : m ≤ high)
    (hstep : alternate = true → 2 ∣ m - low) : r.image? m = none := by
  rw [Option.eq_none_iff_forall_ne_some]
  intro image himage
  obtain ⟨hfirst, hlast, hdvd, -⟩ := image?_eq_some_iff.mp himage
  simp only [avoids, Bool.or_eq_true, Bool.and_eq_true, Nat.blt_eq, beq_iff_eq] at h
  rcases h with (hbefore | hbehind) | ⟨⟨halternate, htwo⟩, hodd⟩
  · omega
  · omega
  · have heven := hstep halternate
    rw [htwo] at hdvd
    omega

end CaseRun

/-- A run whose characters are settled once they are lowered: what they become lies beyond the low
line, on one side of the capital that becomes two characters, and on no run. The character 0, in
place of numbers that are no characters, is settled as well. -/
structure CaseRun.Settles (r : CaseRun) : Prop where
  apart : loweredApart r = true
  zero : r.image? 0 = none
  beyond : (0x5F : Int) < r.first + r.shift
  aside : (r.last : Int) + r.shift < 0x130 ∨ (0x130 : Int) < r.first + r.shift

instance (r : CaseRun) : Decidable r.Settles :=
  decidable_of_iff (loweredApart r = true ∧ r.image? 0 = none ∧ (0x5F : Int) < r.first + r.shift ∧
    ((r.last : Int) + r.shift < 0x130 ∨ (0x130 : Int) < r.first + r.shift))
    ⟨fun ⟨hapart, hzero, hbeyond, haside⟩ => ⟨hapart, hzero, hbeyond, haside⟩,
      fun h => ⟨h.apart, h.zero, h.beyond, h.aside⟩⟩

theorem lowercaseRuns_settle : ∀ r ∈ lowercaseRuns, r.Settles := by decide +kernel

/-- The first run is that of the ASCII capitals. -/
theorem lowercaseRuns_eq : lowercaseRuns = ⟨0x41, 0x5A, 1, 32⟩ :: lowercaseRuns.tail ∧
    ∀ r ∈ lowercaseRuns.tail, 0x80 ≤ r.first := by
  refine ⟨rfl, ?_⟩
  decide +kernel

theorem image?_eq_none_of_ascii {n : Nat} (h : n < 0x80) :
    ∀ r ∈ lowercaseRuns.tail, r.image? n = none := by
  intro r hr
  rw [Option.eq_none_iff_forall_ne_some]
  intro image himage
  have hfirst := (CaseRun.image?_eq_some_iff.mp himage).1
  have hbeyond := lowercaseRuns_eq.2 r hr
  omega

/-- What a character on a run is lowered to stays as it is. -/
theorem lowered_fixed {r : CaseRun} (hr : r ∈ lowercaseRuns) {m n : Nat} (h : r.image? n = some m) :
    0x2E < m ∧ m ≠ 0x130 ∧ ∀ other ∈ lowercaseRuns, other.image? m = none := by
  obtain ⟨hfirst, hlast, hdvd, rfl⟩ := CaseRun.image?_eq_some_iff.mp h
  obtain ⟨hapart, -, hdot, hexpanded⟩ := lowercaseRuns_settle r hr
  have hapart := List.all_eq_true.mp hapart
  refine ⟨by omega, by omega, fun other hother => ?_⟩
  refine CaseRun.image?_eq_none_of_avoids (hapart other hother) (by omega) (by omega) fun heven => ?_
  have hn : 2 ∣ n - r.first := by
    rcases Bool.or_eq_true_iff.mp heven with hsingle | htwo
    · have hsame := beq_iff_eq.mp hsingle
      omega
    · rwa [beq_iff_eq.mp htwo] at hdvd
  omega

/-- A number that is no character stands for the character 0. -/
theorem toNat_ofNat_cases (n : Nat) : (Char.ofNat n).toNat = n ∨ (Char.ofNat n).toNat = 0 := by
  unfold Char.ofNat
  by_cases h : n.isValidChar
  · rw [dif_pos h]
    exact .inl rfl
  · rw [dif_neg h]
    exact .inr rfl

/-- The lower case of a character is that of the run it lies on. -/
theorem lowerChar_of_mem {c : Char} {m : Nat}
    (h : lowercaseRuns.findSome? (·.image? c.toNat) = some m) : lowerChar c = [Char.ofNat m] := by
  unfold lowerChar mapCase
  rw [h]

theorem lowerChar_of_notMem {c : Char} (hruns : ∀ r ∈ lowercaseRuns, r.image? c.toNat = none)
    (hexpanded : c.toNat ≠ 0x130) : lowerChar c = [c] := by
  have hnone : lowercaseRuns.findSome? (·.image? c.toNat) = none := by simpa using hruns
  have hother : (c.toNat == 0x130) = false := by simpa using hexpanded
  unfold lowerChar mapCase
  rw [hnone]
  simp only [lowercaseExpansions, List.lookup_cons, List.lookup_nil, hother]

/-- A character becomes one that is lowered already, and a dot comes of a dot alone. -/
theorem lowerChar_spec (c : Char) : ∃ d ds, lowerChar c = d :: ds ∧ lowerChar d = [d] ∧
    ('.' ∈ d :: ds → c = '.') := by
  cases hfound : lowercaseRuns.findSome? (·.image? c.toNat) with
  | some m =>
    obtain ⟨r, hr, himage⟩ := List.exists_of_findSome?_eq_some hfound
    obtain ⟨hdot, hexpanded, hruns⟩ := lowered_fixed hr himage
    refine ⟨Char.ofNat m, [], lowerChar_of_mem hfound, ?_⟩
    have hfixed : (∀ other ∈ lowercaseRuns, other.image? (Char.ofNat m).toNat = none) ∧
        (Char.ofNat m).toNat ≠ 0x130 ∧ (Char.ofNat m).toNat ≠ 0x2E := by
      rcases toNat_ofNat_cases m with hm | hm
      · rw [hm]
        exact ⟨hruns, hexpanded, by omega⟩
      · rw [hm]
        exact ⟨fun r hr => (lowercaseRuns_settle r hr).zero, by decide, by decide⟩
    refine ⟨lowerChar_of_notMem hfixed.1 hfixed.2.1, fun hmem => absurd ?_ hfixed.2.2⟩
    rw [← List.mem_singleton.mp hmem]
    rfl
  | none =>
    have hruns : ∀ r ∈ lowercaseRuns, r.image? c.toNat = none := by simpa using hfound
    by_cases hexpanded : c.toNat = 0x130
    · obtain rfl : c = Char.ofNat 0x130 := by rw [← hexpanded, Char.ofNat_toNat]
      exact ⟨'i', [Char.ofNat 0x307], by decide, by decide, by decide⟩
    · exact ⟨c, [], lowerChar_of_notMem hruns hexpanded, lowerChar_of_notMem hruns hexpanded,
        fun hdot => (List.mem_singleton.mp hdot).symm⟩

theorem lowerFirst_cons {s : String} {c : Char} {cs : List Char} (h : s.toList = c :: cs) :
    (lowerFirst s).toList = lowerChar c ++ cs := by
  unfold lowerFirst
  rw [h]
  exact String.toList_ofList

/-- A name is lowered once for all. -/
@[simp] theorem lowerFirst_lowerFirst (s : String) : lowerFirst (lowerFirst s) = lowerFirst s := by
  cases hs : s.toList with
  | nil =>
    obtain rfl := String.toList_eq_nil_iff.mp hs
    rfl
  | cons c cs =>
    obtain ⟨d, ds, hlower, hfixed, -⟩ := lowerChar_spec c
    have hfirst := lowerFirst_cons hs
    rw [hlower, List.cons_append] at hfirst
    rw [← String.toList_inj, lowerFirst_cons hfirst, hfixed, hfirst, List.singleton_append]

theorem lowerFirst_eq_empty_iff {s : String} : lowerFirst s = "" ↔ s = "" := by
  cases hs : s.toList with
  | nil =>
    obtain rfl := String.toList_eq_nil_iff.mp hs
    simp [lowerFirst]
  | cons c cs =>
    obtain ⟨d, ds, hlower, -, -⟩ := lowerChar_spec c
    rw [← String.toList_eq_nil_iff, ← String.toList_eq_nil_iff, lowerFirst_cons hs, hs, hlower]
    simp

theorem dot_mem_lowerFirst_iff {s : String} : '.' ∈ (lowerFirst s).toList ↔ '.' ∈ s.toList := by
  cases hs : s.toList with
  | nil =>
    obtain rfl := String.toList_eq_nil_iff.mp hs
    simp [lowerFirst]
  | cons c cs =>
    obtain ⟨d, ds, hlower, -, hdot⟩ := lowerChar_spec c
    rw [lowerFirst_cons hs, List.mem_append, List.mem_cons]
    refine or_congr_left ⟨fun h => (hdot (hlower ▸ h)).symm, ?_⟩
    rintro rfl
    decide

/-! ASCII names -/

theorem lowerChar_ascii {c : Char} (h : c.toNat < 0x80) :
    ∃ d : Char, lowerChar c = [d] ∧ d.toNat < 0x80 := by
  cases hcapital : CaseRun.image? ⟨0x41, 0x5A, 1, 32⟩ c.toNat with
  | some m =>
    obtain ⟨hfirst, hlast, -, hm⟩ := CaseRun.image?_eq_some_iff.mp hcapital
    dsimp only at hfirst hlast hm
    refine ⟨Char.ofNat m, lowerChar_of_mem ?_, ?_⟩
    · rw [lowercaseRuns_eq.1, List.findSome?_cons, hcapital]
    · rcases toNat_ofNat_cases m with hd | hd <;> omega
  | none =>
    refine ⟨c, lowerChar_of_notMem ?_ (by omega), h⟩
    rw [lowercaseRuns_eq.1]
    exact List.forall_mem_cons.mpr ⟨hcapital, image?_eq_none_of_ascii h⟩

theorem utf8ByteSize_ascii {s : String} (h : ∀ c ∈ s.toList, c.toNat < 0x80) :
    s.utf8ByteSize = s.toList.length := by
  have hsize : s.utf8ByteSize = (bytes s).length := rfl
  have hone : ∀ c ∈ s.toList, (String.utf8EncodeChar c).length = 1 := by
    intro c hc
    rw [String.length_utf8EncodeChar, Char.utf8Size_eq_one_iff]
    exact Nat.le_of_lt_succ (h c hc)
  rw [hsize, bytes_eq, List.length_flatMap, List.map_congr_left hone, List.map_const',
    List.sum_replicate_nat, Nat.mul_one]

/-- An ASCII name has as many bytes as characters, also with its first letter lowered. -/
theorem utf8ByteSize_lowerFirst {s : String} (h : ∀ c ∈ s.toList, c.toNat < 0x80) :
    (lowerFirst s).utf8ByteSize = s.toList.length := by
  cases hs : s.toList with
  | nil =>
    obtain rfl := String.toList_eq_nil_iff.mp hs
    rfl
  | cons c cs =>
    rw [hs, List.forall_mem_cons] at h
    obtain ⟨d, hlower, hd⟩ := lowerChar_ascii h.1
    have hfirst := lowerFirst_cons hs
    rw [hlower, List.singleton_append] at hfirst
    rw [utf8ByteSize_ascii, hfirst, List.length_cons, List.length_cons]
    rw [hfirst]
    exact List.forall_mem_cons.mpr ⟨hd, h.2⟩

end DocumentEngine.Text
