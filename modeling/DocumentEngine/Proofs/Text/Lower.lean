import DocumentEngine.Proofs.Text.Case
import Mathlib.Data.List.TakeWhile
import Mathlib.Tactic.ByContra

/-!
Whole texts in lower case. A text keeps its lower case within a longer one, but for a capital sigma
at its ends: whether one is final may depend on what is put before it or behind it. The texts in
which no sigma depends on that are settled, and for every other text there is a longer one that
lacks its lower case.
-/

namespace DocumentEngine.Text

/-! Characters that only they themselves are lowered to -/

theorem eq_of_mem_lowerChar {c d : Char} (hd : d.toNat ≤ 0x5F) (hzero : d.toNat ≠ 0)
    (h : d ∈ lowerChar c) : c = d := by
  cases hfound : lowercaseRuns.findSome? (·.image? c.toNat) with
  | some m =>
    obtain ⟨r, hr, himage⟩ := List.exists_of_findSome?_eq_some hfound
    obtain ⟨hfirst, -, -, rfl⟩ := CaseRun.image?_eq_some_iff.mp himage
    have hbeyond := (lowercaseRuns_settle r hr).beyond
    rw [lowerChar_of_mem hfound, List.mem_singleton] at h
    subst h
    rcases toNat_ofNat_cases (c.toNat + r.shift).toNat with hm | hm <;> omega
  | none =>
    have hruns : ∀ r ∈ lowercaseRuns, r.image? c.toNat = none := by simpa using hfound
    by_cases hexpanded : c.toNat = 0x130
    · obtain rfl : c = Char.ofNat 0x130 := by rw [← hexpanded, Char.ofNat_toNat]
      have hlower : lowerChar (Char.ofNat 0x130) = ['i', Char.ofNat 0x307] := by decide
      rw [hlower] at h
      simp only [List.mem_cons, List.not_mem_nil, or_false] at h
      rcases h with rfl | rfl <;> exact absurd hd (by decide)
    · rw [lowerChar_of_notMem hruns hexpanded, List.mem_singleton] at h
      exact h.symm

/-- The percent sign and the low line are lowered to themselves. -/
theorem lowerChar_mark {d : Char} (hd : d = '%' ∨ d = '_') : lowerChar d = [d] := by
  rcases hd with rfl | rfl <;> decide

theorem mem_lowerAfter_iff {d : Char} (hd : d = '%' ∨ d = '_') {before cs : List Char} :
    d ∈ lowerAfter before cs ↔ d ∈ cs := by
  have hlow : d.toNat ≤ 0x5F ∧ d.toNat ≠ 0 ∧ d ≠ 'Σ' ∧ d ≠ 'ς' ∧ d ≠ 'σ' := by
    rcases hd with rfl | rfl <;> decide
  induction cs generalizing before with
  | nil => rfl
  | cons c cs ih =>
    have hrest : d ∈ lowerAfter (c :: before) cs ↔ d ∈ cs := ih
    rw [lowerAfter, List.mem_append, List.mem_cons, hrest]
    refine or_congr_left ?_
    by_cases hsigma : c = 'Σ'
    · rw [if_pos hsigma, hsigma]
      split <;> simp [hlow]
    · rw [if_neg hsigma]
      constructor
      · exact fun hmem => (eq_of_mem_lowerChar hlow.1 hlow.2.1 hmem).symm
      · rintro rfl
        rw [lowerChar_mark hd]
        exact List.mem_singleton_self d

/-- A lowered text has the percent signs and low lines of the text. -/
theorem mem_lower_iff {d : Char} (hd : d = '%' ∨ d = '_') {s : String} :
    d ∈ (lower s).toList ↔ d ∈ s.toList := by
  rw [lower, String.toList_ofList]
  exact mem_lowerAfter_iff hd

/-! The lower case of a part of a text -/

/-- The lower case of a text between others: behind the characters `before`, the nearest first, and
in front of the characters `after`. -/
def lowerBetween (before after : List Char) : List Char → List Char
  | [] => []
  | c :: cs =>
    let lowered :=
      if c = 'Σ' then [if isFinalSigma before (cs ++ after) then 'ς' else 'σ'] else lowerChar c
    lowered ++ lowerBetween (c :: before) after cs

theorem lowerAfter_append (before cs after : List Char) :
    lowerAfter before (cs ++ after) =
      lowerBetween before after cs ++ lowerAfter (cs.reverse ++ before) after := by
  induction cs generalizing before with
  | nil => rfl
  | cons c cs ih =>
    rw [List.cons_append, lowerAfter, lowerBetween, ih, List.reverse_cons, List.append_assoc,
      List.append_assoc, List.singleton_append]

theorem lowerAfter_eq (before cs : List Char) :
    lowerAfter before cs = lowerBetween before [] cs := by
  have happend := lowerAfter_append before cs []
  rwa [List.append_nil, lowerAfter, List.append_nil] at happend

theorem lowerBetween_append (before after cs ds : List Char) :
    lowerBetween before after (cs ++ ds) =
      lowerBetween before (ds ++ after) cs ++ lowerBetween (cs.reverse ++ before) after ds := by
  induction cs generalizing before with
  | nil => rfl
  | cons c cs ih =>
    rw [List.cons_append, lowerBetween, lowerBetween, ih, List.reverse_cons, List.append_assoc,
      List.append_assoc, List.append_assoc, List.singleton_append]

/-- Only its sigmas tie the lower case of a text to what stands around it. -/
theorem lowerBetween_congr {before after before' after' cs : List Char}
    (h : ∀ front back, cs = front ++ 'Σ' :: back →
      isFinalSigma (front.reverse ++ before) (back ++ after) =
        isFinalSigma (front.reverse ++ before') (back ++ after')) :
    lowerBetween before after cs = lowerBetween before' after' cs := by
  induction cs generalizing before before' with
  | nil => rfl
  | cons c cs ih =>
    have hrest : lowerBetween (c :: before) after cs = lowerBetween (c :: before') after' cs := by
      refine ih fun front back hcs => ?_
      have hsigma := h (c :: front) back (by rw [hcs, List.cons_append])
      rwa [List.reverse_cons, List.append_assoc, List.append_assoc] at hsigma
    rw [lowerBetween, lowerBetween, hrest]
    by_cases hc : c = 'Σ'
    · have hsigma := h [] cs (by rw [hc, List.nil_append])
      rw [List.reverse_nil, List.nil_append, List.nil_append] at hsigma
      rw [if_pos hc, if_pos hc, hsigma]
    · rw [if_neg hc, if_neg hc]

/-! What a sigma meets -/

/-- Characters that case ignores do not hide what stands behind them. -/
theorem meetsCased_append_of_all {cs : List Char} (h : cs.all isCaseIgnorable = true)
    (ds : List Char) : meetsCased (cs ++ ds) = meetsCased ds := by
  unfold meetsCased
  rw [List.dropWhile_append_of_pos (List.all_eq_true.mp h)]

/-- Any other character hides what stands behind it. -/
theorem meetsCased_append_of_not_all {cs : List Char} (h : cs.all isCaseIgnorable ≠ true)
    (ds : List Char) : meetsCased (cs ++ ds) = meetsCased cs := by
  have hne : cs.dropWhile isCaseIgnorable ≠ [] := by
    rwa [Ne, List.dropWhile_eq_nil_iff, ← List.all_eq_true]
  unfold meetsCased
  rw [List.dropWhile_append, if_neg (by simpa using hne)]
  cases hdrop : cs.dropWhile isCaseIgnorable with
  | nil => exact absurd hdrop hne
  | cons c cs => rfl

theorem meetsCased_of_all {cs : List Char} (h : cs.all isCaseIgnorable = true) :
    meetsCased cs = false := by
  have hmeets := meetsCased_append_of_all h []
  rwa [List.append_nil] at hmeets

theorem not_all_of_meetsCased {cs : List Char} (h : meetsCased cs = true) :
    cs.all isCaseIgnorable ≠ true := by
  intro hall
  rw [meetsCased_of_all hall] at h
  exact absurd h Bool.false_ne_true

theorem isCaseIgnorable_sigma : isCaseIgnorable 'Σ' = false := by decide

theorem not_all_of_sigma (cs ds : List Char) : (cs ++ 'Σ' :: ds).all isCaseIgnorable ≠ true := by
  simp [isCaseIgnorable_sigma]

/-- Whether no sigma at the beginning of a text depends on what stands before the text: the first
character that case does not ignore is none, or a cased one stands behind it. -/
def beginsSettled (cs : List Char) : Bool :=
  match cs.dropWhile isCaseIgnorable with
  | 'Σ' :: back => meetsCased back
  | _ => true

/-- Whether no sigma at the end of a text depends on what stands behind the text: the last character
that case does not ignore is none, or no cased one stands before it. -/
def endsSettled (cs : List Char) : Bool :=
  match cs.reverse.dropWhile isCaseIgnorable with
  | 'Σ' :: before => !meetsCased before
  | _ => true

theorem dropWhile_eq_sigma_iff {cs back : List Char} :
    cs.dropWhile isCaseIgnorable = 'Σ' :: back ↔
      ∃ front, cs = front ++ 'Σ' :: back ∧ front.all isCaseIgnorable = true := by
  constructor
  · intro hdrop
    refine ⟨cs.takeWhile isCaseIgnorable, ?_, List.all_takeWhile⟩
    rw [← hdrop, List.takeWhile_append_dropWhile]
  · rintro ⟨front, rfl, hfront⟩
    rw [List.dropWhile_append_of_pos (List.all_eq_true.mp hfront), List.dropWhile_cons,
      isCaseIgnorable_sigma]
    rfl

theorem beginsSettled_eq_false_iff {cs : List Char} : beginsSettled cs = false ↔
    ∃ front back, cs = front ++ 'Σ' :: back ∧ front.all isCaseIgnorable = true ∧
      meetsCased back = false := by
  have hdrop : beginsSettled cs = false ↔
      ∃ back, cs.dropWhile isCaseIgnorable = 'Σ' :: back ∧ meetsCased back = false := by
    unfold beginsSettled
    split
    · next back hback => simp [hback]
    · next hother => simpa using fun back hback => absurd hback (hother back)
  simp only [hdrop, dropWhile_eq_sigma_iff]
  constructor
  · rintro ⟨back, ⟨front, hcs, hfront⟩, hback⟩
    exact ⟨front, back, hcs, hfront, hback⟩
  · rintro ⟨front, back, hcs, hfront, hback⟩
    exact ⟨back, ⟨front, hcs, hfront⟩, hback⟩

theorem endsSettled_eq_false_iff {cs : List Char} : endsSettled cs = false ↔
    ∃ front back, cs = front ++ 'Σ' :: back ∧ back.all isCaseIgnorable = true ∧
      meetsCased front.reverse = true := by
  have hdrop : endsSettled cs = false ↔
      ∃ before, cs.reverse.dropWhile isCaseIgnorable = 'Σ' :: before ∧
        meetsCased before = true := by
    unfold endsSettled
    split
    · next before hbefore => simp [hbefore]
    · next hother => simpa using fun before hbefore => absurd hbefore (hother before)
  simp only [hdrop, dropWhile_eq_sigma_iff]
  constructor
  · rintro ⟨before, ⟨behind, hcs, hbehind⟩, hbefore⟩
    refine ⟨before.reverse, behind.reverse, ?_, by simpa using hbehind, by simpa using hbefore⟩
    rw [← List.reverse_reverse cs, hcs]
    simp
  · rintro ⟨front, back, rfl, hback, hfront⟩
    exact ⟨front.reverse, ⟨back.reverse, by simp, by simpa using hback⟩, hfront⟩

theorem settled_of_notMem {cs : List Char} (h : 'Σ' ∉ cs) :
    beginsSettled cs = true ∧ endsSettled cs = true := by
  rw [← Bool.not_eq_false, ← Bool.not_eq_false, beginsSettled_eq_false_iff,
    endsSettled_eq_false_iff]
  constructor <;> rintro ⟨front, back, rfl, -⟩ <;> simp at h

variable {before after cs front back : List Char}

/-- A sigma is final within a longer text as it is in the text alone, where the text is settled
on the sides on which the longer one goes on. -/
theorem isFinalSigma_within (hcs : cs = front ++ 'Σ' :: back)
    (hbefore : before = [] ∨ beginsSettled cs = true)
    (hafter : after = [] ∨ endsSettled cs = true) :
    isFinalSigma (front.reverse ++ before) (back ++ after) = isFinalSigma front.reverse back := by
  unfold isFinalSigma
  by_cases hfront : front.all isCaseIgnorable = true
  · have hnone : meetsCased front.reverse = false := meetsCased_of_all (by simpa using hfront)
    rcases hbefore with rfl | hbefore
    · rw [List.append_nil, hnone, Bool.false_and, Bool.false_and]
    · have hback : meetsCased back = true := by
        rw [← Bool.not_eq_false, beginsSettled_eq_false_iff] at hbefore
        by_contra hmeets
        exact hbefore ⟨front, back, hcs, hfront, by simpa using hmeets⟩
      rw [meetsCased_append_of_not_all (not_all_of_meetsCased hback), hback, Bool.not_true,
        Bool.and_false, Bool.and_false]
  · have hfront : front.reverse.all isCaseIgnorable ≠ true := by simpa using hfront
    rw [meetsCased_append_of_not_all hfront]
    by_cases hback : back.all isCaseIgnorable = true
    · rcases hafter with rfl | hafter
      · rw [List.append_nil]
      · have hmeets : meetsCased front.reverse = false := by
          rw [← Bool.not_eq_false, endsSettled_eq_false_iff] at hafter
          by_contra hmeets
          exact hafter ⟨front, back, hcs, hback, by simpa using hmeets⟩
        rw [hmeets, Bool.false_and, Bool.false_and]
    · rw [meetsCased_append_of_not_all hback]

/-- A text keeps its lower case where it is settled on the sides on which a longer one goes on. -/
theorem lowerBetween_eq (hbefore : before = [] ∨ beginsSettled cs = true)
    (hafter : after = [] ∨ endsSettled cs = true) :
    lowerBetween before after cs = lowerAfter [] cs := by
  rw [lowerAfter_eq]
  refine lowerBetween_congr fun front back hcs => ?_
  rw [List.append_nil, List.append_nil]
  exact isFinalSigma_within hcs hbefore hafter

/-- A longer text has the lower case of a text in it that is settled on the sides on which the
longer one goes on. -/
theorem lowerAfter_within (hbefore : before = [] ∨ beginsSettled cs = true)
    (hafter : after = [] ∨ endsSettled cs = true) :
    lowerAfter [] cs <:+: lowerAfter [] (before ++ cs ++ after) := by
  have hwithin : lowerBetween before.reverse after cs = lowerAfter [] cs :=
    lowerBetween_eq (hbefore.imp_left fun h => by rw [h, List.reverse_nil]) hafter
  rw [List.append_assoc, lowerAfter_append, lowerAfter_append, List.append_nil, hwithin]
  exact ⟨_, _, List.append_assoc _ _ _⟩

/-- The lower case of a text around one of its sigmas. -/
theorem lowerBetween_sigma (before after front back : List Char) :
    lowerBetween before after (front ++ 'Σ' :: back) =
      lowerBetween before ('Σ' :: (back ++ after)) front ++
        (if isFinalSigma (front.reverse ++ before) (back ++ after) then 'ς' else 'σ') ::
          lowerBetween ('Σ' :: (front.reverse ++ before)) after back := by
  rw [lowerBetween_append, lowerBetween, if_pos rfl, List.singleton_append, List.cons_append]

/-- What stands behind a sigma is not met by the sigmas before it. -/
theorem lowerBetween_front (before after after' front : List Char) :
    lowerBetween before ('Σ' :: after) front = lowerBetween before ('Σ' :: after') front := by
  refine lowerBetween_congr fun left right _ => ?_
  have hmeets : ∀ ds, meetsCased (right ++ 'Σ' :: ds) = meetsCased (right ++ ['Σ']) := fun ds => by
    have happend := meetsCased_append_of_not_all (not_all_of_sigma right []) ds
    rwa [List.append_assoc, List.singleton_append] at happend
  rw [isFinalSigma, isFinalSigma, hmeets, hmeets after']

/-- What stands before a sigma is not met by the sigmas behind it. -/
theorem lowerBetween_back (before before' after back : List Char) :
    lowerBetween ('Σ' :: before) after back = lowerBetween ('Σ' :: before') after back := by
  refine lowerBetween_congr fun left right _ => ?_
  have hmeets : ∀ ds, meetsCased (left.reverse ++ 'Σ' :: ds) = meetsCased (left.reverse ++ ['Σ']) :=
    fun ds => by
      have happend := meetsCased_append_of_not_all (not_all_of_sigma left.reverse []) ds
      rwa [List.append_assoc, List.singleton_append] at happend
  rw [isFinalSigma, isFinalSigma, hmeets, hmeets before']

theorem lowerBetween_of_all (h : cs.all isCaseIgnorable = true)
    (before after before' after' : List Char) :
    lowerBetween before after cs = lowerBetween before' after' cs := by
  refine lowerBetween_congr fun left right hcs => ?_
  rw [hcs] at h
  exact absurd h (not_all_of_sigma left right)

theorem meetsCased_letter (cs : List Char) : meetsCased ('x' :: cs) = true := by
  have hletter : isCaseIgnorable 'x' = false ∧ isCased 'x' = true := by decide
  simp [meetsCased, hletter]

theorem lowerChar_letter : lowerChar 'x' = ['x'] := by decide

theorem lowerAfter_letter_behind (cs : List Char) :
    lowerAfter [] (cs ++ ['x']) = lowerBetween [] ['x'] cs ++ ['x'] := by
  rw [lowerAfter_append, lowerAfter, if_neg (by decide), lowerChar_letter]
  rfl

theorem lowerAfter_letter_before (cs : List Char) :
    lowerAfter [] ('x' :: cs) = 'x' :: lowerBetween ['x'] [] cs := by
  rw [lowerAfter, if_neg (by decide), lowerChar_letter, lowerAfter_eq]
  rfl

/-- A letter behind a text that does not end settled takes a final sigma away. -/
theorem not_infix_of_not_endsSettled (h : endsSettled cs = false) :
    ¬lowerAfter [] cs <:+: lowerAfter [] (cs ++ ['x']) := by
  obtain ⟨front, back, rfl, hback, hfront⟩ := endsSettled_eq_false_iff.mp h
  have halone : isFinalSigma (front.reverse ++ []) (back ++ []) = true := by
    rw [List.append_nil, List.append_nil, isFinalSigma, hfront, meetsCased_of_all hback]
    rfl
  have hwithin : isFinalSigma (front.reverse ++ []) (back ++ ['x']) = false := by
    rw [isFinalSigma, meetsCased_append_of_all hback, meetsCased_letter, Bool.not_true,
      Bool.and_false]
  intro hpart
  have hcount := hpart.sublist.count_le 'ς'
  rw [lowerAfter_letter_behind, lowerAfter_eq, lowerBetween_sigma, lowerBetween_sigma, halone,
    hwithin, lowerBetween_front [] (back ++ []) (back ++ ['x']),
    lowerBetween_of_all hback _ [] ('Σ' :: (front.reverse ++ [])) ['x']] at hcount
  simp at hcount

/-- A letter before a text that does not begin settled makes a sigma final. -/
theorem not_infix_of_not_beginsSettled (h : beginsSettled cs = false) :
    ¬lowerAfter [] cs <:+: lowerAfter [] ('x' :: cs) := by
  obtain ⟨front, back, rfl, hfront, hback⟩ := beginsSettled_eq_false_iff.mp h
  have hfront' : front.reverse.all isCaseIgnorable = true := by simpa using hfront
  have halone : isFinalSigma (front.reverse ++ []) (back ++ []) = false := by
    rw [List.append_nil, isFinalSigma, meetsCased_of_all hfront', Bool.false_and]
  have hwithin : isFinalSigma (front.reverse ++ ['x']) (back ++ []) = true := by
    rw [List.append_nil, isFinalSigma, meetsCased_append_of_all hfront', meetsCased_letter, hback]
    rfl
  intro hpart
  have hcount := hpart.sublist.count_le 'σ'
  rw [lowerAfter_letter_before, lowerAfter_eq, lowerBetween_sigma, lowerBetween_sigma, halone,
    hwithin, lowerBetween_back (front.reverse ++ []) (front.reverse ++ ['x']),
    lowerBetween_of_all hfront [] _ ['x'] ('Σ' :: (back ++ []))] at hcount
  simp at hcount

end DocumentEngine.Text
