import DocumentEngine.Proofs.Evaluation.Like

/-!
Laws between operators. Membership is equality with one of the targets, and the negated operators
are complements, but for a scalar that is held against no targets at all: it passes nothing.

A text that has another one in it, at its beginning or at its end need not be like it: lower case
may make a capital sigma final in the one and not in the other. For which texts it always is like
them is decided by their own sigmas.
-/

namespace DocumentEngine.Evaluation

open Text

/-! Negated operators -/

/-- A value passes as one of some targets where it passes as one of them alone. -/
theorem satisfies_isIn_iff_exists (v : Option Json) (targets : List Json) :
    satisfies .isIn v targets = true ↔
      ∃ target ∈ targets, satisfies .isIn v [target] = true := by
  have hscalar : ∀ v : Json, satisfiesScalar .isIn v targets = true ↔
      ∃ target ∈ targets, satisfiesScalar .isIn v [target] = true := by
    intro v
    cases targets with
    | nil => simp [satisfiesScalar]
    | cons target targets => simp [satisfiesScalar]
  cases v with
  | none => simp [satisfies]
  | some v =>
    cases v with
    | null => simp [satisfies]
    | arr items =>
      simp only [satisfies, satisfiesList, List.any_eq_true, hscalar]
      constructor
      · rintro ⟨item, hitem, target, htarget, h⟩
        exact ⟨target, htarget, item, hitem, h⟩
      · rintro ⟨target, htarget, item, hitem, h⟩
        exact ⟨item, hitem, target, htarget, h⟩
    | _ => exact hscalar _

/-- Membership in one target is equality with it, but for what is absent or null. -/
theorem satisfies_isIn_singleton_eq {v : Json} (h : v.isNull = false) (target : Json) :
    satisfies .isIn (some v) [target] = satisfies .eq (some v) [target] := by
  cases v with
  | null => cases h
  | arr items => simp [satisfies, satisfiesList, satisfiesScalar]
  | _ => simp [satisfies, satisfiesScalar]

theorem satisfies_isIn_eq_any {v : Json} (h : v.isNull = false) (targets : List Json) :
    satisfies .isIn (some v) targets =
      targets.any fun target => satisfies .eq (some v) [target] := by
  rw [Bool.eq_iff_iff, satisfies_isIn_iff_exists, List.any_eq_true]
  simp only [satisfies_isIn_singleton_eq h]

/-- A value that is not null and no list is held against the targets itself. -/
theorem satisfies_scalar {v : Json} (hnull : v.isNull = false) (hlist : ∀ items, v ≠ .arr items)
    (op : Operator) (targets : List Json) :
    satisfies op (some v) targets = satisfiesScalar op v targets := by
  cases v with
  | null => cases hnull
  | arr items => exact absurd rfl (hlist items)
  | _ => rfl

/-- The negated operators are complements exactly where there are targets or the value is a list,
and membership is equality with one of the targets. -/
theorem negations_iff {v : Json} (h : v.isNull = false) (targets : List Json) :
    ((satisfies .ne (some v) targets = !satisfies .eq (some v) targets ∧
        satisfies .notIn (some v) targets = !satisfies .isIn (some v) targets) ↔
      targets ≠ [] ∨ ∃ items, v = .arr items) ∧
    satisfies .isIn (some v) targets =
      targets.any fun target => satisfies .eq (some v) [target] := by
  refine ⟨?_, satisfies_isIn_eq_any h targets⟩
  by_cases hlist : ∃ items, v = .arr items
  · obtain ⟨items, rfl⟩ := hlist
    exact iff_of_true ⟨rfl, rfl⟩ (.inr ⟨items, rfl⟩)
  · have hscalar := satisfies_scalar h (not_exists.mp hlist)
    simp only [hscalar, hlist, or_false]
    cases targets with
    | nil => exact iff_of_false (fun hneg => Bool.false_ne_true hneg.1) (fun hne => hne rfl)
    | cons target targets => exact iff_of_true ⟨rfl, rfl⟩ (List.cons_ne_nil _ _)

theorem negations_iff_ages : (Json.int 30).isNull = false ∧
    satisfies .ne (some (.int 30)) [.str "30", .null] =
      !satisfies .eq (some (.int 30)) [.str "30", .null] ∧
    satisfies .notIn (some (.int 30)) [.str "30", .null] =
      !satisfies .isIn (some (.int 30)) [.str "30", .null] := by
  have hneg := (negations_iff (v := .int 30) rfl [.str "30", .null]).1.mpr (.inl (by simp))
  exact ⟨rfl, hneg.1, hneg.2⟩

/-- Without targets a scalar passes neither an operator nor its negation. -/
theorem exists_not_complement : ∃ (v : Json) (targets : List Json), v.isNull = false ∧
    satisfies .ne (some v) targets = satisfies .eq (some v) targets ∧
    satisfies .notIn (some v) targets = satisfies .isIn (some v) targets :=
  ⟨.int 30, [], rfl, rfl, rfl⟩

/-! Containment and likeness -/

theorem containsChars_iff {part cs : List Char} : containsChars part cs = true ↔ part <:+: cs := by
  induction cs with
  | nil => rw [containsChars, List.isEmpty_iff, List.infix_nil]
  | cons c cs ih =>
    rw [containsChars, Bool.or_eq_true, List.isPrefixOf_iff_prefix, ih, List.infix_cons_iff]

theorem satisfies_containing_iff {text part : String} :
    satisfies .containing (some (.str text)) [.str part] = true ↔
      part.toList <:+: text.toList := containsChars_iff

theorem satisfies_startingWith_iff {text part : String} :
    satisfies .startingWith (some (.str text)) [.str part] = true ↔
      part.toList <+: text.toList := List.isPrefixOf_iff_prefix

theorem satisfies_endingWith_iff {text part : String} :
    satisfies .endingWith (some (.str text)) [.str part] = true ↔
      part.toList <:+ text.toList := List.isSuffixOf_iff_suffix

/-- Without wildcards a text is like another one that it has in it, both taken in lower case. -/
theorem satisfies_like_iff {text part : String} (h : hasWildcard part.toList = false) :
    satisfies .like (some (.str text)) [.str part] = true ↔
      lowerAfter [] part.toList <:+: lowerAfter [] text.toList := by
  have hlike : satisfies .like (some (.str text)) [.str part] = isLike text part := rfl
  rw [hlike, isLike, hasWildcard_lower, if_neg (by rw [h]; exact Bool.false_ne_true),
    containsChars_iff, lower, lower, String.toList_ofList, String.toList_ofList]

/-- Every text that passes an operator with a part is like that part. -/
def ImpliesLike (op : Operator) (part : String) : Prop :=
  ∀ text : String, satisfies op (some (.str text)) [.str part] = true →
    satisfies .like (some (.str text)) [.str part] = true

variable {part : String}

theorem exists_begun_not_like (h : hasWildcard part.toList = false)
    (hends : endsSettled part.toList = false) :
    ∃ text : String, part.toList <+: text.toList ∧
      ¬satisfies .like (some (.str text)) [.str part] = true := by
  refine ⟨String.ofList (part.toList ++ ['x']), ?_, ?_⟩
  · rw [String.toList_ofList]
    exact List.prefix_append _ _
  · rw [satisfies_like_iff h, String.toList_ofList]
    exact not_infix_of_not_endsSettled hends

theorem exists_ended_not_like (h : hasWildcard part.toList = false)
    (hbegins : beginsSettled part.toList = false) :
    ∃ text : String, part.toList <:+ text.toList ∧
      ¬satisfies .like (some (.str text)) [.str part] = true := by
  refine ⟨String.ofList ('x' :: part.toList), ?_, ?_⟩
  · rw [String.toList_ofList]
    exact List.suffix_cons _ _
  · rw [satisfies_like_iff h, String.toList_ofList]
    exact not_infix_of_not_beginsSettled hbegins

/-- A text that begins with a part is always like it where the part ends settled, one that ends with
it where the part begins settled, and one that contains it where both hold; so it is for every part
without a capital sigma. -/
theorem impliesLike_iff (h : hasWildcard part.toList = false) :
    (ImpliesLike .containing part ↔
      beginsSettled part.toList = true ∧ endsSettled part.toList = true) ∧
    (ImpliesLike .startingWith part ↔ endsSettled part.toList = true) ∧
    (ImpliesLike .endingWith part ↔ beginsSettled part.toList = true) ∧
    ('Σ' ∉ part.toList →
      beginsSettled part.toList = true ∧ endsSettled part.toList = true) := by
  have hends : (∀ text : String, part.toList <+: text.toList →
      satisfies .like (some (.str text)) [.str part] = true) → endsSettled part.toList = true := by
    intro hall
    by_contra hends
    obtain ⟨text, hbegun, hnot⟩ := exists_begun_not_like h (by simpa using hends)
    exact hnot (hall text hbegun)
  have hbegins : (∀ text : String, part.toList <:+ text.toList →
      satisfies .like (some (.str text)) [.str part] = true) →
      beginsSettled part.toList = true := by
    intro hall
    by_contra hbegins
    obtain ⟨text, hended, hnot⟩ := exists_ended_not_like h (by simpa using hbegins)
    exact hnot (hall text hended)
  unfold ImpliesLike
  simp only [satisfies_containing_iff, satisfies_startingWith_iff, satisfies_endingWith_iff]
  refine ⟨⟨fun hall => ⟨?_, ?_⟩, ?_⟩, ⟨hends, ?_⟩, ⟨hbegins, ?_⟩, settled_of_notMem⟩
  · exact hbegins fun text hended => hall text hended.isInfix
  · exact hends fun text hbegun => hall text hbegun.isInfix
  · rintro ⟨hbegins, hends⟩ text ⟨before, after, htext⟩
    rw [satisfies_like_iff h, ← htext]
    exact lowerAfter_within (.inr hbegins) (.inr hends)
  · rintro hends text ⟨after, htext⟩
    rw [satisfies_like_iff h, ← htext]
    exact lowerAfter_within (.inl rfl) (.inr hends)
  · rintro hbegins text ⟨before, htext⟩
    have hpart := @lowerAfter_within before [] part.toList (.inr hbegins) (.inl rfl)
    rwa [satisfies_like_iff h, ← htext, ← List.append_nil (before ++ part.toList)]

theorem impliesLike_iff_street : hasWildcard "ΟΔΟΣ ".toList = false ∧
    ImpliesLike .containing "ΟΔΟΣ " := by
  have hwild : hasWildcard "ΟΔΟΣ ".toList = false := by decide
  exact ⟨hwild, (impliesLike_iff hwild).1.mpr ⟨by decide, by decide⟩⟩

/-- The sigma that ends the part is final, and in a longer text it is not. -/
theorem exists_contained_not_like : ∃ text part : String, hasWildcard part.toList = false ∧
    satisfies .containing (some (.str text)) [.str part] = true ∧
    satisfies .like (some (.str text)) [.str part] = false :=
  ⟨"ΟΣΑ", "ΟΣ", by decide, by decide, by decide⟩

end DocumentEngine.Evaluation
