import DocumentEngine.Evaluation.Condition
import DocumentEngine.Proofs.Text.Lower
import Mathlib.Data.List.Forall2
import Mathlib.Tactic.Common

/-!
Patterns. Matching from the left, where only the last `%` is ever tried again, decides a relation
of patterns to texts: what an earlier `%` could still reach, the last one reaches as well. The
relation is that of covering a text, but for a `%` that comes upon a `%` of the text: it stands for
that one character. On texts without `%` the two are the same.
-/

namespace DocumentEngine.Evaluation

/-- A pattern covers a text: a `%` stands for any run of characters, a `_` for any one character,
and every other character for itself. -/
inductive Covers : List Char → List Char → Prop where
  | nil : Covers [] []
  | run {pattern text : List Char} (skipped : List Char) (h : Covers pattern text) :
      Covers ('%' :: pattern) (skipped ++ text)
  | one {pattern text : List Char} (c : Char) (h : Covers pattern text) :
      Covers ('_' :: pattern) (c :: text)
  | literal {pattern text : List Char} {c : Char} (hrun : c ≠ '%') (hone : c ≠ '_')
      (h : Covers pattern text) : Covers (c :: pattern) (c :: text)

/-- A pattern covers a text with its characters taken as they are written first: a `%` stands for
the character `%` where that is next, and for any run of characters elsewhere. -/
inductive CoversAsWritten : List Char → List Char → Prop where
  | nil : CoversAsWritten [] []
  | run {pattern text : List Char} (skipped : List Char)
      (hnext : (skipped ++ text).head? ≠ some '%') (h : CoversAsWritten pattern text) :
      CoversAsWritten ('%' :: pattern) (skipped ++ text)
  | one {pattern text : List Char} (c : Char) (h : CoversAsWritten pattern text) :
      CoversAsWritten ('_' :: pattern) (c :: text)
  | written {pattern text : List Char} (c : Char) (h : CoversAsWritten pattern text) :
      CoversAsWritten (c :: pattern) (c :: text)

/-- A character of a pattern that takes one character of the text. -/
def Takes (d c : Char) : Prop := d = '_' ∨ d = c

theorem CoversAsWritten.covers {pattern text : List Char} (h : CoversAsWritten pattern text) :
    Covers pattern text := by
  induction h with
  | nil => exact .nil
  | run skipped _ _ ih => exact .run skipped ih
  | one c _ ih => exact .one c ih
  | written c _ ih =>
    by_cases hrun : c = '%'
    · subst hrun
      exact .run ['%'] ih
    by_cases hone : c = '_'
    · subst hone
      exact .one '_' ih
    · exact .literal hrun hone ih

theorem Covers.coversAsWritten {pattern text : List Char} (h : Covers pattern text)
    (htext : '%' ∉ text) : CoversAsWritten pattern text := by
  induction h with
  | nil => exact .nil
  | run skipped _ ih =>
    refine .run skipped (fun hnext => htext (List.mem_of_head? hnext)) (ih fun hmem => ?_)
    exact htext (List.mem_append_right skipped hmem)
  | one c _ ih => exact .one c (ih fun hmem => htext (List.mem_cons_of_mem c hmem))
  | literal _ _ _ ih => exact .written _ (ih fun hmem => htext (List.mem_cons_of_mem _ hmem))

variable {pattern text after later : List Char} {c d : Char}

theorem coversAsWritten_nil_iff : CoversAsWritten [] text ↔ text = [] := by
  constructor
  · intro h
    cases h
    rfl
  · rintro rfl
    exact .nil

/-- The first character of a pattern is a `%` that skips some of the text, or takes the first
character of the text. -/
theorem coversAsWritten_cons_iff : CoversAsWritten (d :: pattern) text ↔
    (d = '%' ∧ text.head? ≠ some '%' ∧ ∃ rest, rest <:+ text ∧ CoversAsWritten pattern rest) ∨
      ∃ c rest, text = c :: rest ∧ Takes d c ∧ CoversAsWritten pattern rest := by
  constructor
  · intro h
    cases h with
    | run skipped hnext h => exact .inl ⟨rfl, hnext, _, List.suffix_append skipped _, h⟩
    | one c h => exact .inr ⟨c, _, rfl, .inl rfl, h⟩
    | written c h => exact .inr ⟨d, _, rfl, .inr rfl, h⟩
  · rintro (⟨rfl, hnext, rest, ⟨skipped, rfl⟩, h⟩ | ⟨c, rest, rfl, rfl | rfl, h⟩)
    · exact .run skipped hnext h
    · exact .one c h
    · exact .written d h

theorem coversAsWritten_empty_iff :
    CoversAsWritten pattern [] ↔ pattern.all (· = '%') = true := by
  induction pattern with
  | nil => simp [coversAsWritten_nil_iff]
  | cons d pattern ih => simp [coversAsWritten_cons_iff, ih, List.suffix_nil]

/-- A character that takes the next one of the text does nothing else. -/
theorem coversAsWritten_cons_cons (h : Takes d c) :
    CoversAsWritten (d :: pattern) (c :: text) ↔ CoversAsWritten pattern text := by
  rw [coversAsWritten_cons_iff]
  constructor
  · rintro (⟨rfl, hnext, -⟩ | ⟨c', rest, heq, -, hrest⟩)
    · rcases h with h | h
      · exact absurd h (by decide)
      · exact absurd (congrArg some h.symm) hnext
    · obtain ⟨rfl, rfl⟩ := List.cons.inj heq
      exact hrest
  · exact fun hrest => .inr ⟨c, text, rfl, h, hrest⟩

theorem not_coversAsWritten_cons (htakes : ¬Takes d c) (hrun : d ≠ '%') :
    ¬CoversAsWritten (d :: pattern) (c :: text) := by
  rw [coversAsWritten_cons_iff]
  rintro (⟨hd, -⟩ | ⟨c', rest, heq, hstep, -⟩)
  · exact hrun hd
  · obtain ⟨rfl, -⟩ := List.cons.inj heq
    exact htakes hstep

/-- A `%` that does not come upon a `%` skips as much as is needed. -/
theorem coversAsWritten_run_iff (h : c ≠ '%') : CoversAsWritten ('%' :: pattern) (c :: text) ↔
    ∃ rest, rest <:+ c :: text ∧ CoversAsWritten pattern rest := by
  rw [coversAsWritten_cons_iff]
  constructor
  · rintro (⟨-, -, hrest⟩ | ⟨c', rest, heq, htakes, -⟩)
    · exact hrest
    · obtain ⟨rfl, -⟩ := List.cons.inj heq
      rcases htakes with htakes | htakes
      · exact absurd htakes (by decide)
      · exact absurd htakes.symm h
  · exact fun hrest => .inl ⟨rfl, by simpa using h, hrest⟩

theorem CoversAsWritten.exists_suffix (h : CoversAsWritten (d :: pattern) text) :
    ∃ rest, rest <:+ text ∧ CoversAsWritten pattern rest := by
  rcases coversAsWritten_cons_iff.mp h with ⟨-, -, hrest⟩ | ⟨c, rest, rfl, -, hrest⟩
  · exact hrest
  · exact ⟨rest, List.suffix_cons c rest, hrest⟩

/-- No start is better than the first one: where a pattern begins with characters that take what the
text begins with, a cover of any later part of the text reaches behind them. -/
theorem CoversAsWritten.overtakes {taking taken part : List Char}
    (h : List.Forall₂ Takes taking taken) (hpart : part <:+ taken ++ text)
    (hcovers : CoversAsWritten (taking ++ pattern) part) :
    ∃ rest, rest <:+ text ∧ CoversAsWritten pattern rest := by
  induction h generalizing part with
  | nil => exact ⟨part, hpart, hcovers⟩
  | @cons d c taking taken htakes _ ih =>
    rcases List.suffix_cons_iff.mp hpart with rfl | hlater
    · -- on the same character: a `%` cannot skip, since it takes what it comes upon
      exact ih (List.suffix_refl _) ((coversAsWritten_cons_cons htakes).mp hcovers)
    · obtain ⟨rest, hrest, hcovers⟩ := hcovers.exists_suffix
      exact ih (hrest.trans hlater) hcovers

/-- What was matched since the last `%`: of the pattern `after` it and the text `later` than it,
characters that take each other, up to where matching stands. -/
def Trails (pattern text : List Char) : Option (List Char × List Char) → Prop
  | none => True
  | some (after, later) => ∃ taking taken, List.Forall₂ Takes taking taken ∧
      after = taking ++ pattern ∧ later = taken ++ text

/-- A later start behind the last `%` gives a cover. -/
def Resumes : Option (List Char × List Char) → Prop
  | some (after, _ :: later) => ∃ rest, rest <:+ later ∧ CoversAsWritten after rest
  | _ => False

theorem Trails.begin : Trails pattern text (some (pattern, text)) := ⟨[], [], .nil, rfl, rfl⟩

theorem Trails.step {back : Option (List Char × List Char)}
    (h : Trails (d :: pattern) (c :: text) back) (htakes : Takes d c) :
    Trails pattern text back := by
  cases back with
  | none => trivial
  | some back =>
    obtain ⟨taking, taken, htaken, hafter, hlater⟩ := h
    refine ⟨taking ++ [d], taken ++ [c], List.rel_append htaken (.cons htakes .nil), ?_, ?_⟩
    · rw [hafter, List.append_assoc, List.singleton_append]
    · rw [hlater, List.append_assoc, List.singleton_append]

/-- A cover from a later start goes through what is left of the pattern. -/
theorem Trails.exists_suffix {back : Option (List Char × List Char)} (h : Trails pattern text back)
    (hresumes : Resumes back) : ∃ rest, rest <:+ text ∧ CoversAsWritten pattern rest := by
  cases back with
  | none => exact hresumes.elim
  | some back =>
    obtain ⟨after, later⟩ := back
    obtain ⟨taking, taken, htaken, rfl, rfl⟩ := h
    cases hlater : taken ++ text with
    | nil =>
      rw [hlater] at hresumes
      exact hresumes.elim
    | cons c later =>
      rw [hlater] at hresumes
      obtain ⟨part, hpart, hcovers⟩ := hresumes
      refine CoversAsWritten.overtakes htaken ?_ hcovers
      rw [hlater]
      exact hpart.trans (List.suffix_cons c later)

theorem not_resumes {back : Option (List Char × List Char)}
    (h : ∀ after x later, back = some (after, x :: later) → False) : ¬Resumes back := by
  match back with
  | none => exact id
  | some (_, []) => exact id
  | some (after, x :: later) => exact absurd rfl (h after x later)

theorem exists_suffix_iff : (∃ rest, rest <:+ later ∧ CoversAsWritten after rest) ↔
    CoversAsWritten after later ∨ Resumes (some (after, later)) := by
  cases later with
  | nil => simp [Resumes, List.suffix_nil]
  | cons c later => simp [Resumes, List.suffix_cons_iff, or_and_right, exists_or]

/-- Matching finds a cover from where it stands, or from a later start behind the last `%`. -/
theorem likeFrom_iff {back : Option (List Char × List Char)} (h : Trails pattern text back) :
    likeFrom text pattern back = true ↔ CoversAsWritten pattern text ∨ Resumes back := by
  fun_induction likeFrom text pattern back with
  | case1 pattern back =>
    rw [coversAsWritten_empty_iff, iff_self_or]
    intro hresumes
    obtain ⟨rest, hrest, hcovers⟩ := h.exists_suffix hresumes
    rw [List.suffix_nil.mp hrest] at hcovers
    exact coversAsWritten_empty_iff.mp hcovers
  | case2 c text d pattern back htakes ih =>
    have htakes : Takes d c := by simpa [Takes] using htakes
    rw [ih (h.step htakes), coversAsWritten_cons_cons htakes]
  | case3 c text pattern back htakes ih =>
    -- the `%` of before is given up: all it could still reach is reached from this one
    have hnext : c ≠ '%' := by
      rintro rfl
      simp at htakes
    rw [ih .begin, ← exists_suffix_iff, coversAsWritten_run_iff hnext, iff_self_or]
    intro hresumes
    obtain ⟨rest, hrest, hcovers⟩ := h.exists_suffix hresumes
    obtain ⟨rest', hrest', hcovers⟩ := hcovers.exists_suffix
    exact ⟨rest', hrest'.trans hrest, hcovers⟩
  | case4 c text d pattern htakes hrun after x later ih =>
    have hnot : ¬CoversAsWritten (d :: pattern) (c :: text) :=
      not_coversAsWritten_cons (by simpa [Takes] using htakes) hrun
    rw [ih .begin, ← exists_suffix_iff]
    exact ⟨.inr, fun hcovers => hcovers.resolve_left hnot⟩
  | case5 c text d pattern back htakes hrun hback =>
    have hnot : ¬CoversAsWritten (d :: pattern) (c :: text) :=
      not_coversAsWritten_cons (by simpa [Takes] using htakes) hrun
    simp [hnot, not_resumes hback]
  | case6 c text after x later ih =>
    rw [ih .begin, ← exists_suffix_iff, coversAsWritten_nil_iff]
    exact ⟨.inr, fun hcovers => hcovers.resolve_left (List.cons_ne_nil c text)⟩
  | case7 c text back hback => simp [coversAsWritten_nil_iff, not_resumes hback]

theorem likeFrom_none_iff : likeFrom text pattern none = true ↔ CoversAsWritten pattern text := by
  have hbegin : Trails pattern text none := trivial
  rw [likeFrom_iff hbegin]
  exact or_iff_left id

/-- Lower case leaves the wildcards of a pattern as they are. -/
theorem hasWildcard_lower (pattern : String) :
    hasWildcard (Text.lower pattern).toList = hasWildcard pattern.toList := by
  have hmarks : ∀ cs, hasWildcard cs = true ↔ '%' ∈ cs ∨ '_' ∈ cs := by
    intro cs
    simp [hasWildcard, and_or_left, exists_or]
  rw [Bool.eq_iff_iff, hmarks, hmarks, Text.mem_lower_iff (.inl rfl), Text.mem_lower_iff (.inr rfl)]

/-- With a wildcard in the pattern a text is like it exactly where the pattern covers it as it is
written, both taken in lower case. Such a text is covered, and a text without `%` that is covered is
like the pattern. -/
theorem isLike_iff_covers {text pattern : String} (h : hasWildcard pattern.toList = true) :
    (isLike text pattern = true ↔
      CoversAsWritten (Text.lower pattern).toList (Text.lower text).toList) ∧
    (isLike text pattern = true → Covers (Text.lower pattern).toList (Text.lower text).toList) ∧
    ('%' ∉ text.toList →
      (isLike text pattern = true ↔
        Covers (Text.lower pattern).toList (Text.lower text).toList)) := by
  have hlike : isLike text pattern = true ↔
      CoversAsWritten (Text.lower pattern).toList (Text.lower text).toList := by
    rw [isLike, hasWildcard_lower, if_pos h, likeFrom_none_iff]
  refine ⟨hlike, fun hlikes => (hlike.mp hlikes).covers, fun htext => ?_⟩
  refine ⟨fun hlikes => (hlike.mp hlikes).covers, fun hcovers => hlike.mpr ?_⟩
  exact hcovers.coversAsWritten fun hmem => htext ((Text.mem_lower_iff (.inl rfl)).mp hmem)

theorem isLike_iff_covers_juan : hasWildcard "D%J_AN".toList = true ∧ '%' ∉ "Don Juan".toList ∧
    isLike "Don Juan" "D%J_AN" = true ∧
    Covers (Text.lower "D%J_AN").toList (Text.lower "Don Juan").toList := by
  have hwild : hasWildcard "D%J_AN".toList = true := by decide
  have htext : '%' ∉ "Don Juan".toList := by decide
  have hlike : isLike "Don Juan" "D%J_AN" = true := by
    have hpattern : (Text.lower "D%J_AN").toList = ['d', '%', 'j', '_', 'a', 'n'] := by decide
    have hlower : (Text.lower "Don Juan").toList = ['d', 'o', 'n', ' ', 'j', 'u', 'a', 'n'] := by
      decide
    simp [isLike, hpattern, hlower, hasWildcard, likeFrom]
  exact ⟨hwild, htext, hlike, ((isLike_iff_covers hwild).2.2 htext).mp hlike⟩

/-- A `%` that comes upon a percent sign takes it and skips nothing more. -/
theorem exists_covered_not_like : ∃ text pattern : String, hasWildcard pattern.toList = true ∧
    Covers (Text.lower pattern).toList (Text.lower text).toList ∧ isLike text pattern = false := by
  have hlower : (Text.lower "50% off").toList = ['5', '0', '%', ' ', 'o', 'f', 'f'] := by decide
  have hpattern : (Text.lower "50%off").toList = ['5', '0', '%', 'o', 'f', 'f'] := by decide
  refine ⟨"50% off", "50%off", by decide, ?_, ?_⟩
  · have hend : Covers ['o', 'f', 'f'] ['o', 'f', 'f'] :=
      .literal (by decide) (by decide) <| .literal (by decide) (by decide) <|
        .literal (by decide) (by decide) .nil
    rw [hlower, hpattern]
    exact .literal (by decide) (by decide) <| .literal (by decide) (by decide) <|
      .run ['%', ' '] hend
  · simp [isLike, hpattern, hlower, hasWildcard, likeFrom]

end DocumentEngine.Evaluation
