import DocumentEngine.Evaluation.Condition
import DocumentEngine.Evaluation.Sort
import DocumentEngine.Proofs.Number.Integers
import Mathlib.Data.List.Forall2

/-!
Integers in conditions and in sorts. They are held against each other by the places of the binary64
numbers nearest to them, so that no order is turned around, but two integers at one place count as
equal. No integer below `2 ^ 53` shares its place.
-/

namespace DocumentEngine.Evaluation

/-- The place of the binary64 number nearest to an integer. -/
def place (n : Int) : Int := (Double.ofInt n).position

/-- Two integers that have one nearest binary64 number. -/
def Merged (n m : Int) : Prop := n ≠ m ∧ place n = place m

/-- A value that gives an integer of 64 bits, as a number or as its decimal text. -/
inductive Gives : Json → Int → Prop where
  | number {n : Int} (h : (Number.int n).InRange) : Gives (.int n) n
  | text {n : Int} (h : (Number.int n).InRange) : Gives (.str (toString n)) n

/-- The operators that hold texts against each other. -/
def textOperators : List Operator := [.like, .containing, .startingWith, .endingWith]

/-- What the other operators ask of an integer and its targets. -/
def Asks (op : Operator) (n : Int) (targets : List Int) : Prop :=
  match op, targets with
  | .eq, m :: _ => n = m
  | .ne, m :: _ => n ≠ m
  | .gt, m :: _ => m < n
  | .gte, m :: _ => m ≤ n
  | .lt, m :: _ => n < m
  | .lte, m :: _ => n ≤ m
  | .isIn, ms => n ∈ ms
  | .notIn, ms => n ∉ ms
  | .between, [low, high] => low ≤ n ∧ n ≤ high
  | _, _ => False

variable {v target : Json} {n m : Int} {targets : List Json} {ms : List Int}

theorem Gives.inRange (h : Gives v n) : (Number.int n).InRange := by
  cases h with
  | number h => exact h
  | text h => exact h

theorem inRange_of_gives (h : List.Forall₂ Gives targets ms) :
    ∀ m ∈ ms, (Number.int m).InRange := by
  induction h with
  | nil => exact fun _ hm => absurd hm List.not_mem_nil
  | cons ht _ ih => exact List.forall_mem_cons.mpr ⟨ht.inRange, ih⟩

/-! Places -/

theorem place_eq_iff (h : ¬Merged n m) : place n = place m ↔ n = m := by
  constructor
  · intro hplace
    by_contra hne
    exact h ⟨hne, hplace⟩
  · rintro rfl
    rfl

theorem place_le_iff (hn : (Number.int n).InRange) (hm : (Number.int m).InRange)
    (h : ¬Merged n m) : place n ≤ place m ↔ n ≤ m := by
  constructor
  · intro hplace
    by_contra hlt
    have hback := Double.position_ofInt_le hm hn (Int.not_le.mp hlt).le
    have heq := (place_eq_iff h).mp (Int.le_antisymm hplace hback)
    omega
  · exact Double.position_ofInt_le hn hm

theorem not_merged_comm : ¬Merged n m ↔ ¬Merged m n := by
  unfold Merged
  rw [ne_comm, eq_comm (a := place n)]

theorem not_merged_of_small (hn : (Number.int n).InRange) (hm : (Number.int m).InRange)
    (hsmall : n.natAbs < 2 ^ 53 ∨ m.natAbs < 2 ^ 53) : ¬Merged n m := by
  rintro ⟨hne, hplace⟩
  rcases Int.lt_or_gt_of_ne hne with hlt | hgt
  · exact absurd hplace (Double.position_ofInt_lt hn hm hlt hsmall).ne
  · exact absurd hplace (Double.position_ofInt_lt hm hn hgt hsmall.symm).ne'

/-! Comparison by places -/

theorem atLeast_iff {a b : Int} :
    (some (compare a b) == some .gt || some (compare a b) == some .eq) = true ↔ b ≤ a := by
  rw [Bool.or_eq_true, beq_iff_eq, beq_iff_eq, Option.some.injEq, Option.some.injEq,
    compare_gt_iff_gt, compare_eq_iff_eq]
  omega

theorem atMost_iff {a b : Int} :
    (some (compare a b) == some .lt || some (compare a b) == some .eq) = true ↔ a ≤ b := by
  rw [Bool.or_eq_true, beq_iff_eq, beq_iff_eq, Option.some.injEq, Option.some.injEq,
    compare_lt_iff_lt, compare_eq_iff_eq]
  omega

/-- Integers of which one is given as a number are held against each other by their places. -/
theorem compare?_gives (hv : Gives v n) (ht : Gives target m)
    (hone : v.str? = none ∨ target.str? = none) :
    compare? v target = some (compare (place n) (place m)) := by
  cases hv with
  | number hn =>
    cases ht with
    | number hm => rfl
    | text hm =>
      rw [compare?, spelledNumber?_int hm.1 hm.2]
      rfl
  | text hn =>
    cases ht with
    | number hm =>
      rw [compare?, spelledNumber?_int hn.1 hn.2]
      rfl
    | text hm => rcases hone with h | h <;> cases h

theorem looseEq_gives (hv : Gives v n) (ht : Gives target m)
    (hone : v.str? = none ∨ target.str? = none) :
    looseEq v target = true ↔ place n = place m := by
  have hsame : v.same target = true → n = m := by
    intro hsame
    cases hv with
    | number hn =>
      cases ht with
      | number hm => simpa [Json.same, Number.same] using hsame
      | text hm => cases hsame
    | text hn =>
      cases ht with
      | number hm => cases hsame
      | text hm => rcases hone with h | h <;> cases h
  rw [looseEq, compare?_gives hv ht hone, Bool.or_eq_true, beq_iff_eq, Option.some.injEq,
    compare_eq_iff_eq, or_iff_right_iff_imp]
  exact fun h => congrArg place (hsame h)

theorem any_looseEq_gives (hv : Gives v n) (htargets : List.Forall₂ Gives targets ms)
    (hone : v.str? = none ∨ ∀ t ∈ targets, t.str? = none) :
    (targets.any fun t => looseEq v t) = true ↔ place n ∈ ms.map place := by
  induction htargets with
  | nil => simp
  | cons ht _ ih =>
    rw [List.any_cons, Bool.or_eq_true, List.map_cons, List.mem_cons,
      ih (hone.imp_right fun h t hmem => h t (List.mem_cons_of_mem _ hmem)),
      looseEq_gives hv ht (hone.imp_right fun h => h _ List.mem_cons_self)]

theorem satisfiesScalar_between_gives (hv : Gives v n) (htargets : List.Forall₂ Gives targets ms)
    (hone : v.str? = none ∨ ∀ t ∈ targets, t.str? = none) :
    satisfiesScalar .between v targets = true ↔ Asks .between (place n) (ms.map place) := by
  cases htargets with
  | nil => simp [satisfiesScalar, Asks]
  | cons hlow hrest =>
    cases hrest with
    | nil => simp [satisfiesScalar, Asks]
    | cons hhigh hrest =>
      cases hrest with
      | nil =>
        have hlow := compare?_gives hv hlow (hone.imp_right fun h => h _ (by simp))
        have hhigh := compare?_gives hv hhigh (hone.imp_right fun h => h _ (by simp))
        dsimp only [satisfiesScalar]
        rw [hlow, hhigh, Bool.and_eq_true, atLeast_iff, atMost_iff]
        rfl
      | cons _ _ => simp [satisfiesScalar, Asks]

/-- An operator holds of the places of integers what it asks of integers. -/
theorem satisfies_gives {op : Operator} (hop : op ∉ textOperators) (hv : Gives v n)
    (htargets : List.Forall₂ Gives targets ms) (hne : targets ≠ [])
    (hone : v.str? = none ∨ ∀ t ∈ targets, t.str? = none) :
    satisfies op (some v) targets = true ↔ Asks op (place n) (ms.map place) := by
  have hscalar : satisfies op (some v) targets = satisfiesScalar op v targets := by
    cases hv <;> rfl
  have hany := any_looseEq_gives hv htargets hone
  rw [hscalar]
  cases htargets with
  | nil => exact absurd rfl hne
  | @cons t m targets ms ht htargets =>
    have hfirst : v.str? = none ∨ t.str? = none := hone.imp_right fun h => h t List.mem_cons_self
    have hcompare := compare?_gives hv ht hfirst
    cases op with
    | eq => exact looseEq_gives hv ht hfirst
    | ne => simp [satisfiesScalar, Asks, ← looseEq_gives hv ht hfirst]
    | gt => simp [satisfiesScalar, Asks, hcompare, compare_gt_iff_gt]
    | gte =>
      rw [satisfiesScalar, hcompare]
      exact atLeast_iff
    | lt => simp [satisfiesScalar, Asks, hcompare, compare_lt_iff_lt]
    | lte =>
      rw [satisfiesScalar, hcompare]
      exact atMost_iff
    | like => exact absurd (by decide) hop
    | containing => exact absurd (by decide) hop
    | startingWith => exact absurd (by decide) hop
    | endingWith => exact absurd (by decide) hop
    | isIn => exact hany
    | notIn =>
      rw [satisfiesScalar, Bool.not_eq_true', ← Bool.not_eq_true, hany]
      rfl
    | between => exact satisfiesScalar_between_gives hv (.cons ht htargets) hone

/-- Where no target is merged with an integer, their places are asked the same as they are. -/
theorem asks_place_iff (op : Operator) (hn : (Number.int n).InRange)
    (hms : ∀ m ∈ ms, (Number.int m).InRange ∧ ¬Merged n m) :
    Asks op (place n) (ms.map place) ↔ Asks op n ms := by
  have heq : ∀ m ∈ ms, place n = place m ↔ n = m := fun m hm => place_eq_iff (hms m hm).2
  have hle : ∀ m ∈ ms, place n ≤ place m ↔ n ≤ m := fun m hm =>
    place_le_iff hn (hms m hm).1 (hms m hm).2
  have hge : ∀ m ∈ ms, place m ≤ place n ↔ m ≤ n := fun m hm =>
    place_le_iff (hms m hm).1 hn (not_merged_comm.mp (hms m hm).2)
  have hmem : place n ∈ ms.map place ↔ n ∈ ms := by
    rw [List.mem_map]
    constructor
    · rintro ⟨m, hm, hplace⟩
      rwa [(heq m hm).mp hplace.symm]
    · exact fun hn => ⟨n, hn, rfl⟩
  cases op with
  | isIn => exact hmem
  | notIn => exact not_congr hmem
  | between =>
    match ms with
    | [] => rfl
    | [_] => rfl
    | [low, high] => exact and_congr (hge low (by simp)) (hle high (by simp))
    | _ :: _ :: _ :: _ => rfl
  | like | containing | startingWith | endingWith => cases ms <;> rfl
  | eq | ne | gt | gte | lt | lte =>
    match ms with
    | [] => rfl
    | m :: _ =>
      have heq := heq m List.mem_cons_self
      have hle := hle m List.mem_cons_self
      have hge := hge m List.mem_cons_self
      simp only [Asks, List.map_cons]
      omega

theorem compareValues_int_iff (hn : (Number.int n).InRange) (hm : (Number.int m).InRange) :
    compareValues (some (.int n)) (some (.int m)) = compare n m ↔ ¬Merged n m := by
  have hplaces : compareValues (some (.int n)) (some (.int m)) = compare (place n) (place m) := rfl
  rw [hplaces]
  constructor
  · rintro horder ⟨hne, hplace⟩
    rw [compare_eq_iff_eq.mpr hplace] at horder
    exact hne (compare_eq_iff_eq.mp horder.symm)
  · intro h
    have hle := place_le_iff hn hm h
    have hge := place_le_iff hm hn (not_merged_comm.mp h)
    rcases Int.lt_trichotomy n m with hlt | rfl | hgt
    · rw [compare_lt_iff_lt.mpr hlt, compare_lt_iff_lt]
      omega
    · rw [compare_eq_iff_eq.mpr rfl, compare_eq_iff_eq.mpr rfl]
    · rw [compare_gt_iff_gt.mpr hgt, compare_gt_iff_gt]
      omega

/-- Conditions and sorts hold integers against each other by their places, which have the order of
the integers; so they tell the order of the integers themselves but where two are merged, of which
none lies below `2 ^ 53`. -/
theorem integers_compared (hv : Gives v n) (htargets : List.Forall₂ Gives targets ms)
    (hne : targets ≠ []) (hone : v.str? = none ∨ ∀ t ∈ targets, t.str? = none) :
    (∀ op ∉ textOperators,
      (satisfies op (some v) targets = true ↔ Asks op (place n) (ms.map place))) ∧
    ((∀ m ∈ ms, ¬Merged n m) → ∀ op ∉ textOperators,
      (satisfies op (some v) targets = true ↔ Asks op n ms)) ∧
    (∀ m, (Number.int m).InRange →
      (n ≤ m → place n ≤ place m) ∧
      (compareValues (some (.int n)) (some (.int m)) = compare n m ↔ ¬Merged n m) ∧
      (n.natAbs < 2 ^ 53 ∨ m.natAbs < 2 ^ 53 → ¬Merged n m)) := by
  have hn := hv.inRange
  refine ⟨fun op hop => satisfies_gives hop hv htargets hne hone, fun happart op hop => ?_,
    fun m hm => ⟨Double.position_ofInt_le hn hm, compareValues_int_iff hn hm,
      not_merged_of_small hn hm⟩⟩
  rw [satisfies_gives hop hv htargets hne hone]
  exact asks_place_iff op hn fun m hm => ⟨inRange_of_gives htargets m hm, happart m hm⟩

theorem integers_compared_counters :
    Gives (.int 9007199254740991) 9007199254740991 ∧
    List.Forall₂ Gives [.int (-3), .str "18446744073709551615"] [-3, 18446744073709551615] ∧
    satisfies .between (some (.int 9007199254740991)) [.int (-3), .str "18446744073709551615"] =
      true := by
  have hv : Gives (.int 9007199254740991) 9007199254740991 := .number (by decide)
  have hlow : Gives (.int (-3)) (-3) := .number (by decide)
  have htext : toString (18446744073709551615 : Int) = "18446744073709551615" := by decide
  have hhigh : Gives (.str "18446744073709551615") 18446744073709551615 := by
    rw [← htext]
    exact .text (by decide)
  have htargets := List.Forall₂.cons hlow (.cons hhigh .nil)
  have hcompared := integers_compared hv htargets (by simp) (.inl rfl)
  refine ⟨hv, htargets, (hcompared.2.1 ?_ .between (by decide)).mpr ⟨by decide, by decide⟩⟩
  intro m hm
  exact (hcompared.2.2 m (inRange_of_gives htargets m hm)).2.2 (.inl (by decide))

/-- The least integers that are merged count as equal in conditions and in sorts. -/
theorem exists_integers_merged : ∃ n m : Int, (Number.int n).InRange ∧ (Number.int m).InRange ∧
    m < n ∧ satisfies .eq (some (.int n)) [.int m] = true ∧
    satisfies .gt (some (.int n)) [.int m] = false ∧
    satisfies .gt (some (.int n)) [.str (toString m)] = false ∧
    compareValues (some (.int n)) (some (.int m)) = .eq :=
  ⟨9007199254740993, 9007199254740992, by decide, by decide, by decide, by decide +kernel,
    by decide +kernel, by decide +kernel, by decide +kernel⟩

end DocumentEngine.Evaluation
