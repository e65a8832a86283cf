import DocumentEngine.Filter.Key
import Mathlib.Algebra.GroupWithZero.Nat
import Mathlib.Data.List.Forall2

/-!
How values are handed out to the segments of a filter key. None is lost and none is used twice: the
operands of all segments together are the values in order, followed by copies of the last one where
the segments ask for more.
-/

namespace DocumentEngine

/-- The fewest values that an operator takes. -/
def Arity.least : Arity → Nat
  | .one => 1
  | .two => 2
  | .rest => 1

/-- An operand has as many values as the operator takes. -/
def Arity.Fits : Arity → Operand → Prop
  | .one, operand => ∃ v, operand = .single v
  | .two, operand => ∃ v w, operand = .list [v, w]
  | .rest, operand => ∃ vs, vs ≠ [] ∧ operand = .list vs

namespace Filter

/-- The fewest values that operators take together. -/
def demand (ops : List Operator) : Nat := (ops.map fun op => op.arity.least).sum

/-- The number of values that the segments of a key take, memberships left out. -/
def required (segs : List Segment) : Nat :=
  demand ((segs.map (·.operator)).filter fun op => !op.isMembership)

variable {last : Json} {values : List Json} {ops : List Operator} {op : Operator}
  {segs : List Segment}

theorem isMembership_iff : op.isMembership = true ↔ op.arity = .rest := by
  cases op <;> simp [Operator.isMembership, Operator.arity]

theorem arity_ne_rest (h : op.isMembership = false) : op.arity ≠ .rest := by
  rw [Ne, ← isMembership_iff, h]
  exact Bool.false_ne_true

theorem demand_cons (op : Operator) (ops : List Operator) :
    demand (op :: ops) = op.arity.least + demand ops := by
  rw [demand, demand, List.map_cons, List.sum_cons]

theorem fits_takeOperand (last : Json) (values : List Json) (arity : Arity) :
    arity.Fits (takeOperand last values arity).1 := by
  cases arity with
  | one => exact ⟨_, rfl⟩
  | two => exact ⟨_, _, rfl⟩
  | rest =>
    refine ⟨_, ?_, rfl⟩
    cases values <;> simp

theorem fits_takeOperands (last : Json) (values : List Json) (ops : List Operator) :
    List.Forall₂ (fun op => op.arity.Fits) ops (takeOperands last values ops).1 := by
  induction ops generalizing values with
  | nil => exact .nil
  | cons op ops ih => exact .cons (fits_takeOperand ..) (ih _)

/-- An operand and the values that it leaves are the values there were, with copies of the last one
for those that are missing. -/
theorem values_takeOperand (last : Json) (values : List Json) (arity : Arity) :
    (takeOperand last values arity).1.values ++ (takeOperand last values arity).2 =
      values ++ List.replicate (arity.least - values.length) last := by
  cases arity with
  | one => cases values <;> simp [takeOperand, Operand.values, Arity.least]
  | two =>
    rcases values with _ | ⟨v, _ | ⟨w, values⟩⟩ <;>
      simp [takeOperand, Operand.values, Arity.least]
  | rest => cases values <;> simp [takeOperand, Operand.values, Arity.least]

theorem left_takeOperand (last : Json) (values : List Json) {arity : Arity} (h : arity ≠ .rest) :
    (takeOperand last values arity).2 = values.drop arity.least := by
  cases arity with
  | one => simp [takeOperand, Arity.least]
  | two => rcases values with _ | ⟨v, _ | ⟨w, values⟩⟩ <;> simp [takeOperand, Arity.least]
  | rest => exact absurd rfl h

/-- The values that are left behind the operators of a key. -/
theorem left_takeOperands (h : ∀ op ∈ ops, op.isMembership = false) (last : Json)
    (values : List Json) : (takeOperands last values ops).2 = values.drop (demand ops) := by
  induction ops generalizing values with
  | nil => rfl
  | cons op ops ih =>
    obtain ⟨hop, hops⟩ := List.forall_mem_cons.mp h
    rw [takeOperands, ih hops, left_takeOperand last values (arity_ne_rest hop), List.drop_drop,
      demand_cons]

/-- The operands of a key together with what they leave are the values there were, with copies of
the last one for those that are missing. -/
theorem values_takeOperands (h : ∀ op ∈ ops.dropLast, op.isMembership = false) (last : Json)
    (values : List Json) :
    (takeOperands last values ops).1.flatMap Operand.values ++ (takeOperands last values ops).2 =
      values ++ List.replicate (demand ops - values.length) last := by
  induction ops generalizing values with
  | nil => simp [takeOperands, demand]
  | cons op ops ih =>
    rcases ops with _ | ⟨next, ops⟩
    · have hone := values_takeOperand last values op.arity
      rw [demand_cons]
      simpa [takeOperands, demand] using hone
    · obtain ⟨hop, hops⟩ := List.forall_mem_cons.mp h
      have hone := values_takeOperand last values op.arity
      have hmore := ih hops (takeOperand last values op.arity).2
      have hleft := congrArg List.length (left_takeOperand last values (arity_ne_rest hop))
      rw [List.length_drop] at hleft
      rw [takeOperands, demand_cons, List.flatMap_cons, List.append_assoc, hmore,
        ← List.append_assoc, hone, List.append_assoc, List.replicate_append_replicate, hleft]
      congr 2
      omega

/-- A membership at the end leaves nothing. -/
theorem left_eq_nil (h : ∀ op ∈ ops.dropLast, op.isMembership = false)
    (hmembership : ∃ op ∈ ops, op.isMembership = true) (last : Json) (values : List Json) :
    (takeOperands last values ops).2 = [] := by
  induction ops generalizing values with
  | nil =>
    obtain ⟨op, hop, -⟩ := hmembership
    cases hop
  | cons op ops ih =>
    rcases ops with _ | ⟨next, ops⟩
    · obtain ⟨_, hop, hmembership⟩ := hmembership
      rw [List.mem_singleton.mp hop, isMembership_iff] at hmembership
      rw [takeOperands, hmembership]
      rfl
    · obtain ⟨hop, hops⟩ := List.forall_mem_cons.mp h
      refine ih hops ?_ _
      obtain ⟨member, hmember, hmembership⟩ := hmembership
      rcases List.mem_cons.mp hmember with rfl | hmember
      · rw [hmembership] at hop
        cases hop
      · exact ⟨member, hmember, hmembership⟩

section

variable {key : String} {cause : FilterError} {operands : List Operand}

theorem required_eq_demand (h : ∀ segment ∈ segs, segment.operator.isMembership = false) :
    required segs = demand (segs.map (·.operator)) := by
  rw [required, List.filter_eq_self.mpr]
  simpa using h

/-- Some value is left exactly where no segment is a membership and the segments take fewer values
than there are. -/
theorem left_ne_nil_iff (h : ∀ segment ∈ segs.dropLast, segment.operator.isMembership = false)
    (last : Json) (values : List Json) :
    (takeOperands last values (segs.map (·.operator))).2 ≠ [] ↔
      (∀ segment ∈ segs, segment.operator.isMembership = false) ∧ required segs < values.length := by
  have hops : ∀ op ∈ (segs.map (·.operator)).dropLast, op.isMembership = false := by
    rw [← List.map_dropLast]
    exact List.forall_mem_map.mpr h
  by_cases hnone : ∀ segment ∈ segs, segment.operator.isMembership = false
  · rw [left_takeOperands (by simpa using hnone), Ne, List.drop_eq_nil_iff, required_eq_demand hnone,
      Nat.not_le]
    exact ⟨fun hlt => ⟨hnone, hlt⟩, And.right⟩
  · refine iff_of_false (not_not.mpr (left_eq_nil hops ?_ last values)) fun hall => hnone hall.1
    simpa using hnone

/-- Where values are left over, the operands have as many as the segments take. -/
theorem length_values_takeOperands
    (hnone : ∀ segment ∈ segs, segment.operator.isMembership = false)
    (hfewer : required segs < values.length) (last : Json) :
    ((takeOperands last values (segs.map (·.operator))).1.flatMap Operand.values).length =
      required segs := by
  have hops : ∀ op ∈ segs.map (·.operator), op.isMembership = false := by simpa using hnone
  have hall := congrArg List.length
    (values_takeOperands (fun op hop => hops op (List.dropLast_subset _ hop)) last values)
  rw [left_takeOperands hops, ← required_eq_demand hnone, List.length_append, List.length_append,
    List.length_drop, List.length_replicate] at hall
  omega

theorem assignValues_eq (hlast : values.getLast? = some last) :
    assignValues key segs values =
      if (takeOperands last values (segs.map (·.operator))).2 = [] then
        .ok (takeOperands last values (segs.map (·.operator))).1
      else .error (.valueCount key ((takeOperands last values
        (segs.map (·.operator))).1.flatMap Operand.values).length values.length) := by
  unfold assignValues
  rw [hlast]
  simp only [List.isEmpty_iff]

theorem assignValues_eq_error_iff
    (h : ∀ segment ∈ segs.dropLast, segment.operator.isMembership = false) :
    assignValues key segs values = .error cause ↔
      (values = [] ∧ cause = .malformedKey key .noValue) ∨
      ((∀ segment ∈ segs, segment.operator.isMembership = false) ∧ required segs < values.length ∧
        cause = .valueCount key (required segs) values.length) := by
  cases hlast : values.getLast? with
  | none =>
    obtain rfl := List.getLast?_eq_none_iff.mp hlast
    have herror : assignValues key segs [] = .error (.malformedKey key .noValue) := rfl
    simp only [herror, Except.error.injEq, true_and, List.length_nil, Nat.not_lt_zero, false_and,
      and_false, or_false]
    exact eq_comm
  | some last =>
    have hne : values ≠ [] := by
      rintro rfl
      cases hlast
    rw [assignValues_eq hlast]
    split
    · rename_i hnil
      have hnone := (left_ne_nil_iff h last values).not.mp (not_not.mpr hnil)
      refine iff_of_false (fun herror => by cases herror) ?_
      rintro (⟨hempty, -⟩ | ⟨hmembership, hfewer, -⟩)
      · exact hne hempty
      · exact hnone ⟨hmembership, hfewer⟩
    · rename_i hleft
      obtain ⟨hmembership, hfewer⟩ := (left_ne_nil_iff h last values).mp hleft
      rw [length_values_takeOperands hmembership hfewer, Except.error.injEq]
      exact ⟨fun hcause => .inr ⟨hmembership, hfewer, hcause.symm⟩,
        fun hcause => (hcause.resolve_left fun hempty => hne hempty.1).2.2.symm⟩

theorem values_of_assignValues
    (h : ∀ segment ∈ segs.dropLast, segment.operator.isMembership = false)
    (hassign : assignValues key segs values = .ok operands) :
    List.Forall₂ (fun segment => segment.operator.arity.Fits) segs operands ∧
      ∃ last ∈ values.getLast?, operands.flatMap Operand.values = values ++
        List.replicate (demand (segs.map (·.operator)) - values.length) last := by
  cases hlast : values.getLast? with
  | none =>
    obtain rfl := List.getLast?_eq_none_iff.mp hlast
    cases hassign
  | some last =>
    rw [assignValues_eq hlast] at hassign
    split at hassign
    · rename_i hnil
      cases hassign
      have hops : ∀ op ∈ (segs.map (·.operator)).dropLast, op.isMembership = false := by
        rw [← List.map_dropLast]
        exact List.forall_mem_map.mpr h
      have hall := values_takeOperands hops last values
      rw [hnil, List.append_nil] at hall
      have hfits := fits_takeOperands last values (segs.map (·.operator))
      rw [List.forall₂_map_left_iff] at hfits
      exact ⟨hfits, last, rfl, hall⟩
    · cases hassign

/-- Values are neither lost nor used twice. They are refused where there are none, and where no
membership takes those that are left; otherwise each segment has as many as its operator takes, and
all together are the values in order, followed by copies of the last one where they run out. -/
theorem assignValues_conserves (key : String) (values : List Json)
    (h : ∀ segment ∈ segs.dropLast, segment.operator.isMembership = false) :
    (∀ cause, assignValues key segs values = .error cause ↔
      (values = [] ∧ cause = .malformedKey key .noValue) ∨
      ((∀ segment ∈ segs, segment.operator.isMembership = false) ∧ required segs < values.length ∧
        cause = .valueCount key (required segs) values.length)) ∧
    ∀ operands, assignValues key segs values = .ok operands →
      List.Forall₂ (fun segment => segment.operator.arity.Fits) segs operands ∧
      ∃ last ∈ values.getLast?, operands.flatMap Operand.values = values ++
        List.replicate (demand (segs.map (·.operator)) - values.length) last :=
  ⟨fun _ => assignValues_eq_error_iff h, fun _ hassign => values_of_assignValues h hassign⟩

/-- Two values for three segments, the last of them a membership: the last value is used again. -/
theorem assignValues_conserves_short :
    let segs : List Segment := [⟨.and, "name", .eq⟩, ⟨.and, "Age", .between⟩, ⟨.or, "Region", .isIn⟩]
    let values : List Json := [.str "Ana", .str "30"]
    (∀ segment ∈ segs.dropLast, segment.operator.isMembership = false) ∧
    ∃ operands, assignValues "nameAndAgeBetweenOrRegionIn" segs values = .ok operands ∧
      List.Forall₂ (fun segment => segment.operator.arity.Fits) segs operands ∧
      ∃ last ∈ values.getLast?, operands.flatMap Operand.values = values ++
        List.replicate (demand (segs.map (·.operator)) - values.length) last := by
  intro segs values
  have h : ∀ segment ∈ segs.dropLast, segment.operator.isMembership = false := by decide
  exact ⟨h, _, rfl, (assignValues_conserves "nameAndAgeBetweenOrRegionIn" values h).2 _ rfl⟩

end

end Filter

end DocumentEngine
