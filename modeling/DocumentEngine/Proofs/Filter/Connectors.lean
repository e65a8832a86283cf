import DocumentEngine.Proofs.Evaluation.Verdict
import DocumentEngine.Proofs.Filter.Identifier
import DocumentEngine.Proofs.State
import DocumentEngine.Schema.Structure
import Mathlib.Data.List.SplitBy

/-!
What the connectors of a filter key mean. The conditions of the compiled filter are those of the
segments in order; `Or` cuts the segments into runs, and the filter is true where all conditions of
one run are, whatever value each condition has.
-/

namespace DocumentEngine

namespace Filter

mutual

/-- The value of a filter when its conditions have values by their positions, the first at
`start`. -/
def valueFrom (v : Nat → Bool) (start : Nat) : Filter → Bool
  | .condition _ => v start
  | .and fs => allFrom v start fs
  | .or fs => anyFrom v start fs

/-- Whether all filters are true. -/
def allFrom (v : Nat → Bool) (start : Nat) : List Filter → Bool
  | [] => true
  | f :: fs => valueFrom v start f && allFrom v (start + f.conditions.length) fs

/-- Whether one of the filters is true. -/
def anyFrom (v : Nat → Bool) (start : Nat) : List Filter → Bool
  | [] => false
  | f :: fs => valueFrom v start f || anyFrom v (start + f.conditions.length) fs

end

/-- Every node of the tree has at least two children. -/
inductive Branching : Filter → Prop
  | condition (c : Condition) : Branching (.condition c)
  | and {fs : List Filter} (htwo : 2 ≤ fs.length) (hall : ∀ f ∈ fs, Branching f) :
      Branching (.and fs)
  | or {fs : List Filter} (htwo : 2 ≤ fs.length) (hall : ∀ f ∈ fs, Branching f) :
      Branching (.or fs)

section

variable {fs : List Filter} (v : Nat → Bool) (start : Nat)

theorem valueFrom_all (fs : List Filter) : (all fs).valueFrom v start = allFrom v start fs := by
  rcases fs with _ | ⟨f, _ | ⟨g, fs⟩⟩
  · rfl
  · rw [all, allFrom, allFrom, Bool.and_true]
  · rfl

theorem valueFrom_any (fs : List Filter) : (any fs).valueFrom v start = anyFrom v start fs := by
  rcases fs with _ | ⟨f, _ | ⟨g, fs⟩⟩
  · rfl
  · rw [any, anyFrom, anyFrom, Bool.or_false]
  · rfl

theorem conditions_all (fs : List Filter) : (all fs).conditions = fs.flatMap conditions := by
  rcases fs with _ | ⟨f, _ | ⟨g, fs⟩⟩
  · rfl
  · rw [all, List.flatMap_singleton]
  · exact listConditions_eq _

theorem conditions_any (fs : List Filter) : (any fs).conditions = fs.flatMap conditions := by
  rcases fs with _ | ⟨f, _ | ⟨g, fs⟩⟩
  · rfl
  · rw [any, List.flatMap_singleton]
  · exact listConditions_eq _

theorem Branching.of_all (hne : fs ≠ []) (h : ∀ f ∈ fs, Branching f) : Branching (all fs) := by
  rcases fs with _ | ⟨f, _ | ⟨g, fs⟩⟩
  · exact absurd rfl hne
  · exact h f List.mem_cons_self
  · exact .and (Nat.le_add_left _ _) h

theorem Branching.of_any (hne : fs ≠ []) (h : ∀ f ∈ fs, Branching f) : Branching (any fs) := by
  rcases fs with _ | ⟨f, _ | ⟨g, fs⟩⟩
  · exact absurd rfl hne
  · exact h f List.mem_cons_self
  · exact .or (Nat.le_add_left _ _) h

end

/-! Runs of numbered conditions -/

section

variable {α : Type} (leaf : α → Condition) (v : Nat → Bool)

/-- The filter of a run of conditions. -/
def ofRun (run : List α) : Filter := all (run.map fun x => .condition (leaf x))

theorem conditions_ofRun (run : List α) : (ofRun leaf run).conditions = run.map leaf := by
  rw [ofRun, conditions_all, List.flatMap_map]
  exact List.flatMap_pure_eq_map leaf run

theorem conditions_runs (runs : List (List α)) :
    (any (runs.map (ofRun leaf))).conditions = runs.flatten.map leaf := by
  rw [conditions_any, List.flatMap_map, List.map_flatten, List.flatMap_def]
  exact congrArg List.flatten (List.map_congr_left fun run _ => conditions_ofRun leaf run)

theorem branching_runs {runs : List (List α)} (hne : runs ≠ []) (h : [] ∉ runs) :
    Branching (any (runs.map (ofRun leaf))) := by
  refine .of_any (by simpa using hne) fun f hf => ?_
  obtain ⟨run, hrun, rfl⟩ := List.mem_map.mp hf
  refine .of_all ?_ fun g hg => ?_
  · rw [Ne, List.map_eq_nil_iff]
    rintro rfl
    exact h hrun
  · obtain ⟨x, -, rfl⟩ := List.mem_map.mp hg
    exact .condition (leaf x)

variable {position : α → Nat}

/-- A run is true where each of its conditions is. -/
theorem valueFrom_ofRun {run : List α} {start : Nat}
    (h : run.map position = List.range' start run.length) :
    (ofRun leaf run).valueFrom v start = run.all fun x => v (position x) := by
  rw [ofRun, valueFrom_all]
  induction run generalizing start with
  | nil => rfl
  | cons x run ih =>
    rw [List.map_cons, List.length_cons, List.range'_succ, List.cons.injEq] at h
    have hrest := ih h.2
    rw [List.map_cons, List.all_cons, allFrom, valueFrom, h.1, ← hrest]
    rfl

/-- Runs are true where one of them is. -/
theorem valueFrom_runs {runs : List (List α)} {start : Nat}
    (h : runs.flatten.map position = List.range' start runs.flatten.length) :
    (any (runs.map (ofRun leaf))).valueFrom v start =
      runs.any fun run => run.all fun x => v (position x) := by
  rw [valueFrom_any]
  induction runs generalizing start with
  | nil => rfl
  | cons run runs ih =>
    rw [List.flatten_cons, List.map_append, List.length_append, ← List.range'_append_1] at h
    obtain ⟨hrun, hruns⟩ := List.append_inj h (by simp)
    rw [List.map_cons, List.any_cons, anyFrom, valueFrom_ofRun leaf v hrun, conditions_ofRun,
      List.length_map, ih hruns]

end

/-! Cutting at `Or` -/

theorem splitBy_map {α β : Type} (f : α → β) (r : β → β → Bool) (l : List α) :
    (l.map f).splitBy r = (l.splitBy fun a b => r (f a) (f b)).map (List.map f) := by
  rw [List.splitBy_eq_iff]
  refine ⟨by rw [← List.map_flatten, List.flatten_splitBy], by simp, fun run hrun => ?_, ?_⟩
  · obtain ⟨before, hbefore, rfl⟩ := List.mem_map.mp hrun
    rw [List.isChain_map]
    exact List.isChain_of_mem_splitBy hbefore
  · rw [List.isChain_map]
    refine (List.isChain_getLast_head_splitBy _ l).imp fun a b hab => ?_
    obtain ⟨ha, hb, hcut⟩ := hab
    exact ⟨by simpa using ha, by simpa using hb, by simpa using hcut⟩

theorem splitBy_cons_cons {α : Type} {r : α → α → Bool} {a b : α} (h : r a b = true) {l run : List α}
    {runs : List (List α)} (hrest : (b :: l).splitBy r = run :: runs) :
    (a :: b :: l).splitBy r = (a :: run) :: runs := by
  rw [List.splitBy_eq_iff] at hrest ⊢
  obtain ⟨hflat, hnil, hchain, hcut⟩ := hrest
  rw [List.mem_cons, not_or] at hnil
  obtain ⟨b', run, rfl⟩ := List.exists_cons_of_ne_nil (Ne.symm hnil.1)
  obtain rfl : b = b' := by
    rw [List.flatten_cons, List.cons_append, List.cons.injEq] at hflat
    exact hflat.1
  refine ⟨by rw [hflat]; rfl, by simpa using hnil.2, ?_, ?_⟩
  · rw [List.forall_mem_cons] at hchain ⊢
    exact ⟨List.isChain_cons_cons.mpr ⟨h, hchain.1⟩, hchain.2⟩
  · rw [List.isChain_cons] at hcut ⊢
    refine ⟨fun next hnext => ?_, hcut.2⟩
    obtain ⟨hrun, hnext', hends⟩ := hcut.1 next hnext
    exact ⟨List.cons_ne_nil _ _, hnext', by rwa [List.getLast_cons hrun]⟩

/-- The groups of conditions are the runs that `or` separates. -/
theorem disjuncts_eq_splitBy (conditions : List (Connector × Filter)) :
    disjuncts conditions =
      (conditions.splitBy fun _ c => c.1 = .and).map (List.map Prod.snd) := by
  fun_induction disjuncts conditions with
  | case1 => rfl
  | case2 joined f => rfl
  | case3 joined f g rest ih =>
    have hcut := @List.splitBy_append_cons _ (fun _ c : Connector × Filter => c.1 = .and)
      [(joined, f)] (.or, g) rest (by simp)
    rw [ih, ← List.singleton_append (l := (.or, g) :: rest), hcut]
    rfl
  | case4 joined f g rest group groups hgroups ih =>
    rw [hgroups] at ih
    obtain ⟨run, runs, hruns, rfl, rfl⟩ := List.map_eq_cons_iff.mp ih.symm
    rw [splitBy_cons_cons (by simp) hruns]
    rfl
  | case5 joined f g rest hnil ih =>
    rw [hnil] at ih
    simp at ih

/-! The conditions of segments -/

variable {s : Schema} {t : DocumentType} {key : String} {raw : Json} {segs : List Segment}
  {operands : List Operand} {f : Filter}

/-- A condition says what a segment with its operand asks for. -/
structure AsksFor (s : Schema) (t : DocumentType) (key : String) (x : Segment × Operand)
    (c : Condition) : Prop where
  path : resolveField s t key x.1.field = .ok c.field
  operator : c.operator = x.1.operator
  operand : c.operand = x.2

theorem ne_nil_of_segments (h : segments key = .ok segs) : segs ≠ [] := by
  unfold segments at h
  dsimp only at h
  split at h
  · cases h
  · obtain ⟨read, -, h⟩ := Except.exists_of_bind_eq_ok h
    split at h
    · cases h
    · rename_i hsome
      cases h
      simpa using hsome

theorem length_takeOperands (last : Json) (values : List Json) (ops : List Operator) :
    (takeOperands last values ops).1.length = ops.length := by
  induction ops generalizing values with
  | nil => rfl
  | cons op ops ih => simp only [takeOperands, List.length_cons, ih]

theorem length_of_assignValues {values : List Json}
    (h : assignValues key segs values = .ok operands) : operands.length = segs.length := by
  unfold assignValues at h
  split at h
  · cases h
  · dsimp only at h
    split at h
    · cases h
      rw [length_takeOperands, List.length_map]
    · cases h

/-- Only the last segment may ask for membership. -/
theorem isMembership_eq_false (h : misplacedMembership? segs = none) :
    ∀ segment ∈ segs.dropLast, segment.operator.isMembership = false := by
  fun_induction misplacedMembership? segs with
  | case1 => simp
  | case2 => simp
  | case3 segment rest => cases h
  | case4 segment rest hrest hmembership ih =>
    rw [List.dropLast_cons_of_ne_nil hrest, List.forall_mem_cons]
    exact ⟨by simpa using hmembership, ih h⟩

theorem exists_leaves {pairs : List (Segment × Operand)} {conditions : List (Connector × Filter)}
    (h : pairs.mapM (fun x => compileSegment s t key x.1 x.2) = .ok conditions) :
    ∃ leaves, List.Forall₂ (AsksFor s t key) pairs leaves ∧
      conditions = (pairs.zip leaves).map fun x => (x.1.1.connector, .condition x.2) := by
  have hresults := Except.forall₂_of_mapM_eq_ok h
  clear h
  induction hresults with
  | nil => exact ⟨[], .nil, rfl⟩
  | @cons pair condition pairs conditions hpair _ ih =>
    obtain ⟨leaves, hleaves, rfl⟩ := ih
    obtain ⟨path, hpath, hpair⟩ := Except.exists_of_bind_eq_ok hpair
    cases hpair
    exact ⟨⟨path, pair.1.operator, pair.2⟩ :: leaves, .cons ⟨hpath, rfl, rfl⟩ hleaves, rfl⟩

theorem compileKey_eq_ok (h : compileKey s t key raw = .ok f) :
    ∃ segs operands conditions, segments key = .ok segs ∧ misplacedMembership? segs = none ∧
      assignValues key segs (splitValues raw) = .ok operands ∧
      (segs.zip operands).mapM (fun x => compileSegment s t key x.1 x.2) = .ok conditions ∧
      f = any ((disjuncts conditions).map all) := by
  unfold compileKey at h
  cases hsegs : segments key with
  | error fault =>
    rw [hsegs] at h
    cases h
  | ok segs =>
    rw [hsegs] at h
    cases hplaced : misplacedMembership? segs with
    | some operator =>
      dsimp only [pure, Except.pure, bind, Except.bind] at h
      rw [hplaced] at h
      cases h
    | none =>
      dsimp only [pure, Except.pure, bind, Except.bind] at h
      rw [hplaced] at h
      obtain ⟨operands, hoperands, h⟩ := Except.exists_of_bind_eq_ok h
      obtain ⟨conditions, hconditions, h⟩ := Except.exists_of_bind_eq_ok h
      cases h
      exact ⟨segs, operands, conditions, rfl, hplaced, hoperands, hconditions, rfl⟩

/-- What a compiled filter has of the segments of its key and their operands. The conditions are
numbered from left to right, and so are the segments, of which `Or` cuts off the runs; the connector
in front of the first segment joins nothing. -/
structure Joins (s : Schema) (t : DocumentType) (key : String) (segs : List Segment)
    (operands : List Operand) (f : Filter) : Prop where
  count : f.conditions.length = segs.length
  leaves : List.Forall₂ (AsksFor s t key) (segs.zip operands) f.conditions
  value : ∀ v : Nat → Bool, f.valueFrom v 0 = true ↔
    ∃ run ∈ segs.zipIdx.splitBy (fun _ x => x.1.connector = .and), ∀ x ∈ run, v x.2 = true
  branching : f.Branching
  membership : ∀ c ∈ f.conditions.dropLast, c.operator.isMembership = false

/-- Segments with their operands and conditions, joined as a key joins them. -/
theorem joins_of_entries {entries : List ((Segment × Operand) × Condition)} (hne : entries ≠ [])
    (h : ∀ x ∈ entries, AsksFor s t key x.1 x.2)
    (hplaced : misplacedMembership? (entries.map fun x => x.1.1) = none) :
    Joins s t key (entries.map fun x => x.1.1) (entries.map fun x => x.1.2)
      (any ((disjuncts (entries.map fun x => (x.1.1.connector, .condition x.2))).map all)) := by
  -- Each entry is kept with its number, so that one cut at `Or` serves conditions and segments.
  let runs := entries.zipIdx.splitBy fun _ x => x.1.1.1.connector = .and
  have hflatten : runs.flatten = entries.zipIdx := List.flatten_splitBy _ _
  have hfilter : any ((disjuncts (entries.map fun x => (x.1.1.connector, .condition x.2))).map all) =
      any (runs.map (ofRun fun x => x.1.2)) := by
    have hmap : (entries.map fun x => (x.1.1.connector, Filter.condition x.2)) =
        entries.zipIdx.map fun x => (x.1.1.1.connector, Filter.condition x.1.2) := by
      conv_lhs => rw [← List.zipIdx_map_fst 0 entries, List.map_map]
      rfl
    rw [disjuncts_eq_splitBy, hmap, splitBy_map, List.map_map, List.map_map]
    refine congrArg any (List.map_congr_left fun run _ => ?_)
    simp only [Function.comp_apply, List.map_map, ofRun]
    rfl
  have hleaves : (any (runs.map (ofRun fun x => x.1.2))).conditions = entries.map Prod.snd := by
    rw [conditions_runs, hflatten]
    conv_rhs => rw [← List.zipIdx_map_fst 0 entries, List.map_map]
    rfl
  rw [hfilter]
  refine ⟨?_, ?_, fun v => ?_, ?_, ?_⟩
  · rw [hleaves, List.length_map, List.length_map]
  · rw [hleaves, List.zip_map', List.forall₂_map_left_iff, List.forall₂_map_right_iff,
      List.forall₂_same]
    exact h
  · have hpositions : runs.flatten.map Prod.snd = List.range' 0 runs.flatten.length := by
      rw [hflatten, List.zipIdx_map_snd, List.length_zipIdx]
    rw [valueFrom_runs _ v hpositions, List.zipIdx_map, splitBy_map]
    simp only [List.any_eq_true, List.all_eq_true, List.mem_map, exists_exists_and_eq_and,
      forall_exists_index, and_imp, forall_apply_eq_imp_iff₂]
    rfl
  · refine branching_runs _ ?_ (List.nil_notMem_splitBy _ _)
    rwa [List.splitBy_ne_nil, Ne, List.zipIdx_eq_nil_iff]
  · rw [hleaves, ← List.map_dropLast, List.forall_mem_map]
    intro x hx
    rw [(h x (List.dropLast_subset _ hx)).operator]
    refine isMembership_eq_false hplaced _ ?_
    rw [← List.map_dropLast]
    exact List.mem_map_of_mem hx

/-- A compiled key means what its connectors say: its conditions are those of its segments, and it
is true where all conditions of one run between two `Or` are. -/
theorem compileKey_joins (h : compileKey s t key raw = .ok f) :
    ∃ segs operands, segments key = .ok segs ∧
      assignValues key segs (splitValues raw) = .ok operands ∧ Joins s t key segs operands f := by
  obtain ⟨segs, operands, conditions, hsegs, hplaced, hoperands, hconditions, rfl⟩ :=
    compileKey_eq_ok h
  refine ⟨segs, operands, hsegs, hoperands, ?_⟩
  obtain ⟨leaves, hleaves, rfl⟩ := exists_leaves hconditions
  have hlength := length_of_assignValues hoperands
  have hpairs : ((segs.zip operands).zip leaves).map Prod.fst = segs.zip operands :=
    List.map_fst_zip hleaves.length_eq.le
  have hsegments : ((segs.zip operands).zip leaves).map (fun x => x.1.1) = segs := by
    conv_rhs => rw [← List.map_fst_zip hlength.ge, ← hpairs, List.map_map]
    rfl
  have hvalues : ((segs.zip operands).zip leaves).map (fun x => x.1.2) = operands := by
    conv_rhs => rw [← List.map_snd_zip hlength.le, ← hpairs, List.map_map]
    rfl
  have hasks : ∀ x ∈ (segs.zip operands).zip leaves, AsksFor s t key x.1 x.2 :=
    fun x hx => (List.forall₂_iff_zip.mp hleaves).2 hx
  have hne : (segs.zip operands).zip leaves ≠ [] := by
    intro hnil
    rw [hnil] at hsegments
    exact ne_nil_of_segments hsegs hsegments.symm
  have hjoins := joins_of_entries hne hasks (hsegments.symm ▸ hplaced)
  rwa [hsegments, hvalues] at hjoins

section

/-- Rivers, which lie in a region and flow into a sea. -/
private def river : DocumentType :=
  { name := "River", fields := [.ofIdentifier "id", .ofScalar "region" .string,
      .ofScalar "sea" .string, .ofScalar "length" .int] }

private theorem segments_river : segments "regionAndSeaOrLengthIn" =
    .ok [⟨.and, "region", .eq⟩, ⟨.and, "Sea", .eq⟩, ⟨.or, "Length", .isIn⟩] := by
  have hwords : Text.camelWords "regionAndSeaOrLengthIn" =
      ["region", "And", "Sea", "Or", "Length", "In"] := by decide +kernel
  have hand : connector? "And" = some .and := by decide
  have hor : connector? "Or" = some .or := by decide
  have hin : connector? "In" = none ∧ operator? ["In"] = some .isIn := by decide
  have hfields : connector? "region" = none ∧ connector? "Sea" = none ∧
      connector? "Length" = none := by decide
  unfold segments
  rw [hwords]
  simp [readSegments.eq_def, hand, hor, hin, hfields, runOf, afterRun, Text.concat, bind,
    Except.bind, pure, Except.pure]

/-- Three segments in two runs. -/
theorem compileKey_joins_river : ∃ f, compileKey ⟨[river]⟩ river "regionAndSeaOrLengthIn"
    (.str "north,east,5") = .ok f ∧
    ∃ segs operands, segments "regionAndSeaOrLengthIn" = .ok segs ∧
      assignValues "regionAndSeaOrLengthIn" segs (splitValues (.str "north,east,5")) =
        .ok operands ∧
      Joins ⟨[river]⟩ river "regionAndSeaOrLengthIn" segs operands f := by
  have hpath : ∀ word field, river.looseField? (Text.lowerFirst word) = some field →
      Text.IsWord word → '.' ∉ word.toList →
        resolveField ⟨[river]⟩ river "regionAndSeaOrLengthIn" word = .ok field.name := by
    intro word field hfield hword hdot
    unfold resolveField
    rw [Schema.resolvePath_of_isWord _ hfield hword hdot]
  have hregion := hpath "region" (.ofScalar "region" .string) (by decide +kernel) (by decide +kernel)
    (by decide)
  have hsea := hpath "Sea" (.ofScalar "sea" .string) (by decide +kernel) (by decide +kernel)
    (by decide)
  have hlength := hpath "Length" (.ofScalar "length" .int) (by decide +kernel) (by decide +kernel)
    (by decide)
  have hvalues : splitValues (.str "north,east,5") = [.str "north", .str "east", .str "5"] := rfl
  have hok : compileKey ⟨[river]⟩ river "regionAndSeaOrLengthIn" (.str "north,east,5") = .ok (.or [
      .and [.equals "region" (.str "north"), .equals "sea" (.str "east")],
      .inList "length" [.str "5"]]) := by
    unfold compileKey
    rw [segments_river, hvalues]
    simp [misplacedMembership?, Operator.isMembership, assignValues, takeOperands, takeOperand,
      Operator.arity, compileSegment, hregion, hsea, hlength, Field.ofScalar, disjuncts, all, any,
      equals, inList, bind, Except.bind, pure, Except.pure]
  exact ⟨_, hok, compileKey_joins hok⟩

end

end Filter

end DocumentEngine
