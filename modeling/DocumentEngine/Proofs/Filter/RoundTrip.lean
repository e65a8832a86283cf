import DocumentEngine.Filter.Json
import DocumentEngine.Proofs.Filter.Connectors
import DocumentEngine.Proofs.Filter.Values
import Mathlib

/-!
Filters in JSON and back. One value that is a list is written like a list of values, and read as
one. So a filter is read again exactly where no condition asks for one value that is a list, and a
compiled key asks for such a value only where its argument is a list of lists.
-/

namespace DocumentEngine

/-- A value that is a list. -/
def Json.IsList (v : Json) : Prop := ∃ items, v = .arr items

/-- A list with a list among its items. -/
def Json.NestsLists (v : Json) : Prop := ∃ items, v = .arr items ∧ ∃ item ∈ items, item.IsList

/-- The right-hand side as it is read again: one value that is a list becomes the list of values. -/
def Operand.spread : Operand → Operand
  | .single (.arr vs) => .list vs
  | operand => operand

theorem Operand.ofJson_toJson (operand : Operand) : ofJson operand.toJson = operand.spread := by
  cases operand with
  | list vs => rfl
  | single v => cases v <;> rfl

theorem Operand.spread_eq_iff {operand : Operand} :
    operand.spread = operand ↔ ∀ v, operand = .single v → ¬v.IsList := by
  cases operand with
  | list vs => simp [spread]
  | single v => cases v <;> simp [spread, Json.IsList]

theorem Operator.ofName?_name (op : Operator) : ofName? op.name = some op := by
  cases op <;> decide

namespace Filter

variable {s : Schema} {t : DocumentType} {key : String} {raw : Json} {f : Filter}

mutual

/-- The filter with every right-hand side as it is read again. -/
def spread : Filter → Filter
  | .condition c => .condition { c with operand := c.operand.spread }
  | .and fs => .and (spreadAll fs)
  | .or fs => .or (spreadAll fs)

/-- The filters with every right-hand side as it is read again. -/
def spreadAll : List Filter → List Filter
  | [] => []
  | f :: fs => spread f :: spreadAll fs

end

mutual

theorem nodeOfJson?_toJson : (f : Filter) → nodeOfJson? f.toJson = some f.spread
  | .condition c => by
    rw [toJson, Condition.toJson, nodeOfJson?]
    simp [Keyed.get?, Kind.ofJson?, Kind.ofName?, Condition.ofMembers?, Json.str?,
      Operator.ofJson?, Operator.ofName?_name, Operand.ofJson_toJson, spread]
  | .and fs => by
    rw [toJson, nodeOfJson?]
    simp [Keyed.get?, Kind.ofJson?, Kind.ofName?, childrenOfJson?,
      nodesOfJson?_listToJson fs, spread]
  | .or fs => by
    rw [toJson, nodeOfJson?]
    simp [Keyed.get?, Kind.ofJson?, Kind.ofName?, childrenOfJson?,
      nodesOfJson?_listToJson fs, spread]

theorem nodesOfJson?_listToJson : (fs : List Filter) →
    nodesOfJson? (listToJson fs) = some (spreadAll fs)
  | [] => rfl
  | f :: fs => by
    rw [listToJson, nodesOfJson?, nodeOfJson?_toJson f, nodesOfJson?_listToJson fs]
    rfl

end

/-- Every filter is read from its object with its right-hand sides spread. -/
theorem ofJson?_toJson (f : Filter) : ofJson? f.toJson = some f.spread := by
  have hnamed : namesKind f.toJson = true := by cases f <;> rfl
  rw [ofJson?, if_pos hnamed, nodeOfJson?_toJson]

mutual

theorem spread_eq_self_iff : (f : Filter) →
    (f.spread = f ↔ ∀ c ∈ f.conditions, c.operand.spread = c.operand)
  | .condition c => by
    obtain ⟨field, operator, operand⟩ := c
    simp [spread, conditions]
  | .and fs => by
    rw [spread, Filter.and.injEq, spreadAll_eq_self_iff fs, conditions]
  | .or fs => by
    rw [spread, Filter.or.injEq, spreadAll_eq_self_iff fs, conditions]

theorem spreadAll_eq_self_iff : (fs : List Filter) →
    (spreadAll fs = fs ↔ ∀ c ∈ listConditions fs, c.operand.spread = c.operand)
  | [] => by simp [spreadAll, listConditions]
  | f :: fs => by
    rw [spreadAll, List.cons.injEq, spread_eq_self_iff f, spreadAll_eq_self_iff fs, listConditions,
      List.forall_mem_append]

end

/-- A condition of a compiled key has as many values as its operator takes, all of them from the
argument. -/
theorem operand_of_compileKey (h : compileKey s t key raw = .ok f) : ∀ c ∈ f.conditions,
    c.operator.arity.Fits c.operand ∧ c.operand.values ⊆ splitValues raw := by
  obtain ⟨segs, operands, conditions, -, hplaced, hoperands, hconditions, rfl⟩ := compileKey_eq_ok h
  obtain ⟨hfits, last, hlast, hvalues⟩ :=
    values_of_assignValues (isMembership_eq_false hplaced) hoperands
  have hleaves : ∀ x ∈ conditions, ∀ c ∈ x.2.conditions,
      c.operator.arity.Fits c.operand ∧ c.operand.values ⊆ splitValues raw := by
    refine Except.forall_of_mapM_eq_ok (fun pair hpair x hx => ?_) hconditions
    obtain ⟨path, -, hx⟩ := Except.exists_of_bind_eq_ok hx
    cases hx
    have hfit := (List.forall₂_iff_zip.mp hfits).2 hpair
    have hmem := (List.of_mem_zip hpair).2
    rintro c hc
    cases List.mem_singleton.mp hc
    refine ⟨hfit, fun v hv => ?_⟩
    have hall : v ∈ operands.flatMap Operand.values := List.mem_flatMap.mpr ⟨_, hmem, hv⟩
    rw [hvalues] at hall
    rcases List.mem_append.mp hall with hall | hall
    · exact hall
    · rw [List.eq_of_mem_replicate hall]
      exact List.mem_of_mem_getLast? hlast
  intro c hc
  rw [conditions_any, List.flatMap_map] at hc
  obtain ⟨group, hgroup, hc⟩ := List.mem_flatMap.mp hc
  rw [conditions_all] at hc
  obtain ⟨g, hg, hc⟩ := List.mem_flatMap.mp hc
  have hmem : g ∈ (disjuncts conditions).flatten := List.mem_flatten.mpr ⟨group, hgroup, hg⟩
  rw [disjuncts_eq_splitBy, ← List.map_flatten, List.flatten_splitBy] at hmem
  obtain ⟨x, hx, rfl⟩ := List.mem_map.mp hmem
  exact hleaves x hx c hc

/-- A right-hand side with as many values as an operator takes stays as it is unless the operator
takes one value and has got a list. -/
theorem spread_eq_iff_of_fits {arity : Arity} {operand : Operand} (h : arity.Fits operand) :
    operand.spread = operand ↔ arity = .one → ∀ v ∈ operand.values, ¬v.IsList := by
  rw [Operand.spread_eq_iff]
  cases arity with
  | one =>
    obtain ⟨v, rfl⟩ := h
    simp [Operand.values]
  | two =>
    obtain ⟨_, _, rfl⟩ := h
    simp
  | rest =>
    obtain ⟨_, -, rfl⟩ := h
    simp

/-- An argument gives a list to an operator only from among the items of a list. -/
theorem not_isList_of_mem_splitValues (hflat : ¬raw.NestsLists) {v : Json}
    (hv : v ∈ splitValues raw) : ¬v.IsList := by
  intro hlist
  cases raw with
  | arr items => exact hflat ⟨items, rfl, v, hv, hlist⟩
  | str text =>
    obtain ⟨items, rfl⟩ := hlist
    obtain ⟨part, -, hpart⟩ := List.mem_map.mp hv
    cases hpart
  | null | bool _ | num _ | obj _ =>
    obtain ⟨items, rfl⟩ := hlist
    cases List.mem_singleton.mp hv

/-- The filter of a key is read from its object with its right-hand sides spread. It is the filter
that was written exactly where no operator of one value has got a list, and so it is unless the
argument of the key is a list with a list among its items. -/
theorem compileKey_read_again_iff (h : compileKey s t key raw = .ok f) :
    ofJson? f.toJson = some f.spread ∧
      (ofJson? f.toJson = some f ↔ ∀ c ∈ f.conditions, c.operator.arity = .one →
        ∀ v ∈ c.operand.values, ¬v.IsList) ∧
      (¬raw.NestsLists → ofJson? f.toJson = some f) := by
  have hoperands := operand_of_compileKey h
  have hiff : ofJson? f.toJson = some f ↔ ∀ c ∈ f.conditions, c.operator.arity = .one →
      ∀ v ∈ c.operand.values, ¬v.IsList := by
    rw [ofJson?_toJson, Option.some.injEq, spread_eq_self_iff]
    exact forall₂_congr fun c hc => spread_eq_iff_of_fits (hoperands c hc).1
  exact ⟨ofJson?_toJson f, hiff, fun hflat => hiff.mpr fun c hc _ v hv =>
    not_isList_of_mem_splitValues hflat ((hoperands c hc).2 hv)⟩

section

/-- Notes. -/
private def note : DocumentType :=
  { name := "Nota", fields := [.ofIdentifier "id", .ofScalar "texto" .string] }

private theorem segments_note : segments "textoLikeOrTextoIn" =
    .ok [⟨.and, "texto", .like⟩, ⟨.or, "Texto", .isIn⟩] := by
  have hwords : Text.camelWords "textoLikeOrTextoIn" = ["texto", "Like", "Or", "Texto", "In"] := by
    decide +kernel
  have hor : connector? "Or" = some .or := by decide
  have hlike : connector? "Like" = none ∧ operator? ["Like"] = some .like := by decide
  have hin : connector? "In" = none ∧ operator? ["In"] = some .isIn := by decide
  have hfields : connector? "texto" = none ∧ connector? "Texto" = none := by decide
  unfold segments
  rw [hwords]
  simp [readSegments.eq_def, hor, hlike, hin, hfields, runOf, afterRun, Text.concat, bind,
    Except.bind, pure, Except.pure]

private theorem resolveField_note {word : String}
    (hword : Text.IsWord word) (hdot : '.' ∉ word.toList)
    (hfield : note.looseField? (Text.lowerFirst word) = some (.ofScalar "texto" .string)) :
    resolveField ⟨[note]⟩ note "textoLikeOrTextoIn" word = .ok "texto" := by
  unfold resolveField
  rw [Schema.resolvePath_of_isWord _ hfield hword hdot]
  rfl

/-- A list among the values of a membership, which takes a list of values in any case. -/
theorem compileKey_read_again_iff_membership : ∃ f,
    compileKey ⟨[note]⟩ note "textoLikeOrTextoIn"
      (.arr [.str "hol%", .arr [.str "a"], .str "b"]) = .ok f ∧ ofJson? f.toJson = some f := by
  have hok : compileKey ⟨[note]⟩ note "textoLikeOrTextoIn"
      (.arr [.str "hol%", .arr [.str "a"], .str "b"]) = .ok (.or [
        .condition ⟨"texto", .like, .single (.str "hol%")⟩,
        .condition ⟨"texto", .isIn, .list [.arr [.str "a"], .str "b"]⟩]) := by
    have hfirst := resolveField_note (by decide +kernel : Text.IsWord "texto") (by decide)
      (by decide +kernel)
    have hsecond := resolveField_note (by decide +kernel : Text.IsWord "Texto") (by decide)
      (by decide +kernel)
    unfold compileKey
    rw [segments_note]
    simp [misplacedMembership?, Operator.isMembership, assignValues, splitValues, takeOperands,
      takeOperand, Operator.arity, compileSegment, hfirst, hsecond, disjuncts, all, any, bind,
      Except.bind, pure, Except.pure]
  refine ⟨_, hok, (compileKey_read_again_iff hok).2.1.mpr ?_⟩
  simp [conditions, listConditions, Operator.arity, Operand.values, Json.IsList]

/-- A key that is given a list with one list in it asks for that list, which no text equals; the
filter that is read from its object asks for the text in the list. -/
theorem exists_key_read_otherwise : ∃ f g,
    compileKey ⟨[note]⟩ note "texto" (.arr [.arr [.str "hola"]]) = .ok f ∧
      ofJson? f.toJson = some g ∧ ∀ loader memo,
        let doc := [("id", .str "n1"), ("texto", .str "hola")]
        (Evaluation.passes ⟨[note]⟩ loader note doc memo f).holds = false ∧
          (Evaluation.passes ⟨[note]⟩ loader note doc memo g).holds = true := by
  have hok : compileKey ⟨[note]⟩ note "texto" (.arr [.arr [.str "hola"]]) =
      .ok (.equals "texto" (.arr [.str "hola"])) := by
    cbv
  refine ⟨_, _, hok, ofJson?_toJson _, fun loader memo => ?_⟩
  constructor
  · rfl
  · rfl

end

end Filter

end DocumentEngine
