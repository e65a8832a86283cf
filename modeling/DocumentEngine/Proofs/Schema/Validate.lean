import DocumentEngine.Proofs.Keyed
import DocumentEngine.Schema.Validate

/-!
What the validator accepts. A value is admitted by a field when no violation is reported for it,
and a document is valid when each of its keys belongs to a field that admits the value and no
required field is missing.
-/

namespace DocumentEngine

namespace Field

/-- A value that may stand in a field that is no list, or among the items of one that is. -/
def AdmitsItem (f : Field) (v : Json) : Prop :=
  match f.kind with
  | .scalar kind => (kind.coerce v).isOk = true
  | .enumeration _ values => ∃ s ∈ values, v = .str s
  | .reference _ => v.idText?.isSome = true ∨ v.obj?.isSome = true

/-- A value that may stand in a field. -/
def Admits (f : Field) (v : Json) : Prop :=
  match v with
  | .null => f.nullable = true
  | .arr items => if f.list then ∀ item ∈ items, f.AdmitsItem item else f.AdmitsItem v
  | _ => f.list = false ∧ f.AdmitsItem v

theorem admitsItem_iff_of_scalar {f : Field} {kind : ScalarKind} (hkind : f.kind = .scalar kind)
    (v : Json) : f.AdmitsItem v ↔ (kind.coerce v).isOk = true := by
  unfold AdmitsItem
  rw [hkind]

theorem admitsItem_iff_of_reference {f : Field} (htarget : f.target?.isSome = true) (v : Json) :
    f.AdmitsItem v ↔ v.idText?.isSome = true ∨ v.obj?.isSome = true := by
  unfold target? at htarget
  unfold AdmitsItem
  cases hkind : f.kind with
  | reference target => exact Iff.rfl
  | _ =>
    rw [hkind] at htarget
    cases htarget

theorem admits_arr_iff {f : Field} (items : List Json) :
    f.Admits (.arr items) ↔
      if f.list then ∀ item ∈ items, f.AdmitsItem item else f.AdmitsItem (.arr items) := Iff.rfl

/-- A field that is no list admits what may be an item of it. -/
theorem admits_of_item {f : Field} (hlist : f.list = false) {v : Json} (h : f.AdmitsItem v)
    (hnull : v.isNull = false) : f.Admits v := by
  cases v with
  | null => cases hnull
  | arr items =>
    rw [admits_arr_iff, hlist]
    exact h
  | _ => exact ⟨hlist, h⟩

theorem itemViolations_eq_nil_iff (f : Field) (path : String) (v : Json) :
    f.itemViolations path v = [] ↔ f.AdmitsItem v := by
  unfold itemViolations AdmitsItem
  cases f.kind with
  | scalar kind =>
    dsimp only
    cases kind.coerce v with
    | ok w => exact iff_of_true rfl rfl
    | error cause => exact iff_of_false (List.cons_ne_nil _ _) Bool.false_ne_true
  | enumeration name values =>
    cases v with
    | str s => simp
    | _ => simp
  | reference target => cases v <;> simp [Json.idText?, Json.obj?]

theorem listViolations_eq_nil_iff (f : Field) (path : String) (i : Nat) (items : List Json) :
    f.listViolations path i items = [] ↔ ∀ item ∈ items, f.AdmitsItem item := by
  induction items generalizing i with
  | nil => simp [listViolations]
  | cons v vs ih =>
    rw [listViolations, List.append_eq_nil_iff, itemViolations_eq_nil_iff, ih, List.forall_mem_cons]

/-- A field admits the values for which no violation is reported, at whatever path. -/
theorem violations_eq_nil_iff (f : Field) (path : String) (v : Json) :
    f.violations path v = [] ↔ f.Admits v := by
  unfold violations Admits
  cases v with
  | null => cases f.nullable <;> simp
  | arr items =>
    dsimp only
    cases f.list with
    | true => exact listViolations_eq_nil_iff f path 0 items
    | false => exact itemViolations_eq_nil_iff f path (.arr items)
  | _ => cases f.list <;> simp [itemViolations_eq_nil_iff]

theorem Admits.nullable {f : Field} {v : Json} (h : f.Admits v) (hv : v.isNull = true) :
    f.nullable = true := by
  cases v with
  | null => exact h
  | _ => cases hv

end Field

namespace DocumentType

/-- Every key of a document belongs to a field that admits its value. -/
def AdmitsAll (t : DocumentType) (doc : Document) : Prop :=
  ∀ entry ∈ doc, ∃ f, t.declaredField? entry.1 = some f ∧ f.Admits entry.2

/-- No required field of a document is missing. -/
def Complete (t : DocumentType) (doc : Document) : Prop :=
  ∀ f ∈ t.fields, f.nullable = false → f.identifier = false → isPresent doc f = true

theorem missingFields_eq_nil_iff (t : DocumentType) (doc : Document) :
    t.missingFields doc = [] ↔ t.Complete doc := by
  unfold missingFields Complete
  rw [List.map_eq_nil_iff, List.filter_eq_nil_iff]
  simp

end DocumentType

/-- A document is valid when its keys are admitted and, as a whole, when it is complete. -/
theorem Schema.validate_eq_nil_iff {s : Schema} {type : String} {t : DocumentType}
    (ht : s.type? type = some t) (doc : Document) (mode : ValidationMode) :
    s.validate type doc mode = [] ↔ (mode = .full → t.Complete doc) ∧ t.AdmitsAll doc := by
  unfold validate
  rw [ht, List.append_eq_nil_iff]
  refine and_congr ?_ ?_
  · cases mode with
    | full => simp [DocumentType.missingFields_eq_nil_iff]
    | partialUpdate => simp
  · rw [List.flatMap_eq_nil_iff]
    refine forall₂_congr fun entry _ => ?_
    dsimp only
    cases t.declaredField? entry.1 with
    | none => simp
    | some f => simp [Field.violations_eq_nil_iff]

end DocumentEngine
