import DocumentEngine.Proofs.Mutation.Valid
import DocumentEngine.Schema.Structure
import Mathlib.Data.List.Forall2

/-!
What valid input leaves behind. The validator and the merge look keys and values up apart from each
other, and yet agree: where no violation is reported, every value of a scalar field is stored as its
kind takes it, never as it came in, and only the names of fields and the keys of pointers are written.
-/

namespace DocumentEngine

/-- What a scalar field of a kind stores for a value: the value coerced, or each item of it where the
field is a list. -/
inductive Field.Stores (f : Field) (kind : ScalarKind) : Json → Json → Prop
  | single {v w : Json} (hone : f.list = false ∨ v = .null) (h : kind.coerce v = .ok w) :
    f.Stores kind v w
  | list {items stored : List Json} (hlist : f.list = true)
    (h : List.Forall₂ (fun item w => kind.coerce item = .ok w) items stored) :
    f.Stores kind (.arr items) (.arr stored)

namespace Mutation

variable {t : DocumentType} {f g : Field} {related : Keyed Json} {key : String} {v : Json}

theorem coerce_eq_coerced {kind : ScalarKind} (h : (kind.coerce v).isOk = true) :
    kind.coerce v = .ok (coerced kind v) := by
  unfold coerced
  cases hcoerce : kind.coerce v with
  | error cause =>
    rw [hcoerce] at h
    cases h
  | ok w => rfl

/-- The value that a scalar field admits is coerced when it is stored. -/
theorem stores_storedValue (hf : t.field? key = some f) {kind : ScalarKind}
    (hkind : f.kind = .scalar kind) (h : f.Admits v) : f.Stores kind v (storedValue t key v) := by
  have hitem : ∀ {item}, f.AdmitsItem item → kind.coerce item = .ok (coerced kind item) :=
    fun hadmits => coerce_eq_coerced ((Field.admitsItem_iff_of_scalar hkind _).mp hadmits)
  cases v with
  | null =>
    rw [storedValue_item hf hkind (by simp)]
    exact .single (.inr rfl) (coerce_eq_coerced (by rw [ScalarKind.coerce_null]; rfl))
  | arr items =>
    rw [Field.admits_arr_iff] at h
    cases hlist : f.list with
    | true =>
      rw [hlist, if_pos rfl] at h
      rw [storedValue_arr hf hkind hlist]
      refine .list hlist ?_
      rw [List.forall₂_map_right_iff, List.forall₂_same]
      exact fun item hmem => hitem (h item hmem)
    | false =>
      rw [hlist, if_neg Bool.false_ne_true, Field.admitsItem_iff_of_scalar hkind,
        ScalarKind.coerce_arr] at h
      cases h
  | _ =>
    rw [storedValue_item hf hkind (by simp)]
    exact .single (.inl h.1) (hitem h.2)

theorem declaredField?_of_field? (h : t.field? key = some f) : t.declaredField? key = some f := by
  rw [DocumentType.declaredField?, h]
  rfl

/-- A key of a document that a key of the input is merged into is the name of the field that this one
belongs to, or the key of its pointer. -/
theorem key_of_mem_writtenKeys (h : t.declaredField? key = some f) {other : String}
    (hother : other ∈ writtenKeys t key) :
    other = f.name ∨ (f.target?.isSome = true ∧ other = f.pointerKey) := by
  cases hreference : referenceField? t key with
  | none =>
    rw [writtenKeys_of_none hreference, List.mem_singleton] at hother
    left
    rw [hother, (field?_mem (field?_of_declaredField? h hreference).1).2]
  | some g =>
    obtain rfl := eq_of_referenceField? h hreference
    rw [writtenKeys_of_reference hreference, List.mem_pair] at hother
    exact hother.imp id fun hpointer => ⟨(name_of_referenceField? hreference).1, hpointer⟩

/-- Where the validator has nothing against an input, merging it stores coerced values in the scalar
fields that it names, whatever the document was; and a key of the document changes only if it is the
name of a field that a key of the input belongs to, or the key of the pointer of such a reference. -/
theorem merge_stores_coerced {s : Schema} (ht : s.type? t.name = some t) {mode : ValidationMode}
    {input : Document} (hordered : input.Ascending) (hvalid : s.validate t.name input mode = [])
    (related : Keyed Json) (doc : Document) :
    (∀ key v f kind, input.get? key = some v → t.field? key = some f → f.kind = .scalar kind →
      ∃ w, f.Stores kind v w ∧ (merge t related doc input).get? key = some w) ∧
    ∀ key, (merge t related doc input).get? key ≠ doc.get? key →
      ∃ other ∈ input.keys, ∃ f ∈ t.fields, t.declaredField? other = some f ∧
        (key = f.name ∨ (f.target?.isSome = true ∧ key = f.pointerKey)) := by
  have hadmits := ((Schema.validate_eq_nil_iff ht input mode).mp hvalid).2
  constructor
  · intro key v f kind hv hf hkind
    have htarget : f.target? = none := by
      rw [Field.target?, hkind]
    obtain ⟨g, hdeclared, hg⟩ := hadmits (key, v) (Keyed.mem_of_get? hv)
    rw [declaredField?_of_field? hf] at hdeclared
    cases hdeclared
    exact ⟨_, stores_storedValue hf hkind hg, get?_merge_field hf htarget related doc hordered hv⟩
  · intro key hchanged
    by_contra hnone
    refine hchanged (get?_merge_of_notMem doc fun entry hentry hwritten => hnone ?_)
    obtain ⟨f, hdeclared, -⟩ := hadmits entry hentry
    exact ⟨entry.1, List.mem_map_of_mem hentry, f, mem_of_declaredField? hdeclared, hdeclared,
      key_of_mem_writtenKeys hdeclared hwritten⟩

section

/-- Where a traveller comes from, and a number that has the name of its pointer. -/
private def traveller : DocumentType where
  name := "Viajero"
  fields := [.ofIdentifier "id", (Field.ofScalar "fechas" .dateTime).ofList,
    .ofReference "origen" "Provincia", .ofScalar "origen_id" .int]

private def travels : Schema where
  types := [traveller, { name := "Provincia", fields := [.ofIdentifier "id"] }]

private def arrival : Document :=
  [("fechas", .arr [.str "2024-01-01", .null]), ("origen", .str "p1"), ("origen_id", .str " 7 ")]

theorem merge_stores_coerced_arrival :
    travels.check = .ok () ∧ travels.validate "Viajero" arrival .partialUpdate = [] ∧
      (∃ w, (Field.ofScalar "fechas" .dateTime).ofList.Stores .dateTime
          (.arr [.str "2024-01-01", .null]) w ∧
        (merge traveller [] [("id", .str "v1")] arrival).get? "fechas" = some w) ∧
      ∃ w, (Field.ofScalar "origen_id" .int).Stores .int (.str " 7 ") w ∧
        (merge traveller [] [("id", .str "v1")] arrival).get? "origen_id" = some w := by
  have hvalid : travels.validate "Viajero" arrival .partialUpdate = [] := by decide +kernel
  have hstores := (merge_stores_coerced (s := travels) (t := traveller) rfl
    (by unfold Keyed.Ascending; decide) hvalid [] [("id", .str "v1")]).1
  exact ⟨by rfl, hvalid, hstores "fechas" _ _ .dateTime rfl rfl rfl,
    hstores "origen_id" _ _ .int rfl rfl rfl⟩

end

end Mutation

end DocumentEngine
