import DocumentEngine.Proofs.Json.Depth
import DocumentEngine.Proofs.Mutation.Valid

/-!
The nesting of merged documents. Scalars are not nested, and a list of them or of pointers is one
level; only the copy of an inline reference brings the nesting of another document with it.
-/

namespace DocumentEngine

/-- Numbers that fit their kinds, and values nested no deeper than a bound. -/
def Document.Within (doc : Document) (d : Nat) : Prop :=
  ∀ entry ∈ doc, entry.2.InRange ∧ entry.2.depth ≤ d

namespace Document

variable {doc : Document} {d : Nat}

theorem within_iff :
    doc.Within d ↔ Json.InRange (.obj doc) ∧ (Json.obj doc).depth ≤ d + 1 := by
  rw [Json.depth_obj_le_iff]
  constructor
  · exact fun h => ⟨.obj fun entry hentry => (h entry hentry).1, fun entry hentry => (h entry hentry).2⟩
  · rintro ⟨hrange, hdepth⟩ entry hentry
    cases hrange with
    | obj hrange => exact ⟨hrange entry hentry, hdepth entry hentry⟩

theorem Within.insert (h : doc.Within d) {key : String} {v : Json} (hv : v.InRange)
    (hdepth : v.depth ≤ d) : Document.Within (doc.insert key v) d := by
  intro entry hentry
  rcases Keyed.mem_insert hentry with rfl | hentry
  · exact ⟨hv, hdepth⟩
  · exact h entry hentry

theorem Within.erase (h : doc.Within d) (key : String) : Document.Within (doc.erase key) d :=
  fun entry hentry => h entry (Mutation.mem_erase hentry)

end Document

namespace ScalarKind

variable {kind : ScalarKind} {v w : Json}

theorem Holds.depth_eq (h : Holds kind w) : w.depth = 0 := by
  cases h <;> rfl

/-- What a kind makes of a value whose numbers fit has numbers that fit. -/
theorem inRange_of_coerce (h : kind.coerce v = .ok w) (hv : v.InRange) : w.InRange := by
  have hheld := holds_of_coerce h
  cases hheld with
  | null => exact .null
  | id s => exact .str s
  | string s => exact .str s
  | boolean b => exact .bool b
  | dateTime time => exact .str _
  | int n =>
    cases v with
    | num number =>
      cases number with
      | int m =>
        cases h
        exact hv
      | double d =>
        change (if _ then _ else _) = _ at h
        split at h
        · cases h
          have hmin : Number.minSigned = -9223372036854775808 := rfl
          have hmax : Number.maxSigned = 9223372036854775807 := rfl
          have hunsigned : Number.maxUnsigned = 18446744073709551615 := rfl
          exact .num ⟨by unfold clampSigned; omega, by unfold clampSigned; omega⟩
        · cases h
    | str s =>
      dsimp only [coerce] at h
      split at h
      · rename_i m hread
        cases h
        exact .num (Number.inRange_of_signed? hread)
      · cases h
    | _ => cases h
  | float n =>
    cases v with
    | num m =>
      cases h
      exact hv
    | str s =>
      dsimp only [coerce] at h
      split at h
      · unfold doubleJson at h
        split at h
        · cases h
          exact .num trivial
        · cases h
      · cases h
    | _ => cases h

end ScalarKind

namespace Mutation

variable {t : DocumentType} {f : Field} {related : Keyed Json} {doc : Document} {key : String}
  {v : Json} {d : Nat}

/-- What a kind makes of a value that it takes is a number that fits, or no number, and holds no
other value. -/
theorem flat_coerced {kind : ScalarKind} (h : (kind.coerce v).isOk = true) (hv : v.InRange) :
    (coerced kind v).InRange ∧ (coerced kind v).depth = 0 := by
  unfold coerced
  cases hcoerce : kind.coerce v with
  | error cause =>
    rw [hcoerce] at h
    cases h
  | ok w =>
    exact ⟨ScalarKind.inRange_of_coerce hcoerce hv, (ScalarKind.holds_of_coerce hcoerce).depth_eq⟩

/-- What is stored for a value that the field admits is a scalar or a list of scalars. -/
theorem flat_storedValue (hf : t.field? key = some f) (htarget : f.target? = none)
    (h : f.Admits v) (hv : v.InRange) :
    (storedValue t key v).InRange ∧ (storedValue t key v).depth ≤ 1 := by
  cases hkind : f.kind with
  | reference target =>
    unfold Field.target? at htarget
    rw [hkind] at htarget
    cases htarget
  | enumeration name values =>
    have hitem : ∀ item, f.AdmitsItem item → item.depth ≤ 0 := by
      intro item hitem
      unfold Field.AdmitsItem at hitem
      rw [hkind] at hitem
      obtain ⟨s, -, rfl⟩ := hitem
      exact Nat.le_refl 0
    rw [storedValue_of_not_scalar hf (by simp [hkind])]
    refine ⟨hv, ?_⟩
    cases v with
    | null => exact Nat.zero_le 1
    | arr vs =>
      rw [Field.admits_arr_iff] at h
      split at h
      · exact Json.depth_arr_le_iff.mpr fun item hmem => hitem item (h item hmem)
      · exact (hitem _ h).trans (Nat.zero_le 1)
    | _ => exact (hitem _ h.2).trans (Nat.zero_le 1)
  | scalar kind =>
    have hone : ∀ w, (kind.coerce w).isOk = true → w.InRange →
        (coerced kind w).InRange ∧ (coerced kind w).depth ≤ 1 := by
      intro w hw hrange
      obtain ⟨hcoerced, hdepth⟩ := flat_coerced hw hrange
      exact ⟨hcoerced, by omega⟩
    cases v with
    | null =>
      rw [storedValue_item hf hkind (by simp)]
      exact hone .null (by rw [ScalarKind.coerce_null]; rfl) hv
    | arr vs =>
      rw [Field.admits_arr_iff] at h
      split at h
      · rename_i hlist
        have hall : ∀ item ∈ vs, (coerced kind item).InRange ∧ (coerced kind item).depth = 0 := by
          intro item hmem
          cases hv with
          | arr hrange =>
            exact flat_coerced ((Field.admitsItem_iff_of_scalar hkind item).mp (h item hmem))
              (hrange item hmem)
        rw [storedValue_arr hf hkind hlist]
        refine ⟨.arr (List.forall_mem_map.mpr fun item hmem => (hall item hmem).1),
          Json.depth_arr_le_iff.mpr (List.forall_mem_map.mpr fun item hmem => ?_)⟩
        exact (hall item hmem).2.le
      · rw [Field.admitsItem_iff_of_scalar hkind, ScalarKind.coerce_arr] at h
        cases h
    | _ =>
      rw [storedValue_item hf hkind (by simp)]
      exact hone _ ((Field.admitsItem_iff_of_scalar hkind _).mp h.2) hv

/-- A pointer is a text or a list of texts. -/
theorem flat_pointerValue (f : Field) (v : Json) :
    (pointerValue f v).InRange ∧ (pointerValue f v).depth ≤ 1 := by
  unfold pointerValue
  dsimp only
  split
  · refine ⟨.arr (List.forall_mem_map.mpr fun id _ => .str id),
      Json.depth_arr_le_iff.mpr (List.forall_mem_map.mpr fun id _ => Nat.le_refl 0)⟩
  · cases referencedIds v with
    | nil => exact ⟨.null, Nat.zero_le 1⟩
    | cons id ids => exact ⟨.str id, Nat.zero_le 1⟩

/-- The copies that are at hand for inline references are nested no deeper than a bound. -/
def CopiesWithin (t : DocumentType) (related : Keyed Json) (d : Nat) : Prop :=
  ∀ f copy, t.field? f.name = some f → f.target?.isSome = true → f.inline = true →
    related.get? f.name = some copy → copy.InRange ∧ copy.depth ≤ d

/-- Merging a key whose field admits the value nests no deeper than the document and the copies at
hand. -/
theorem within_mergeKey (hd : 1 ≤ d) (hcopies : CopiesWithin t related d)
    (hdeclared : t.declaredField? key = some f) (hadmits : f.Admits v) (hv : v.InRange)
    (h : doc.Within d) : (mergeKey t related doc key v).Within d := by
  unfold mergeKey
  cases hreference : referenceField? t key with
  | none =>
    obtain ⟨hfield, htarget⟩ := field?_of_declaredField? hdeclared hreference
    obtain ⟨hrange, hdepth⟩ := flat_storedValue hfield htarget hadmits hv
    exact h.insert hrange (hdepth.trans hd)
  | some g =>
    obtain ⟨htarget, hfield, -⟩ := name_of_referenceField? hreference
    have herased : Document.Within ((doc.erase g.name).erase g.pointerKey) d :=
      (h.erase g.name).erase g.pointerKey
    dsimp only
    unfold mergeReference
    dsimp only
    split
    · exact herased
    · split
      · rename_i hinline
        cases hcopy : related.get? g.name with
        | none => exact herased
        | some copy =>
          obtain ⟨hrange, hdepth⟩ := hcopies g copy hfield htarget hinline hcopy
          exact herased.insert hrange hdepth
      · obtain ⟨hrange, hdepth⟩ := flat_pointerValue g v
        exact herased.insert hrange (hdepth.trans hd)

/-- Merging an input whose fields admit its values nests no deeper than the document and the copies
at hand. -/
theorem within_merge {input : Document} (hd : 1 ≤ d) (hcopies : CopiesWithin t related d)
    (hadmits : t.AdmitsAll input) (hinput : Json.InRange (.obj input)) (h : doc.Within d) :
    (merge t related doc input).Within d := by
  cases hinput with
  | obj hrange =>
    induction input generalizing doc with
    | nil => exact h
    | cons entry input ih =>
      obtain ⟨f, hdeclared, hv⟩ := hadmits entry List.mem_cons_self
      exact ih (fun other hother => hadmits other (List.mem_cons_of_mem _ hother))
        (within_mergeKey hd hcopies hdeclared hv (hrange entry List.mem_cons_self) h)
        (fun other hother => hrange other (List.mem_cons_of_mem _ hother))

end Mutation

end DocumentEngine
