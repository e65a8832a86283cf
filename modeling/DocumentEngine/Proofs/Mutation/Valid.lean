import DocumentEngine.Proofs.Mutation.References
import DocumentEngine.Proofs.Schema.Coerce
import DocumentEngine.Proofs.Schema.Validate

/-!
Validity of merged documents. What is stored is not what was validated: scalar values are coerced,
and a reference becomes a pointer or a copy. Merging one key keeps a document valid where the field
admits the stored form of the value too, and so does merging a whole input.
-/

namespace DocumentEngine

open Mutation

/-- No field of a type bears the name of a field with the ending of pointers. -/
def DocumentType.NamesApart (t : DocumentType) : Prop :=
  ∀ f ∈ t.fields, t.field? f.name = some f ∧ t.field? f.pointerKey = none

instance (t : DocumentType) : Decidable t.NamesApart :=
  inferInstanceAs (Decidable (∀ f ∈ t.fields, _))

theorem DocumentType.NamesApart.pointersApart {t : DocumentType} (h : t.NamesApart) :
    t.PointersApart := fun f hf _ => (h f hf).2

/-- Two fields of a type do not meet, neither in their names nor in those of their pointers. -/
theorem DocumentType.NamesApart.keys_ne {t : DocumentType} (h : t.NamesApart) {k f : Field}
    (hk : t.field? k.name = some k) (hf : f ∈ t.fields) (hne : k ≠ f) :
    k.name ≠ f.name ∧ k.pointerKey ≠ f.pointerKey ∧ k.name ≠ f.pointerKey ∧
      k.pointerKey ≠ f.name := by
  obtain ⟨hfound, hpointer⟩ := h f hf
  have hname : k.name ≠ f.name := by
    intro hname
    rw [hname, hfound] at hk
    exact hne (Option.some.inj hk).symm
  refine ⟨hname, pointerKey_inj.not.mpr hname, fun hsame => ?_, fun hsame => ?_⟩
  · rw [hsame, hpointer] at hk
    cases hk
  · have hfree := (h k (List.mem_of_find?_eq_some hk)).2
    rw [hsame, hfound] at hfree
    cases hfree

/-- The stored form of a value says as much as the value: the text of a point in time can be read
again, and a required field gets a number that is finite and the id of a document. -/
structure Field.Storable (f : Field) (v : Json) : Prop where
  time : f.kind = .scalar .dateTime → ∀ item ∈ items v, ∀ s,
    ScalarKind.dateTime.coerce item = .ok (.str s) → (Timestamp.ofText? s).isSome = true
  number : f.nullable = false → f.kind = .scalar .float → ∀ s, v = .str s →
    ScalarKind.float.coerce v ≠ .ok .null
  reference : f.nullable = false → f.target?.isSome = true → f.list = false → referencedIds v ≠ []

/-- Any value of a field that holds no times, no numbers with a fraction and no references. -/
theorem Field.storable_of_kind {f : Field} (htime : f.kind ≠ .scalar .dateTime)
    (hnumber : f.kind ≠ .scalar .float) (hreference : f.target? = none) (v : Json) : f.Storable v where
  time h := absurd h htime
  number _ h := absurd h hnumber
  reference _ h := by
    rw [hreference] at h
    cases h

namespace Mutation

variable {t : DocumentType} {f g : Field} {related : Keyed Json} {doc : Document} {key : String}
  {v : Json}

theorem declaredField?_of_referenceField? (h : referenceField? t key = some f) :
    t.declaredField? key = some f := by
  unfold referenceField? at h
  unfold DocumentType.declaredField?
  cases hkey : t.field? key with
  | some g =>
    rw [hkey] at h
    obtain ⟨found, hfound, hg⟩ := Option.bind_eq_some_iff.mp h
    cases hfound
    split at hg
    · cases hg
      rfl
    · cases hg
  | none =>
    rw [hkey] at h
    obtain ⟨found, hfound, hg⟩ := Option.bind_eq_some_iff.mp h
    obtain ⟨base, hbase, hfield⟩ := Option.bind_eq_some_iff.mp hfound
    rw [hbase]
    simpa [hfield] using hg

theorem mem_of_declaredField? (h : t.declaredField? key = some f) : f ∈ t.fields := by
  unfold DocumentType.declaredField? at h
  cases hkey : t.field? key with
  | some g =>
    rw [hkey] at h
    exact Option.some.inj h ▸ (field?_mem hkey).1
  | none =>
    rw [hkey] at h
    obtain ⟨base, -, hfield⟩ := Option.bind_eq_some_iff.mp h
    obtain ⟨g, hg, htarget⟩ := Option.bind_eq_some_iff.mp hfield
    split at htarget
    · exact Option.some.inj htarget ▸ (field?_mem hg).1
    · cases htarget

/-- A key that names a reference names no other field. -/
theorem eq_of_referenceField? (h : t.declaredField? key = some f)
    (hreference : referenceField? t key = some g) : g = f := by
  rw [declaredField?_of_referenceField? hreference] at h
  exact Option.some.inj h

/-- A key that names no reference is the name of a field that is none. -/
theorem field?_of_declaredField? (h : t.declaredField? key = some f)
    (hreference : referenceField? t key = none) : t.field? key = some f ∧ f.target? = none := by
  unfold DocumentType.declaredField? at h
  unfold referenceField? at hreference
  cases hkey : t.field? key with
  | some g =>
    rw [hkey] at h hreference
    cases h
    refine ⟨rfl, ?_⟩
    simpa using hreference
  | none =>
    rw [hkey] at h hreference
    obtain ⟨base, hbase, hfield⟩ := Option.bind_eq_some_iff.mp h
    obtain ⟨g, hg, htarget⟩ := Option.bind_eq_some_iff.mp hfield
    rw [hbase] at hreference
    simp [hg] at hreference htarget
    simp [hreference] at htarget

/-- An item that a field of a kind admits, as it is stored. -/
theorem admitsItem_coerced {kind : ScalarKind} (hkind : f.kind = .scalar kind) {item : Json}
    (h : f.AdmitsItem item) (htime : kind = .dateTime → ∀ s, kind.coerce item = .ok (.str s) →
      (Timestamp.ofText? s).isSome = true) :
    ∃ w, kind.coerce item = .ok w ∧ coerced kind item = w ∧ f.AdmitsItem w := by
  rw [Field.admitsItem_iff_of_scalar hkind] at h
  cases hcoerce : kind.coerce item with
  | error cause =>
    rw [hcoerce] at h
    cases h
  | ok w =>
    refine ⟨w, rfl, by rw [coerced, hcoerce], (Field.admitsItem_iff_of_scalar hkind w).mpr ?_⟩
    exact (ScalarKind.holds_of_coerce hcoerce).coerce_isOk fun hdate s hs =>
      htime hdate s (hs ▸ hcoerce)

theorem storedValue_of_not_scalar (hf : t.field? key = some f)
    (hkind : ∀ kind, f.kind ≠ .scalar kind) (v : Json) : storedValue t key v = v := by
  unfold storedValue
  rw [hf]
  cases hk : f.kind with
  | scalar kind => exact absurd hk (hkind kind)
  | _ => simp [hk]

theorem storedValue_arr (hf : t.field? key = some f) {kind : ScalarKind}
    (hkind : f.kind = .scalar kind) (hlist : f.list = true) (vs : List Json) :
    storedValue t key (.arr vs) = .arr (vs.map (coerced kind)) := by
  unfold storedValue
  rw [hf]
  simp [hkind, hlist]

theorem storedValue_item (hf : t.field? key = some f) {kind : ScalarKind}
    (hkind : f.kind = .scalar kind) (hv : ∀ vs, v ≠ .arr vs) :
    storedValue t key v = coerced kind v := by
  unfold storedValue
  rw [hf]
  cases v with
  | arr vs => exact absurd rfl (hv vs)
  | _ => simp [hkind]

/-- A field admits what it stores for a value that it admits. -/
theorem admits_storedValue (hf : t.field? key = some f) (htarget : f.target? = none)
    (h : f.Admits v) (hv : f.Storable v) : f.Admits (storedValue t key v) := by
  cases hkind : f.kind with
  | reference target =>
    unfold Field.target? at htarget
    rw [hkind] at htarget
    cases htarget
  | enumeration name values =>
    rwa [storedValue_of_not_scalar hf (by simp [hkind])]
  | scalar kind =>
    have htime : ∀ item ∈ items v, kind = .dateTime → ∀ s, kind.coerce item = .ok (.str s) →
        (Timestamp.ofText? s).isSome = true := by
      rintro item hitem rfl s hs
      exact hv.time hkind item hitem s hs
    cases v with
    | null =>
      rw [storedValue_item hf hkind (by simp), coerced, ScalarKind.coerce_null]
      exact h
    | arr vs =>
      rw [Field.admits_arr_iff] at h
      cases hlist : f.list with
      | true =>
        rw [hlist, if_pos rfl] at h
        rw [storedValue_arr hf hkind hlist, Field.admits_arr_iff, hlist, if_pos rfl,
          List.forall_mem_map]
        intro item hitem
        obtain ⟨w, -, hw, hadmits⟩ := admitsItem_coerced hkind (h item hitem) (htime item hitem)
        rwa [hw]
      | false =>
        rw [hlist, if_neg Bool.false_ne_true, Field.admitsItem_iff_of_scalar hkind,
          ScalarKind.coerce_arr] at h
        cases h
    | _ =>
      rw [storedValue_item hf hkind (by simp)]
      obtain ⟨w, hcoerce, hw, hadmits⟩ := admitsItem_coerced hkind h.2 (htime _ List.mem_cons_self)
      rw [hw]
      cases w with
      | null =>
        obtain hnull | ⟨rfl, s, hs⟩ := ScalarKind.eq_null_of_coerce hcoerce
        · cases hnull
        · cases hnullable : f.nullable with
          | false => exact absurd hcoerce (hv.number hnullable hkind s hs)
          | true => exact hnullable
      | _ => exact Field.admits_of_item h.1 hadmits rfl

/-- A reference admits a list of entries where it is a list, and else the only one, which may be
missing where it is nullable. -/
theorem admits_entries (htarget : f.target?.isSome = true) {vs : List Json}
    (hvs : ∀ w ∈ vs, w.idText?.isSome = true ∨ w.obj?.isSome = true)
    (hrequired : f.nullable = false → f.list = false → vs ≠ []) :
    f.Admits (if f.list then .arr vs else vs.head?.getD .null) := by
  cases hlist : f.list with
  | true =>
    rw [if_pos rfl, Field.admits_arr_iff, hlist, if_pos rfl]
    exact fun w hw => (Field.admitsItem_iff_of_reference htarget w).mpr (hvs w hw)
  | false =>
    rw [if_neg Bool.false_ne_true]
    cases vs with
    | nil =>
      cases hnullable : f.nullable with
      | false => exact absurd rfl (hrequired hnullable hlist)
      | true => exact hnullable
    | cons w vs =>
      have hw := hvs w List.mem_cons_self
      refine Field.admits_of_item hlist ((Field.admitsItem_iff_of_reference htarget w).mpr hw) ?_
      cases w with
      | null => simp [Json.idText?, Json.obj?] at hw
      | _ => rfl

theorem admits_pointerValue (htarget : f.target?.isSome = true) (hv : f.Storable v) :
    f.Admits (pointerValue f v) := by
  refine admits_entries htarget ?_ fun hnullable hlist hnil => ?_
  · rw [List.forall_mem_map]
    exact fun id _ => .inl rfl
  · exact hv.reference hnullable htarget hlist (List.map_eq_nil_iff.mp hnil)

/-- A key of the input that may be merged: its field admits the value and what is stored for it,
and a copy of what the value names is at hand. -/
structure Mergeable (t : DocumentType) (related : Keyed Json) (key : String) (v : Json)
    (f : Field) : Prop where
  declared : t.declaredField? key = some f
  admits : f.Admits v
  storable : f.Storable v
  copied : f.target?.isSome = true → f.inline = true →
    ∃ copy, related.get? f.name = some copy ∧ f.Admits copy

theorem mem_erase {entry : String × Json} {other : String} (h : entry ∈ doc.erase other) :
    entry ∈ doc := List.mem_of_mem_filter h

/-- Merging a key that may be merged leaves every key with a field that admits its value. -/
theorem admitsAll_mergeKey (hapart : t.NamesApart) (hdoc : t.AdmitsAll doc)
    (h : Mergeable t related key v f) : t.AdmitsAll (mergeKey t related doc key v) := by
  have hinsert : ∀ {doc : Document} {other : String} {w : Json}, t.AdmitsAll doc →
      t.declaredField? other = some f → f.Admits w → t.AdmitsAll (doc.insert other w) := by
    intro doc other w hdoc hother hw entry hentry
    rcases Keyed.mem_insert hentry with rfl | hentry
    · exact ⟨f, hother, hw⟩
    · exact hdoc entry hentry
  unfold mergeKey
  cases hreference : referenceField? t key with
  | none =>
    obtain ⟨hf, htarget⟩ := field?_of_declaredField? h.declared hreference
    exact hinsert hdoc h.declared (admits_storedValue hf htarget h.admits h.storable)
  | some g =>
    obtain rfl := eq_of_referenceField? h.declared hreference
    obtain ⟨htarget, hg, -⟩ := name_of_referenceField? hreference
    have hnames : ∀ other, other = g.name ∨ other = g.pointerKey →
        t.declaredField? other = some g := fun other hother =>
      declaredField?_of_referenceField?
        ((referenceField?_eq_some_iff hapart.pointersApart hg htarget other).mpr hother)
    have herased : t.AdmitsAll ((doc.erase g.name).erase g.pointerKey) :=
      fun entry hentry => hdoc entry (mem_erase (mem_erase hentry))
    dsimp only
    unfold mergeReference
    dsimp only
    cases hnull : v.isNull with
    | true => exact herased
    | false =>
      rw [if_neg Bool.false_ne_true]
      cases hinline : g.inline with
      | true =>
        obtain ⟨copy, hcopy, hadmits⟩ := h.copied htarget hinline
        rw [if_pos rfl, hcopy]
        exact hinsert herased (hnames _ (.inl rfl)) hadmits
      | false =>
        rw [if_neg Bool.false_ne_true]
        exact hinsert herased (hnames _ (.inr rfl)) (admits_pointerValue htarget h.storable)

/-- A document has a field under its name or that of its pointer. -/
def HasField (doc : Document) (f : Field) : Prop :=
  (doc.get? f.name).isSome = true ∨ (doc.get? f.pointerKey).isSome = true

theorem isSome_get?_insert (doc : Document) (other key : String) (w : Json)
    (h : (doc.get? key).isSome = true) : ((doc.insert other w).get? key).isSome = true := by
  rw [Keyed.get?_insert]
  split
  · rfl
  · exact h

/-- A required field that a document has, or that a key names, is there when the key is merged. -/
theorem hasField_mergeKey (hapart : t.NamesApart) (hf : f ∈ t.fields) (hrequired : f.nullable = false)
    (h : Mergeable t related key v g) (hhas : HasField doc f ∨ g = f) :
    HasField (mergeKey t related doc key v) f := by
  unfold mergeKey
  cases hreference : referenceField? t key with
  | none =>
    obtain ⟨hkey, -⟩ := field?_of_declaredField? h.declared hreference
    rcases hhas with hhas | rfl
    · exact hhas.imp (isSome_get?_insert doc key f.name _) (isSome_get?_insert doc key f.pointerKey _)
    · left
      rw [(field?_mem hkey).2, Keyed.get?_insert_self]
      rfl
  | some k =>
    obtain rfl := eq_of_referenceField? h.declared hreference
    obtain ⟨htarget, hg, -⟩ := name_of_referenceField? hreference
    dsimp only
    by_cases heq : k = f
    · subst heq
      have hnull : v.isNull = false := by
        cases hv : v.isNull with
        | false => rfl
        | true => exact absurd (h.admits.nullable hv) (by simp [hrequired])
      obtain ⟨hstored, hcopied⟩ := @get?_mergeReference k related doc v hnull
      cases hinline : k.inline with
      | false =>
        right
        rw [(hstored hinline).2]
        rfl
      | true =>
        left
        obtain ⟨copy, hcopy, -⟩ := h.copied htarget hinline
        rw [(hcopied hinline).1, hcopy]
        rfl
    · have hhas := hhas.resolve_right heq
      obtain ⟨hname, hpointers, hcross, hcross'⟩ := hapart.keys_ne hg hf heq
      unfold HasField
      rwa [get?_mergeReference_of_ne doc v hname hcross',
        get?_mergeReference_of_ne doc v hcross hpointers]

/-- Merging an input whose keys may all be merged: every key of the document has a field that admits
its value, and the required fields that the document had or the input names are there. -/
theorem valid_merge (hapart : t.NamesApart) {input : Document}
    (hinput : ∀ entry ∈ input, ∃ f, Mergeable t related entry.1 entry.2 f) (hdoc : t.AdmitsAll doc) :
    t.AdmitsAll (merge t related doc input) ∧
      ∀ f ∈ t.fields, f.nullable = false →
        (HasField doc f ∨ ∃ entry ∈ input, t.declaredField? entry.1 = some f) →
        HasField (merge t related doc input) f := by
  induction input generalizing doc with
  | nil =>
    refine ⟨hdoc, fun f _ _ hhas => hhas.resolve_right ?_⟩
    rintro ⟨entry, hentry, -⟩
    cases hentry
  | cons entry input ih =>
    obtain ⟨g, hg⟩ := hinput entry List.mem_cons_self
    obtain ⟨hadmits, hhas⟩ := ih (fun other hother => hinput other (List.mem_cons_of_mem _ hother))
      (admitsAll_mergeKey hapart hdoc hg)
    refine ⟨hadmits, fun f hf hrequired hnamed => hhas f hf hrequired ?_⟩
    rcases hnamed with hold | ⟨other, hother, hdeclared⟩
    · exact .inl (hasField_mergeKey hapart hf hrequired hg (.inl hold))
    · rcases List.mem_cons.mp hother with rfl | hother
      · rw [hg.declared] at hdeclared
        exact .inl (hasField_mergeKey hapart hf hrequired hg (.inr (Option.some.inj hdeclared)))
      · exact .inr ⟨other, hother, hdeclared⟩

/-- The name of a field and that of its pointer belong to no other field. -/
theorem eq_of_declaredField? (hapart : t.NamesApart) (hf : f ∈ t.fields)
    (hkey : key = f.name ∨ key = f.pointerKey) (h : t.declaredField? key = some g) : g = f := by
  obtain ⟨hfound, hpointer⟩ := hapart f hf
  unfold DocumentType.declaredField? at h
  rcases hkey with rfl | rfl
  · rw [hfound] at h
    exact (Option.some.inj h).symm
  · have hbase : Text.dropEnding? "_id" f.pointerKey = some f.name :=
      Text.dropEnding?_append f.name "_id"
    rw [hpointer] at h
    obtain ⟨base, hname, hfield⟩ := Option.bind_eq_some_iff.mp h
    rw [hbase] at hname
    cases hname
    obtain ⟨found, hsame, hreference⟩ := Option.bind_eq_some_iff.mp hfield
    rw [hfound] at hsame
    cases hsame
    split at hreference
    · exact (Option.some.inj hreference).symm
    · cases hreference

/-- A required field is present in a document that its type admits when the document has it. -/
theorem isPresent_iff_hasField (hapart : t.NamesApart) (hdoc : t.AdmitsAll doc) (hf : f ∈ t.fields)
    (hrequired : f.nullable = false) :
    DocumentType.isPresent doc f = true ↔ HasField doc f := by
  have hvalue : ∀ {key : String} {v : Json}, key = f.name ∨ key = f.pointerKey →
      doc.get? key = some v → v.isNull = false := by
    intro key v hkey hv
    obtain ⟨g, hdeclared, hadmits⟩ := hdoc _ (Keyed.mem_of_get? hv)
    obtain rfl := eq_of_declaredField? hapart hf hkey hdeclared
    cases hnull : v.isNull with
    | false => rfl
    | true => exact absurd (hadmits.nullable hnull) (by simp [hrequired])
  unfold DocumentType.isPresent HasField
  cases hname : doc.get? f.name with
  | some v => simp [hvalue (.inl rfl) hname]
  | none =>
    cases hpointer : doc.get? f.pointerKey with
    | some v => simp [hvalue (.inr rfl) hpointer]
    | none => simp

/-- A document that its type admits is complete when it has every required field but the
identifier. -/
theorem complete_iff (hapart : t.NamesApart) (hdoc : t.AdmitsAll doc) :
    t.Complete doc ↔
      ∀ f ∈ t.fields, f.nullable = false → f.identifier = false → HasField doc f :=
  forall₂_congr fun _ hf => forall₂_congr fun hrequired _ =>
    isPresent_iff_hasField hapart hdoc hf hrequired

end Mutation

end DocumentEngine
