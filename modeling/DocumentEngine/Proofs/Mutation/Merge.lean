import DocumentEngine.Mutation.Merge
import DocumentEngine.Proofs.Keyed

/-!
What merging an input leaves in a document. A key of the input is merged into its own key of the
document, or into the two of the reference that it names, and into no other; so what stands under a
key is what the last key of the input that is merged into it has put there. Nothing that is merged
after a field other than a reference changes it: a reference whose pointer has the name of the field
comes before it in the order of keys.
-/

namespace DocumentEngine

theorem Text.eq_append_of_dropEnding? {ending s base : String}
    (h : Text.dropEnding? ending s = some base) : s = base ++ ending := by
  unfold Text.dropEnding? at h
  dsimp only at h
  split at h
  · rename_i hsuffix
    obtain ⟨front, hfront⟩ := List.isSuffixOf_iff_suffix.mp hsuffix
    cases h
    apply String.toList_inj.mp
    rw [String.toList_append, String.toList_ofList, ← hfront]
    simp
  · cases h

theorem lt_append_of_ne_empty (s : String) {ending : String} (h : ending ≠ "") :
    s < s ++ ending := by
  obtain ⟨c, cs, hcs⟩ : ∃ c cs, ending.toList = c :: cs :=
    List.exists_cons_of_ne_nil fun hnil => h (String.toList_eq_nil_iff.mp hnil)
  rw [String.lt_iff_toList_lt, String.toList_append, hcs]
  have hlt : s.toList ++ [] < s.toList ++ c :: cs := List.append_left_lt (List.nil_lt_cons c cs)
  rwa [List.append_nil] at hlt

namespace Mutation

variable {t : DocumentType} {f g : Field} {related : Keyed Json} {key name : String}

theorem name_lt_pointerKey (f : Field) : f.name < f.pointerKey :=
  lt_append_of_ne_empty f.name (by decide)

theorem name_ne_pointerKey (f : Field) : f.name ≠ f.pointerKey := (name_lt_pointerKey f).ne

theorem pointerKey_inj : g.pointerKey = f.pointerKey ↔ g.name = f.name := by
  constructor
  · intro h
    have htexts := congrArg String.toList h
    unfold Field.pointerKey at htexts
    rw [String.toList_append, String.toList_append] at htexts
    exact String.toList_inj.mp (List.append_cancel_right htexts)
  · intro h
    rw [Field.pointerKey, h, Field.pointerKey]

theorem referenceField?_eq_none (hf : t.field? name = some f) (htarget : f.target? = none) :
    referenceField? t name = none := by
  simp [referenceField?, hf, htarget]

/-- A reference is named by a key that is its own name or that of its pointer. -/
theorem name_of_referenceField? (h : referenceField? t key = some g) :
    g.target?.isSome = true ∧ t.field? g.name = some g ∧ (key = g.name ∨ key = g.pointerKey) := by
  unfold referenceField? at h
  obtain ⟨found, hfound, hg⟩ := Option.bind_eq_some_iff.mp h
  split at hg
  · rename_i htarget
    cases hg
    have hname : ∀ name, t.field? name = some g → g.name = name := fun name hname => by
      simpa using List.find?_some hname
    cases hkey : t.field? key with
    | some other =>
      rw [hkey] at hfound
      cases hfound
      rw [hname key hkey]
      exact ⟨htarget, hkey, .inl rfl⟩
    | none =>
      rw [hkey] at hfound
      obtain ⟨base, hbase, hfield⟩ := Option.bind_eq_some_iff.mp hfound
      have hpointer := Text.eq_append_of_dropEnding? hbase
      refine ⟨htarget, ?_, .inr ?_⟩
      · rw [hname base hfield]
        exact hfield
      · rw [Field.pointerKey, hname base hfield, hpointer]
  · cases hg

theorem referenceField?_name (hf : t.field? f.name = some f) (htarget : f.target?.isSome = true) :
    referenceField? t f.name = some f := by
  simp [referenceField?, hf, htarget]

/-- The keys of a document that a key of the input is merged into: those of the reference that it
names, or its own. -/
def writtenKeys (t : DocumentType) (key : String) : List String :=
  match referenceField? t key with
  | some f => [f.name, f.pointerKey]
  | none => [key]

theorem writtenKeys_of_reference (h : referenceField? t key = some f) :
    writtenKeys t key = [f.name, f.pointerKey] := by
  rw [writtenKeys, h]

theorem writtenKeys_of_none (h : referenceField? t key = none) : writtenKeys t key = [key] := by
  rw [writtenKeys, h]

theorem mem_writtenKeys_self (t : DocumentType) (key : String) : key ∈ writtenKeys t key := by
  cases href : referenceField? t key with
  | none =>
    rw [writtenKeys_of_none href]
    exact List.mem_singleton_self key
  | some f =>
    rw [writtenKeys_of_reference href, List.mem_pair]
    exact (name_of_referenceField? href).2.2

theorem get?_mergeReference_of_ne (doc : Document) (v : Json) {other : String}
    (hname : g.name ≠ other) (hpointer : g.pointerKey ≠ other) :
    (mergeReference g related doc v).get? other = doc.get? other := by
  have herased : ((doc.erase g.name).erase g.pointerKey).get? other = doc.get? other := by
    rw [Keyed.get?_erase_of_ne _ hpointer, Keyed.get?_erase_of_ne _ hname]
  unfold mergeReference
  dsimp only
  split
  · exact herased
  · split
    · split
      · rw [Keyed.get?_insert_of_ne _ _ hname, herased]
      · exact herased
    · rw [Keyed.get?_insert_of_ne _ _ hpointer, herased]

theorem get?_mergeKey_of_notMem (doc : Document) (v : Json) {other : String}
    (h : other ∉ writtenKeys t key) :
    (mergeKey t related doc key v).get? other = doc.get? other := by
  unfold mergeKey
  cases href : referenceField? t key with
  | none =>
    rw [writtenKeys_of_none href, List.mem_singleton] at h
    exact Keyed.get?_insert_of_ne doc _ (Ne.symm h)
  | some g =>
    rw [writtenKeys_of_reference href, List.mem_pair, not_or] at h
    exact get?_mergeReference_of_ne doc v (Ne.symm h.1) (Ne.symm h.2)

theorem get?_merge_of_notMem (doc : Document) {input : Document} {other : String}
    (h : ∀ entry ∈ input, other ∉ writtenKeys t entry.1) :
    (merge t related doc input).get? other = doc.get? other := by
  induction input generalizing doc with
  | nil => rfl
  | cons entry input ih =>
    have hrest := ih (mergeKey t related doc entry.1 entry.2) fun later hlater =>
      h later (List.mem_cons_of_mem _ hlater)
    exact hrest.trans (get?_mergeKey_of_notMem doc entry.2 (h entry List.mem_cons_self))

/-- What stands under a key is what the last key of the input that is merged into it has put
there. -/
theorem get?_merge_last (doc before : Document) (v : Json) {after : Document} {other : String}
    (hafter : ∀ entry ∈ after, other ∉ writtenKeys t entry.1) :
    (merge t related doc (before ++ (key, v) :: after)).get? other =
      (mergeKey t related (merge t related doc before) key v).get? other := by
  have hmerged : merge t related doc (before ++ (key, v) :: after) =
      merge t related (mergeKey t related (merge t related doc before) key v) after := by
    unfold merge
    rw [List.foldl_append, List.foldl_cons]
  rw [hmerged, get?_merge_of_notMem _ hafter]

/-- A key behind the name of a field that is no reference is not merged into it. -/
theorem notMem_writtenKeys_of_lt (hf : t.field? name = some f) (htarget : f.target? = none)
    (hlt : name < key) : name ∉ writtenKeys t key := by
  cases href : referenceField? t key with
  | none =>
    rw [writtenKeys_of_none href, List.mem_singleton]
    exact hlt.ne
  | some g =>
    obtain ⟨hg, hfield, hnamed⟩ := name_of_referenceField? href
    rw [writtenKeys_of_reference href, List.mem_pair, not_or]
    constructor
    · rintro rfl
      rw [hf] at hfield
      cases hfield
      rw [htarget] at hg
      cases hg
    · rintro rfl
      rcases hnamed with rfl | rfl
      · exact lt_asymm hlt (name_lt_pointerKey g)
      · exact lt_irrefl _ hlt

/-- A field that is no reference holds what it stores for the value that the input gives it. -/
theorem get?_merge_field (hf : t.field? name = some f) (htarget : f.target? = none)
    (related : Keyed Json) (doc : Document) {input : Document} (hinput : Keyed.Ascending input)
    {v : Json} (hv : input.get? name = some v) :
    (merge t related doc input).get? name = some (storedValue t name v) := by
  obtain ⟨before, after, rfl⟩ := List.append_of_mem (Keyed.mem_of_get? hv)
  have hbehind : ∀ entry ∈ after, name < entry.1 :=
    (List.pairwise_cons.mp (List.pairwise_append.mp hinput).2.1).1
  rw [get?_merge_last doc before v fun entry hentry =>
    notMem_writtenKeys_of_lt hf htarget (hbehind entry hentry)]
  rw [mergeKey, referenceField?_eq_none hf htarget]
  exact Keyed.get?_insert_self _ _ _

/-- The identifier that is merged into a document is its identifier afterwards. -/
theorem get?_merge_identifier (hf : t.field? t.identifierName = some f) (hkind : f.kind = .scalar .id)
    (related : Keyed Json) (doc : Document) {input : Document} (hinput : Keyed.Ascending input)
    {v : Json} {id : String} (hv : input.get? t.identifierName = some v)
    (hid : v.idText? = some id) :
    (merge t related doc input).get? t.identifierName = some (.str id) := by
  have htarget : f.target? = none := by
    rw [Field.target?, hkind]
  have hstored : storedValue t t.identifierName v = .str id := by
    unfold storedValue
    rw [hf]
    dsimp only
    rw [hkind]
    cases v with
    | str text =>
      cases hid
      rfl
    | num n =>
      cases hid
      rfl
    | _ => cases hid
  rw [get?_merge_field hf htarget related doc hinput hv, hstored]

end Mutation

end DocumentEngine
