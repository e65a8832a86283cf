import DocumentEngine.Proofs.Mutation.Merge
import DocumentEngine.Schema.Validate

/-!
References in merged documents. Where no field bears the name of a pointer, a reference is written
by the last key of the input that names it and by no other key, which is that of its pointer where
the input has both; it then stands in the document as a copy or as a pointer, and in no other form.
-/

namespace DocumentEngine

theorem Text.dropEnding?_append (s ending : String) : dropEnding? ending (s ++ ending) = some s := by
  unfold dropEnding?
  simp [String.toList_append]

/-- No field of a type bears the name of the pointer of one of its references. -/
def DocumentType.PointersApart (t : DocumentType) : Prop :=
  ∀ f ∈ t.fields, f.target?.isSome = true → t.field? f.pointerKey = none

instance (t : DocumentType) : Decidable t.PointersApart :=
  inferInstanceAs (Decidable (∀ f ∈ t.fields, _))

namespace Mutation

/-- The items of the value of a reference: those of a list, or the value itself. -/
def items : Json → List Json
  | .arr vs => vs
  | v => [v]

/-- The id that an item names: its own text, or the `id` of an object. -/
def itemId? : Json → Option String
  | .obj members => Keyed.get? members "id" >>= Json.idText?
  | v => v.idText?

/-- Every item names an id. -/
def Identifies (v : Json) : Prop := ∀ item ∈ items v, (itemId? item).isSome = true

instance (v : Json) : Decidable (Identifies v) :=
  inferInstanceAs (Decidable (∀ item ∈ items v, _))

theorem referencedIds_of_item {item : Json} (h : (itemId? item).isSome = true) :
    referencedIds item = (itemId? item).toList := by
  cases item with
  | arr vs => cases h
  | _ => simp only [referencedIds, itemId?]

/-- Where every item names an id, the ids are those of the items in order. -/
theorem map_some_referencedIds {v : Json} (h : Identifies v) :
    (referencedIds v).map some = (items v).map itemId? := by
  have hitem : ∀ item : Json, (itemId? item).isSome = true →
      (referencedIds item).map some = [itemId? item] := by
    intro item hitem
    obtain ⟨id, hid⟩ := Option.isSome_iff_exists.mp hitem
    rw [referencedIds_of_item hitem, hid]
    rfl
  cases v with
  | arr vs =>
    unfold Identifies items at h
    have hall : ∀ vs : List Json, (∀ item ∈ vs, (itemId? item).isSome = true) →
        (referencedItemIds vs).map some = vs.map itemId? := by
      intro vs
      induction vs with
      | nil => intro _; rfl
      | cons item vs ih =>
        intro hvs
        rw [referencedItemIds, List.map_append, hitem item (hvs item List.mem_cons_self),
          ih fun other hother => hvs other (List.mem_cons_of_mem _ hother)]
        rfl
    rw [referencedIds]
    exact hall vs h
  | _ => exact hitem _ (h _ List.mem_cons_self)

variable {t : DocumentType} {f g : Field} {related : Keyed Json}

theorem field?_mem {name : String} (h : t.field? name = some f) : f ∈ t.fields ∧ f.name = name :=
  ⟨List.mem_of_find?_eq_some h, by simpa using List.find?_some h⟩

/-- The keys that name a reference are its own name and that of its pointer. -/
theorem referenceField?_eq_some_iff (hapart : t.PointersApart) (hf : t.field? f.name = some f)
    (htarget : f.target?.isSome = true) (key : String) :
    referenceField? t key = some f ↔ key = f.name ∨ key = f.pointerKey := by
  constructor
  · exact fun h => (name_of_referenceField? h).2.2
  · rintro (rfl | rfl)
    · exact referenceField?_name hf htarget
    · have hpointer := hapart f (field?_mem hf).1 htarget
      have hbase : Text.dropEnding? "_id" f.pointerKey = some f.name :=
        Text.dropEnding?_append f.name "_id"
      simp [referenceField?, hpointer, hbase, hf, htarget]

/-- A reference stands in a document as the copy of what it names or as its pointer, in place of
whatever stood there. -/
theorem get?_mergeReference (doc : Document) {v : Json} (hv : v.isNull = false) :
    (f.inline = false → (mergeReference f related doc v).get? f.name = none ∧
      (mergeReference f related doc v).get? f.pointerKey = some (pointerValue f v)) ∧
    (f.inline = true → (mergeReference f related doc v).get? f.name = related.get? f.name ∧
      (mergeReference f related doc v).get? f.pointerKey = none) := by
  have hname : ((doc.erase f.name).erase f.pointerKey).get? f.name = none := by
    rw [Keyed.get?_erase_of_ne _ (name_ne_pointerKey f).symm, Keyed.get?_erase_self]
  have hpointer : ((doc.erase f.name).erase f.pointerKey).get? f.pointerKey = none :=
    Keyed.get?_erase_self _ _
  unfold mergeReference
  dsimp only
  rw [if_neg (by rw [hv]; exact Bool.false_ne_true)]
  refine ⟨fun hinline => ?_, fun hinline => ?_⟩
  · rw [if_neg (by rw [hinline]; exact Bool.false_ne_true)]
    rw [Keyed.get?_insert_of_ne _ _ (name_ne_pointerKey f).symm, Keyed.get?_insert_self]
    exact ⟨hname, rfl⟩
  · rw [if_pos hinline]
    cases hcopy : related.get? f.name with
    | none => exact ⟨hname, hpointer⟩
    | some copy =>
      dsimp only
      rw [Keyed.get?_insert_self, Keyed.get?_insert_of_ne _ _ (name_ne_pointerKey f)]
      exact ⟨rfl, hpointer⟩

theorem get?_mergeReference_null (doc : Document) {key : String} (hkey : key = f.name ∨ key = f.pointerKey) :
    (mergeReference f related doc .null).get? key = none := by
  have herased : mergeReference f related doc .null = (doc.erase f.name).erase f.pointerKey := rfl
  rw [herased]
  rcases hkey with rfl | rfl
  · rw [Keyed.get?_erase_of_ne _ (name_ne_pointerKey f).symm, Keyed.get?_erase_self]
  · exact Keyed.get?_erase_self _ _

/-- The value that an input gives a reference: under the name of its pointer, which comes behind its
own, or else under its own. -/
def givenValue? (f : Field) (input : Document) : Option Json :=
  input.get? f.pointerKey <|> input.get? f.name

theorem exists_givenValue? {input : Document} {key : String} {v : Json}
    (hv : input.get? key = some v) (hkey : key = f.name ∨ key = f.pointerKey) :
    ∃ given, givenValue? f input = some given := by
  unfold givenValue?
  cases hpointer : input.get? f.pointerKey with
  | some given => exact ⟨given, rfl⟩
  | none =>
    rcases hkey with rfl | rfl
    · exact ⟨v, hv⟩
    · rw [hv] at hpointer
      cases hpointer

theorem givenValue?_eq_some {input : Document} {key : String} {v : Json}
    (hv : input.get? key = some v) (hkey : key = f.name ∨ key = f.pointerKey)
    (hlast : f.pointerKey ∈ input.keys → key = f.pointerKey) : givenValue? f input = some v := by
  unfold givenValue?
  rcases hkey with rfl | rfl
  · have hnone : input.get? f.pointerKey = none :=
      Keyed.get?_eq_none_iff.mpr fun hmem => name_ne_pointerKey f (hlast hmem)
    rw [hnone]
    exact hv
  · rw [hv]
    rfl

section

variable (hapart : t.PointersApart) (hf : t.field? f.name = some f)
  (htarget : f.target?.isSome = true)

include hapart hf htarget

/-- Two references of a type keep out of each other's way. -/
theorem references_apart {key : String} (hg : referenceField? t key = some g) (hne : g ≠ f) :
    g.name ≠ f.name ∧ g.pointerKey ≠ f.pointerKey ∧ g.name ≠ f.pointerKey ∧
      g.pointerKey ≠ f.name := by
  obtain ⟨hgtarget, hgfield, -⟩ := name_of_referenceField? hg
  have hname : g.name ≠ f.name := by
    intro heq
    rw [heq, hf] at hgfield
    exact hne (Option.some.inj hgfield).symm
  refine ⟨hname, pointerKey_inj.not.mpr hname, ?_, ?_⟩
  · intro heq
    rw [heq, hapart f (field?_mem hf).1 htarget] at hgfield
    cases hgfield
  · intro heq
    rw [← heq, hapart g (field?_mem hgfield).1 hgtarget] at hf
    cases hf

/-- A key that names another field is not merged into either form of a reference. -/
theorem notMem_writtenKeys {key : String} (hkey : referenceField? t key ≠ some f) :
    f.name ∉ writtenKeys t key ∧ f.pointerKey ∉ writtenKeys t key := by
  have hnames := (referenceField?_eq_some_iff hapart hf htarget key).not.mp hkey
  rw [not_or] at hnames
  cases href : referenceField? t key with
  | none =>
    rw [writtenKeys_of_none href, List.mem_singleton, List.mem_singleton]
    exact ⟨Ne.symm hnames.1, Ne.symm hnames.2⟩
  | some g =>
    have hne : g ≠ f := by
      rintro rfl
      exact hkey href
    obtain ⟨hname, hpointer, hcross, hcross'⟩ := references_apart hapart hf htarget href hne
    rw [writtenKeys_of_reference href, List.mem_pair, List.mem_pair, not_or, not_or]
    exact ⟨⟨Ne.symm hname, Ne.symm hcross'⟩, Ne.symm hcross, Ne.symm hpointer⟩

theorem referenceField?_ne_of_not_given {input : Document} (h : givenValue? f input = none) :
    ∀ entry ∈ input, referenceField? t entry.1 ≠ some f := by
  intro entry hentry hnames
  obtain ⟨hpointer, hname⟩ : input.get? f.pointerKey = none ∧ input.get? f.name = none := by
    simpa [givenValue?] using h
  rcases (referenceField?_eq_some_iff hapart hf htarget entry.1).mp hnames with hkey | hkey
  · exact Keyed.get?_eq_none_iff.mp hname (hkey ▸ List.mem_map_of_mem hentry)
  · exact Keyed.get?_eq_none_iff.mp hpointer (hkey ▸ List.mem_map_of_mem hentry)

/-- What an input gives a reference is the value of the last key that names it. -/
theorem exists_last_of_given {input : Document} (hordered : Keyed.Ascending input) {v : Json}
    (h : givenValue? f input = some v) :
    ∃ before key after, input = before ++ (key, v) :: after ∧ referenceField? t key = some f ∧
      ∀ entry ∈ after, referenceField? t entry.1 ≠ some f := by
  have hnames := referenceField?_eq_some_iff hapart hf htarget
  obtain ⟨key, hkey, hv, hlast⟩ : ∃ key, (key = f.name ∨ key = f.pointerKey) ∧
      input.get? key = some v ∧ (key = f.name → input.get? f.pointerKey = none) := by
    unfold givenValue? at h
    cases hpointer : input.get? f.pointerKey with
    | some w =>
      rw [hpointer] at h
      exact ⟨f.pointerKey, .inr rfl, hpointer.trans h,
        fun hname => absurd hname.symm (name_ne_pointerKey f)⟩
    | none =>
      rw [hpointer] at h
      exact ⟨f.name, .inl rfl, h, fun _ => rfl⟩
  obtain ⟨before, after, rfl⟩ := List.append_of_mem (Keyed.mem_of_get? hv)
  refine ⟨before, key, after, rfl, (hnames key).mpr hkey, fun entry hentry hother => ?_⟩
  have hless : key < entry.1 :=
    (List.pairwise_cons.mp (List.pairwise_append.mp hordered).2.1).1 entry hentry
  rcases hkey with rfl | rfl <;> rcases (hnames entry.1).mp hother with hname | hname
  · exact lt_irrefl _ (hname ▸ hless)
  · refine Keyed.get?_eq_none_iff.mp (hlast rfl) (hname ▸ List.mem_map_of_mem ?_)
    exact List.mem_append_right _ (List.mem_cons_of_mem _ hentry)
  · exact lt_asymm (name_lt_pointerKey f) (hname ▸ hless)
  · exact lt_irrefl _ (hname ▸ hless)

/-- What an input gives a reference says how this stands in the document. -/
theorem get?_merge_given (related : Keyed Json) (doc : Document) {input : Document}
    (hordered : Keyed.Ascending input) {v : Json} (h : givenValue? f input = some v) :
    ∃ before, ∀ key, key = f.name ∨ key = f.pointerKey →
      (merge t related doc input).get? key = (mergeReference f related before v).get? key := by
  obtain ⟨before, last, after, rfl, hlast, hafter⟩ :=
    exists_last_of_given hapart hf htarget hordered h
  refine ⟨merge t related doc before, fun key hkey => ?_⟩
  have hmerged : mergeKey t related (merge t related doc before) last v =
      mergeReference f related (merge t related doc before) v := by
    rw [mergeKey, hlast]
  rw [get?_merge_last doc before v, hmerged]
  intro entry hentry
  obtain ⟨hname, hpointer⟩ := notMem_writtenKeys hapart hf htarget (hafter entry hentry)
  rcases hkey with rfl | rfl
  · exact hname
  · exact hpointer

end

/-- A field that is no reference keeps out of the way of references. -/
theorem notMem_writtenKeys_of_none (hapart : t.PointersApart) {name other : String}
    (hnone : referenceField? t name = none) (hother : referenceField? t other = some f) : name ∉ writtenKeys t other := by
  obtain ⟨htarget, hf, -⟩ := name_of_referenceField? hother
  have hne : referenceField? t name ≠ some f := by
    rw [hnone]
    exact fun h => by cases h
  have hfree := notMem_writtenKeys hapart hf htarget hne
  rw [writtenKeys_of_none hnone, List.mem_singleton, List.mem_singleton] at hfree
  rw [writtenKeys_of_reference hother, List.mem_pair, not_or]
  exact ⟨Ne.symm hfree.1, Ne.symm hfree.2⟩

/-- No key of a document is written by two fields. -/
theorem eq_of_mem_writtenKeys (hapart : t.PointersApart) {name other key : String}
    (hname : (t.field? name).isSome = true) (hother : (t.field? other).isSome = true)
    (h : key ∈ writtenKeys t name) (h' : key ∈ writtenKeys t other) : name = other := by
  have hself : ∀ {field f}, (t.field? field).isSome = true → referenceField? t field = some f →
      f.name = field := by
    intro field f hfield hreference
    obtain ⟨htarget, hf, hkey⟩ := name_of_referenceField? hreference
    refine (hkey.resolve_right fun hpointer => ?_).symm
    rw [hpointer, hapart f (field?_mem hf).1 htarget] at hfield
    cases hfield
  cases hreference : referenceField? t name with
  | none =>
    rw [writtenKeys_of_none hreference, List.mem_singleton] at h
    rw [h] at h'
    cases hreference' : referenceField? t other with
    | none =>
      rw [writtenKeys_of_none hreference', List.mem_singleton] at h'
      exact h'
    | some g => exact absurd h' (notMem_writtenKeys_of_none hapart hreference hreference')
  | some f =>
    obtain ⟨htarget, hf, -⟩ := name_of_referenceField? hreference
    have hsame : referenceField? t other = some f := by
      by_contra hne
      have hfree := notMem_writtenKeys hapart hf htarget hne
      rw [writtenKeys_of_reference hreference, List.mem_pair] at h
      rcases h with rfl | rfl
      · exact hfree.1 h'
      · exact hfree.2 h'
    exact (hself hname hreference).symm.trans (hself hother hsame)

end Mutation

end DocumentEngine
