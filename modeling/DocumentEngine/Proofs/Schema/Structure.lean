import DocumentEngine.Proofs.State
import DocumentEngine.Schema.Structure

/-!
What a checked schema promises. No field name of a type stands twice, so that the name of the
identifier finds the identifier; references name types of the schema; and no accessor stands twice.
-/

namespace DocumentEngine.Schema

/-- Fields that pass the check are found by their names, and have none of the names seen before. -/
theorem field_of_checkFields {s : Schema} {t : DocumentType} {seen : List String}
    {fields : List Field} (h : checkFields s t seen fields = .ok ()) :
    ∀ f ∈ fields, f.name ∉ seen ∧ fields.find? (fun g => g.name == f.name) = some f := by
  induction fields generalizing seen with
  | nil =>
    intro f hf
    cases hf
  | cons g fields ih =>
    unfold checkFields at h
    by_cases hseen : seen.contains g.name = true
    · rw [if_pos hseen] at h
      cases h
    · rw [if_neg hseen] at h
      have hrest : checkFields s t (g.name :: seen) fields = .ok () := by
        split at h
        · split at h
          · cases h
          · exact h
        · exact h
      intro f hf
      rcases List.mem_cons.mp hf with rfl | hf
      · refine ⟨by simpa using hseen, ?_⟩
        rw [List.find?_cons_of_pos (by simp)]
      · obtain ⟨hnew, hfind⟩ := ih hrest f hf
        rw [List.mem_cons, not_or] at hnew
        refine ⟨hnew.2, ?_⟩
        rw [List.find?_cons_of_neg (by simpa using Ne.symm hnew.1), hfind]

/-- A type passes the check by itself, and the types after it with its accessors seen. -/
theorem checkTypes_cons {s : Schema} {seen : List String} {t : DocumentType}
    {types : List DocumentType} (h : checkTypes s seen (t :: types) = .ok ()) :
    checkFields s t [] t.fields = .ok () ∧ ∃ seen',
      checkAccessors seen [t.singularName, t.pluralName] = .ok seen' ∧
        checkTypes s seen' types = .ok () := by
  unfold checkTypes at h
  obtain ⟨⟨⟩, -, h⟩ := Except.exists_of_bind_eq_ok h
  obtain ⟨⟨⟩, hfields, h⟩ := Except.exists_of_bind_eq_ok h
  obtain ⟨seen', haccessors, h⟩ := Except.exists_of_bind_eq_ok h
  exact ⟨hfields, seen', haccessors, h⟩

theorem checkFields_of_checkTypes {s : Schema} {seen : List String} {types : List DocumentType}
    (h : checkTypes s seen types = .ok ()) :
    ∀ t ∈ types, checkFields s t [] t.fields = .ok () := by
  induction types generalizing seen with
  | nil =>
    intro t ht
    cases ht
  | cons u types ih =>
    obtain ⟨hfields, seen', -, hrest⟩ := checkTypes_cons h
    intro t ht
    rcases List.mem_cons.mp ht with rfl | ht
    · exact hfields
    · exact ih hrest t ht

/-- In a checked schema the name of the identifier of a type finds the identifier. -/
theorem field?_identifierName {s : Schema} (h : s.check = .ok ()) {t : DocumentType}
    (ht : t ∈ s.types) {f : Field} (hf : t.identifier? = some f) :
    t.field? t.identifierName = some f := by
  have hfields := field_of_checkFields (checkFields_of_checkTypes h t ht)
  unfold DocumentType.identifierName
  rw [hf]
  exact (hfields f (List.mem_of_find?_eq_some hf)).2

theorem type?_of_checkFields {s : Schema} {t : DocumentType} {seen : List String}
    {fields : List Field} (h : checkFields s t seen fields = .ok ()) :
    ∀ f ∈ fields, ∀ target, f.target? = some target → (s.type? target).isSome = true := by
  induction fields generalizing seen with
  | nil =>
    intro f hf
    cases hf
  | cons g fields ih =>
    unfold checkFields at h
    split at h
    · cases h
    · intro f hf target htarget
      cases hg : g.target? with
      | none =>
        rw [hg] at h
        rcases List.mem_cons.mp hf with rfl | hf
        · rw [hg] at htarget
          cases htarget
        · exact ih h f hf target htarget
      | some own =>
        rw [hg] at h
        dsimp only at h
        split at h
        · cases h
        · rename_i hknown
          rcases List.mem_cons.mp hf with rfl | hf
          · rw [hg] at htarget
            cases htarget
            simpa [Option.isSome_iff_ne_none] using hknown
          · exact ih h f hf target htarget

/-- In a checked schema every reference names a type of the schema, which is found. -/
theorem exists_target {s : Schema} (h : s.check = .ok ()) {t : DocumentType} (ht : t ∈ s.types)
    {f : Field} (hf : f ∈ t.fields) {target : String} (htarget : f.target? = some target) :
    ∃ u ∈ s.types, s.type? target = some u ∧ u.name = target := by
  obtain ⟨u, hu⟩ := Option.isSome_iff_exists.mp
    (type?_of_checkFields (checkFields_of_checkTypes h t ht) f hf target htarget)
  exact ⟨u, List.mem_of_find?_eq_some hu, hu, by simpa using List.find?_some hu⟩

/-- Accessors that pass the check are all different and none of those seen before. -/
theorem nodup_of_checkAccessors {seen seen' accessors : List String}
    (h : checkAccessors seen accessors = .ok seen') :
    accessors.Nodup ∧ (∀ a ∈ accessors, a ∉ seen) ∧ ∀ a, a ∈ seen' ↔ a ∈ seen ∨ a ∈ accessors := by
  induction accessors generalizing seen with
  | nil =>
    cases h
    simp
  | cons first accessors ih =>
    unfold checkAccessors at h
    split at h
    · cases h
    · rename_i hfirst
      rw [List.contains_iff_mem] at hfirst
      obtain ⟨hnodup, hnew, hseen⟩ := ih h
      refine ⟨List.nodup_cons.mpr ⟨fun hmem => hnew first hmem List.mem_cons_self, hnodup⟩,
        List.forall_mem_cons.mpr ⟨hfirst, fun a ha hold => ?_⟩, fun a => ?_⟩
      · exact hnew a ha (List.mem_cons_of_mem _ hold)
      · rw [hseen, List.mem_cons, List.mem_cons]
        tauto

/-- The accessors of types that pass the check are all different. -/
theorem nodup_of_checkTypes {s : Schema} {seen : List String} {types : List DocumentType}
    (h : checkTypes s seen types = .ok ()) :
    (types.flatMap fun t => [t.singularName, t.pluralName]).Nodup ∧
      ∀ a ∈ types.flatMap fun t => [t.singularName, t.pluralName], a ∉ seen := by
  induction types generalizing seen with
  | nil => simp
  | cons t types ih =>
    obtain ⟨-, seen', haccessors, hrest⟩ := checkTypes_cons h
    obtain ⟨hown, hnew, hseen⟩ := nodup_of_checkAccessors haccessors
    obtain ⟨hothers, hapart⟩ := ih hrest
    rw [List.flatMap_cons]
    refine ⟨List.nodup_append.mpr ⟨hown, hothers, ?_⟩, fun a ha hold => ?_⟩
    · rintro a ha b hb rfl
      exact hapart a hb ((hseen a).mpr (.inr ha))
    · rcases List.mem_append.mp ha with ha | ha
      · exact hnew a ha hold
      · exact hapart a ha ((hseen a).mpr (.inl hold))

end DocumentEngine.Schema
