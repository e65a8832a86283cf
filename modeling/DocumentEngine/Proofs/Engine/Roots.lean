import DocumentEngine.Engine.Basic
import DocumentEngine.Proofs.Operation.Resolvers
import DocumentEngine.Proofs.Schema.Structure

/-!
The table of root fields. In a checked schema no accessor takes the place of another one, so that each
type has its two; but a type is found by its name, which the check lets two types share, and the
accessors of the later one then lead to the earlier one.
-/

namespace DocumentEngine

namespace Schema

variable {s : Schema}

/-- The accessors of a checked schema stand under different names. -/
theorem nodup_accessors (h : s.check = .ok ()) :
    (s.types.flatMap fun t => [t.pluralName, t.singularName]).Nodup :=
  (List.Perm.flatMap_left s.types fun _ _ => .swap _ _ _).nodup_iff.mp (nodup_of_checkTypes h).1

/-- No type stands twice in a checked schema. -/
theorem nodup_types (h : s.check = .ok ()) : s.types.Nodup := by
  refine (List.nodup_flatMap.mp (nodup_accessors h)).2.imp fun {t u} hapart => ?_
  rintro rfl
  exact hapart List.mem_cons_self List.mem_cons_self

/-- Every type is found by its name exactly where no two have one name. -/
theorem type?_name_iff_nodup (h : s.types.Nodup) :
    (∀ t ∈ s.types, s.type? t.name = some t) ↔ (s.types.map (·.name)).Nodup := by
  rw [List.nodup_map_iff_inj_on h]
  constructor
  · intro hall t ht u hu hname
    have hsame := hall t ht
    rw [hname, hall u hu] at hsame
    exact (Option.some.inj hsame).symm
  · intro hinj t ht
    have hthere : (s.type? t.name).isSome = true :=
      List.find?_isSome.mpr ⟨t, ht, beq_self_eq_true t.name⟩
    obtain ⟨u, hu⟩ := Option.isSome_iff_exists.mp hthere
    have hname : u.name = t.name := by simpa using List.find?_some hu
    exact hu.trans (congrArg some (hinj u (List.mem_of_find?_eq_some hu) t ht hname))

/-- A checked schema has two root fields for each of its types, which stand under the accessors of
the type and have its name, and its references name types that are found. The type that is found by
its name is the type itself, for all types, exactly where no two have one name. -/
theorem roots_of_check (s : Schema) (h : s.check = .ok ()) :
    s.roots.length = 2 * s.types.length ∧
      (∀ t ∈ s.types, s.roots.get? t.pluralName = some ⟨t.name, true⟩ ∧
        s.roots.get? t.singularName = some ⟨t.name, false⟩) ∧
      (∀ t ∈ s.types, ∀ f ∈ t.fields, ∀ target, f.target? = some target →
        ∃ u ∈ s.types, s.type? target = some u ∧ u.name = target) ∧
      ((∀ t ∈ s.types, s.type? t.name = some t) ↔ (s.types.map (·.name)).Nodup) := by
  have hkeys : ((s.types.flatMap fun t => [(t.pluralName, (⟨t.name, true⟩ : RootField)),
      (t.singularName, ⟨t.name, false⟩)]).map Prod.fst).Nodup := by
    rw [List.map_flatMap]
    exact nodup_accessors h
  have hroot : ∀ t ∈ s.types, ∀ entry ∈ [(t.pluralName, (⟨t.name, true⟩ : RootField)),
      (t.singularName, ⟨t.name, false⟩)], s.roots.get? entry.1 = some entry.2 :=
    fun t ht entry hentry =>
      Keyed.get?_union_of_mem [] hkeys (List.mem_flatMap.mpr ⟨t, ht, hentry⟩)
  refine ⟨?_, fun t ht => ⟨hroot t ht _ List.mem_cons_self,
    hroot t ht _ (List.mem_cons_of_mem _ List.mem_cons_self)⟩, fun t ht f hf target htarget =>
      exists_target h ht hf htarget, type?_name_iff_nodup (nodup_types h)⟩
  rw [roots, Keyed.length_ofList_eq_iff.mpr hkeys, List.length_flatMap]
  simp [Nat.mul_comm]

section

/-- Notes of authors, who have a plural of their own. -/
private def notes : Schema where
  types := [
    { name := "Nota"
      fields := [.ofIdentifier "id", .ofReference "autor" "Autor"] },
    { name := "Autor"
      fields := [.ofIdentifier "id"]
      plural := some "autores" }]

theorem roots_of_check_notes :
    notes.check = .ok () ∧ notes.roots.length = 4 ∧
      notes.roots.get? "autores" = some ⟨"Autor", true⟩ := by
  have hcheck : notes.check = .ok () := by rfl
  obtain ⟨hlength, hroots, -⟩ := roots_of_check notes hcheck
  exact ⟨hcheck, hlength, (hroots _ (List.mem_cons_of_mem _ List.mem_cons_self)).1⟩

/-- Two types of notes, the second under an accessor of its own. -/
private def twins : Schema where
  types := [
    { name := "Nota"
      fields := [.ofIdentifier "id", .ofScalar "texto" .string] },
    { name := "Nota"
      fields := [.ofIdentifier "id", .ofScalar "autor" .string]
      singular := some "apunte" }]

/-- An accessor of a checked schema leads to another type than its own. -/
theorem exists_root_astray :
    ∃ (s : Schema) (t : DocumentType) (root : RootField), s.check = .ok () ∧ t ∈ s.types ∧
      s.roots.get? t.singularName = some root ∧ s.type? root.type ≠ some t :=
  ⟨twins, _, ⟨"Nota", false⟩, by rfl, List.mem_cons_of_mem _ List.mem_cons_self, by rfl, by decide⟩

end

end Schema

end DocumentEngine
