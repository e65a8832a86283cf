import DocumentEngine.Proofs.FileTree
import DocumentEngine.Store.Basic

/-!
The places of documents. An id that the store takes is a plain name, so the file of a document
stands one step below the directory of its type.
-/

namespace DocumentEngine.Store

variable {s : Store} {a b : FileTree} {type id : String}

/-- An id that the store takes is a plain name. -/
theorem isName_of_idFault? (h : idFault? id = none) :
    Path.IsName id ∧ id ≠ "." ∧ id ≠ ".." := by
  unfold idFault? at h
  by_cases hempty : id = ""
  · rw [if_pos hempty] at h
    cases h
  by_cases hrelative : (decide (id = ".") || decide (id = "..")) = true
  · rw [if_neg hempty, if_pos hrelative] at h
    cases h
  by_cases hseparator : (id.toList.contains '/' || id.toList.contains '\\' ||
      id.toList.contains '\x00') = true
  · rw [if_neg hempty, if_neg hrelative, if_pos hseparator] at h
    cases h
  simp only [Bool.or_eq_true, decide_eq_true_eq, not_or] at hrelative
  simp only [Bool.or_eq_true, List.contains_eq_mem, decide_eq_true_eq, not_or] at hseparator
  exact ⟨⟨hempty, hseparator.1.1⟩, hrelative.1, hrelative.2⟩

/-- An id that the store takes is not the name of an unfinished write. -/
theorem isTempName_of_idFault? (h : idFault? id = none) : isTempName id = false := by
  unfold idFault? at h
  dsimp only at h
  split at h
  · cases h
  · split at h
    · cases h
    · split at h
      · cases h
      · split at h
        · cases h
        · rename_i htemp
          exact Bool.eq_false_iff.mpr htemp

theorem documentPath_eq_ok {path : Path} (h : s.documentPath type id = .ok path) :
    idFault? id = none ∧ path = (s.typeDir type).join id := by
  unfold documentPath at h
  cases hfault : idFault? id with
  | some fault =>
    rw [hfault] at h
    cases h
  | none =>
    rw [hfault] at h
    cases h
    exact ⟨rfl, rfl⟩

/-- The file of a document stands one step below the directory of its type. -/
theorem steps_documentPath {path : Path} (h : s.documentPath type id = .ok path) :
    path.steps = (s.typeDir type).steps ++ [id] := by
  obtain ⟨hfault, rfl⟩ := documentPath_eq_ok h
  exact Path.steps_join _ (isName_of_idFault? hfault).1

/-- Trees that hold the same on the way to a document, and in its place, have the same document
there. -/
theorem find?_congr (hdir : ∀ step ∈ (s.typeDir type).steps, step ≠ "." ∧ step ≠ "..")
    (h : ∀ place, place <+: (s.typeDir type).steps ++ [id] → a.get? place = b.get? place) :
    s.find? a type id = s.find? b type id := by
  unfold find?
  cases hpath : s.documentPath type id with
  | error cause => rfl
  | ok path =>
    have hsteps := steps_documentPath hpath
    have hplain : ∀ step ∈ path.steps, step ≠ "." ∧ step ≠ ".." := by
      intro step hstep
      rw [hsteps] at hstep
      rcases List.mem_append.mp hstep with hstep | hstep
      · exact hdir step hstep
      · rw [List.mem_singleton.mp hstep]
        exact (isName_of_idFault? (documentPath_eq_ok hpath).1).2
    unfold readDocument?
    dsimp only
    rw [FileTree.readText_congr hplain fun place hplace => h place (hsteps ▸ hplace)]

end DocumentEngine.Store
