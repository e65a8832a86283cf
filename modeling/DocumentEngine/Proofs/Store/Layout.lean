import DocumentEngine.Proofs.FileTree.Walk
import DocumentEngine.Store.Basic

/-!
The layout of a store. Its root leads to a directory, the directory of a type stands one step below
that, and a file of the type one step below its own; however the root is written, with names for
the place itself or the one above it or without.
-/

namespace DocumentEngine.Store

open FileTree (Fits)
open Path (IsStep)

/-- A file of a type stands in the directory of the type. -/
theorem dropLast_file (base : List String) (type name : String) :
    (base ++ [type, name]).dropLast = base ++ [type] := by
  rw [List.dropLast_append_of_ne_nil (List.cons_ne_nil _ _)]
  rfl

/-- A sound tree in which the root of a store leads to a directory. -/
structure Rooted (s : Store) (base : List String) (files : FileTree) : Prop where
  sound : files.Sound
  leads : files.locate s.root = .ok base
  directory : files.get? base = some .directory

namespace Rooted

variable {s : Store} {base place : List String} {files after : FileTree} {type name : String}

/-- A store stays rooted while no directory is gone. -/
theorem of_directories (h : s.Rooted base files) (hsound : after.Sound)
    (hkept : ∀ other, files.get? other = some .directory → after.get? other = some .directory) :
    s.Rooted base after where
  sound := hsound
  leads := h.sound.locate_of_directories hsound hkept h.leads h.directory
  directory := hkept base h.directory

theorem walk_root (h : s.Rooted base files) : files.walk [] s.root.steps = .ok base := by
  rw [← h.sound.reach_eq_walk]
  exact FileTree.reach_of_locate h.leads

theorem reach_typeDir (h : s.Rooted base files) (htype : IsStep type) :
    files.reach (s.typeDir type).steps =
      if FileTree.maxName < type.utf8ByteSize then .error .nameTooLong else .ok (base ++ [type]) := by
  rw [h.sound.reach_eq_walk, typeDir, Path.steps_join _ htype.1, FileTree.walk_append, h.walk_root]
  simp only [bind, Except.bind, FileTree.walk, h.directory, if_neg htype.2.1, if_neg htype.2.2]

theorem reach_join (h : s.Rooted base files) (htype : IsStep type) (hname : IsStep name) :
    files.reach ((s.typeDir type).join name).steps =
      if FileTree.maxName < type.utf8ByteSize then .error .nameTooLong
      else match files.get? (base ++ [type]) with
        | none => .error .missing
        | some (.file _) => .error .notDirectory
        | some .directory =>
          if FileTree.maxName < name.utf8ByteSize then .error .nameTooLong
          else .ok (base ++ [type, name]) := by
  rw [h.sound.reach_eq_walk, Path.steps_join _ hname.1, FileTree.walk_append,
    ← h.sound.reach_eq_walk, h.reach_typeDir htype]
  split
  · rfl
  · cases hdir : files.get? (base ++ [type]) with
    | none => simp [bind, Except.bind, FileTree.walk, hdir]
    | some node =>
      cases node with
      | file => simp [bind, Except.bind, FileTree.walk, hdir]
      | directory => simp [bind, Except.bind, FileTree.walk, hdir, hname.2.1, hname.2.2]

/-- The directory of a type stands one step below the root. -/
theorem locate_typeDir (h : s.Rooted base files) (htype : IsStep type)
    (hfits : Fits (s.typeDir type)) : files.locate (s.typeDir type) = .ok (base ++ [type]) := by
  have hshort : type.utf8ByteSize ≤ FileTree.maxName := by
    refine hfits.names type ?_
    rw [typeDir, Path.steps_join _ htype.1]
    simp
  rw [FileTree.locate_eq_reach hfits.text hfits.size, h.reach_typeDir htype,
    if_neg (Nat.not_lt_of_le hshort)]
  dsimp only [bind, Except.bind]
  rw [typeDir, FileTree.endsInSlash_join htype.1]
  split <;> rfl

theorem of_locate_typeDir (h : s.Rooted base files) (htype : IsStep type)
    (hplace : files.locate (s.typeDir type) = .ok place) :
    place = base ++ [type] ∧ Fits (s.typeDir type) := by
  have hreach := FileTree.reach_of_locate hplace
  rw [h.reach_typeDir htype] at hreach
  split at hreach
  · cases hreach
  · exact ⟨(Except.ok.inj hreach).symm, FileTree.fits_of_locate hplace⟩

/-- A file of a type stands one step below the directory of the type, if there is that directory. -/
theorem locate_join (h : s.Rooted base files) (htype : IsStep type) (hname : IsStep name)
    (hfits : Fits ((s.typeDir type).join name))
    (hdir : files.get? (base ++ [type]) = some .directory) :
    files.locate ((s.typeDir type).join name) = .ok (base ++ [type, name]) := by
  have hsteps := Path.steps_join (s.typeDir type) hname.1
  have htypesteps : (s.typeDir type).steps = s.root.steps ++ [type] :=
    Path.steps_join _ htype.1
  have hshort : type.utf8ByteSize ≤ FileTree.maxName :=
    hfits.names type (by rw [hsteps, htypesteps]; simp)
  have hnamed : name.utf8ByteSize ≤ FileTree.maxName := hfits.names name (by rw [hsteps]; simp)
  rw [FileTree.locate_eq_reach hfits.text hfits.size, h.reach_join htype hname,
    if_neg (Nat.not_lt_of_le hshort), hdir]
  dsimp only
  rw [if_neg (Nat.not_lt_of_le hnamed)]
  dsimp only [bind, Except.bind]
  rw [FileTree.endsInSlash_join hname.1]
  split <;> rfl

theorem of_locate_join (h : s.Rooted base files) (htype : IsStep type) (hname : IsStep name)
    (hplace : files.locate ((s.typeDir type).join name) = .ok place) :
    place = base ++ [type, name] ∧ Fits ((s.typeDir type).join name) ∧
      files.get? (base ++ [type]) = some .directory := by
  have hreach := FileTree.reach_of_locate hplace
  rw [h.reach_join htype hname] at hreach
  split at hreach
  · cases hreach
  · split at hreach
    · cases hreach
    · cases hreach
    · rename_i hdir
      split at hreach
      · cases hreach
      · exact ⟨(Except.ok.inj hreach).symm, FileTree.fits_of_locate hplace, hdir⟩

/-- There is no file of a type without its directory. -/
theorem directory_of_isSome (h : s.Rooted base files)
    (hthere : (files.get? (base ++ [type, name])).isSome = true) :
    files.get? (base ++ [type]) = some .directory := by
  have habove := h.sound.parents _ hthere
  rwa [dropLast_file] at habove

theorem locate_typeDir_ne_missing (h : s.Rooted base files) (htype : IsStep type) :
    files.locate (s.typeDir type) ≠ .error .missing := by
  intro hplace
  have hreach := FileTree.reach_of_missing hplace
  rw [h.reach_typeDir htype] at hreach
  split at hreach <;> cases hreach

/-- The directory of a type that cannot be found to list it is not there. -/
theorem get?_of_list_missing (h : s.Rooted base files) (htype : IsStep type)
    (hlist : files.list (s.typeDir type) = .error .missing) :
    files.get? (base ++ [type]) = none := by
  unfold FileTree.list at hlist
  cases hplace : files.locate (s.typeDir type) with
  | error cause =>
    rw [hplace] at hlist
    cases hlist
    exact absurd hplace (h.locate_typeDir_ne_missing htype)
  | ok place =>
    obtain ⟨rfl, -⟩ := h.of_locate_typeDir htype hplace
    rw [hplace] at hlist
    dsimp only [bind, Except.bind] at hlist
    split at hlist
    · assumption
    · cases hlist
    · cases hlist

end Rooted

end DocumentEngine.Store
