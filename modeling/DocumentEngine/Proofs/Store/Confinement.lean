import DocumentEngine.Config
import DocumentEngine.Proofs.FileTree.Walk
import DocumentEngine.Proofs.State
import DocumentEngine.Proofs.Store.Layout
import DocumentEngine.Proofs.Store.Place
import DocumentEngine.Schema.Structure
import DocumentEngine.Store.Write

/-!
Where the files of documents are. The directory of an opened store stands one step below that of all
data. The name of a type is checked nowhere: exactly where it is a step, the files of its documents
are two steps below the directory of the store, and no two documents of such types share a file.
-/

namespace DocumentEngine

open Action
open Path (IsStep)

namespace FileTree

variable {t t' : FileTree} {p : Path} {place : List String}

/-- Where a path has led somewhere, a directory can be put, and then the path leads to it. -/
theorem Sound.isDirectory_put (h : t.Sound) (hafter : (t.put place .directory).Sound)
    (hplace : t.locate p = .ok place) (hfree : t.get? place = none) :
    (t.put place .directory).isDirectory p = true := by
  have hput := get?_put_self t (ne_nil_of_get?_eq_none hfree) .directory
  have hwalk : t.walk [] p.steps = .ok place := by
    rw [← h.reach_eq_walk]
    exact reach_of_locate hplace
  have hwalk' := walk_of_directories (fun other => keeps_put t hfree .directory other .directory)
    p.steps hwalk
  obtain ⟨hbad, hlong⟩ := takes_of_locate hplace
  unfold isDirectory entry?
  rw [locate_eq_reach hbad hlong, hafter.reach_eq_walk, hwalk']
  simp [bind, Except.bind, hput]

theorem Sound.isDirectory_of_makeDirectory (h : t.Sound) (hmade : t.makeDirectory p = .ok t') :
    t'.isDirectory p = true := by
  have hafter := h.makeDirectory hmade
  obtain ⟨place, hplace, hfree, -, rfl⟩ := makeDirectory_eq_ok hmade
  exact h.isDirectory_put hafter hplace hfree

theorem Sound.isDirectory_of_ensureDirectory (h : t.Sound) (hmade : t.ensureDirectory p = .ok t') :
    t'.isDirectory p = true := by
  rcases ensureDirectory_eq_ok hmade with hmade | ⟨hdir, rfl⟩
  · exact h.isDirectory_of_makeDirectory hmade
  · exact hdir

/-- A path whose directory was made leads to it. -/
theorem Sound.isDirectory_of_makeDirectories (h : t.Sound) {depth : Nat}
    (hmade : t.makeDirectories p (depth + 1) = (.ok (), t')) : t'.isDirectory p = true := by
  unfold FileTree.makeDirectories at hmade
  split at hmade
  · cases hmade
    exact h.isDirectory_of_ensureDirectory ‹_›
  · split at hmade
    · cases hmade
    · rename_i above habove
      have hsound := h.makeDirectories p.parent depth
      rw [habove] at hsound
      split at hmade
      · cases hmade
        exact hsound.isDirectory_of_ensureDirectory ‹_›
      · cases hmade
  · cases hmade

/-- A step behind a path leads somewhere only where the path does, and one step below that. -/
theorem Sound.exists_of_locate_join (h : t.Sound) {name : String} (hname : IsStep name)
    (hplace : t.locate (p.join name) = .ok place) :
    ∃ top, t.locate p = .ok top ∧ place = top ++ [name] := by
  have hwalk := reach_of_locate hplace
  rw [h.reach_eq_walk, Path.steps_join _ hname.1, walk_append] at hwalk
  obtain ⟨top, htop, hwalk⟩ := Except.exists_of_bind_eq_ok hwalk
  have hdir : t.get? top = some .directory := by
    unfold walk at hwalk
    split at hwalk
    · cases hwalk
    · cases hwalk
    · assumption
  have hfits := (fits_of_locate hplace).of_join hname.1
  refine ⟨top, ?_, ?_⟩
  · rw [locate_eq_reach hfits.text hfits.size, h.reach_eq_walk, htop]
    simp [bind, Except.bind, hdir]
  · have hend := walk_plain [name] (by simp [hname.2.1, hname.2.2]) hwalk
    exact hend

end FileTree

/-- A checked configuration names its directory by a step. -/
theorem Config.isStep_space {config : Config} (h : config.check = .ok ()) : IsStep config.space := by
  unfold check at h
  by_cases hdir : config.dataDir = ""
  · rw [if_pos hdir] at h
    cases h
  by_cases hempty : Text.trim config.space = ""
  · rw [if_neg hdir, if_pos hempty] at h
    cases h
  by_cases hplain : isPlainName config.space = true
  · simp only [isPlainName, Bool.and_eq_true, Bool.not_eq_true', decide_eq_true_eq,
      List.contains_eq_mem, decide_eq_false_iff_not] at hplain
    refine ⟨⟨?_, hplain.1.1.1⟩, hplain.1.2, hplain.2⟩
    rintro hnil
    rw [hnil] at hempty
    exact hempty (by decide)
  · rw [if_neg hdir, if_neg hempty] at h
    simp only [hplain] at h
    cases h

namespace Store

open FileTree (Fits)

variable {s : Store} {base place : List String} {files : FileTree} {state opened : State}
  {schema : Schema} {type id : String} {path : Path}

/-- Where the files of documents are in a tree: exactly for the types whose names are steps one step
below the directory of the type, which is one step below `base`; and no two documents of such types
share a file. -/
structure Confines (s : Store) (base : List String) (files : FileTree) : Prop where
  located : ∀ type id path, s.documentPath type id = .ok path →
    (files.locate path = .ok (base ++ [type, id]) ↔
      IsStep type ∧ Fits path ∧ files.get? (base ++ [type]) = some .directory)
  below : ∀ type id path place, IsStep type → s.documentPath type id = .ok path →
    files.locate path = .ok place → place = base ++ [type, id]
  apart : ∀ type id path other name path' place, IsStep type → IsStep other →
    s.documentPath type id = .ok path → s.documentPath other name = .ok path' →
    files.locate path = .ok place → files.locate path' = .ok place → type = other ∧ id = name

theorem documentPath_eq_ok_iff :
    s.documentPath type id = .ok path ↔ idFault? id = none ∧ path = (s.typeDir type).join id := by
  unfold documentPath
  cases idFault? id with
  | none => simp [eq_comm]
  | some fault => simp

theorem Rooted.confines (h : s.Rooted base files) : s.Confines base files where
  located type id path hpath := by
    obtain ⟨hid, rfl⟩ := documentPath_eq_ok_iff.mp hpath
    constructor
    · intro hplace
      have htype : IsStep type := FileTree.isStep_of_locate hplace type (by simp)
      exact ⟨htype, (h.of_locate_join htype (isName_of_idFault? hid) hplace).2⟩
    · rintro ⟨htype, hfits, hdir⟩
      exact h.locate_join htype (isName_of_idFault? hid) hfits hdir
  below type id path place htype hpath hplace := by
    obtain ⟨hid, rfl⟩ := documentPath_eq_ok_iff.mp hpath
    exact (h.of_locate_join htype (isName_of_idFault? hid) hplace).1
  apart type id path other name path' place htype hother hpath hpath' hplace hplace' := by
    obtain ⟨hid, rfl⟩ := documentPath_eq_ok_iff.mp hpath
    obtain ⟨hname, rfl⟩ := documentPath_eq_ok_iff.mp hpath'
    have hsame := (h.of_locate_join htype (isName_of_idFault? hid) hplace).1.symm.trans
      (h.of_locate_join hother (isName_of_idFault? hname) hplace').1
    simpa using hsame

/-- The root of an opened store leads to a directory one step below that of all data. -/
theorem exists_rooted {config : Config} (hconfig : config.check = .ok ()) (hsound : state.files.Sound)
    (hopen : exec (openAt ⟨config.dataDir⟩ config.space schema) state = (.ok s, opened)) :
    s.root = (⟨config.dataDir⟩ : Path).join config.space ∧
      ∃ top, opened.files.locate ⟨config.dataDir⟩ = .ok top ∧
        s.Rooted (top ++ [config.space]) opened.files := by
  unfold openAt at hopen
  rw [exec_bind_ok (exec_get state)] at hopen
  dsimp only at hopen
  rcases hmade : state.files.makeDirectories ((⟨config.dataDir⟩ : Path).join config.space)
    (((⟨config.dataDir⟩ : Path).join config.space).names.length + 1) with ⟨outcome, made⟩
  rw [hmade] at hopen
  cases outcome with
  | error cause => cases hopen
  | ok _ =>
    cases hopen
    have hafter : made.Sound := by
      have hmade' := hsound.makeDirectories ((⟨config.dataDir⟩ : Path).join config.space)
        (((⟨config.dataDir⟩ : Path).join config.space).names.length + 1)
      rwa [hmade] at hmade'
    have hdir := hsound.isDirectory_of_makeDirectories hmade
    unfold FileTree.isDirectory FileTree.entry? at hdir
    split at hdir
    · rename_i place hplace
      obtain ⟨top, htop, rfl⟩ :=
        hafter.exists_of_locate_join (Config.isStep_space hconfig) hplace
      exact ⟨rfl, top, htop, hafter, hplace, of_decide_eq_true hdir⟩
    · simp at hdir

/-- In the store of a checked configuration the file of a document is named by its id, and never as an
unfinished write. Where the name of its type is a step, and only there, it stands in the directory of
the type, which stands in that of the store, one step below that of all data; and two documents of such
types that share a file are one. It stays so in every tree that keeps the directories. -/
theorem documents_apart {config : Config} (hconfig : config.check = .ok ())
    (hsound : state.files.Sound)
    (hopen : exec (openAt ⟨config.dataDir⟩ config.space schema) state = (.ok s, opened)) :
    s.root.fileName = config.space ∧
    (∀ type id, idFault? id = none → ∃ path, s.documentPath type id = .ok path ∧
      path.fileName = id ∧ isTempName path.fileName = false ∧
      (IsStep type → path.parent = s.typeDir type ∧ (s.typeDir type).fileName = type ∧
        (s.typeDir type).parent = s.root)) ∧
    ∃ top, opened.files.locate ⟨config.dataDir⟩ = .ok top ∧
      ∀ files : FileTree, files.Sound →
        (∀ other, opened.files.get? other = some .directory → files.get? other = some .directory) →
        files.locate s.root = .ok (top ++ [config.space]) ∧
          s.Confines (top ++ [config.space]) files := by
  have hspace := Config.isStep_space hconfig
  obtain ⟨hroot, top, htop, hrooted⟩ := exists_rooted hconfig hsound hopen
  refine ⟨?_, fun type id hid => ?_, top, htop, fun files hafter hkept => ?_⟩
  · rw [hroot, Path.fileName_join _ hspace]
  · have hstep : IsStep id := isName_of_idFault? hid
    refine ⟨_, documentPath_eq_ok_iff.mpr ⟨hid, rfl⟩, Path.fileName_join _ hstep, ?_, fun htype => ?_⟩
    · rw [Path.fileName_join _ hstep]
      exact isTempName_of_idFault? hid
    · refine ⟨Path.parent_join _ htype hstep, Path.fileName_join _ htype, ?_⟩
      rw [typeDir, hroot, Path.parent_join _ hspace htype]
  · have hlater := hrooted.of_directories hafter hkept
    exact ⟨hlater.leads, hlater.confines⟩

section

/-- Notes, under a name of their own. -/
private def note (name : String) : DocumentType :=
  { name := name, fields := [.ofIdentifier "id", .ofScalar "texto" .string] }

private def notes : Schema := ⟨[note "Nota", note "./Nota", note "../otro"]⟩

private def cabinet : Store := ⟨⟨"data/default"⟩, "default", notes⟩

private def shelves (below : List (List String)) : State where
  files := ⟨(([["data"], ["data", "default"]] ++ below).map fun place => (place, .directory))⟩

private theorem open_notes : exec (openAt ⟨"data"⟩ "default" notes) (shelves []) =
    (.ok cabinet, shelves []) := by
  rfl

/-- The first note stands in the directory of notes. -/
theorem documents_apart_note :
    (⟨"data", "default", none, 1000, "info", true⟩ : Config).check = .ok () ∧
    (shelves []).files.Sound ∧
    exec (openAt ⟨"data"⟩ "default" notes) (shelves []) = (.ok cabinet, shelves []) ∧
    ∃ path, cabinet.documentPath "Nota" "n1" = .ok path ∧ path.fileName = "n1" ∧
      path.parent = cabinet.typeDir "Nota" ∧ (cabinet.typeDir "Nota").parent = cabinet.root ∧
      (shelves [["data", "default", "Nota"]]).files.locate path =
        .ok ["data", "default", "Nota", "n1"] := by
  have hconfig : (⟨"data", "default", none, 1000, "info", true⟩ : Config).check = .ok () := by
    decide +kernel
  have hsound : (shelves []).files.Sound :=
    FileTree.sound_of_entries (by decide +kernel) (by decide)
  have hafter : (shelves [["data", "default", "Nota"]]).files.Sound :=
    FileTree.sound_of_entries (by decide +kernel) (by decide)
  obtain ⟨-, hpaths, top, htop, hlater⟩ := documents_apart hconfig hsound open_notes
  obtain ⟨path, hpath, hname, -, hplace⟩ := hpaths "Nota" "n1" (by decide)
  obtain ⟨-, hconfines⟩ := hlater _ hafter fun other hother => by
    have hentry : (shelves [["data", "default", "Nota"]]).files =
        (shelves []).files.put ["data", "default", "Nota"] .directory := rfl
    rw [hentry]
    exact FileTree.keeps_put _ rfl _ _ _ hother
  cases hpath
  have hdata : top = ["data"] := (Except.ok.inj htop).symm
  subst hdata
  refine ⟨hconfig, hsound, open_notes, _, rfl, hname, (hplace (by decide)).1,
    (hplace (by decide)).2.2, (hconfines.located "Nota" "n1" _ rfl).mpr ⟨by decide, ?_, rfl⟩⟩
  exact ⟨by decide, by decide, by decide⟩

/-- Documents of two types share their file where the name of one is that of the other behind a name
for the place itself, and those of a type whose name leads up stand outside the directory of the
store. -/
theorem exists_documents_together :
    notes.check = .ok () ∧
    exec (openAt ⟨"data"⟩ "default" notes) (shelves []) = (.ok cabinet, shelves []) ∧
    notes.types.map (·.name) = ["Nota", "./Nota", "../otro"] ∧
    ∃ (files : FileTree) (path path' outside : Path),
      cabinet.documentPath "Nota" "n1" = .ok path ∧
      files.locate path = .ok ["data", "default", "Nota", "n1"] ∧
      cabinet.documentPath "./Nota" "n1" = .ok path' ∧
      files.locate path' = .ok ["data", "default", "Nota", "n1"] ∧
      cabinet.documentPath "../otro" "n1" = .ok outside ∧
      files.locate outside = .ok ["data", "otro", "n1"] := by
  refine ⟨by decide +kernel, open_notes, rfl,
    (shelves [["data", "default", "Nota"], ["data", "otro"]]).files, ⟨"data/default/Nota/n1"⟩,
    ⟨"data/default/./Nota/n1"⟩, ⟨"data/default/../otro/n1"⟩, ?_⟩
  decide +kernel

end

end Store

end DocumentEngine
