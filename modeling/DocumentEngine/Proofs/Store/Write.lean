import DocumentEngine.Proofs.FileTree.Sound
import DocumentEngine.Proofs.Identifier
import DocumentEngine.Proofs.State
import DocumentEngine.Store.Write

/-!
What writing and deleting a document change. New content is staged in a file whose name has the
suffix of unfinished writes, and then moved into the place of its document. A document that is
replaced has the new content, one that is deleted is gone, and no other file is touched.
-/

namespace DocumentEngine.Store

open Action
open Path (IsStep)

variable {s : Store} {type id : String} {doc : Document} {state state' : State}

/-- An identifier that is made up has no slash. -/
theorem notMem_identifier (count : Nat) : '/' ∉ (State.identifier count).toList := by
  intro h
  rcases State.mem_identifier h with h | h <;> revert h <;> decide

theorem notMem_fileName (p : Path) : '/' ∉ p.fileName.toList := by
  unfold Path.fileName
  cases hlast : p.names.getLast? with
  | none => exact List.not_mem_nil
  | some name =>
    have hmem := List.mem_of_mem_filter (List.mem_of_getLast? hlast)
    exact (Path.isName_of_mem_steps hmem).2

/-- A name with the suffix of unfinished writes is a step where it has no slash. -/
theorem isStep_of_isTempName {name : String} (h : isTempName name = true)
    (hslash : '/' ∉ name.toList) : IsStep name := by
  have hne : ∀ other, isTempName other = false → name ≠ other := by
    rintro other hother rfl
    rw [h] at hother
    cases hother
  exact ⟨⟨hne "" (by decide), hslash⟩, hne "." (by decide), hne ".." (by decide)⟩

/-- The path of an unfinished write ends in a name with the suffix of such writes. -/
def IsUnfinished (temp : Path) : Prop :=
  ∃ init name, temp.steps = init ++ [name] ∧ IsStep name ∧ isTempName name = true

theorem exec_tempPath (path : Path) (state : State) :
    ∃ temp state', exec (tempPath path) state = (.ok temp, state') ∧
      state'.files = state.files ∧ IsUnfinished temp := by
  unfold tempPath
  rw [exec_bind_ok (exec_get state)]
  dsimp only
  rw [exec_bind_ok (exec_set _ state)]
  have hnonce : '/' ∉ state.mint.1.toList := notMem_identifier state.minted
  have hfiles : state.mint.2.files = state.files := rfl
  generalize state.mint = minted at hnonce hfiles ⊢
  obtain ⟨id, next⟩ := minted
  have htemp : isTempName (path.fileName ++ "." ++
      String.ofList (id.toList.filter (· ≠ '-')) ++ tempSuffix) = true := by
    unfold isTempName
    rw [String.toList_append, List.isSuffixOf_iff_suffix]
    exact List.suffix_append _ _
  have hslash : '/' ∉ (path.fileName ++ "." ++
      String.ofList (id.toList.filter (· ≠ '-')) ++ tempSuffix).toList := by
    simp only [String.toList_append, String.toList_ofList, List.mem_append, not_or]
    exact ⟨⟨⟨notMem_fileName path, by decide⟩, fun h => hnonce (List.mem_of_mem_filter h)⟩,
      by decide⟩
  have hstep := isStep_of_isTempName htemp hslash
  exact ⟨_, next, rfl, hfiles, path.parent.steps, _, Path.steps_join path.parent hstep.1, hstep, htemp⟩

/-- What stands at the path of an unfinished write has the suffix of such writes. -/
theorem IsUnfinished.isTempName_getLast? {temp : Path} (h : IsUnfinished temp) {files : FileTree}
    {place : List String} (hplace : files.locate temp = .ok place) :
    place.getLast?.any isTempName = true := by
  obtain ⟨init, name, hsteps, hstep, htemp⟩ := h
  rw [FileTree.getLast?_of_locate hsteps hstep hplace]
  exact htemp

/-- Whether or not the directory of a file can be made, the files stay the same. -/
theorem exec_prepare (path : Path) (state : State) :
    FileTree.Grown state.files (exec (prepare path) state).2.files ∧
      (state.files.Sound → (exec (prepare path) state).2.files.Sound) := by
  have hgrown := state.files.makeDirectories_grown path.parent (path.parent.names.length + 1)
  have hsound := fun h : state.files.Sound =>
    h.makeDirectories path.parent (path.parent.names.length + 1)
  unfold prepare
  rw [exec_bind_ok (exec_get state)]
  dsimp only
  generalize state.files.makeDirectories path.parent (path.parent.names.length + 1) =
    made at hgrown hsound ⊢
  obtain ⟨outcome, files⟩ := made
  rw [exec_bind_ok (exec_set _ state)]
  cases outcome <;> exact ⟨hgrown, hsound⟩

/-- New content is written to a file of its own, or not at all. -/
theorem exec_fill {path : Path} {result : Except StoreError StagedWrite}
    (h : exec (fill path doc) state = (result, state')) :
    (∃ cause, result = .error cause ∧ state'.files = state.files) ∨
      ∃ staged, result = .ok staged ∧ staged.final = path ∧ IsUnfinished staged.temp ∧
        state.files.createFile staged.temp (Json.pretty (.obj doc)) = .ok state'.files := by
  obtain ⟨temp, named, htemp, hnamed, hunfinished⟩ := exec_tempPath path state
  unfold fill at h
  rw [exec_bind_ok htemp, exec_bind_ok (exec_get named), hnamed] at h
  cases hcreate : state.files.createFile temp (Json.pretty (.obj doc)) with
  | error cause =>
    rw [hcreate] at h
    cases h
    exact .inl ⟨_, rfl, hnamed⟩
  | ok files =>
    rw [hcreate] at h
    dsimp only at h
    rw [exec_bind_ok (exec_set _ named)] at h
    cases h
    exact .inr ⟨_, rfl, rfl, hunfinished, hcreate⟩

/-- A document is staged in a file of its own, in directories that are made where they are missing;
or no file is new. -/
theorem exec_stage {result : Except StoreError StagedWrite}
    (h : exec (s.stage type id doc) state = (result, state')) :
    ∃ made, state.files.Grown made ∧ (state.files.Sound → made.Sound) ∧
      ((∃ cause, result = .error cause ∧ state'.files = made) ∨
        ∃ staged, result = .ok staged ∧ s.documentPath type id = .ok staged.final ∧
          IsUnfinished staged.temp ∧
            made.createFile staged.temp (Json.pretty (.obj doc)) = .ok state'.files) := by
  unfold stage at h
  rcases exec_bind_cases h with ⟨cause, hlifted, rfl⟩ | ⟨path, found, hlifted, h⟩
  · obtain ⟨-, rfl⟩ := Prod.mk.inj ((exec_lift _ _).symm.trans hlifted)
    exact ⟨state.files, .refl _, fun hsound => hsound, .inl ⟨cause, rfl, rfl⟩⟩
  obtain ⟨hpath, rfl⟩ := Prod.mk.inj ((exec_lift _ _).symm.trans hlifted)
  obtain ⟨hgrown, hsound⟩ := exec_prepare path state
  rcases exec_bind_cases h with ⟨cause, hprepare, rfl⟩ | ⟨⟨⟩, prepared, hprepare, hfill⟩
  · rw [hprepare] at hgrown hsound
    exact ⟨_, hgrown, hsound, .inl ⟨cause, rfl, rfl⟩⟩
  rw [hprepare] at hgrown hsound
  refine ⟨_, hgrown, hsound, (exec_fill hfill).imp_right ?_⟩
  rintro ⟨staged, rfl, rfl, hstaged⟩
  exact ⟨staged, rfl, hpath, hstaged⟩

/-- Staged content is put in place, or nothing is changed. -/
theorem exec_publish {staged : StagedWrite} {result : Except StoreError Unit}
    (h : exec (publish staged) state = (result, state')) :
    (∃ cause, result = .error cause ∧ state' = state) ∨
      result = .ok () ∧ state.files.rename staged.temp staged.final = .ok state'.files := by
  unfold publish at h
  rw [exec_bind_ok (exec_get state)] at h
  cases hrename : state.files.rename staged.temp staged.final with
  | error cause =>
    rw [hrename] at h
    cases h
    exact .inl ⟨_, rfl, rfl⟩
  | ok files =>
    rw [hrename] at h
    cases h
    exact .inr ⟨rfl, rfl⟩

/-- A write that succeeds has made directories, written a new file beside the document, and moved it
into the place of the document. -/
theorem exec_write (h : exec (s.write type id doc) state = (.ok (), state')) :
    ∃ path temp made filled, s.documentPath type id = .ok path ∧ state.files.Grown made ∧
      made.createFile temp (Json.pretty (.obj doc)) = .ok filled ∧
        filled.rename temp path = .ok state'.files := by
  unfold write at h
  obtain ⟨staged, filled, hstage, h⟩ := exec_bind_eq_ok h
  obtain ⟨⟨⟩, published, hpublish, hreport⟩ := exec_bind_eq_ok h
  obtain ⟨made, hgrown, -, ⟨cause, hfailed, -⟩ | ⟨_, hok, hpath, -, hcreate⟩⟩ := exec_stage hstage
  · cases hfailed
  cases hok
  obtain ⟨cause, hfailed, -⟩ | ⟨-, hrename⟩ := exec_publish hpublish
  · cases hfailed
  unfold reportWrite at hreport
  cases hreport
  exact ⟨_, _, _, _, hpath, hgrown, hcreate, hrename⟩

/-- A document that is replaced has the new content, and no other file is touched. -/
theorem exec_replace (h : exec (s.replace type id doc) state = (.ok (), state')) :
    ∃ path place, s.documentPath type id = .ok path ∧ state.files.locate path = .ok place ∧
      state'.files.get? place = some (.file (some (Json.pretty (.obj doc)))) ∧
        state.files.SameBut state'.files place := by
  unfold replace at h
  obtain ⟨⟨⟩, checked, hcheck, h⟩ := exec_bind_eq_ok h
  unfold checkPresent at hcheck
  obtain ⟨path, found, hlifted, hcheck⟩ := exec_bind_eq_ok hcheck
  rw [exec_lift] at hlifted
  obtain ⟨hpath, hfound⟩ := Prod.mk.inj hlifted
  subst hfound
  rw [exec_bind_ok (exec_get state)] at hcheck
  by_cases hpresent : state.files.isPresent path = true
  · rw [hpresent] at hcheck
    cases hcheck
    obtain ⟨path', temp, made, filled, hpath', hgrown, hcreate, hrename⟩ := exec_write h
    rw [hpath] at hpath'
    cases hpath'
    unfold FileTree.isPresent FileTree.entry? at hpresent
    cases hplace : state.files.locate path with
    | error cause =>
      rw [hplace] at hpresent
      cases hpresent
    | ok place =>
      exact ⟨path, place, hpath, hplace,
        FileTree.sameBut_of_rename hgrown hcreate hrename hplace⟩
  · rw [Bool.eq_false_iff.mpr hpresent] at hcheck
    cases hcheck

/-- A document that is stored can be deleted, and then no other file is touched. -/
theorem exec_delete {path : Path} {place : List String} {text : Option String}
    (hpath : s.documentPath type id = .ok path) (hplace : state.files.locate path = .ok place)
    (hfile : state.files.get? place = some (.file text)) :
    ∃ state', exec (s.delete type id) state = (.ok true, state') ∧
      state'.files = state.files.drop place := by
  have hpresent : state.files.isPresent path = true := by
    unfold FileTree.isPresent FileTree.entry?
    rw [hplace]
    dsimp only
    rw [hfile]
    rfl
  have hremoved := FileTree.removeFile_of_locate hplace hfile
  have hunlink : exec (unlink path) state =
      (.ok true, { state with files := state.files.drop place }) := by
    unfold unlink
    rw [exec_bind_ok (exec_get state), hremoved]
    rfl
  unfold delete
  rw [exec_bind_ok (by rw [exec_lift, hpath]), exec_bind_ok (exec_get state), hpresent,
    Bool.not_true, if_neg Bool.false_ne_true, exec_bind_ok hunlink, if_pos rfl, exec_bind_ok (exec_modify _ _)]
  exact ⟨_, rfl, rfl⟩

end DocumentEngine.Store
