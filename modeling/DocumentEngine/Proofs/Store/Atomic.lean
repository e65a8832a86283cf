import DocumentEngine.Operation.Basic
import DocumentEngine.Proofs.Store.Created

/-!
All or nothing. A change of the store that fails leaves every document as it was, and one that
succeeds creates, replaces or removes the file of one document. New content becomes visible by a
single rename, which is the last thing that can fail.
-/

namespace DocumentEngine

open Action

namespace Store

variable {s : Store} {type id : String} {doc : Document} {state state' : State}
  {before after : FileTree}

/-- Every file but those of unfinished writes is as it was. -/
def SameDocuments (before after : FileTree) : Prop :=
  ∀ place text, place.getLast?.any isTempName = false →
    (after.get? place = some (.file text) ↔ before.get? place = some (.file text))

theorem SameDocuments.refl (files : FileTree) : SameDocuments files files :=
  fun _ _ _ => Iff.rfl

theorem SameDocuments.of_grown (h : before.Grown after) : SameDocuments before after :=
  fun place text _ => ⟨h.files place text, h.keeps place _⟩

/-- A write of a document that fails leaves all documents as they were. -/
theorem sameDocuments_of_write {cause : StoreError}
    (h : exec (s.write type id doc) state = (.error cause, state')) :
    SameDocuments state.files state'.files := by
  unfold write at h
  rcases exec_bind_cases h with ⟨_, hstage, -⟩ | ⟨staged, filled, hstage, h⟩
  · obtain ⟨made, hgrown, -, ⟨_, -, rfl⟩ | ⟨_, hok, -⟩⟩ := exec_stage hstage
    · exact .of_grown hgrown
    · cases hok
  rcases exec_bind_cases h with ⟨_, hpublish, -⟩ | ⟨⟨⟩, published, -, hreport⟩
  · obtain ⟨_, -, rfl⟩ | ⟨hok, -⟩ := exec_publish hpublish
    · obtain ⟨made, hgrown, -, ⟨_, hfailed, -⟩ | ⟨_, -, -, hunfinished, hcreate⟩⟩ :=
        exec_stage hstage
      · cases hfailed
      -- The staged content stays behind, in a file that is no document.
      obtain ⟨beside, hbeside, -, -, hput⟩ := FileTree.createFile_eq_ok hcreate
      have htemp := hunfinished.isTempName_getLast? hbeside
      intro place text hplace
      have hne : place ≠ beside := by
        rintro rfl
        rw [htemp] at hplace
        cases hplace
      rw [hput, FileTree.get?_put_of_ne _ hne]
      exact ⟨hgrown.files place text, hgrown.keeps place _⟩
    · cases hok
  · unfold reportWrite at hreport
    cases hreport

theorem sameDocuments_of_checked {check : StoreM Unit} (hcheck : (exec check state).2 = state)
    {cause : StoreError}
    (h : exec (check >>= fun _ => s.write type id doc) state = (.error cause, state')) :
    SameDocuments state.files state'.files := by
  rcases exec_bind_cases h with ⟨_, hchecked, -⟩ | ⟨⟨⟩, checked, hchecked, hwrite⟩
  · rw [hchecked] at hcheck
    obtain rfl : state' = state := hcheck
    exact .refl _
  · rw [hchecked] at hcheck
    obtain rfl : checked = state := hcheck
    exact sameDocuments_of_write hwrite

/-- A deletion that fails changes no file. -/
theorem files_eq_of_delete {cause : StoreError}
    (h : exec (s.delete type id) state = (.error cause, state')) : state'.files = state.files := by
  unfold delete at h
  rcases exec_bind_cases h with ⟨_, hlifted, -⟩ | ⟨path, found, hlifted, h⟩
  · obtain ⟨-, rfl⟩ := Prod.mk.inj ((exec_lift _ _).symm.trans hlifted)
    rfl
  obtain ⟨-, rfl⟩ := Prod.mk.inj ((exec_lift _ _).symm.trans hlifted)
  rw [exec_bind_ok (exec_get state)] at h
  split at h
  · cases h
  · rcases exec_bind_cases h with ⟨_, hgone, -⟩ | ⟨gone, removed, -, h⟩
    · unfold unlink at hgone
      rw [exec_bind_ok (exec_get state)] at hgone
      cases hremove : state.files.removeFile path with
      | error fault =>
        rw [hremove] at hgone
        cases fault <;> cases hgone <;> rfl
      | ok files =>
        rw [hremove] at hgone
        cases hgone
    · cases gone <;> cases h

/-- A write of a document that succeeds changes the file to which the path of the document leads,
and no other. -/
theorem exec_write_at (h : exec (s.write type id doc) state = (.ok (), state')) :
    ∃ place, s.documentPath type id = .ok ((s.typeDir type).join id) ∧ s.Leads type id place ∧
      (∀ found, state.files.locate ((s.typeDir type).join id) = .ok found → found = place) ∧
      state.files.get? place ≠ some .directory ∧
      state'.files.get? place = some (.file (some (Json.pretty (.obj doc)))) ∧
      state.files.SameBut state'.files place := by
  obtain ⟨path, temp, made, filled, hpath, hgrown, hcreate, hrename⟩ := exec_write h
  obtain ⟨hfault, rfl⟩ := documentPath_eq_ok hpath
  obtain ⟨beside, target, -, hfree, rfl, htarget, hfile, -, hfiles⟩ :=
    FileTree.staged_of_rename hcreate hrename
  have hkeeps := FileTree.keeps_put made hfree (.file (some (Json.pretty (.obj doc))))
  obtain ⟨hnew, hothers⟩ := FileTree.sameBut_of_staged hgrown hfree
    (FileTree.ne_nil_of_get?_ne_directory hfile) (Json.pretty (.obj doc))
  rw [← hfiles] at hnew hothers
  refine ⟨target, hpath, ⟨isName_of_idFault? hfault, _, htarget⟩, fun found hfound => ?_,
    fun hdir => hfile (hkeeps _ _ (hgrown.keeps _ _ hdir)), hnew, hothers⟩
  have hreach := FileTree.reach_of_keeps hkeeps
    (FileTree.reach_of_keeps hgrown.keeps (FileTree.reach_of_locate hfound))
  rw [FileTree.reach_of_locate htarget] at hreach
  exact (Except.ok.inj hreach).symm

/-- The file of one document of a type is another, and no other file is: where the document is
created, its path led to nothing before, and in a plain directory its place was free; where it is
modified or deleted, there was a file before. -/
def AltersOne (s : Store) (type : String) (context : OperationContext)
    (before after : FileTree) : Prop :=
  ∃ id place, idFault? id = none ∧ s.Leads type id place ∧ before.SameBut after place ∧
    match context with
    | .create => before.isPresent ((s.typeDir type).join id) = false ∧
      (before.Sound → s.PlainDir type → before.get? place = none) ∧
      ∃ doc, after.get? place = some (.file (some (Json.pretty (.obj doc))))
    | .modify => (∃ text, before.get? place = some (.file text)) ∧
      ∃ doc, after.get? place = some (.file (some (Json.pretty (.obj doc))))
    | .delete => (∃ text, before.get? place = some (.file text)) ∧ after.get? place = none

theorem altersOne_of_create (h : exec (s.create type id doc) state = (.ok (), state')) :
    s.AltersOne type .create state.files state'.files := by
  have hwhole := h
  unfold create at h
  obtain ⟨⟨⟩, checked, hcheck, hwrite⟩ := exec_bind_eq_ok h
  obtain rfl : checked = state := by
    have halike := (exec_check_alike s type id state).1
    rwa [hcheck] at halike
  obtain ⟨place, hpath, hleads, -, -, hnew, hothers⟩ := exec_write_at hwrite
  refine ⟨id, place, (documentPath_eq_ok hpath).1, hleads, hothers, ?_, fun hsound hdir => ?_, doc,
    hnew⟩
  · unfold checkAbsent at hcheck
    rw [exec_bind_ok (by rw [exec_lift, hpath]), exec_bind_ok (exec_get checked)] at hcheck
    rw [← Bool.not_eq_true]
    intro hpresent
    rw [if_pos hpresent] at hcheck
    cases hcheck
  · rw [hleads.eq_of_plain hdir]
    exact (exec_create hdir hsound hwhole).free

theorem altersOne_of_replace (h : exec (s.replace type id doc) state = (.ok (), state')) :
    s.AltersOne type .modify state.files state'.files := by
  unfold replace at h
  obtain ⟨⟨⟩, checked, hcheck, hwrite⟩ := exec_bind_eq_ok h
  obtain rfl : checked = state := by
    have halike := (exec_check_alike s type id state).2
    rwa [hcheck] at halike
  obtain ⟨place, hpath, hleads, hsame, hfile, hnew, hothers⟩ := exec_write_at hwrite
  refine ⟨id, place, (documentPath_eq_ok hpath).1, hleads, hothers, ?_, doc, hnew⟩
  unfold checkPresent at hcheck
  rw [exec_bind_ok (by rw [exec_lift, hpath]), exec_bind_ok (exec_get checked)] at hcheck
  have hpresent : checked.files.isPresent ((s.typeDir type).join id) = true := by
    rw [← Bool.not_eq_false]
    intro habsent
    rw [habsent] at hcheck
    cases hcheck
  unfold FileTree.isPresent FileTree.entry? at hpresent
  cases hplace : checked.files.locate ((s.typeDir type).join id) with
  | error cause =>
    rw [hplace] at hpresent
    cases hpresent
  | ok found =>
    obtain rfl := hsame found hplace
    rw [hplace] at hpresent
    obtain ⟨entry, hentry⟩ := Option.isSome_iff_exists.mp hpresent
    cases entry with
    | directory => exact absurd hentry hfile
    | file text => exact ⟨text, hentry⟩

/-- The deletion of a document that is stored removes its file. -/
theorem altersOne_of_delete {place : List String} {text : Option String} {removed : Bool}
    (hplace : state.files.locate ((s.typeDir type).join id) = .ok place)
    (hheld : state.files.get? place = some (.file text))
    (h : exec (s.delete type id) state = (.ok removed, state')) :
    s.AltersOne type .delete state.files state'.files := by
  cases hpath : s.documentPath type id with
  | error cause =>
    unfold delete at h
    rw [exec_bind_error (by rw [exec_lift, hpath])] at h
    cases h
  | ok path =>
    obtain ⟨hfault, rfl⟩ := documentPath_eq_ok hpath
    obtain ⟨left, hexec, hdropped⟩ := exec_delete hpath hplace hheld
    rw [h] at hexec
    cases hexec
    have htop : place ≠ [] := by
      rintro rfl
      cases hheld
    rw [hdropped]
    exact ⟨id, place, hfault, ⟨isName_of_idFault? hfault, _, hplace⟩,
      FileTree.sameBut_drop _ place, ⟨text, hheld⟩, FileTree.get?_drop_self _ htop⟩

end Store

end DocumentEngine
