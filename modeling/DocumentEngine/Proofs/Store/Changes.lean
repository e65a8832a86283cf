import DocumentEngine.Proofs.Store.Shelf
import DocumentEngine.Proofs.Store.Write

/-!
What the parts of an operation change in a rooted store. The directory of a type is made where it
is missing; new content goes to a file of its own, named by the id and a count that is never given
again; a rename puts it in place. A part that fails changes nothing.
-/

namespace DocumentEngine.Store

open Action
open FileTree (Fits)
open Path (IsStep)

variable {s : Store} {base : List String} {type id name : String} {doc : Document}
  {state state' : State} {files after : FileTree}

namespace Rooted

theorem isStep_base (h : s.Rooted base files) : ∀ step ∈ base, IsStep step :=
  FileTree.isStep_of_locate h.leads

/-- A file may be put into the directory of a type. -/
theorem putFile (h : s.Rooted base files) (htype : IsStep type) (hname : IsStep name)
    (hdir : files.get? (base ++ [type]) = some .directory)
    (hheld : files.get? (base ++ [type, name]) ≠ some .directory) (text : Option String) :
    ChangedAt base files (files.put (base ++ [type, name]) (.file text)) type name
      (some (.file text)) where
  sound := by
    refine h.sound.put (by simp) (fun step hstep => ?_) ?_ hheld _
    · simp only [List.mem_append, List.mem_cons, List.not_mem_nil, or_false] at hstep
      rcases hstep with hstep | rfl | rfl
      · exact h.isStep_base step hstep
      · exact htype
      · exact hname
    · rwa [dropLast_file]
  kept place hplace := by
    rwa [FileTree.get?_put_of_ne]
    rintro rfl
    exact hheld hplace
  there := FileTree.get?_put_self _ (by simp) _
  others t n hne := FileTree.get?_put_of_ne _ (place_ne hne) _

/-- A file of a type may be taken out. -/
theorem dropFile (h : s.Rooted base files)
    (hheld : files.get? (base ++ [type, name]) ≠ some .directory) :
    ChangedAt base files (files.drop (base ++ [type, name])) type name none where
  sound := h.sound.drop hheld
  kept place hplace := by
    rwa [FileTree.get?_drop_of_ne]
    rintro rfl
    exact hheld hplace
  there := FileTree.get?_drop_self _ (by simp)
  others t n hne := FileTree.get?_drop_of_ne _ (place_ne hne)

end Rooted

theorem ChangedAt.trans {between : FileTree} {held held' : Option Entry}
    (h : ChangedAt base files between type name held)
    (h' : ChangedAt base between after type name held') :
    ChangedAt base files after type name held' where
  sound := h'.sound
  kept place hplace := h'.kept place (h.kept place hplace)
  there := h'.there
  others t n hne := (h'.others t n hne).trans (h.others t n hne)

/-- A tree, or the tree with the directory of a type that was missing. -/
inductive Made (base : List String) (type : String) (files : FileTree) : FileTree → Prop where
  | there : Made base type files files
  | made (hfree : files.get? (base ++ [type]) = none) :
      Made base type files (files.put (base ++ [type]) .directory)

namespace Made

theorem get?_eq {made : FileTree} (h : Made base type files made) (t n : String) :
    made.get? (base ++ [t, n]) = files.get? (base ++ [t, n]) := by
  cases h with
  | there => rfl
  | made hfree => exact FileTree.get?_put_of_ne _ (by simp) _

theorem kept {made : FileTree} (h : Made base type files made) (place : List String)
    (hplace : files.get? place = some .directory) : made.get? place = some .directory := by
  cases h with
  | there => exact hplace
  | made hfree => exact FileTree.keeps_put _ hfree _ _ _ hplace

theorem sound {made : FileTree} (h : Made base type files made) (hr : s.Rooted base files)
    (htype : IsStep type) : made.Sound := by
  cases h with
  | there => exact hr.sound
  | made hfree =>
    refine hr.sound.put (by simp) (fun step hstep => ?_) ?_ (by simp [hfree]) _
    · rcases List.mem_append.mp hstep with hstep | hstep
      · exact hr.isStep_base step hstep
      · rwa [List.mem_singleton.mp hstep]
    · rw [List.dropLast_concat]
      exact hr.directory

theorem rooted {made : FileTree} (h : Made base type files made) (hr : s.Rooted base files)
    (htype : IsStep type) : s.Rooted base made :=
  hr.of_directories (h.sound hr htype) h.kept

end Made

/-- The directory of a type is found or made, unless its path is refused or a file is in its
place. -/
theorem ensureDirectory_typeDir (hr : s.Rooted base files) (htype : IsStep type) :
    (∃ cause, cause ≠ .missing ∧ files.ensureDirectory (s.typeDir type) = .error cause) ∨
      ∃ made, files.ensureDirectory (s.typeDir type) = .ok made ∧ Made base type files made ∧
        made.get? (base ++ [type]) = some .directory := by
  unfold FileTree.ensureDirectory FileTree.makeDirectory FileTree.isDirectory FileTree.entry?
  cases hplace : files.locate (s.typeDir type) with
  | error cause =>
    refine .inl ⟨cause, ?_, rfl⟩
    rintro rfl
    exact hr.locate_typeDir_ne_missing htype hplace
  | ok place =>
    obtain ⟨rfl, -⟩ := hr.of_locate_typeDir htype hplace
    have hparent : files.checkParent (base ++ [type]) = .ok () := by
      unfold FileTree.checkParent
      rw [List.dropLast_concat, hr.directory]
    obtain hheld | ⟨_ | text, hheld⟩ := Option.eq_none_or_eq_some (files.get? (base ++ [type]))
    · refine .inr ⟨_, ?_, .made hheld, FileTree.get?_put_self _ (by simp) _⟩
      simp only [bind, Except.bind, hheld, hparent, Option.isSome_none, Bool.false_eq_true, if_false]
      rfl
    · refine .inr ⟨files, ?_, .there, hheld⟩
      simp only [bind, Except.bind, hheld, Option.isSome_some, if_true]
      rfl
    · refine .inl ⟨.exists, by simp, ?_⟩
      simp only [bind, Except.bind, hheld, Option.isSome_some, if_true]
      rfl

theorem makeDirectories_typeDir (hr : s.Rooted base files) (htype : IsStep type) (depth : Nat) :
    ∃ result made, files.makeDirectories (s.typeDir type) (depth + 1) = (result, made) ∧
      Made base type files made ∧
      ((∃ cause, result = .error cause) ∨
        (result = .ok () ∧ made.get? (base ++ [type]) = some .directory)) := by
  unfold FileTree.makeDirectories
  rcases ensureDirectory_typeDir hr htype with ⟨cause, hne, hensure⟩ | ⟨made, hensure, hmade, hdir⟩
  · refine ⟨.error cause, files, ?_, .there, .inl ⟨cause, rfl⟩⟩
    rw [hensure]
    cases cause <;> first | rfl | exact absurd rfl hne
  · refine ⟨.ok (), made, ?_, hmade, .inr ⟨rfl, hdir⟩⟩
    rw [hensure]

/-- The directory of a type is there, or is made, or nothing is changed. -/
theorem exec_prepare_join (hr : s.Rooted base state.files) (htype : IsStep type)
    (hid : IsStep id) :
    ∃ result made, exec (prepare ((s.typeDir type).join id)) state =
        (result, { state with files := made }) ∧ Made base type state.files made ∧
      ((∃ path cause, result = .error (.io path cause)) ∨
        (result = .ok () ∧ made.get? (base ++ [type]) = some .directory)) := by
  obtain ⟨outcome, made, hmake, hmade, hresult⟩ :=
    makeDirectories_typeDir hr htype (s.typeDir type).names.length
  unfold prepare
  rw [exec_bind_ok (exec_get state)]
  dsimp only
  rw [show ((s.typeDir type).join id).parent = s.typeDir type from
    Path.parent_join s.root htype hid, hmake]
  dsimp only
  rw [exec_bind_ok (exec_set _ state)]
  rcases hresult with ⟨cause, rfl⟩ | ⟨rfl, hdir⟩
  · exact ⟨_, made, rfl, hmade, .inl ⟨_, cause, rfl⟩⟩
  · exact ⟨_, made, rfl, hmade, .inr ⟨rfl, hdir⟩⟩

/-- The name of the file for new content: the id, and the count of identifiers made up before. -/
def tempName (id : String) (count : Nat) : String :=
  id ++ "." ++ String.ofList ((State.identifier count).toList.filter (· ≠ '-')) ++ tempSuffix

theorem isTempName_tempName (id : String) (count : Nat) : isTempName (tempName id count) = true := by
  unfold isTempName tempName
  rw [String.toList_append, List.isSuffixOf_iff_suffix]
  exact List.suffix_append _ _

theorem isStep_tempName (hid : IsStep id) (count : Nat) : IsStep (tempName id count) := by
  refine isStep_of_isTempName (isTempName_tempName id count) ?_
  have hmint : '/' ∉ (State.identifier count).toList := notMem_identifier count
  unfold tempName
  simp only [String.toList_append, String.toList_ofList, List.mem_append, not_or]
  exact ⟨⟨⟨hid.1.2, by decide⟩, fun h => hmint (List.mem_of_mem_filter h)⟩, by decide⟩

/-- No two counts give the same name, whatever the ids. -/
theorem tempName_inj {id' : String} {count count' : Nat}
    (h : tempName id count = tempName id' count') : count = count' := by
  have hdots : ∀ n, '.' ∉ (State.identifier n).toList.filter (· ≠ '-') := by
    intro n hmem
    rcases State.mem_identifier (List.mem_of_mem_filter hmem) with h | h <;> revert h <;> decide
  have hlast : ∀ (name : String) (n : Nat),
      (Text.splitChars '.' (name ++ "." ++
        String.ofList ((State.identifier n).toList.filter (· ≠ '-'))).toList).getLast? =
      some ((State.identifier n).toList.filter (· ≠ '-')) := by
    intro name n
    have htext : (name ++ "." ++
        String.ofList ((State.identifier n).toList.filter (· ≠ '-'))).toList =
        name.toList ++ '.' :: (State.identifier n).toList.filter (· ≠ '-') := by
      simp only [String.toList_append, String.toList_ofList, List.append_assoc]
      rfl
    rw [htext, Text.splitChars_append, Text.splitChars_of_notMem (hdots n)]
    simp
  have hfront := congrArg String.toList h
  unfold tempName at hfront
  rw [String.toList_append (t := tempSuffix), String.toList_append (t := tempSuffix)] at hfront
  have hcut := hlast id count
  rw [List.append_cancel_right hfront, hlast] at hcut
  exact (State.identifier_inj (Option.some.inj hcut)).symm

/-- A later state: no count is given again, and what stood under the name of an earlier count is as
it was, or gone. -/
structure Ages (base : List String) (a b : State) : Prop where
  minted : a.minted ≤ b.minted
  temps : ∀ type id count, count < a.minted →
    b.files.get? (base ++ [type, tempName id count]) =
        a.files.get? (base ++ [type, tempName id count]) ∨
      b.files.get? (base ++ [type, tempName id count]) = none

namespace Ages

variable {a b c : State}

theorem of_same (hminted : a.minted ≤ b.minted)
    (h : ∀ type name, b.files.get? (base ++ [type, name]) = a.files.get? (base ++ [type, name])) :
    Ages base a b := ⟨hminted, fun type id count _ => .inl (h type (tempName id count))⟩

theorem refl (base : List String) (a : State) : Ages base a a := of_same (Nat.le_refl _) fun _ _ => rfl

theorem trans (h : Ages base a b) (h' : Ages base b c) : Ages base a c where
  minted := h.minted.trans h'.minted
  temps type id count hcount := by
    rcases h'.temps type id count (hcount.trans_le h.minted) with hsame | hgone
    · rw [hsame]
      exact h.temps type id count hcount
    · exact .inr hgone

/-- A file may come where no earlier count has its name, and any file may go. -/
theorem of_changedAt {held : Option Entry} (hc : ChangedAt base a.files b.files type name held)
    (hminted : a.minted ≤ b.minted)
    (hname : held = none ∨ ∀ id count, count < a.minted → name ≠ tempName id count) :
    Ages base a b := by
  refine ⟨hminted, fun t id count hcount => ?_⟩
  by_cases heq : t = type ∧ tempName id count = name
  · obtain ⟨rfl, rfl⟩ := heq
    rcases hname with rfl | hname
    · exact .inr hc.there
    · exact absurd rfl (hname id count hcount)
  · exact .inl (hc.others t (tempName id count) heq)

end Ages

/-- The file for new content stands beside that of the document. -/
theorem exec_tempPath_join (htype : IsStep type) (hid : IsStep id) (state : State) :
    exec (tempPath ((s.typeDir type).join id)) state =
      (.ok ((s.typeDir type).join (tempName id state.minted)),
        { state with minted := state.minted + 1 }) := by
  have hparent : ((s.typeDir type).join id).parent = s.typeDir type :=
    Path.parent_join s.root htype hid
  have hname : ((s.typeDir type).join id).fileName = id := Path.fileName_join _ hid
  unfold tempPath Path.withName
  rw [hparent, hname]
  rfl

/-- New content is written to a file of its own, or nothing but the count is changed. -/
theorem exec_fill_join (hr : s.Rooted base state.files) (htype : IsStep type) (hid : IsStep id)
    {result : Except StoreError StagedWrite}
    (h : exec (fill ((s.typeDir type).join id) doc) state = (result, state')) :
    state'.minted = state.minted + 1 ∧
      ((∃ path cause, result = .error (.io path cause) ∧ state'.files = state.files) ∨
        result = .ok ⟨(s.typeDir type).join id, (s.typeDir type).join (tempName id state.minted)⟩ ∧
          Fits ((s.typeDir type).join (tempName id state.minted)) ∧
          state.files.get? (base ++ [type]) = some .directory ∧
          state.files.get? (base ++ [type, tempName id state.minted]) = none ∧
          state'.files = state.files.put (base ++ [type, tempName id state.minted])
            (.file (some (Json.pretty (.obj doc))))) := by
  unfold fill at h
  rw [exec_bind_ok (exec_tempPath_join htype hid state), exec_bind_ok (exec_get _)] at h
  dsimp only at h
  cases hcreate : state.files.createFile ((s.typeDir type).join (tempName id state.minted))
      (Json.pretty (.obj doc)) with
  | error cause =>
    rw [hcreate] at h
    cases h
    exact ⟨rfl, .inl ⟨_, cause, rfl, rfl⟩⟩
  | ok files =>
    rw [hcreate] at h
    cases h
    obtain ⟨place, hplace, hfree, -, rfl⟩ := FileTree.createFile_eq_ok hcreate
    obtain ⟨rfl, hfits, hdir⟩ := hr.of_locate_join htype (isStep_tempName hid _) hplace
    exact ⟨rfl, .inr ⟨rfl, hfits, hdir, hfree, rfl⟩⟩

/-- Staged content is put in place, or nothing is changed. -/
theorem exec_publish_join (hr : s.Rooted base state.files) (htype : IsStep type) (hid : IsStep id)
    (hname : IsStep name) {result : Except StoreError Unit}
    (h : exec (publish ⟨(s.typeDir type).join id, (s.typeDir type).join name⟩) state =
      (result, state')) :
    (∃ path cause, result = .error (.io path cause) ∧ state' = state) ∨
      ∃ entry, result = .ok () ∧ Fits ((s.typeDir type).join id) ∧
        state.files.get? (base ++ [type]) = some .directory ∧
        state.files.get? (base ++ [type, name]) = some entry ∧
        state.files.get? (base ++ [type, id]) ≠ some .directory ∧
        state' = { state with
          files := ((state.files.drop (base ++ [type, name])).drop (base ++ [type, id])).put
            (base ++ [type, id]) entry } := by
  unfold publish at h
  rw [exec_bind_ok (exec_get state)] at h
  dsimp only at h
  cases hrename : state.files.rename ((s.typeDir type).join name) ((s.typeDir type).join id) with
  | error cause =>
    rw [hrename] at h
    cases h
    exact .inl ⟨_, cause, rfl, rfl⟩
  | ok files =>
    rw [hrename] at h
    cases h
    obtain ⟨start, place, entry, hstart, hplace, hentry, hfile, -, rfl⟩ :=
      FileTree.rename_eq_ok hrename
    obtain ⟨rfl, -, -⟩ := hr.of_locate_join htype hname hstart
    obtain ⟨rfl, hfits, hdir⟩ := hr.of_locate_join htype hid hplace
    exact .inr ⟨entry, rfl, hfits, hdir, hentry, hfile, rfl⟩

/-- Content is staged in a file of its own, in the directory of its type, which is made where it is
missing; or no file is new. -/
theorem exec_stage_join (hr : s.Rooted base state.files) (htype : IsStep type)
    (hid : idFault? id = none) {result : Except StoreError StagedWrite}
    (h : exec (s.stage type id doc) state = (result, state')) :
    ∃ made, Made base type state.files made ∧
      ((∃ path cause, result = .error (.io path cause) ∧ state'.files = made ∧
          state.minted ≤ state'.minted) ∨
        result = .ok ⟨(s.typeDir type).join id, (s.typeDir type).join (tempName id state.minted)⟩ ∧
          Fits ((s.typeDir type).join (tempName id state.minted)) ∧
          made.get? (base ++ [type]) = some .directory ∧
          made.get? (base ++ [type, tempName id state.minted]) = none ∧
          state'.files = made.put (base ++ [type, tempName id state.minted])
            (.file (some (Json.pretty (.obj doc)))) ∧ state'.minted = state.minted + 1) := by
  have hstep : IsStep id := isName_of_idFault? hid
  have hpath : s.documentPath type id = .ok ((s.typeDir type).join id) := by
    unfold documentPath
    rw [hid]
  unfold stage at h
  rw [exec_bind_ok (by rw [exec_lift, hpath])] at h
  obtain ⟨outcome, made, hprepare, hmade, hresult⟩ := exec_prepare_join hr htype hstep
  refine ⟨made, hmade, ?_⟩
  rcases hresult with ⟨path, cause, rfl⟩ | ⟨rfl, -⟩
  · rw [exec_bind_error hprepare] at h
    cases h
    exact .inl ⟨path, cause, rfl, rfl, Nat.le_refl _⟩
  · rw [exec_bind_ok hprepare] at h
    have hfill := exec_fill_join (hmade.rooted hr htype) htype hstep h
    obtain ⟨hminted, ⟨path, cause, rfl, hfiles⟩ | ⟨rfl, hfits, hdir, hfree, hfiles⟩⟩ := hfill
    · exact .inl ⟨path, cause, rfl, hfiles, hminted ▸ Nat.le_succ _⟩
    · exact .inr ⟨rfl, hfits, hdir, hfree, hfiles, hminted⟩

namespace Represents

variable {m : Shelf}

theorem of_made (h : s.Represents base files m) {made : FileTree}
    (hmade : Made base type files made) (htype : IsStep type) : s.Represents base made m :=
  h.of_same (hmade.sound h.toRooted htype) hmade.kept hmade.get?_eq

/-- No directory stands where documents and unfinished writes do. -/
theorem ne_directory (h : s.Represents base files m) (type name : String) :
    files.get? (base ++ [type, name]) ≠ some .directory := by
  intro hheld
  have hshelved := h.shelved type name
  rw [hheld] at hshelved
  rcases hshelved.other rfl with htemp | hlegal
  · exact hshelved.temp htemp rfl
  · have hdocument := hshelved.document hlegal
    cases hget : m.get? type name <;> rw [hget] at hdocument <;> cases hdocument

/-- Staging leaves the shelf as it is, whether or not it succeeds. -/
theorem exec_stage (h : s.Represents base state.files m) (htype : IsStep type)
    (hid : idFault? id = none) {result : Except StoreError StagedWrite}
    (hrun : exec (s.stage type id doc) state = (result, state')) :
    s.Represents base state'.files m ∧ Ages base state state' ∧
      ((∃ path cause, result = .error (.io path cause)) ∨
        result = .ok ⟨(s.typeDir type).join id, (s.typeDir type).join (tempName id state.minted)⟩ ∧
          state'.minted = state.minted + 1 ∧
          state'.files.get? (base ++ [type, tempName id state.minted]) =
            some (.file (some (Json.pretty (.obj doc))))) := by
  obtain ⟨made, hmade, ⟨path, cause, rfl, hfiles, hminted⟩ |
    ⟨rfl, hfits, hdir, hfree, hfiles, hminted⟩⟩ := exec_stage_join h.toRooted htype hid hrun
  · refine ⟨hfiles ▸ h.of_made hmade htype, .of_same hminted fun t n => ?_, .inl ⟨path, cause, rfl⟩⟩
    rw [hfiles, hmade.get?_eq]
  · have hmadeshelf := h.of_made hmade htype
    have hput := hmadeshelf.toRooted.putFile htype
      (isStep_tempName (isName_of_idFault? hid) state.minted) hdir (by simp [hfree])
      (some (Json.pretty (.obj doc)))
    rw [← hfiles] at hput
    have hmadeages : Ages base state { state with files := made } :=
      .of_same (Nat.le_refl _) hmade.get?_eq
    refine ⟨hmadeshelf.temp hput (isTempName_tempName id _) (by simp) fun _ => hfits,
      hmadeages.trans (.of_changedAt hput (hminted ▸ Nat.le_succ _)
        (.inr fun other count hcount heq => ?_)), .inr ⟨rfl, hminted, hput.there⟩⟩
    exact absurd (tempName_inj heq) (Nat.ne_of_gt hcount)

/-- Staged content that is put in place is the document from then on. What is gone cannot be put in
place, and then nothing is changed. -/
theorem exec_publish (h : s.Represents base state.files m) (htype : IsStep type)
    (hid : idFault? id = none) (hname : IsStep name) (htemp : isTempName name = true)
    (hheld : state.files.get? (base ++ [type, name]) = none ∨
      state.files.get? (base ++ [type, name]) = some (.file (some (Json.pretty (.obj doc)))))
    {result : Except StoreError Unit}
    (hrun : exec (publish ⟨(s.typeDir type).join id, (s.typeDir type).join name⟩) state =
      (result, state')) :
    (∃ path cause, result = .error (.io path cause) ∧ state' = state) ∨
      result = .ok () ∧ state.files.get? (base ++ [type, name]) ≠ none ∧
        s.Represents base state'.files (m.put type id doc) ∧ Ages base state state' := by
  obtain ⟨path, cause, rfl, rfl⟩ | ⟨entry, rfl, hfinal, hdir, hentry, hfile, rfl⟩ :=
    exec_publish_join h.toRooted htype (isName_of_idFault? hid) hname hrun
  · exact .inl ⟨path, cause, rfl, rfl⟩
  right
  rw [hentry] at hheld
  obtain hheld | hheld := hheld
  · cases hheld
  cases hheld
  have hdrop := h.toRooted.dropFile (h.ne_directory type name)
  have hgone := h.temp hdrop htemp (by simp) (by simp)
  have hcleared := hgone.toRooted.dropFile (hgone.ne_directory type id)
  have hplaced := hcleared.trans ((hgone.toRooted.of_directories hcleared.sound hcleared.kept).putFile
    htype (isName_of_idFault? hid) (hcleared.kept _ (hdrop.kept _ hdir))
    (by rw [hcleared.there]; simp) (some (Json.pretty (.obj doc))))
  have hdropages : Ages base state
      { state with files := state.files.drop (base ++ [type, name]) } :=
    .of_changedAt hdrop (Nat.le_refl _) (.inl rfl)
  refine ⟨rfl, by simp [hentry], hgone.put hplaced hid hfinal,
    hdropages.trans (.of_changedAt hplaced (Nat.le_refl _) (.inr fun other count _ heq => ?_))⟩
  have hlegal := isTempName_of_idFault? hid
  rw [heq, isTempName_tempName] at hlegal
  cases hlegal

/-- A write that succeeds puts its document on the shelf; one that fails leaves the shelf as it is. -/
theorem exec_write (h : s.Represents base state.files m) (htype : IsStep type)
    (hid : idFault? id = none) {result : Except StoreError Unit}
    (hrun : exec (s.write type id doc) state = (result, state')) :
    Ages base state state' ∧
      ((∃ path cause, result = .error (.io path cause) ∧ s.Represents base state'.files m) ∨
        result = .ok () ∧ s.Represents base state'.files (m.put type id doc)) := by
  unfold write at hrun
  rcases exec_bind_cases hrun with ⟨cause, hstage, rfl⟩ | ⟨staged, filled, hstage, hrun⟩
  · obtain ⟨hafter, hages, ⟨path, cause', heq⟩ | ⟨heq, -⟩⟩ := h.exec_stage htype hid hstage
    · cases heq
      exact ⟨hages, .inl ⟨path, cause', rfl, hafter⟩⟩
    · cases heq
  obtain ⟨hfilled, hages, ⟨_, _, heq⟩ | ⟨heq, -, hheld⟩⟩ := h.exec_stage htype hid hstage
  · cases heq
  cases heq
  have htempstep := isStep_tempName (isName_of_idFault? hid) state.minted
  have htemp := isTempName_tempName id state.minted
  rcases exec_bind_cases hrun with ⟨cause, hpublish, rfl⟩ | ⟨⟨⟩, published, hpublish, hreport⟩
  · obtain ⟨path, cause', heq, rfl⟩ | ⟨heq, -⟩ :=
      hfilled.exec_publish htype hid htempstep htemp (.inr hheld) hpublish
    · cases heq
      exact ⟨hages, .inl ⟨path, cause', rfl, hfilled⟩⟩
    · cases heq
  · obtain ⟨_, _, heq, -⟩ | ⟨-, -, hplaced, hlater⟩ :=
      hfilled.exec_publish htype hid htempstep htemp (.inr hheld) hpublish
    · cases heq
    unfold reportWrite at hreport
    cases hreport
    exact ⟨hages.trans (hlater.trans (.of_same (Nat.le_refl _) fun _ _ => rfl)),
      .inr ⟨rfl, hplaced⟩⟩

end Represents

end DocumentEngine.Store
