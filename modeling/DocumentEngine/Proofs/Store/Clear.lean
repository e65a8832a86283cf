import DocumentEngine.Proofs.Store.Refinement
import DocumentEngine.Proofs.Text.Case

/-!
Writes that succeed. Where the directory of a type is there, the path of a document has room for the
name of new content, and no file has a name that new content may get, a write succeeds, and nothing
is in the way of the next one.
-/

namespace DocumentEngine.Store

open Action
open FileTree (Fits)
open Path (IsStep)

variable {s : Store} {base : List String} {type id name : String} {doc : Document} {state : State}
  {files : FileTree} {m : Shelf}

/-- Nothing is in the way of a write: the directory of its type is there, and no file has a name that
new content may get from now on. -/
structure Clear (base : List String) (type : String) (state : State) : Prop where
  directory : state.files.get? (base ++ [type]) = some .directory
  unused : ∀ id count, state.minted ≤ count →
    state.files.get? (base ++ [type, tempName id count]) = none

theorem Clear.of_alike {other : State} (h : Clear base type state) (halike : other.Alike state) :
    Clear base type other := by
  refine ⟨halike.files ▸ h.directory, fun id count hcount => ?_⟩
  rw [halike.files]
  exact h.unused id count (halike.minted ▸ hcount)

/-- No document has the name of new content for its id. -/
theorem tempName_ne (hid : idFault? id = none) (other : String) (count : Nat) :
    tempName other count ≠ id := by
  rintro rfl
  have hplain := isTempName_of_idFault? hid
  rw [isTempName_tempName] at hplain
  cases hplain

/-- What follows the id in the name of new content, up to twelve digits of a count: a dot, the
identifier without its hyphens, and the suffix. -/
theorem exists_tempName_eq (id : String) {count : Nat} (hcount : count < 16 ^ 12) :
    ∃ ending : String, tempName id count = id ++ ending ∧ ending.utf8ByteSize = 37 ∧
      '\x00' ∉ ending.toList := by
  have hmarks : ∀ mark ∈ [".", tempSuffix],
      (mark.toList.all fun c => decide (0 < c.toNat ∧ c.toNat < 0x80)) = true := by decide
  have hall : ∀ c ∈ ("." ++ String.ofList ((State.identifier count).toList.filter (· ≠ '-')) ++
      tempSuffix).toList, 0 < c.toNat ∧ c.toNat < 0x80 := by
    intro c hc
    simp only [String.toList_append, String.toList_ofList, List.mem_append] at hc
    rcases hc with (hc | hc) | hc
    · exact of_decide_eq_true (List.all_eq_true.mp (hmarks "." (by simp)) c hc)
    · obtain ⟨hmem, hne⟩ := List.mem_filter.mp hc
      exact State.toNat_of_isAlphanum
        ((State.mem_identifier hmem).resolve_right (by simpa using hne))
    · exact of_decide_eq_true (List.all_eq_true.mp (hmarks tempSuffix (by simp)) c hc)
  refine ⟨"." ++ String.ofList ((State.identifier count).toList.filter (· ≠ '-')) ++ tempSuffix,
    by simp only [tempName, String.append_assoc], ?_, fun hzero => ?_⟩
  · rw [Text.utf8ByteSize_ascii fun c hc => (hall c hc).2]
    simp only [String.toList_append, String.toList_ofList, List.length_append,
      State.length_identifier hcount]
    rfl
  · exact absurd (hall _ hzero).1 (by decide)

/-- The path of a document has room for the name of new content, which is longer than its id. -/
structure Roomy (s : Store) (type id : String) : Prop where
  fits : Fits ((s.typeDir type).join id)
  name : id.utf8ByteSize + 37 ≤ FileTree.maxName
  path : ((s.typeDir type).join id).text.utf8ByteSize + 37 ≤ FileTree.maxPath

theorem Roomy.fits_tempName (h : s.Roomy type id) (hid : IsStep id) {count : Nat}
    (hcount : count < 16 ^ 12) : Fits ((s.typeDir type).join (tempName id count)) := by
  obtain ⟨ending, htemp, hsize, hplain⟩ := exists_tempName_eq id hcount
  have hstep := isStep_tempName hid count
  have htext : ((s.typeDir type).join (tempName id count)).text =
      ((s.typeDir type).join id).text ++ ending := by
    rw [Path.join_eq _ hstep.1, Path.join_eq _ hid.1, htemp]
    split <;> simp only [String.append_assoc]
  refine ⟨?_, ?_, fun step hmem => ?_⟩
  · rw [htext, String.toList_append, List.mem_append, not_or]
    exact ⟨h.fits.text, hplain⟩
  · rw [htext, String.utf8ByteSize_append, hsize]
    exact h.path
  · rw [Path.steps_join _ hstep.1] at hmem
    rcases List.mem_append.mp hmem with hmem | hmem
    · refine h.fits.names step ?_
      rw [Path.steps_join _ hid.1]
      exact List.mem_append_left _ hmem
    · rw [List.mem_singleton.mp hmem, htemp, String.utf8ByteSize_append, hsize]
      exact h.name

namespace Rooted

/-- The directory of a type that is there is not made again. -/
theorem exec_prepare_there (h : s.Rooted base state.files) (htype : IsStep type) (hid : IsStep id)
    (hfits : Fits ((s.typeDir type).join id))
    (hdir : state.files.get? (base ++ [type]) = some .directory) :
    exec (prepare ((s.typeDir type).join id)) state = (.ok (), state) := by
  have hensure := FileTree.ensureDirectory_of_locate
    (h.locate_typeDir htype (hfits.of_join hid.1)) hdir
  unfold prepare
  rw [exec_bind_ok (exec_get state)]
  dsimp only
  rw [show ((s.typeDir type).join id).parent = s.typeDir type from
    Path.parent_join s.root htype hid, FileTree.makeDirectories, hensure]
  rfl

/-- Content is staged where nothing is in the way. -/
theorem exec_stage_clear (h : s.Rooted base state.files) (htype : IsStep type)
    (hid : idFault? id = none) (hclear : Clear base type state)
    (hfits : Fits ((s.typeDir type).join id))
    (htemp : Fits ((s.typeDir type).join (tempName id state.minted))) :
    ∃ staged, exec (s.stage type id doc) state =
        (.ok ⟨(s.typeDir type).join id, (s.typeDir type).join (tempName id state.minted)⟩, staged) ∧
      staged.minted = state.minted + 1 ∧
      staged.files = state.files.put (base ++ [type, tempName id state.minted])
        (.file (some (Json.pretty (.obj doc)))) := by
  have hstep := isName_of_idFault? hid
  have hpath : s.documentPath type id = .ok ((s.typeDir type).join id) := by
    unfold documentPath
    rw [hid]
  have hplace := h.locate_join htype (isStep_tempName hstep state.minted) htemp hclear.directory
  have hcreate := FileTree.createFile_of_locate hplace
    (hclear.unused id state.minted (Nat.le_refl _)) (by rw [dropLast_file, hclear.directory])
      (Json.pretty (.obj doc))
  unfold stage
  rw [exec_bind_ok (by rw [exec_lift, hpath]),
    exec_bind_ok (h.exec_prepare_there htype hstep hfits hclear.directory)]
  unfold fill
  rw [exec_bind_ok (exec_tempPath_join htype hstep state), exec_bind_ok (exec_get _)]
  dsimp only
  rw [hcreate]
  exact ⟨_, rfl, rfl, rfl⟩

/-- Staged content is put in place where no directory is. -/
theorem exec_publish_there (h : s.Rooted base state.files) (htype : IsStep type) (hid : IsStep id)
    (hname : IsStep name) (hdir : state.files.get? (base ++ [type]) = some .directory)
    (hfits : Fits ((s.typeDir type).join id)) (hnamed : Fits ((s.typeDir type).join name))
    {entry : Entry} (hentry : state.files.get? (base ++ [type, name]) = some entry)
    (hfile : state.files.get? (base ++ [type, id]) ≠ some .directory) :
    ∃ after, exec (publish ⟨(s.typeDir type).join id, (s.typeDir type).join name⟩) state =
        (.ok (), after) ∧ after.minted = state.minted ∧
      after.files = ((state.files.drop (base ++ [type, name])).drop (base ++ [type, id])).put
        (base ++ [type, id]) entry := by
  have hrename := FileTree.rename_of_locate (h.locate_join htype hname hnamed hdir)
    (h.locate_join htype hid hfits hdir) hentry hfile (by rwa [dropLast_file])
  unfold publish
  rw [exec_bind_ok (exec_get state)]
  dsimp only
  rw [hrename]
  exact ⟨_, rfl, rfl, rfl⟩

end Rooted

/-- A write succeeds where nothing is in its way, and nothing is in the way of the next one. -/
theorem Represents.exec_write_clear (h : s.Represents base state.files m) (htype : IsStep type)
    (hid : idFault? id = none) (hclear : Clear base type state) (hroom : s.Roomy type id)
    (hcount : state.minted < 16 ^ 12) (doc : Document) :
    ∃ after, exec (s.write type id doc) state = (.ok (), after) ∧
      s.Represents base after.files (m.put type id doc) ∧ Clear base type after ∧
        after.minted = state.minted + 1 := by
  have hstep := isName_of_idFault? hid
  have htempstep := isStep_tempName hstep state.minted
  have hfits := hroom.fits
  have htemp := hroom.fits_tempName hstep hcount
  obtain ⟨staged, hstage, hminted, hstaged⟩ := @Rooted.exec_stage_clear s base type id doc state
    h.toRooted htype hid hclear hfits htemp
  have hput := h.toRooted.putFile htype htempstep hclear.directory (h.ne_directory type _)
    (some (Json.pretty (.obj doc)))
  rw [← hstaged] at hput
  have hfile : staged.files.get? (base ++ [type, id]) ≠ some .directory := by
    rw [hput.others type id fun heq =>
      tempName_ne hid id state.minted heq.2.symm]
    exact h.ne_directory type id
  obtain ⟨placed, hpublish, hsame, hplaced⟩ :=
    Rooted.exec_publish_there (h.toRooted.of_directories hput.sound hput.kept) htype hstep htempstep
      (hput.kept _ hclear.directory) hfits htemp hput.there hfile
  have hrun : exec (s.write type id doc) state = exec (s.reportWrite type id) placed := by
    unfold write
    rw [exec_bind_ok hstage, exec_bind_ok hpublish]
  obtain ⟨after, hdone, halike⟩ : ∃ after, exec (s.reportWrite type id) placed = (.ok (), after) ∧
      after.Alike placed := ⟨_, rfl, ⟨rfl, rfl⟩⟩
  rw [hdone] at hrun
  obtain ⟨-, ⟨_, _, hfailed, -⟩ | ⟨-, hafter⟩⟩ := h.exec_write htype hid hrun
  · cases hfailed
  refine ⟨after, hrun, hafter, Clear.of_alike ⟨?_, fun other count hcount => ?_⟩ halike,
    halike.minted.trans (hsame.trans hminted)⟩
  · rw [hplaced, hstaged, FileTree.get?_put_of_ne _ (by simp), FileTree.get?_drop_of_ne _ (by simp),
      FileTree.get?_drop_of_ne _ (by simp), FileTree.get?_put_of_ne _ (by simp), hclear.directory]
  · rw [hsame, hminted] at hcount
    have hlater : ¬ (type = type ∧ tempName other count = tempName id state.minted) := fun heq =>
      absurd (tempName_inj heq.2) (Nat.ne_of_gt hcount)
    have hbeside : ¬ (type = type ∧ tempName other count = id) := fun heq =>
      tempName_ne hid other count heq.2
    rw [hplaced, hstaged, FileTree.get?_put_of_ne _ (place_ne hbeside),
      FileTree.get?_drop_of_ne _ (place_ne hbeside), FileTree.get?_drop_of_ne _ (place_ne hlater),
      FileTree.get?_put_of_ne _ (place_ne hlater), hclear.unused other count (Nat.le_of_succ_le hcount)]

/-- A replacement succeeds where nothing is in its way and the document is there. -/
theorem Represents.exec_replace_clear (h : s.Represents base state.files m) (htype : IsStep type)
    (hid : idFault? id = none) (hthere : (m.get? type id).isSome = true)
    (hclear : Clear base type state) (hroom : s.Roomy type id) (hcount : state.minted < 16 ^ 12)
    (doc : Document) :
    ∃ after, exec (s.replace type id doc) state = (.ok (), after) ∧
      s.Represents base after.files (m.put type id doc) ∧ Clear base type after ∧
        after.minted = state.minted + 1 := by
  have hcheck := exec_checkPresent s type id state
  rw [hid] at hcheck
  dsimp only at hcheck
  rw [h.isPresent_eq htype hid, if_pos hthere] at hcheck
  unfold replace
  rw [exec_bind_ok hcheck]
  exact h.exec_write_clear htype hid hclear hroom hcount doc

/-- The documents of a type are listed where its directory is there and its path is none that the
system refuses. -/
theorem Represents.documentFiles_clear (h : s.Represents base files m) (htype : IsStep type)
    (hfits : Fits (s.typeDir type)) (hdir : files.get? (base ++ [type]) = some .directory) :
    s.documentFiles files type = .ok ((m type).keys.map (s.typeDir type).join) := by
  refine (h.documentFiles_eq htype).resolve_left ?_
  rintro ⟨path, cause, hfailed⟩
  unfold documentFiles at hfailed
  dsimp only at hfailed
  rw [FileTree.list_eq_inside (h.locate_typeDir htype hfits) hdir] at hfailed
  cases hfailed

/-- Documents that read back are found as they were written. -/
theorem Represents.stored_clear (h : s.Represents base files m) (hread : ReadsBack m)
    (htype : IsStep type) (hfits : Fits (s.typeDir type))
    (hdir : files.get? (base ++ [type]) = some .directory) :
    s.stored files type = .ok (m type).values := by
  unfold stored
  rw [h.documentFiles_clear htype hfits hdir]
  exact h.documents_keys hread htype

end DocumentEngine.Store
