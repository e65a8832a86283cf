import DocumentEngine.Proofs.Store.Session

/-!
Operations that are cut off. Whatever part of an operation has run, the files hold the shelf of
before or the one that the whole operation leaves, with at most an unfinished write beside it.
-/

namespace DocumentEngine

open Action
open FileTree (Fits)
open Path (IsStep)

namespace FileTree

variable {t t' : FileTree} {place : List String} {p : Path}

/-- A file can be made at a path or not, whatever its text. -/
theorem createFile_cases (t : FileTree) (p : Path) :
    (∃ cause, ∀ text, t.createFile p text = .error cause) ∨
      ∃ place, t.locate p = .ok place ∧ t.get? place = none ∧ t.checkParent place = .ok () ∧
        ∀ text, t.createFile p text = .ok (t.put place (.file (some text))) := by
  unfold createFile
  cases hplace : t.locate p with
  | error cause => exact .inl ⟨cause, fun _ => rfl⟩
  | ok place =>
    dsimp only [bind, Except.bind]
    cases hheld : t.get? place with
    | some entry => exact .inl ⟨.exists, fun _ => rfl⟩
    | none =>
      cases hparent : t.checkParent place with
      | error cause => exact .inl ⟨cause, fun _ => rfl⟩
      | ok _ => exact .inr ⟨place, rfl, hheld, hparent, fun _ => rfl⟩

/-- Of two entries for a new place the second stays. -/
theorem put_put (t : FileTree) (h : t.get? place = none) (entry entry' : Entry) :
    (t.put place entry).put place entry' = t.put place entry' := by
  rw [get?_of_ne_nil t (ne_nil_of_get?_eq_none h)] at h
  have hother : ∀ e ∈ t.entries, (if e.1 = place then (place, entry') else e) = e := by
    intro e he
    refine if_neg fun heq => ?_
    have hne := List.lookup_eq_none_iff.mp h e he
    simp [heq] at hne
  unfold put
  simp only [h, Option.isSome_none, Bool.false_eq_true, if_false, List.lookup_append,
    List.lookup_cons, beq_self_eq_true, Option.isSome_or, Option.isSome_some, Bool.or_true, if_true,
    List.map_append]
  rw [List.map_congr_left hother, List.map_id']
  simp

end FileTree

namespace Store

variable {s : Store} {base : List String} {type id : String} {doc : Document}
  {state state' : State} {files : FileTree} {m m' : Shelf} {w : Session} {op : Operation}

/-- Bytes that are all of a text are that text. -/
theorem firstBytes_all (text : String) {count : Nat} (h : text.utf8ByteSize ≤ count) :
    firstBytes text count = some text := by
  have hall : text.toUTF8.extract 0 count = text.toUTF8 := by
    rw [← Nat.max_eq_left h]
    exact ByteArray.extract_zero_max_size
  unfold firstBytes String.fromUTF8?
  rw [hall, dif_pos (by simpa using text.isValidUTF8)]
  rfl

/-- Content that is written to its end is staged. -/
theorem exec_fillPart_all (hr : s.Rooted base state.files) (htype : IsStep type) (hid : IsStep id)
    {count : Nat} (hcount : (Json.pretty (.obj doc)).utf8ByteSize ≤ count) :
    (exec (fillPart ((s.typeDir type).join id) doc count) state).2.files =
      (exec (fill ((s.typeDir type).join id) doc) state).2.files := by
  unfold fillPart fill
  rw [exec_bind_ok (exec_tempPath_join htype hid state), exec_bind_ok (exec_tempPath_join htype hid state),
    exec_bind_ok (exec_get _), exec_bind_ok (exec_get _)]
  dsimp only
  have htemp := isStep_tempName hid state.minted
  obtain ⟨cause, hcreate⟩ | ⟨place, hplace, hfree, hparent, hcreate⟩ :=
    state.files.createFile_cases ((s.typeDir type).join (tempName id state.minted))
  · rw [hcreate, hcreate]
    rfl
  · rw [hcreate, hcreate]
    dsimp only
    obtain ⟨rfl, hfits, hdir⟩ := hr.of_locate_join htype htemp hplace
    have hmade := hr.putFile htype htemp hdir (by simp [hfree]) (some "")
    have hrooted := hr.of_directories hmade.sound hmade.kept
    have hwrite := FileTree.writeFile_of_locate
      (hrooted.locate_join htype htemp hfits (hmade.kept _ hdir)) (FileTree.endsInSlash_join htemp.1)
      (by rw [hmade.there]; simp) (by rw [dropLast_file, hmade.kept _ hdir])
      (firstBytes (Json.pretty (.obj doc)) count)
    rw [hwrite, FileTree.put_put _ hfree, firstBytes_all _ hcount]
    rfl

/-- Actions that begin alike leave the same files where the rest of them does. -/
theorem exec_bind_files {ε α β γ : Type} {x : Act ε α} {f : α → Act ε β} {g : α → Act ε γ}
    (h : ∀ a between, exec x state = (.ok a, between) →
      (exec (f a) between).2.files = (exec (g a) between).2.files) :
    (exec (x >>= f) state).2.files = (exec (x >>= g) state).2.files := by
  rw [exec_bind, exec_bind]
  rcases hx : exec x state with ⟨cause | a, between⟩
  · rfl
  · exact h a between hx

/-- How far a write has come at a crash point. -/
def CrashPoint.progress (text : String) : CrashPoint → Progress
  | .beforeStage => .directory
  | .afterStage => .content text.utf8ByteSize
  | .afterRename => .renamed
  | .beforeDelete => .started

/-- A write that is cut off at a crash point is a part of the write. -/
theorem exec_writeUntil (hr : s.Rooted base state.files) (htype : IsStep type)
    {point : CrashPoint} (hpoint : point ≠ .beforeDelete) :
    (exec (s.writeUntil (some point) type id doc) state).2.files =
      (exec (s.writePart (point.progress (Json.pretty (.obj doc))) type id doc) state).2.files := by
  cases point with
  | beforeDelete => exact absurd rfl hpoint
  | afterRename =>
    unfold writeUntil writePart CrashPoint.progress
    dsimp only
    rw [if_neg (by decide)]
    refine exec_bind_files fun staged filled _ => ?_
    rw [if_pos rfl]
    exact congrArg State.files (exec_bind_pure (publish staged) (fun _ => true) filled)
  | beforeStage =>
    unfold writeUntil stageUntil writePart stagePart CrashPoint.progress
    dsimp only
    rw [if_pos (by decide)]
    refine exec_bind_files fun path located _ => ?_
    rw [if_pos rfl]
    exact congrArg State.files (exec_bind_pure (prepare path) (fun _ => true) located)
  | afterStage =>
    unfold writeUntil stageUntil writePart stagePart CrashPoint.progress
    dsimp only
    rw [if_pos (by decide)]
    refine exec_bind_files fun path located hpath => ?_
    rw [exec_lift] at hpath
    obtain ⟨hid, rfl⟩ := documentPath_eq_ok (Prod.mk.inj hpath).1
    cases (Prod.mk.inj hpath).2
    rw [if_neg (by decide)]
    apply exec_bind_files
    intro _ made hprepare
    rw [exec_bind_pure, exec_discard]
    have hstep : IsStep id := isName_of_idFault? hid
    obtain ⟨_, files, hdone, hmade, -⟩ := exec_prepare_join hr htype hstep
    cases hdone.symm.trans hprepare
    have hrooted : s.Rooted base ({ state with files := files } : State).files :=
      hmade.rooted hr htype
    exact (exec_fillPart_all hrooted htype hstep (Nat.le_refl _)).symm

namespace Represents

/-- Content that is written in part is an unfinished write. -/
theorem exec_fillPart (h : s.Represents base state.files m) (htype : IsStep type) (hid : IsStep id)
    (count : Nat)
    (hrun : (exec (fillPart ((s.typeDir type).join id) doc count) state).2 = state') :
    s.Represents base state'.files m := by
  unfold fillPart at hrun
  rw [exec_bind_ok (exec_tempPath_join htype hid state), exec_bind_ok (exec_get _)] at hrun
  dsimp only at hrun
  have htemp := isStep_tempName hid state.minted
  cases hcreate : state.files.createFile ((s.typeDir type).join (tempName id state.minted)) "" with
  | error cause =>
    rw [hcreate] at hrun
    subst hrun
    exact h
  | ok made =>
    rw [hcreate] at hrun
    dsimp only at hrun
    cases hwrite : made.writeFile ((s.typeDir type).join (tempName id state.minted))
        (firstBytes (Json.pretty (.obj doc)) count) with
    | error cause =>
      rw [hwrite] at hrun
      subst hrun
      exact h
    | ok written =>
      rw [hwrite] at hrun
      subst hrun
      obtain ⟨place, hplace, hfree, -, rfl⟩ := FileTree.createFile_eq_ok hcreate
      obtain ⟨rfl, hfits, hdir⟩ := h.of_locate_join htype htemp hplace
      have hmade := h.putFile htype htemp hdir (by simp [hfree]) (some "")
      have hrooted := h.toRooted.of_directories hmade.sound hmade.kept
      obtain ⟨place, hplace, rfl⟩ := FileTree.writeFile_eq_ok hwrite
      obtain ⟨rfl, -⟩ := hrooted.of_locate_join htype htemp hplace
      exact h.temp (hmade.trans (hrooted.putFile htype htemp (hmade.kept _ hdir)
        (by rw [hmade.there]; simp) _)) (isTempName_tempName id _) (by simp) fun _ => hfits

/-- Staging that is cut off leaves the shelf as it is. -/
theorem exec_stagePart (h : s.Represents base state.files m) (htype : IsStep type)
    (progress : Progress) :
    s.Represents base (exec (s.stagePart progress type id doc) state).2.files m := by
  cases hid : idFault? id with
  | some fault =>
    have hpath : exec (lift (s.documentPath type id)) state =
        (.error (.invalidId id fault), state) := by
      unfold documentPath
      rw [hid]
      rfl
    cases progress with
    | started => exact h
    | directory =>
      unfold stagePart
      dsimp only
      rwa [exec_bind_error hpath]
    | content count =>
      unfold stagePart
      dsimp only
      rwa [exec_bind_error hpath]
    | _ =>
      unfold stagePart stage
      dsimp only
      rw [exec_discard]
      rwa [exec_bind_error hpath]
  | none =>
    have hstep : IsStep id := isName_of_idFault? hid
    have hpath : exec (lift (s.documentPath type id)) state =
        (.ok ((s.typeDir type).join id), state) := by
      unfold documentPath
      rw [hid]
      rfl
    have hstaged : s.Represents base (exec (s.stage type id doc) state).2.files m :=
      (h.exec_stage htype hid (Prod.eta _).symm).1
    obtain ⟨result, made, hprepare, hmade, hresult⟩ := exec_prepare_join h.toRooted htype hstep
    have hafter : s.Represents base ({ state with files := made } : State).files m :=
      h.of_made hmade htype
    cases progress with
    | started => exact h
    | directory =>
      unfold stagePart
      dsimp only
      rwa [exec_bind_ok hpath, hprepare]
    | content count =>
      unfold stagePart
      dsimp only
      rw [exec_bind_ok hpath]
      rcases hresult with ⟨path, cause, rfl⟩ | ⟨rfl, -⟩
      · rwa [exec_bind_error hprepare]
      · rw [exec_bind_ok hprepare]
        exact hafter.exec_fillPart htype hstep count rfl
    | _ =>
      unfold stagePart
      dsimp only
      rwa [exec_discard]

end Represents

/-- A write that is cut off after its rename leaves the files of the whole write. -/
theorem exec_writePart_renamed (s : Store) (type id : String) (doc : Document) (state : State) :
    (exec (s.writePart .renamed type id doc) state).2.files =
      (exec (s.write type id doc) state).2.files := by
  unfold writePart write
  rw [exec_bind, exec_bind]
  rcases exec (s.stage type id doc) state with ⟨cause | staged, filled⟩
  · rfl
  · dsimp only
    rw [exec_bind]
    rcases exec (publish staged) filled with ⟨cause | _, published⟩ <;> rfl

namespace Tracks

/-- A checked write that is cut off leaves the shelf of before or that of the whole write. -/
theorem interrupt_checked (h : s.Tracks base w m) (htype : IsStep type) {check : StoreM Unit}
    (hcheck : Checks id check)
    (hwhole : s.Represents base (exec (do check; s.write type id doc) w.state).2.files m')
    (progress : Progress) :
    let left := (exec (do check; s.writePart progress type id doc) w.state).2.files
    s.Represents base left m ∨ s.Represents base left m' := by
  dsimp only
  rcases hcheck w.state with ⟨cause, hfailed⟩ | ⟨hpassed, -⟩
  · rw [exec_bind_error hfailed]
    exact .inl h.shelf
  · rw [exec_bind_ok hpassed] at hwhole ⊢
    cases progress with
    | renamed => exact .inr (by rwa [exec_writePart_renamed])
    | _ => exact .inl (h.shelf.exec_stagePart htype _)

/-- An operation that is cut off leaves the shelf of before or that of the whole operation. -/
theorem interrupt (h : s.Tracks base w m) (op : Operation) (progress : Progress)
    (htype : ∀ type, op.type? = some type → IsStep type)
    (hwhole : s.Tracks base (s.perform op w) m') :
    s.Represents base (s.interrupt op progress w).files m ∨
      s.Represents base (s.interrupt op progress w).files m' := by
  cases op with
  | create type id doc =>
    exact h.interrupt_checked (htype type rfl) (checks_checkAbsent s type id) hwhole.shelf progress
  | replace type id doc =>
    exact h.interrupt_checked (htype type rfl) (checks_checkPresent s type id) hwhole.shelf progress
  | stage type id doc => exact .inl (h.shelf.exec_stagePart (htype type rfl) progress)
  | delete type id =>
    cases progress with
    | removed count => exact .inr hwhole.shelf
    | _ => exact .inl h.shelf
  | publish index =>
    cases progress with
    | renamed => exact .inr hwhole.shelf
    | _ => exact .inl h.shelf
  | sweep =>
    cases progress with
    | removed count =>
      obtain ⟨state', hrun, -, hshelf, -⟩ := h.shelf.exec_sweepPart count
      have hleft : s.interrupt .sweep (.removed count) w = state' := congrArg Prod.snd hrun
      exact .inl (hleft ▸ hshelf)
    | _ => exact .inl h.shelf

end Tracks

end Store

end DocumentEngine
