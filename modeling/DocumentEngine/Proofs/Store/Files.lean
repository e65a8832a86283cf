import DocumentEngine.Proofs.FileTree.Sound
import DocumentEngine.Proofs.Store.Fetch
import DocumentEngine.Proofs.Store.Place
import DocumentEngine.Proofs.Store.Write

/-!
The files of a store. A document of a type is read from a file one step below the directory of the
type; and a write, however it ends, leaves the files that there were, unfinished writes and, where
it succeeds, the new content of its document.
-/

namespace DocumentEngine

open Action
open Path (IsStep)

namespace Store

variable {s : Store} {type id : String} {doc : Document} {state state' : State} {files : FileTree}

/-- The directory of a type is written without names for the place itself or the one above. -/
def PlainDir (s : Store) (type : String) : Prop :=
  ∀ step ∈ (s.typeDir type).steps, step ≠ "." ∧ step ≠ ".."

theorem plain_of_join (hdir : s.PlainDir type) {name : String} (hname : IsStep name) :
    ((s.typeDir type).join name).steps = (s.typeDir type).steps ++ [name] ∧
      ∀ step ∈ ((s.typeDir type).join name).steps, step ≠ "." ∧ step ≠ ".." := by
  have hsteps := Path.steps_join (s.typeDir type) hname.1
  refine ⟨hsteps, fun step hstep => ?_⟩
  rw [hsteps] at hstep
  rcases List.mem_append.mp hstep with hstep | hstep
  · exact hdir step hstep
  · rw [List.mem_singleton.mp hstep]
    exact hname.2

/-- The directories of the types stand side by side, under plain names. -/
structure Laid (s : Store) : Prop where
  root : ∀ step ∈ s.root.steps, step ≠ "." ∧ step ≠ ".."
  types : ∀ t ∈ s.schema.types, Path.IsStep t.name

theorem Laid.steps_typeDir {t : DocumentType} (h : s.Laid) (ht : t ∈ s.schema.types) :
    (s.typeDir t.name).steps = s.root.steps ++ [t.name] :=
  Path.steps_join s.root (h.types t ht).1

theorem Laid.plainDir {t : DocumentType} (h : s.Laid) (ht : t ∈ s.schema.types) : s.PlainDir t.name := by
  intro step hstep
  rw [h.steps_typeDir ht] at hstep
  rcases List.mem_append.mp hstep with hstep | hstep
  · exact h.root step hstep
  · rw [List.mem_singleton.mp hstep]
    exact (h.types t ht).2

/-- The path of a name in the directory of a type leads to a place, in some tree. -/
def Leads (s : Store) (type name : String) (place : List String) : Prop :=
  IsStep name ∧ ∃ files : FileTree, files.locate ((s.typeDir type).join name) = .ok place

/-- A path leads to a place of its own name. -/
theorem Leads.getLast? {name : String} {place : List String} (h : s.Leads type name place) :
    place.getLast? = some name := by
  obtain ⟨hname, files, hplace⟩ := h
  exact FileTree.getLast?_of_locate (Path.steps_join _ hname.1) hname hplace

/-- In a plain directory a path leads one step below it. -/
theorem Leads.eq_of_plain {name : String} {place : List String} (h : s.Leads type name place)
    (hdir : s.PlainDir type) : place = (s.typeDir type).steps ++ [name] := by
  obtain ⟨hname, files, hplace⟩ := h
  obtain ⟨hsteps, hplain⟩ := plain_of_join hdir hname
  rw [FileTree.eq_steps_of_locate hplain hplace, hsteps]

/-- The files of the documents of a type are those that its directory lists, if there is one. -/
theorem documentFiles_eq_ok {paths : List Path} (h : s.documentFiles files type = .ok paths) :
    paths = [] ∨ ∃ place names, files.locate (s.typeDir type) = .ok place ∧
      files.list (s.typeDir type) = .ok names ∧
      paths = ((sortNames names).map (s.typeDir type).join).filter fun path =>
        files.isFile path && !isTempName path.fileName := by
  unfold documentFiles at h
  dsimp only at h
  cases hlist : files.list (s.typeDir type) with
  | error cause =>
    rw [hlist] at h
    cases cause <;> cases h
    exact .inl rfl
  | ok names =>
    rw [hlist] at h
    cases h
    obtain ⟨place, hplace⟩ := FileTree.exists_locate_of_list hlist
    exact .inr ⟨place, names, hplace, rfl, rfl⟩

/-- A document of a type is read from a file to which its path leads, and which is no unfinished
write. -/
theorem leads_of_mem_documentFiles (hsound : files.Sound) {paths : List Path}
    (h : s.documentFiles files type = .ok paths) {path : Path} (hpath : path ∈ paths) :
    ∃ name place text, isTempName name = false ∧ path = (s.typeDir type).join name ∧
      s.Leads type name place ∧ files.locate path = .ok place ∧
      files.get? place = some (.file text) := by
  obtain rfl | ⟨dir, names, hdir, hlist, rfl⟩ := documentFiles_eq_ok h
  · cases hpath
  obtain ⟨hjoined, hkept⟩ := List.mem_filter.mp hpath
  obtain ⟨name, hname, rfl⟩ := List.mem_map.mp hjoined
  rw [Bool.and_eq_true, Bool.not_eq_true'] at hkept
  have hstep := hsound.isStep_of_mem_list hdir hlist (List.mem_mergeSort.mp hname)
  obtain ⟨hfile, htemp⟩ := hkept
  rw [Path.fileName_join _ hstep] at htemp
  unfold FileTree.isFile FileTree.entry? at hfile
  cases hplace : files.locate ((s.typeDir type).join name) with
  | error cause =>
    rw [hplace] at hfile
    cases hfile
  | ok place =>
    rw [hplace] at hfile
    dsimp only at hfile
    split at hfile
    · rename_i text hheld
      exact ⟨name, place, text, htemp, rfl, ⟨hstep, files, hplace⟩, rfl, hheld⟩
    · cases hfile

/-- In a plain directory a document is read from a file one step below it. -/
theorem exists_of_mem_documentFiles (hsound : files.Sound) (hdir : s.PlainDir type)
    {paths : List Path} (h : s.documentFiles files type = .ok paths) {path : Path}
    (hpath : path ∈ paths) :
    ∃ name text, IsStep name ∧ isTempName name = false ∧ path = (s.typeDir type).join name ∧
      files.locate path = .ok ((s.typeDir type).steps ++ [name]) ∧
      files.get? ((s.typeDir type).steps ++ [name]) = some (.file text) := by
  obtain ⟨name, place, text, htemp, hname, hleads, hplace, hheld⟩ :=
    leads_of_mem_documentFiles hsound h hpath
  rw [hleads.eq_of_plain hdir] at hplace hheld
  exact ⟨name, text, hleads.1, htemp, hname, hplace, hheld⟩

/-- A document that is read is what the text of a file spells. -/
theorem readDocument?_eq_some {path : Path} (h : readDocument? files path = .ok (some doc)) :
    ∃ place text, files.locate path = .ok place ∧
      files.get? place = some (.file (some text)) ∧ Json.ofText? text = some (.obj doc) := by
  unfold readDocument? at h
  cases hread : files.readText path with
  | error cause =>
    rw [hread] at h
    cases cause <;> cases h
  | ok text =>
    rw [hread] at h
    obtain ⟨place, hplace, hheld⟩ := FileTree.readText_eq_ok hread
    refine ⟨place, text, hplace, hheld, ?_⟩
    dsimp only at h
    unfold decode at h
    split at h
    · rename_i found hvalue
      cases h
      exact hvalue
    · cases h
    · cases h

/-- A stored document is what the text of a file spells to which a path of its type leads, and which
is no unfinished write. -/
theorem leads_of_mem_stored (hsound : files.Sound) {docs : List Document}
    (h : s.stored files type = .ok docs) (hdoc : doc ∈ docs) :
    ∃ name place text, isTempName name = false ∧ s.Leads type name place ∧
      files.get? place = some (.file (some text)) ∧ Json.ofText? text = some (.obj doc) := by
  obtain ⟨paths, hpaths, path, hpath, hread⟩ := mem_stored h hdoc
  obtain ⟨name, place, held, htemp, -, hleads, hplace, -⟩ :=
    leads_of_mem_documentFiles hsound hpaths hpath
  obtain ⟨found, text, hfound, hheld, hvalue⟩ := readDocument?_eq_some hread
  rw [hplace] at hfound
  cases hfound
  exact ⟨name, place, text, htemp, hleads, hheld, hvalue⟩

/-- In a plain directory a stored document is what the text of a file one step below it spells. -/
theorem exists_of_mem_stored (hsound : files.Sound) (hdir : s.PlainDir type) {docs : List Document}
    (h : s.stored files type = .ok docs) (hdoc : doc ∈ docs) :
    ∃ name text, IsStep name ∧ isTempName name = false ∧
      files.get? ((s.typeDir type).steps ++ [name]) = some (.file (some text)) ∧
      Json.ofText? text = some (.obj doc) := by
  obtain ⟨name, place, text, htemp, hleads, hheld, hvalue⟩ := leads_of_mem_stored hsound h hdoc
  rw [hleads.eq_of_plain hdir] at hheld
  exact ⟨name, text, hleads.1, htemp, hheld, hvalue⟩

/-- A document that is found under its id is what the text of a file spells to which its path leads,
and which is no unfinished write. -/
theorem leads_of_find? (h : s.find? files type id = .ok (some doc)) :
    isTempName id = false ∧ ∃ place text, s.Leads type id place ∧
      files.get? place = some (.file (some text)) ∧ Json.ofText? text = some (.obj doc) := by
  unfold find? at h
  cases hpath : s.documentPath type id with
  | error cause =>
    rw [hpath] at h
    cases h
  | ok path =>
    rw [hpath] at h
    obtain ⟨hfault, rfl⟩ := documentPath_eq_ok hpath
    obtain ⟨place, text, hplace, hheld, hvalue⟩ := readDocument?_eq_some h
    exact ⟨isTempName_of_idFault? hfault, place, text,
      ⟨isName_of_idFault? hfault, files, hplace⟩, hheld, hvalue⟩

/-- What a write may leave: the files that there were, unfinished writes and, where it succeeds, the
new content at the place to which the path of its document leads. -/
structure Written (s : Store) (type id : String) (doc : Document) (before after : FileTree)
    (result : Except StoreError Unit) : Prop where
  sound : before.Sound → after.Sound
  files : ∀ place text, after.get? place = some (.file text) →
    before.get? place = some (.file text) ∨ place.getLast?.any isTempName = true ∨
      result = .ok () ∧ s.Leads type id place ∧ text = some (Json.pretty (.obj doc))

theorem Written.of_files {before after : FileTree} (doc : Document)
    {result : Except StoreError Unit} (hsound : before.Sound → after.Sound)
    (h : ∀ place text, after.get? place = some (.file text) →
      before.get? place = some (.file text)) : s.Written type id doc before after result :=
  ⟨hsound, fun place text hplace => .inl (h place text hplace)⟩

/-- A write, however it ends, leaves the files that there were, unfinished writes and, where it
succeeds, the new content of its document. -/
theorem written_of_write {result : Except StoreError Unit}
    (h : exec (s.write type id doc) state = (result, state')) :
    s.Written type id doc state.files state'.files result := by
  unfold write at h
  rcases exec_bind_cases h with ⟨cause, hstage, rfl⟩ | ⟨staged, filled, hstage, h⟩
  · obtain ⟨made, hgrown, hsound, ⟨_, -, rfl⟩ | ⟨_, hok, -⟩⟩ := exec_stage hstage
    · exact .of_files doc hsound hgrown.files
    · cases hok
  obtain ⟨made, hgrown, hsound, ⟨_, hfailed, -⟩ | ⟨_, hok, hpath, hunfinished, hcreate⟩⟩ :=
    exec_stage hstage
  · cases hfailed
  cases hok
  have hfilled : ∀ place text, filled.files.get? place = some (.file text) →
      state.files.get? place = some (.file text) ∨ place.getLast?.any isTempName = true := by
    obtain ⟨beside, hbeside, -, -, hput⟩ := FileTree.createFile_eq_ok hcreate
    intro place text hplace
    by_cases heq : place = beside
    · exact .inr (heq ▸ hunfinished.isTempName_getLast? hbeside)
    · rw [hput, FileTree.get?_put_of_ne _ heq] at hplace
      exact .inl (hgrown.files place text hplace)
  have hfilledsound : state.files.Sound → filled.files.Sound :=
    fun hstart => (hsound hstart).createFile hcreate
  rcases exec_bind_cases h with ⟨cause, hpublish, rfl⟩ | ⟨⟨⟩, published, hpublish, hreport⟩
  · obtain ⟨_, -, rfl⟩ | ⟨hok, -⟩ := exec_publish hpublish
    · exact ⟨hfilledsound, fun place text hplace => (hfilled place text hplace).imp_right .inl⟩
    · cases hok
  obtain ⟨_, hfailed, -⟩ | ⟨-, hrename⟩ := exec_publish hpublish
  · cases hfailed
  unfold reportWrite at hreport
  cases hreport
  obtain ⟨target, htarget, hmoved, hfiles⟩ := FileTree.moved_of_rename hcreate hrename
  have hleads : s.Leads type id target := by
    obtain ⟨hfault, hfinal⟩ := documentPath_eq_ok hpath
    rw [hfinal] at htarget
    exact ⟨isName_of_idFault? hfault, _, htarget⟩
  refine ⟨fun hstart => hmoved (hfilledsound hstart), fun place text hplace => ?_⟩
  rcases hfiles place text hplace with hold | ⟨rfl, rfl⟩
  · exact (hfilled place text hold).imp_right .inl
  · exact .inr (.inr ⟨rfl, hleads, rfl⟩)

theorem exec_check_alike (s : Store) (type id : String) (state : State) :
    (exec (s.checkAbsent type id) state).2 = state ∧
      (exec (s.checkPresent type id) state).2 = state := by
  unfold checkAbsent checkPresent
  cases hpath : s.documentPath type id with
  | error cause =>
    have hlift : exec (lift (.error cause : Except StoreError Path)) state = (.error cause, state) :=
      exec_lift _ _
    rw [exec_bind_error hlift, exec_bind_error hlift]
    exact ⟨rfl, rfl⟩
  | ok path =>
    have hlift : exec (lift (.ok path : Except StoreError Path)) state = (.ok path, state) :=
      exec_lift _ _
    rw [exec_bind_ok hlift, exec_bind_ok hlift, exec_bind_ok (exec_get state),
      exec_bind_ok (exec_get state)]
    cases state.files.isPresent path <;> exact ⟨rfl, rfl⟩

theorem written_of_checked {check : StoreM Unit} (hcheck : (exec check state).2 = state)
    {result : Except StoreError Unit}
    (h : exec (check >>= fun _ => s.write type id doc) state = (result, state')) :
    s.Written type id doc state.files state'.files result := by
  rcases exec_bind_cases h with ⟨cause, hchecked, -⟩ | ⟨⟨⟩, checked, hchecked, hwrite⟩
  · obtain rfl : state' = state := by rwa [hchecked] at hcheck
    exact .of_files doc (fun hsound => hsound) fun _ _ hplace => hplace
  · obtain rfl : checked = state := by rwa [hchecked] at hcheck
    exact written_of_write hwrite

/-- A tree that is sound where another is, with no files but those of the other. -/
structure Lessened (before after : FileTree) : Prop where
  sound : before.Sound → after.Sound
  files : ∀ place text, after.get? place = some (.file text) →
    before.get? place = some (.file text)

theorem Lessened.refl (files : FileTree) : Lessened files files := ⟨fun h => h, fun _ _ h => h⟩

theorem lessened_of_unlink (path : Path) (state : State) :
    Lessened state.files (exec (unlink path) state).2.files := by
  unfold unlink
  rw [exec_bind_ok (exec_get state)]
  cases hremove : state.files.removeFile path with
  | error cause => cases cause <;> exact .refl _
  | ok files =>
    dsimp only
    rw [exec_bind_ok (exec_set _ state)]
    refine ⟨fun hsound => hsound.removeFile hremove, fun place text hplace => ?_⟩
    obtain ⟨gone, held, -, hheld, rfl⟩ := FileTree.removeFile_eq_ok hremove
    have hplace : (state.files.drop gone).get? place = some (.file text) := hplace
    have htop : gone ≠ [] := by
      rintro rfl
      cases hheld
    have hne : place ≠ gone := by
      rintro rfl
      rw [FileTree.get?_drop_self _ htop] at hplace
      cases hplace
    rwa [FileTree.get?_drop_of_ne _ hne] at hplace

/-- A deletion, however it ends, leaves nothing but files that there were. -/
theorem lessened_of_delete {result : Except StoreError Bool}
    (h : exec (s.delete type id) state = (result, state')) : Lessened state.files state'.files := by
  unfold delete at h
  rcases exec_bind_cases h with ⟨cause, hlifted, -⟩ | ⟨path, found, hlifted, h⟩
  · obtain ⟨-, rfl⟩ := Prod.mk.inj ((exec_lift _ _).symm.trans hlifted)
    exact .refl _
  obtain ⟨-, rfl⟩ := Prod.mk.inj ((exec_lift _ _).symm.trans hlifted)
  rw [exec_bind_ok (exec_get state)] at h
  have hunlinked := lessened_of_unlink path state
  split at h
  · cases h
    exact .refl _
  · rcases exec_bind_cases h with ⟨cause, hgone, -⟩ | ⟨gone, after, hgone, h⟩
    · rwa [hgone] at hunlinked
    · rw [hgone] at hunlinked
      cases gone <;> cases h <;> exact hunlinked

end Store

end DocumentEngine
