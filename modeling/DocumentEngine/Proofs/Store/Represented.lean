import DocumentEngine.Proofs.Store.Changes
import DocumentEngine.Proofs.Store.Scan

/-!
Operations on a represented store. What the store finds, lists and deletes is what the shelf has,
unless the system refuses a path.
-/

namespace DocumentEngine

open Action
open Path (IsStep)

namespace Store

variable {s : Store} {base : List String} {type id : String} {doc : Document}
  {state state' : State} {files : FileTree} {m : Shelf}

namespace Represents

theorem get?_of_some (h : s.Represents base files m) (hdoc : m.get? type id = some doc) :
    idFault? id = none ∧
      files.get? (base ++ [type, id]) = some (.file (some (Json.pretty (.obj doc)))) := by
  have hshelved := h.shelved type id
  have hid := hshelved.legal (by rw [hdoc]; rfl)
  exact ⟨hid, by rw [hshelved.document hid, hdoc]; rfl⟩

/-- The path of a document leads to its file. -/
theorem locate_of_some (h : s.Represents base files m) (htype : IsStep type)
    (hdoc : m.get? type id = some doc) :
    files.locate ((s.typeDir type).join id) = .ok (base ++ [type, id]) := by
  obtain ⟨hid, hheld⟩ := h.get?_of_some hdoc
  have hthere : (files.get? (base ++ [type, id])).isSome = true := by rw [hheld]; rfl
  exact h.locate_join htype (isName_of_idFault? hid) ((h.shelved type id).fits hthere)
    (h.directory_of_isSome hthere)

/-- A document is there exactly where the shelf has one. -/
theorem isPresent_eq (h : s.Represents base files m) (htype : IsStep type)
    (hid : idFault? id = none) :
    files.isPresent ((s.typeDir type).join id) = (m.get? type id).isSome := by
  cases hdoc : m.get? type id with
  | some doc =>
    unfold FileTree.isPresent FileTree.entry?
    rw [h.locate_of_some htype hdoc]
    dsimp only
    rw [(h.get?_of_some hdoc).2]
    rfl
  | none =>
    have hfree := (h.shelved type id).document hid
    rw [hdoc] at hfree
    unfold FileTree.isPresent FileTree.entry?
    cases hplace : files.locate ((s.typeDir type).join id) with
    | error cause => rfl
    | ok place =>
      obtain ⟨rfl, -, -⟩ := h.of_locate_join htype (isName_of_idFault? hid) hplace
      dsimp only
      rw [hfree]
      rfl

/-- The file of a document has its content. -/
theorem readText_of_some (h : s.Represents base files m) (htype : IsStep type)
    (hdoc : m.get? type id = some doc) :
    files.readText ((s.typeDir type).join id) = .ok (Json.pretty (.obj doc)) :=
  FileTree.readText_of_locate (h.locate_of_some htype hdoc) (h.get?_of_some hdoc).2

/-- The document of the shelf is what its file spells. -/
theorem find?_of_some (h : s.Represents base files m) (htype : IsStep type)
    (hdoc : m.get? type id = some doc) :
    s.find? files type id =
      (decode ((s.typeDir type).join id) (Json.pretty (.obj doc))).map some := by
  unfold find? documentPath
  rw [(h.get?_of_some hdoc).1]
  dsimp only
  rw [readDocument?, h.readText_of_some htype hdoc]

/-- Where the shelf has no document, none is found, if the path is not refused. -/
theorem find?_of_none (h : s.Represents base files m) (htype : IsStep type)
    (hid : idFault? id = none) (hdoc : m.get? type id = none) :
    (∃ path cause, s.find? files type id = .error (.io path cause)) ∨
      s.find? files type id = .ok none := by
  have hfree := (h.shelved type id).document hid
  rw [hdoc] at hfree
  unfold find? documentPath
  rw [hid]
  dsimp only
  unfold readDocument? FileTree.readText
  cases hplace : files.locate ((s.typeDir type).join id) with
  | error cause =>
    cases cause with
    | missing => exact .inr rfl
    | _ => exact .inl ⟨_, _, rfl⟩
  | ok place =>
    obtain ⟨rfl, -, -⟩ := h.of_locate_join htype (isName_of_idFault? hid) hplace
    dsimp only [bind, Except.bind]
    rw [hfree]
    exact .inr rfl

theorem mem_keys_iff (h : s.Represents base files m) (type name : String) :
    name ∈ (m type).keys ↔ idFault? name = none ∧
      (files.get? (base ++ [type, name])).isSome = true := by
  have hshelved := h.shelved type name
  have hkey : name ∈ (m type).keys ↔ (m.get? type name).isSome = true := by
    rw [← not_iff_not, ← Keyed.get?_eq_none_iff, Option.not_isSome_iff_eq_none]
    rfl
  rw [hkey]
  constructor
  · intro hsome
    have hid := hshelved.legal hsome
    refine ⟨hid, ?_⟩
    rw [hshelved.document hid, Option.isSome_map]
    exact hsome
  · rintro ⟨hid, hthere⟩
    rwa [hshelved.document hid, Option.isSome_map] at hthere

/-- What a directory lists as documents are the ids of the shelf. -/
theorem mem_keys_iff_isFile (h : s.Represents base files m) (htype : IsStep type) {name : String}
    (hname : IsStep name) :
    name ∈ (m type).keys ↔ (files.get? (base ++ [type, name])).isSome = true ∧
      files.isFile ((s.typeDir type).join name) = true ∧ isTempName name = false := by
  have hshelved := h.shelved type name
  rw [h.mem_keys_iff]
  constructor
  · rintro ⟨hid, hthere⟩
    refine ⟨hthere, ?_, isTempName_of_idFault? hid⟩
    unfold FileTree.isFile FileTree.entry?
    rw [h.locate_join htype hname (hshelved.fits hthere) (h.directory_of_isSome hthere)]
    dsimp only
    have hne := h.ne_directory type name
    split
    · rfl
    · rename_i hnofile
      obtain ⟨_ | text, hheld⟩ := Option.isSome_iff_exists.mp hthere
      · exact absurd hheld hne
      · exact absurd hheld (hnofile text)
  · rintro ⟨hthere, -, htemp⟩
    refine ⟨(hshelved.other hthere).resolve_left (by simp [htemp]), hthere⟩

/-- Of the names in the directory of a type, those of documents are the ids of the shelf, in their
order. -/
theorem keys_of_list (h : s.Represents base files m) (htype : IsStep type) {names : List String}
    (hplace : files.locate (s.typeDir type) = .ok (base ++ [type]))
    (hlist : files.list (s.typeDir type) = .ok names) :
    (sortNames names).filter (fun name => files.isFile ((s.typeDir type).join name) &&
      !isTempName ((s.typeDir type).join name).fileName) = (m type).keys := by
  have hmem : ∀ name, name ∈ names ↔ (files.get? (base ++ [type, name])).isSome = true := by
    intro name
    rw [FileTree.mem_list_iff hplace hlist, List.append_assoc]
    rfl
  have hordered : (m type).keys.Pairwise (· < ·) := List.pairwise_map.mpr (h.ascending type)
  have honce : (sortNames names).Nodup :=
    (List.mergeSort_perm names _).nodup_iff.mpr (h.sound.nodup_list hplace hlist)
  -- Both lists ascend, so that they need only have the same members.
  refine List.Perm.eq_of_pairwise (fun a b _ _ hab hba => le_antisymm hab hba)
    (((sortNames_ordered names).imp Text.le_iff_bytes_le.mpr).sublist List.filter_sublist)
    (hordered.imp le_of_lt) ((List.perm_ext_iff_of_nodup
      (honce.sublist List.filter_sublist) (hordered.imp ne_of_lt)).mpr fun name => ?_)
  rw [List.mem_filter, Bool.and_eq_true, Bool.not_eq_true']
  constructor
  · rintro ⟨hname, hfile, htemp⟩
    have hlisted : name ∈ names := List.mem_mergeSort.mp hname
    have hstep := h.sound.isStep_of_mem_list hplace hlist hlisted
    rw [Path.fileName_join _ hstep] at htemp
    exact (h.mem_keys_iff_isFile htype hstep).mpr ⟨(hmem name).mp hlisted, hfile, htemp⟩
  · intro hname
    have hstep : IsStep name := isName_of_idFault? ((h.mem_keys_iff type name).mp hname).1
    obtain ⟨hthere, hfile, htemp⟩ := (h.mem_keys_iff_isFile htype hstep).mp hname
    rw [Path.fileName_join _ hstep]
    exact ⟨List.mem_mergeSort.mpr ((hmem name).mpr hthere), hfile, htemp⟩

/-- The files of the documents of a type are those of the shelf, in the order of the ids. -/
theorem documentFiles_eq (h : s.Represents base files m) (htype : IsStep type) :
    (∃ path cause, s.documentFiles files type = .error (.io path cause)) ∨
      s.documentFiles files type = .ok ((m type).keys.map (s.typeDir type).join) := by
  unfold documentFiles
  dsimp only
  cases hlist : files.list (s.typeDir type) with
  | error cause =>
    cases cause with
    | missing =>
      right
      have hnodir := h.get?_of_list_missing htype hlist
      have hnone : (m type).keys = [] := by
        rw [List.eq_nil_iff_forall_not_mem]
        intro name hname
        have hdir := h.directory_of_isSome ((h.mem_keys_iff type name).mp hname).2
        rw [hnodir] at hdir
        cases hdir
      rw [hnone]
      rfl
    | _ => exact .inl ⟨_, _, rfl⟩
  | ok names =>
    right
    obtain ⟨place, hplace⟩ := FileTree.exists_locate_of_list hlist
    obtain ⟨rfl, -⟩ := h.of_locate_typeDir htype hplace
    dsimp only
    rw [List.filter_map]
    exact congrArg (fun names => Except.ok (names.map (s.typeDir type).join))
      (h.keys_of_list htype hplace hlist)

end Represents

theorem exec_checkAbsent (s : Store) (type id : String) (state : State) :
    exec (s.checkAbsent type id) state =
      (match idFault? id with
        | some fault => .error (.invalidId id fault)
        | none => if state.files.isPresent ((s.typeDir type).join id) then
            .error (.alreadyExists type id) else .ok (), state) := by
  unfold checkAbsent documentPath
  cases idFault? id with
  | some fault => rfl
  | none =>
    dsimp only
    rw [exec_bind_ok (exec_lift _ state), exec_bind_ok (exec_get state)]
    split <;> rfl

theorem exec_checkPresent (s : Store) (type id : String) (state : State) :
    exec (s.checkPresent type id) state =
      (match idFault? id with
        | some fault => .error (.invalidId id fault)
        | none => if state.files.isPresent ((s.typeDir type).join id) then .ok ()
            else .error (.notFound type id), state) := by
  unfold checkPresent documentPath
  cases idFault? id with
  | some fault => rfl
  | none =>
    dsimp only
    rw [exec_bind_ok (exec_lift _ state), exec_bind_ok (exec_get state)]
    cases state.files.isPresent ((s.typeDir type).join id) <;> rfl

/-- A deletion takes the document off the shelf and tells whether it was there. -/
theorem Represents.exec_delete (h : s.Represents base state.files m) (htype : IsStep type)
    (hid : idFault? id = none) :
    ∃ state', exec (s.delete type id) state = (.ok (m.get? type id).isSome, state') ∧
      s.Represents base state'.files (m.remove type id) ∧ Ages base state state' := by
  have hpath : s.documentPath type id = .ok ((s.typeDir type).join id) := by
    unfold documentPath
    rw [hid]
  unfold delete
  rw [exec_bind_ok (by rw [exec_lift, hpath]), exec_bind_ok (exec_get state),
    h.isPresent_eq htype hid]
  cases hdoc : m.get? type id with
  | none =>
    have hfree := (h.shelved type id).document hid
    rw [hdoc] at hfree
    exact ⟨state, rfl, h.remove ⟨h.sound, fun _ hplace => hplace, hfree, fun _ _ _ => rfl⟩,
      .refl base state⟩
  | some doc =>
    have hheld := (h.get?_of_some hdoc).2
    have hremoved := FileTree.removeFile_of_locate (h.locate_of_some htype hdoc) hheld
    have hunlink : exec (unlink ((s.typeDir type).join id)) state =
        (.ok true, { state with files := state.files.drop (base ++ [type, id]) }) := by
      unfold unlink
      rw [exec_bind_ok (exec_get state), hremoved]
      rfl
    simp only [Option.isSome_some, Bool.not_true, Bool.false_eq_true, if_false]
    rw [exec_bind_ok hunlink, if_pos rfl, exec_bind_ok (exec_modify _ _)]
    have hdrop := h.toRooted.dropFile (h.ne_directory type id)
    exact ⟨_, rfl, h.remove hdrop, .of_changedAt hdrop (Nat.le_refl _) (.inl rfl)⟩

end Store

end DocumentEngine
