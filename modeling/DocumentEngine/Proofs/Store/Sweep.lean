import DocumentEngine.Proofs.Store.Represented
import DocumentEngine.Store.Interruption

/-!
Sweeping a represented store. A sweep removes the unfinished writes one by one, those of one type
after those of another, and nothing else; a sweep that is cut off has removed the first of them.
-/

namespace DocumentEngine

open Action
open FileTree (Fits)
open Path (IsStep)

namespace FileTree

variable {t : FileTree} {place other : List String} {p : Path}

/-- What lies one step below a place is not changed by what is removed elsewhere. -/
theorem inside_drop (t : FileTree) (hother : other.dropLast ≠ place) :
    (t.drop other).inside place = t.inside place := by
  unfold drop inside
  rw [List.filterMap_filter]
  refine congrArg List.reverse (List.filterMap_congr fun e _ => ?_)
  obtain ⟨q, held⟩ := e
  dsimp only
  split
  · rfl
  · rename_i heq
    have hplace : q = other := by simpa using heq
    symm
    refine if_neg fun hbelow => ?_
    simp only [Bool.and_eq_true, decide_eq_true_eq, List.isPrefixOf_iff_prefix] at hbelow
    obtain ⟨hlength, rest, rfl⟩ := hbelow
    rw [List.length_append, Nat.add_left_cancel_iff, List.length_eq_one_iff] at hlength
    obtain ⟨last, rfl⟩ := hlength
    rw [← hplace, List.dropLast_concat] at hother
    exact hother rfl

/-- The tree without the entries at places. -/
def dropAll (t : FileTree) (places : List (List String)) : FileTree := places.foldl drop t

theorem get?_dropAll (t : FileTree) (places : List (List String)) (hother : other ≠ []) :
    (t.dropAll places).get? other = if other ∈ places then none else t.get? other := by
  induction places generalizing t with
  | nil => simp [dropAll]
  | cons place places ih =>
    change ((t.drop place).dropAll places).get? other = _
    rw [ih]
    by_cases heq : other = place
    · rw [heq, get?_drop_self _ (heq ▸ hother)]
      simp
    · rw [get?_drop_of_ne _ heq]
      simp [heq]

end FileTree

namespace Store

variable {s : Store} {base : List String} {type name : String} {state state' : State}
  {files after : FileTree} {m : Shelf}

theorem sweepFiles_cons (s : Store) (type name : String) (stale : List (String × String)) :
    s.sweepFiles ((type, name) :: stale) = (do
      sweepFile ((s.typeDir type).join name)
      s.sweepFiles stale) := by
  simp [sweepFiles]

theorem sweepFiles_append (s : Store) (front stale : List (String × String)) :
    s.sweepFiles (front ++ stale) = (do s.sweepFiles front; s.sweepFiles stale) := by
  simp [sweepFiles]

theorem mem_staleIn {types : List String} {e : String × String} :
    e ∈ s.staleIn files types ↔ e.1 ∈ types ∧ e.2 ∈ s.staleNames files e.1 := by
  obtain ⟨type, name⟩ := e
  simp [staleIn]

/-- All that is removed between two states are files of types. -/
structure Swept (base : List String) (stale : List (String × String)) (a b : State) : Prop where
  files : b.files = a.files.dropAll (stale.map fun e => base ++ [e.1, e.2])
  minted : b.minted = a.minted

namespace Represents

/-- The unfinished writes of a type are all that stands with such a name in its directory. -/
theorem staleNames_eq (h : s.Represents base files m) (htype : IsStep type) :
    s.staleNames files type = (files.inside (base ++ [type])).filter isTempName := by
  unfold staleNames
  split
  · rename_i hdir
    unfold FileTree.isDirectory FileTree.entry? at hdir
    cases hplace : files.locate (s.typeDir type) with
    | error cause =>
      rw [hplace] at hdir
      cases hdir
    | ok place =>
      obtain ⟨rfl, -⟩ := h.of_locate_typeDir htype hplace
      rw [hplace] at hdir
      rw [FileTree.list_eq_inside hplace (by simpa using hdir)]
  · rename_i hnodir
    symm
    rw [List.filter_eq_nil_iff]
    intro name hname
    have hthere := FileTree.mem_inside.mp hname
    rw [List.append_assoc] at hthere
    refine absurd ?_ hnodir
    have hstep : IsStep name := h.sound.isStep_last (FileTree.mem_inside.mp hname)
    have hfits := FileTree.Fits.of_join hstep.1 ((h.shelved type name).fits hthere)
    unfold FileTree.isDirectory FileTree.entry?
    rw [h.locate_typeDir htype hfits]
    exact decide_eq_true (h.directory_of_isSome hthere)

theorem mem_staleNames (h : s.Represents base files m) (htype : IsStep type) :
    name ∈ s.staleNames files type ↔
      isTempName name = true ∧ (files.get? (base ++ [type, name])).isSome = true := by
  rw [h.staleNames_eq htype, List.mem_filter, FileTree.mem_inside, List.append_assoc, and_comm]
  rfl

/-- An unfinished write is removed. -/
theorem exec_sweepFile (h : s.Represents base state.files m) (htype : IsStep type)
    (hname : IsStep name) (hthere : (state.files.get? (base ++ [type, name])).isSome = true) :
    ∃ state', exec (sweepFile ((s.typeDir type).join name)) state = (.ok (), state') ∧
      state'.files = state.files.drop (base ++ [type, name]) ∧ state'.minted = state.minted := by
  have hplace := h.locate_join htype hname ((h.shelved type name).fits hthere)
    (h.directory_of_isSome hthere)
  have hremoved : state.files.removeFile ((s.typeDir type).join name) =
      .ok (state.files.drop (base ++ [type, name])) := by
    obtain ⟨_ | text, hheld⟩ := Option.isSome_iff_exists.mp hthere
    · exact absurd hheld (h.ne_directory type name)
    · exact FileTree.removeFile_of_locate hplace hheld
  unfold sweepFile
  rw [exec_bind_ok (exec_get state), hremoved]
  exact ⟨_, rfl, rfl, rfl⟩

/-- Unfinished writes are removed one after the other; the shelf stays as it is. -/
theorem exec_sweepFiles (h : s.Represents base state.files m) (stale : List (String × String))
    (hstale : ∀ e ∈ stale, IsStep e.1 ∧ isTempName e.2 = true ∧
      (state.files.get? (base ++ [e.1, e.2])).isSome = true) (honce : stale.Nodup) :
    ∃ state', exec (s.sweepFiles stale) state = (.ok (), state') ∧
      Swept base stale state state' ∧ s.Represents base state'.files m ∧ Ages base state state' := by
  induction stale generalizing state with
  | nil => exact ⟨state, rfl, ⟨rfl, rfl⟩, h, .refl base state⟩
  | cons e stale ih =>
    obtain ⟨type, name⟩ := e
    obtain ⟨htype, htemp, hthere⟩ := hstale (type, name) List.mem_cons_self
    rw [List.nodup_cons] at honce
    have hbelow : (state.files.get? ((base ++ [type]) ++ [name])).isSome = true := by
      simpa using hthere
    have hname : IsStep name := h.sound.isStep_last hbelow
    obtain ⟨between, hfirst, hfiles, hminted⟩ := h.exec_sweepFile htype hname hthere
    have hdrop := h.toRooted.dropFile (h.ne_directory type name)
    rw [← hfiles] at hdrop
    have hrest : ∀ e ∈ stale, IsStep e.1 ∧ isTempName e.2 = true ∧
        (between.files.get? (base ++ [e.1, e.2])).isSome = true := by
      intro e he
      obtain ⟨hstep, hstill, hheld⟩ := hstale e (List.mem_cons_of_mem _ he)
      refine ⟨hstep, hstill, ?_⟩
      rwa [hdrop.others]
      rintro ⟨rfl, rfl⟩
      exact honce.1 he
    obtain ⟨state', hrun, hswept, hafter, hages⟩ :=
      ih (h.temp hdrop htemp (by simp) (by simp)) hrest honce.2
    refine ⟨state', ?_, ⟨?_, hswept.minted.trans hminted⟩, hafter,
      (Ages.of_changedAt hdrop hminted.ge (.inl rfl)).trans hages⟩
    · rw [sweepFiles_cons, exec_bind_ok hfirst]
      exact hrun
    · rw [hswept.files, hfiles]
      rfl

/-- What is removed below one directory changes nothing of what is to be removed below others. -/
theorem staleNames_swept (h : s.Represents base state.files m)
    (hafter : s.Represents base state'.files m) {stale : List (String × String)}
    (hswept : Swept base stale state state') (htype : IsStep type)
    (hother : ∀ e ∈ stale, e.1 ≠ type) :
    s.staleNames state'.files type = s.staleNames state.files type := by
  rw [h.staleNames_eq htype, hafter.staleNames_eq htype, hswept.files]
  refine congrArg (List.filter isTempName) ?_
  clear hswept h hafter
  induction stale generalizing state with
  | nil => rfl
  | cons e stale ih =>
    have hrest := @ih { state with files := state.files.drop (base ++ [e.1, e.2]) }
      fun e he => hother e (List.mem_cons_of_mem _ he)
    refine hrest.trans (FileTree.inside_drop _ ?_)
    have hne := hother e List.mem_cons_self
    rw [dropLast_file]
    simpa using hne

theorem of_mem_staleIn (h : s.Represents base files m) {types : List String}
    (htypes : ∀ type ∈ types, IsStep type) {e : String × String} (he : e ∈ s.staleIn files types) :
    IsStep e.1 ∧ isTempName e.2 = true ∧ (files.get? (base ++ [e.1, e.2])).isSome = true := by
  obtain ⟨htype, hname⟩ := mem_staleIn.mp he
  exact ⟨htypes e.1 htype, (h.mem_staleNames (htypes e.1 htype)).mp hname⟩

theorem nodup_staleIn (h : s.Represents base files m) {types : List String}
    (htypes : ∀ type ∈ types, IsStep type) (honce : types.Nodup) :
    (s.staleIn files types).Nodup := by
  refine List.nodup_flatMap.mpr ⟨fun type htype => ?_, honce.imp fun hne => ?_⟩
  · rw [h.staleNames_eq (htypes type htype)]
    exact ((h.sound.nodup_inside _).filter _).map fun _ _ heq => (Prod.mk.inj heq).2
  · intro e he he'
    obtain ⟨_, -, rfl⟩ := List.mem_map.mp he
    obtain ⟨_, -, heq⟩ := List.mem_map.mp he'
    exact hne (Prod.mk.inj heq).1.symm

end Represents

/-- A sweep of one directory removes the unfinished writes there, if it is one. -/
theorem exec_sweep_type (s : Store) (type : String) (total : Nat) (state : State) :
    exec (do
      if (← get).files.isDirectory (s.root.join type) then
        return total + (← sweepDirectory (s.root.join type))
      else return total : StoreM Nat) state =
    exec (do
      s.sweepFiles (s.staleIn state.files [type])
      return total + (s.staleIn state.files [type]).length) state := by
  rw [exec_bind_ok (exec_get state)]
  by_cases hdir : state.files.isDirectory (s.root.join type) = true
  · obtain ⟨names, hlist⟩ : ∃ names, state.files.list (s.root.join type) = .ok names := by
      unfold FileTree.isDirectory FileTree.entry? at hdir
      cases hplace : state.files.locate (s.root.join type) with
      | error cause =>
        rw [hplace] at hdir
        cases hdir
      | ok place =>
        rw [hplace] at hdir
        exact ⟨_, FileTree.list_eq_inside hplace (by simpa using hdir)⟩
    have hstale : s.staleIn state.files [type] =
        (names.filter isTempName).map fun name => (type, name) := by
      unfold staleIn staleNames typeDir
      rw [List.flatMap_singleton, if_pos hdir, hlist]
    have hnames : exec (namesIn (s.root.join type)) state = (.ok names, state) := by
      unfold namesIn
      rw [exec_bind_ok (exec_get state), hlist]
      rfl
    rw [if_pos hdir, hstale, List.length_map]
    unfold sweepDirectory sweepFiles
    rw [bind_assoc, exec_bind_ok hnames, List.forIn_map]
    simp only [bind_assoc, pure_bind]
    rfl
  · have hstale : s.staleIn state.files [type] = [] := by
      unfold staleIn staleNames typeDir
      rw [List.flatMap_singleton, if_neg hdir]
      rfl
    rw [if_neg hdir, hstale]
    rfl

namespace Represents

/-- Directories of types are swept one after the other, as their unfinished writes stand. -/
theorem exec_sweep_types (h : s.Represents base state.files m) (types : List String)
    (htypes : ∀ type ∈ types, IsStep type) (honce : types.Nodup) (total : Nat) :
    exec (types.foldlM (fun total type => do
        if (← get).files.isDirectory (s.root.join type) then
          return total + (← sweepDirectory (s.root.join type))
        else return total) total) state =
      exec (do
        s.sweepFiles (s.staleIn state.files types)
        return total + (s.staleIn state.files types).length) state := by
  induction types generalizing state total with
  | nil => rfl
  | cons type types ih =>
    rw [List.nodup_cons] at honce
    have htype := htypes type List.mem_cons_self
    have hone : ∀ other ∈ [type], IsStep other := by simpa using htype
    obtain ⟨between, hfirst, hswept, hbetween, -⟩ := h.exec_sweepFiles _
      (fun e => h.of_mem_staleIn hone) (h.nodup_staleIn hone (List.nodup_singleton type))
    have hsame : ∀ other ∈ types,
        s.staleNames between.files other = s.staleNames state.files other := by
      intro other hother
      refine h.staleNames_swept hbetween hswept (htypes other (List.mem_cons_of_mem _ hother)) ?_
      rintro e he rfl
      exact honce.1 (List.mem_singleton.mp (mem_staleIn.mp he).1 ▸ hother)
    have hrest : s.staleIn between.files types = s.staleIn state.files types :=
      List.flatMap_congr fun other hother => by rw [hsame other hother]
    have hall : s.staleIn state.files (type :: types) =
        s.staleIn state.files [type] ++ s.staleIn state.files types := by
      simp [staleIn]
    rw [List.foldlM_cons, exec_bind, exec_sweep_type, exec_bind_ok hfirst, exec_pure, hall,
      sweepFiles_append, bind_assoc, exec_bind_ok hfirst, List.length_append, ← Nat.add_assoc,
      ← hrest]
    exact ih hbetween (fun other hother => htypes other (List.mem_cons_of_mem _ hother)) honce.2 _

theorem list_root (h : s.Represents base files m) : files.list s.root = .ok (files.inside base) :=
  FileTree.list_eq_inside h.leads h.directory

theorem staleFiles_eq (h : s.Represents base files m) :
    s.staleFiles files = s.staleIn files (files.inside base) := by
  unfold staleFiles
  rw [h.list_root]

theorem isStep_of_inside (h : s.Represents base files m) : ∀ type ∈ files.inside base, IsStep type :=
  fun _ htype => h.sound.isStep_last (FileTree.mem_inside.mp htype)

/-- The unfinished writes that a sweep removes are all that stand below the directories of types. -/
theorem mem_staleFiles (h : s.Represents base files m) :
    (type, name) ∈ s.staleFiles files ↔
      isTempName name = true ∧ (files.get? (base ++ [type, name])).isSome = true := by
  rw [h.staleFiles_eq, mem_staleIn, FileTree.mem_inside]
  constructor
  · rintro ⟨htype, hname⟩
    exact (h.mem_staleNames (h.sound.isStep_last htype)).mp hname
  · rintro ⟨htemp, hthere⟩
    have hdir := h.directory_of_isSome hthere
    refine ⟨by rw [hdir]; rfl, (h.mem_staleNames ?_).mpr ⟨htemp, hthere⟩⟩
    exact h.sound.isStep_last (by rw [hdir]; rfl : (files.get? (base ++ [type])).isSome = true)

/-- A sweep that is cut off has removed the first unfinished writes. -/
theorem exec_sweepPart (h : s.Represents base state.files m) (count : Nat) :
    ∃ state', exec (s.sweepPart count) state = (.ok (), state') ∧
      Swept base ((s.staleFiles state.files).take count) state state' ∧
      s.Represents base state'.files m ∧ Ages base state state' := by
  unfold sweepPart
  rw [exec_bind_ok (exec_get state), h.staleFiles_eq]
  refine h.exec_sweepFiles _ (fun e he => ?_) ?_
  · exact h.of_mem_staleIn h.isStep_of_inside (List.mem_of_mem_take he)
  · exact (h.nodup_staleIn h.isStep_of_inside (h.sound.nodup_inside base)).sublist
      (List.take_sublist _ _)

/-- A sweep removes all unfinished writes and counts them. -/
theorem exec_sweep (h : s.Represents base state.files m) :
    exec s.sweep state = (.ok (s.staleFiles state.files).length,
      (exec (s.sweepPart (s.staleFiles state.files).length) state).2) := by
  obtain ⟨state', hpart, -⟩ := h.exec_sweepPart (s.staleFiles state.files).length
  rw [hpart]
  unfold sweepPart at hpart
  rw [exec_bind_ok (exec_get state), List.take_length] at hpart
  unfold sweep
  rw [exec_bind_ok (exec_get state)]
  dsimp only
  rw [h.list_root]
  refine (h.exec_sweep_types _ h.isStep_of_inside (h.sound.nodup_inside base) 0).trans ?_
  rw [← h.staleFiles_eq, exec_bind_ok hpart, Nat.zero_add]
  rfl

/-- After a sweep there is no unfinished write, and the shelf is as it was. -/
theorem exec_sweep_spec (h : s.Represents base state.files m) :
    ∃ state', exec s.sweep state = (.ok (s.staleFiles state.files).length, state') ∧
      s.Represents base state'.files m ∧ Ages base state state' ∧
      ∀ type name, isTempName name = true → state'.files.get? (base ++ [type, name]) = none := by
  obtain ⟨state', hpart, hswept, hafter, hages⟩ :=
    h.exec_sweepPart (s.staleFiles state.files).length
  refine ⟨state', by rw [h.exec_sweep, hpart], hafter, hages, fun type name htemp => ?_⟩
  rw [hswept.files, FileTree.get?_dropAll _ _ (by simp), List.take_length]
  split
  · rfl
  · rename_i hkept
    rw [← Option.not_isSome_iff_eq_none]
    intro hthere
    exact hkept (List.mem_map.mpr ⟨(type, name), h.mem_staleFiles.mpr ⟨htemp, hthere⟩, rfl⟩)

end Represents

end Store

end DocumentEngine
