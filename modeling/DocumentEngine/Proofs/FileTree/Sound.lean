import DocumentEngine.Proofs.FileTree
import Mathlib.Data.List.Nodup

/-!
Trees as the operations leave them: every place is a way of plain names, has one entry, and lies in
a directory. A path leads to such a place only, so that every operation keeps the tree so; and a
directory lists what stands one step below it, each name once.
-/

namespace DocumentEngine

namespace Path

theorem isName_of_mem_steps {p : Path} {step : String} (h : step ∈ p.steps) : IsName step := by
  obtain ⟨hmem, hne⟩ := List.mem_filter.mp h
  exact ⟨by simpa using hne, Text.notMem_of_mem_splitAt hmem⟩

/-- A name that leads one step down. -/
def IsStep (name : String) : Prop := IsName name ∧ name ≠ "." ∧ name ≠ ".."

instance (name : String) : Decidable (IsName name) := inferInstanceAs (Decidable (_ ∧ _))

instance (name : String) : Decidable (IsStep name) := inferInstanceAs (Decidable (_ ∧ _))

theorem fileName_join (p : Path) {name : String} (h : IsStep name) : (p.join name).fileName = name := by
  unfold fileName names
  rw [steps_join p h.1, List.filter_append, List.filter_cons_of_pos (by simpa using h.2.1)]
  simp

end Path

namespace FileTree

open Path (IsStep)

variable {t t' : FileTree} {place : List String} {p : Path}

/-- Every place of a tree is a way of plain names below the root, has one entry, and lies in a
directory. -/
structure Sound (t : FileTree) : Prop where
  steps : ∀ e ∈ t.entries, e.1 ≠ [] ∧ ∀ step ∈ e.1, IsStep step
  once : (t.entries.map Prod.fst).Nodup
  parents : ∀ place, (t.get? place).isSome = true → t.get? place.dropLast = some .directory

theorem walk_isStep {start : List String} (steps : List String)
    (hsteps : ∀ step ∈ steps, Path.IsName step) (hstart : ∀ step ∈ start, IsStep step)
    (h : t.walk start steps = .ok place) : ∀ step ∈ place, IsStep step := by
  induction steps generalizing start with
  | nil =>
    cases h
    exact hstart
  | cons step steps ih =>
    have hrest := fun other hother => hsteps other (List.mem_cons_of_mem step hother)
    unfold walk at h
    split at h
    · cases h
    · cases h
    · split at h
      · exact ih hrest hstart h
      · rename_i hdot
        split at h
        · exact ih hrest (fun other hother => hstart other ((List.dropLast_prefix start).subset hother)) h
        · rename_i hup
          split at h
          · cases h
          · refine ih hrest (fun other hother => ?_) h
            rcases List.mem_append.mp hother with hother | hother
            · exact hstart other hother
            · rw [List.mem_singleton.mp hother]
              exact ⟨hsteps step List.mem_cons_self, hdot, hup⟩

/-- A path leads to a way of plain names. -/
theorem isStep_of_locate (h : t.locate p = .ok place) : ∀ step ∈ place, IsStep step := by
  have hreach := reach_of_locate h
  unfold reach at hreach
  split at hreach
  · rename_i hholds
    cases hreach
    simp only [holds, Bool.and_eq_true, List.all_eq_true, decide_eq_true_eq] at hholds
    exact fun step hstep => ⟨Path.isName_of_mem_steps hstep, (hholds.2 step hstep).1.1,
      (hholds.2 step hstep).1.2⟩
  · exact walk_isStep p.steps (fun _ hstep => Path.isName_of_mem_steps hstep) (by simp) hreach

/-- Along plain steps a path leads where the steps say. -/
theorem eq_steps_of_locate (hplain : ∀ step ∈ p.steps, step ≠ "." ∧ step ≠ "..")
    (h : t.locate p = .ok place) : place = p.steps := by
  have hreach := reach_of_locate h
  unfold reach at hreach
  split at hreach
  · exact (Except.ok.inj hreach).symm
  · exact walk_plain p.steps hplain hreach

theorem isSome_lookup_iff (t : FileTree) (place : List String) :
    (t.entries.lookup place).isSome = true ↔ place ∈ t.entries.map Prod.fst := by
  induction t.entries with
  | nil => simp
  | cons e entries ih =>
    obtain ⟨q, held⟩ := e
    rw [lookup_cons, List.map_cons, List.mem_cons]
    by_cases hq : place = q
    · simp [hq]
    · simp [hq, ih]

/-- A tree is sound where each of its entries stands in a directory, under a step, and once. -/
theorem sound_of_entries (hentries : ∀ e ∈ t.entries, e.1 ≠ [] ∧ (∀ step ∈ e.1, IsStep step) ∧
    t.get? e.1.dropLast = some .directory) (honce : (t.entries.map Prod.fst).Nodup) : t.Sound where
  steps e he := ⟨(hentries e he).1, (hentries e he).2.1⟩
  once := honce
  parents place hplace := by
    by_cases hnil : place = []
    · rw [hnil]
      rfl
    · rw [get?_of_ne_nil t hnil, isSome_lookup_iff] at hplace
      obtain ⟨e, he, rfl⟩ := List.mem_map.mp hplace
      exact (hentries e he).2.2

theorem dropLast_ne (h : place ≠ []) : place.dropLast ≠ place := by
  intro heq
  have hlength := congrArg List.length heq
  rw [List.length_dropLast] at hlength
  have hpos := List.length_pos_iff.mpr h
  omega

namespace Sound

/-- An entry may be put into a directory, if it does not take the place of one. -/
theorem put (h : t.Sound) (hne : place ≠ []) (hplace : ∀ step ∈ place, IsStep step)
    (hparent : t.get? place.dropLast = some .directory) (hheld : t.get? place ≠ some .directory)
    (entry : Entry) : (t.put place entry).Sound := by
  have hparents : ∀ other, ((t.put place entry).get? other).isSome = true →
      (t.put place entry).get? other.dropLast = some .directory := by
    intro other hother
    by_cases heq : other = place
    · rw [heq, get?_put_of_ne _ (dropLast_ne hne), hparent]
    · rw [get?_put_of_ne _ heq] at hother
      have habove := h.parents other hother
      rwa [get?_put_of_ne]
      rintro rfl
      exact hheld habove
  by_cases hthere : (t.entries.lookup place).isSome = true
  · have hkeys : (t.entries.map fun e => if e.1 = place then (place, entry) else e).map Prod.fst =
        t.entries.map Prod.fst := by
      rw [List.map_map]
      refine List.map_congr_left fun e _ => ?_
      dsimp only [Function.comp]
      split
      · exact (‹e.1 = place›).symm
      · rfl
    unfold FileTree.put at hparents ⊢
    rw [if_pos hthere] at hparents ⊢
    refine ⟨fun e he => ?_, hkeys ▸ h.once, hparents⟩
    obtain ⟨held, hheld, hsame⟩ := List.mem_map.mp (hkeys ▸ List.mem_map_of_mem (f := Prod.fst) he)
    rw [← hsame]
    exact h.steps held hheld
  · unfold FileTree.put at hparents ⊢
    rw [if_neg hthere] at hparents ⊢
    refine ⟨fun e he => ?_, ?_, hparents⟩
    · rcases List.mem_append.mp he with he | he
      · exact h.steps e he
      · rw [List.mem_singleton.mp he]
        exact ⟨hne, hplace⟩
    · rw [List.map_append, List.nodup_append]
      refine ⟨h.once, List.pairwise_singleton _ _, fun q hq other hother heq => hthere ?_⟩
      obtain rfl : other = place := List.mem_singleton.mp hother
      rw [isSome_lookup_iff, ← heq]
      exact hq

/-- What is no directory may be taken out. -/
theorem drop (h : t.Sound) (hfile : t.get? place ≠ some .directory) : (t.drop place).Sound := by
  have hne := ne_nil_of_get?_ne_directory hfile
  refine ⟨fun e he => h.steps e (List.mem_of_mem_filter he),
    h.once.sublist (List.filter_sublist.map Prod.fst), fun other hother => ?_⟩
  by_cases heq : other = place
  · rw [heq, get?_drop_self _ hne] at hother
    cases hother
  · rw [get?_drop_of_ne _ heq] at hother
    have habove := h.parents other hother
    rwa [get?_drop_of_ne]
    rintro rfl
    exact hfile habove

theorem put_free (h : t.Sound) (hplace : t.locate p = .ok place) (hfree : t.get? place = none)
    (hparent : t.get? place.dropLast = some .directory) (entry : Entry) :
    (t.put place entry).Sound :=
  h.put (ne_nil_of_get?_eq_none hfree) (isStep_of_locate hplace) hparent (by simp [hfree]) entry

theorem makeDirectory (h : t.Sound) (hmade : t.makeDirectory p = .ok t') : t'.Sound := by
  obtain ⟨place, hplace, hfree, hparent, rfl⟩ := makeDirectory_eq_ok hmade
  exact h.put_free hplace hfree hparent _

theorem ensureDirectory (h : t.Sound) (hmade : t.ensureDirectory p = .ok t') : t'.Sound := by
  rcases ensureDirectory_eq_ok hmade with hmade | ⟨-, rfl⟩
  · exact h.makeDirectory hmade
  · exact h

theorem makeDirectories (h : t.Sound) (p : Path) (depth : Nat) :
    (t.makeDirectories p depth).2.Sound := by
  induction depth generalizing t p with
  | zero => exact h
  | succ depth ih =>
    unfold FileTree.makeDirectories
    split
    · rename_i hmade
      exact h.ensureDirectory hmade
    · have habove := ih h p.parent
      split
      · rename_i hmade
        rwa [hmade] at habove
      · rename_i hmade
        rw [hmade] at habove
        split
        · rename_i hensured
          exact habove.ensureDirectory hensured
        · exact habove
    · exact h

theorem createFile (h : t.Sound) {text : String} (hcreate : t.createFile p text = .ok t') :
    t'.Sound := by
  obtain ⟨place, hplace, hfree, hparent, rfl⟩ := createFile_eq_ok hcreate
  exact h.put_free hplace hfree hparent _

/-- A file that is written beside another and moved in its place leaves a sound tree. -/
theorem staged (h : t.Sound) {beside : List String} {text : String}
    (hheld : t.get? beside = some (.file (some text))) (htarget : t.locate p = .ok place)
    (hfile : t.get? place ≠ some .directory)
    (hparent : t.get? place.dropLast = some .directory) :
    (((t.drop beside).drop place).put place (.file (some text))).Sound := by
  have htop := ne_nil_of_get?_ne_directory hfile
  have hbeside : ∀ other, t.get? other = some .directory →
      (t.drop beside).get? other = some .directory := by
    intro other hother
    rwa [get?_drop_of_ne]
    rintro rfl
    rw [hheld] at hother
    cases hother
  have hstill : (t.drop beside).get? place ≠ some .directory := by
    by_cases heq : place = beside
    · rw [heq, get?_drop_self _ (heq ▸ htop)]
      simp
    · rwa [get?_drop_of_ne _ heq]
  have hdropped := (h.drop (by simp [hheld] : t.get? beside ≠ some .directory)).drop hstill
  refine hdropped.put htop (isStep_of_locate htarget) ?_ ?_ _
  · rw [get?_drop_of_ne _ (dropLast_ne htop)]
    exact hbeside _ hparent
  · rw [get?_drop_self _ htop]
    simp

theorem removeFile (h : t.Sound) (hremove : t.removeFile p = .ok t') : t'.Sound := by
  obtain ⟨place, text, -, hheld, rfl⟩ := removeFile_eq_ok hremove
  exact h.drop (by simp [hheld])

end Sound

/-- What lies one step below a place is listed under the last name of the step. -/
theorem mem_inside_iff {entries : List (List String × Entry)} {place : List String}
    {name : String} :
    name ∈ (entries.filterMap fun (q, _) =>
        if q.length = place.length + 1 && place.isPrefixOf q then q.getLast? else none) ↔
      place ++ [name] ∈ entries.map Prod.fst := by
  rw [List.mem_filterMap, List.mem_map]
  refine exists_congr fun e => and_congr_right fun _ => ?_
  obtain ⟨q, held⟩ := e
  dsimp only
  constructor
  · intro h
    split at h
    · rename_i hbelow
      simp only [Bool.and_eq_true, decide_eq_true_eq, List.isPrefixOf_iff_prefix] at hbelow
      obtain ⟨hlength, rest, rfl⟩ := hbelow
      rw [List.length_append, Nat.add_left_cancel_iff, List.length_eq_one_iff] at hlength
      obtain ⟨last, rfl⟩ := hlength
      rw [List.getLast?_append, List.getLast?_singleton, Option.some_or] at h
      rw [Option.some.inj h]
    · cases h
  · rintro rfl
    simp

/-- The names one step below a place, the newest first. -/
def inside (t : FileTree) (place : List String) : List String :=
  (t.entries.filterMap fun (q, _) =>
    if q.length = place.length + 1 && place.isPrefixOf q then q.getLast? else none).reverse

theorem mem_inside {name : String} :
    name ∈ t.inside place ↔ (t.get? (place ++ [name])).isSome = true := by
  unfold inside
  rw [List.mem_reverse, mem_inside_iff, get?_of_ne_nil t (by simp), isSome_lookup_iff]

theorem list_eq_ok (hplace : t.locate p = .ok place) {names : List String}
    (h : t.list p = .ok names) : t.get? place = some .directory ∧ names = t.inside place := by
  unfold list at h
  rw [hplace] at h
  dsimp only [bind, Except.bind] at h
  split at h
  · cases h
  · cases h
  · rename_i hdir
    cases h
    exact ⟨hdir, rfl⟩

theorem list_eq_inside (hplace : t.locate p = .ok place) (hdir : t.get? place = some .directory) :
    t.list p = .ok (t.inside place) := by
  unfold list
  rw [hplace]
  dsimp only [bind, Except.bind]
  rw [hdir]
  rfl

/-- A directory lists what stands one step below it. -/
theorem mem_list_iff (hplace : t.locate p = .ok place) {names : List String}
    (h : t.list p = .ok names) (name : String) :
    name ∈ names ↔ (t.get? (place ++ [name])).isSome = true := by
  obtain ⟨-, rfl⟩ := list_eq_ok hplace h
  exact mem_inside

/-- What stands below a place of a sound tree stands there under a step. -/
theorem Sound.isStep_last (hsound : t.Sound) {name : String}
    (hthere : (t.get? (place ++ [name])).isSome = true) : IsStep name := by
  rw [get?_of_ne_nil _ (by simp), isSome_lookup_iff] at hthere
  obtain ⟨e, he, hentry⟩ := List.mem_map.mp hthere
  exact (hsound.steps e he).2 name (by rw [hentry]; simp)

/-- A sound tree lists steps. -/
theorem Sound.isStep_of_mem_list (hsound : t.Sound) (hplace : t.locate p = .ok place)
    {names : List String} (h : t.list p = .ok names) {name : String} (hname : name ∈ names) :
    IsStep name :=
  hsound.isStep_last ((mem_list_iff hplace h name).mp hname)

/-- In a sound tree each name stands once below a place. -/
theorem Sound.nodup_inside (hsound : t.Sound) (place : List String) : (t.inside place).Nodup := by
  unfold inside
  rw [List.nodup_reverse]
  have honce := hsound.once
  clear hsound
  generalize t.entries = entries at honce ⊢
  induction entries with
  | nil => exact List.nodup_nil
  | cons e entries ih =>
    rw [List.map_cons, List.nodup_cons] at honce
    rw [List.filterMap_cons]
    split
    · exact ih honce.2
    · rename_i name hname
      refine List.nodup_cons.mpr ⟨fun hmem => honce.1 ?_, ih honce.2⟩
      have hfirst : name ∈ [e].filterMap fun (q, _) =>
          if q.length = place.length + 1 && place.isPrefixOf q then q.getLast? else none := by
        rw [List.filterMap_cons, hname]
        exact List.mem_cons_self
      rw [mem_inside_iff, List.map_singleton, List.mem_singleton] at hfirst
      rw [← hfirst]
      exact mem_inside_iff.mp hmem

/-- A sound tree lists each name once. -/
theorem Sound.nodup_list (hsound : t.Sound) (hplace : t.locate p = .ok place) {names : List String}
    (h : t.list p = .ok names) : names.Nodup := by
  obtain ⟨-, rfl⟩ := list_eq_ok hplace h
  exact hsound.nodup_inside place

theorem getLast?_walk {start init : List String} {name : String} (hdot : name ≠ ".")
    (hup : name ≠ "..") (h : t.walk start (init ++ [name]) = .ok place) :
    place.getLast? = some name := by
  induction init generalizing start with
  | nil =>
    have hend := walk_plain [name] (by simp [hdot, hup]) h
    rw [hend]
    simp
  | cons step init ih =>
    rw [List.cons_append, walk] at h
    split at h
    · cases h
    · cases h
    · split at h
      · exact ih h
      · split at h
        · exact ih h
        · split at h
          · cases h
          · exact ih h

/-- A path that ends in a step leads to a place that ends in it. -/
theorem getLast?_of_locate {init : List String} {name : String} (hsteps : p.steps = init ++ [name])
    (hname : IsStep name) (h : t.locate p = .ok place) : place.getLast? = some name := by
  have hreach := reach_of_locate h
  unfold reach at hreach
  rw [hsteps] at hreach
  split at hreach
  · cases hreach
    simp
  · exact getLast?_walk hname.2.1 hname.2.2 hreach

/-- A file that is written beside another and moved into its place is the only file that may be
new, and the tree stays sound. -/
theorem moved_of_rename {t₁ t₂ t₃ : FileTree} {temp final : Path} {text : String}
    (hcreate : t₁.createFile temp text = .ok t₂) (hrename : t₂.rename temp final = .ok t₃) :
    ∃ target, t₂.locate final = .ok target ∧ (t₂.Sound → t₃.Sound) ∧
      ∀ place held, t₃.get? place = some (.file held) →
        t₂.get? place = some (.file held) ∨ place = target ∧ held = some text := by
  obtain ⟨beside, target, -, hfree, hfilled, htarget, hfile, hparent, rfl⟩ :=
    staged_of_rename hcreate hrename
  have htop := ne_nil_of_get?_eq_none hfree
  have hheld : t₂.get? beside = some (.file (some text)) := by
    rw [hfilled, get?_put_self _ htop]
  refine ⟨target, htarget, fun hsound => hsound.staged hheld htarget hfile hparent,
    fun place held hplace => ?_⟩
  by_cases heq : place = target
  · rw [heq, get?_put_self _ (ne_nil_of_get?_ne_directory hfile)] at hplace
    cases hplace
    exact .inr ⟨heq, rfl⟩
  · rw [get?_put_of_ne _ heq, get?_drop_of_ne _ heq] at hplace
    by_cases hdropped : place = beside
    · rw [hdropped, get?_drop_self _ htop] at hplace
      cases hplace
    · rw [get?_drop_of_ne _ hdropped] at hplace
      exact .inl hplace

/-- A path that the system takes: neither it nor a name on it is too long, and no character of it is
refused. -/
structure Fits (p : Path) : Prop where
  text : '\x00' ∉ p.text.toList
  size : p.text.utf8ByteSize ≤ maxPath
  names : ∀ step ∈ p.steps, step.utf8ByteSize ≤ maxName

/-- No name on a way that leads somewhere is too long. -/
theorem short_of_walk {start : List String} (steps : List String)
    (h : t.walk start steps = .ok place) : ∀ step ∈ steps, step.utf8ByteSize ≤ maxName := by
  induction steps generalizing start with
  | nil => simp
  | cons step steps ih =>
    have hfirst : step.utf8ByteSize ≤ maxName ∧
        ∃ next, t.walk next steps = .ok place := by
      unfold walk at h
      split at h
      · cases h
      · cases h
      · split at h
        · rename_i hdot
          exact ⟨by rw [hdot]; decide, _, h⟩
        · split at h
          · rename_i hup
            exact ⟨by rw [hup]; decide, _, h⟩
          · split at h
            · cases h
            · rename_i hshort
              exact ⟨Nat.le_of_not_lt hshort, _, h⟩
    obtain ⟨hshort, next, hrest⟩ := hfirst
    intro other hother
    rcases List.mem_cons.mp hother with rfl | hother
    · exact hshort
    · exact ih hrest other hother

theorem fits_of_locate (h : t.locate p = .ok place) : Fits p := by
  obtain ⟨hbad, hlong⟩ := takes_of_locate h
  have hreach := reach_of_locate h
  refine ⟨hbad, hlong, ?_⟩
  unfold reach at hreach
  split at hreach
  · rename_i hholds
    simp only [holds, Bool.and_eq_true, List.all_eq_true, decide_eq_true_eq] at hholds
    exact fun step hstep => (hholds.2 step hstep).2
  · exact short_of_walk p.steps hreach

/-- In a sound tree a path along plain steps leads to what stands where they say. -/
theorem Sound.locate_eq (h : t.Sound) (hplain : ∀ step ∈ p.steps, step ≠ "." ∧ step ≠ "..")
    (hfits : Fits p) (hthere : (t.get? p.steps).isSome = true)
    (hend : p.endsInSlash = true → t.get? p.steps = some .directory) :
    t.locate p = .ok p.steps := by
  have hholds : t.holds p.steps = true := by
    simp only [holds, Bool.and_eq_true, List.all_eq_true, decide_eq_true_eq]
    exact ⟨h.parents _ hthere, fun step hstep =>
      ⟨hplain step hstep, hfits.names step hstep⟩⟩
  unfold locate
  rw [if_neg (by simpa using hfits.text), if_neg (Nat.not_lt_of_le hfits.size), if_pos hholds]
  dsimp only [pure, Except.pure, bind, Except.bind]
  split
  · rename_i held hheld
    rw [if_neg]
    intro hslash
    rw [hend hslash] at hheld
    cases hheld
  · rfl

/-- The directory of a path that the system takes is taken too. -/
theorem Fits.of_join {name : String} (hname : Path.IsName name) (h : Fits (p.join name)) : Fits p := by
  obtain ⟨between, htext⟩ := p.exists_text_join hname
  refine ⟨fun hmem => h.text ?_, ?_, fun step hstep => h.names step ?_⟩
  · rw [htext, String.toList_append, String.toList_append]
    exact List.mem_append_left _ (List.mem_append_left _ hmem)
  · have hsize := h.size
    rw [htext, String.utf8ByteSize_append, String.utf8ByteSize_append] at hsize
    omega
  · rw [Path.steps_join p hname]
    exact List.mem_append_left _ hstep

theorem endsInSlash_join {name : String} (hname : Path.IsName name) :
    (p.join name).endsInSlash = false := by
  obtain ⟨between, htext⟩ := p.exists_text_join hname
  unfold Path.endsInSlash
  rw [htext, String.toList_append, decide_eq_false_iff_not]
  intro hlast
  have hne : name.toList ≠ [] := fun hnil => hname.1 (String.toList_eq_nil_iff.mp hnil)
  rw [List.getLast?_append_of_ne_nil _ hne] at hlast
  exact hname.2 (List.mem_of_getLast? hlast)

end FileTree

end DocumentEngine
