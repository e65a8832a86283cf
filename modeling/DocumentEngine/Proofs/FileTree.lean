import DocumentEngine.FileTree.Basic
import DocumentEngine.Proofs.State
import DocumentEngine.Proofs.Text
import Mathlib.Tactic.Common

/-!
What the operations on a tree give and what they leave alone. Each is described once, by what is so
where it succeeds and by when it does. A way through a tree stays the same while no directory is
gone. Making directories keeps every file as it was; a file that is written beside another and then
moved into its place changes no file but that one. Below a path, a plain name is one step more.
-/

namespace DocumentEngine.FileTree

variable {t t' : FileTree} {place other : List String}

@[simp]
theorem get?_nil (t : FileTree) : t.get? [] = some .directory := rfl

theorem eq_of_entries {a b : FileTree} (h : a.entries = b.entries) : a = b := by
  cases a
  cases b
  cases h
  rfl

theorem get?_of_ne_nil (t : FileTree) (h : place ≠ []) : t.get? place = t.entries.lookup place := by
  cases place with
  | nil => exact absurd rfl h
  | cons => rfl

theorem ne_nil_of_get?_eq_none (h : t.get? place = none) : place ≠ [] := by
  rintro rfl
  cases h

theorem ne_nil_of_get?_ne_directory (h : t.get? place ≠ some .directory) : place ≠ [] := by
  rintro rfl
  exact h rfl

theorem lookup_cons (place other : List String) (held : Entry)
    (entries : List (List String × Entry)) :
    ((place, held) :: entries).lookup other =
      if other = place then some held else entries.lookup other := by
  rw [List.lookup_cons]
  by_cases h : other = place
  · rw [if_pos h, beq_iff_eq.mpr h]
  · rw [if_neg h, beq_eq_false_iff_ne.mpr h]

/-- There is no file where all entries are directories. -/
theorem get?_ne_file_of_entries (h : ∀ e ∈ t.entries, e.2 = .directory) (place : List String)
    (text : Option String) : t.get? place ≠ some (.file text) := by
  intro hplace
  have hne : place ≠ [] := by
    rintro rfl
    cases hplace
  rw [get?_of_ne_nil t hne] at hplace
  obtain ⟨before, after, hentries, -⟩ := List.lookup_eq_some_iff.mp hplace
  have hfile := h (place, .file text) (by rw [hentries]; simp)
  cases hfile

theorem lookup_replace (entries : List (List String × Entry)) (place other : List String)
    (entry : Entry) :
    (entries.map fun e => if e.1 = place then (place, entry) else e).lookup other =
      if other = place then (entries.lookup place).map fun _ => entry
      else entries.lookup other := by
  induction entries with
  | nil => simp
  | cons e entries ih =>
    obtain ⟨q, held⟩ := e
    rw [List.map_cons]
    by_cases hq : q = place
    · subst hq
      rw [if_pos rfl, lookup_cons, lookup_cons, lookup_cons, ih]
      by_cases ho : other = q <;> simp [ho]
    · dsimp only
      rw [if_neg hq, lookup_cons, lookup_cons, lookup_cons, ih, if_neg (Ne.symm hq)]
      by_cases ho : other = place
      · subst ho
        rw [if_neg (Ne.symm hq), if_pos rfl, if_pos rfl]
      · rw [if_neg ho, if_neg ho]

theorem get?_put_self (t : FileTree) (h : place ≠ []) (entry : Entry) :
    (t.put place entry).get? place = some entry := by
  rw [get?_of_ne_nil _ h, put]
  split
  · rename_i hsome
    obtain ⟨held, hheld⟩ := Option.isSome_iff_exists.mp hsome
    rw [lookup_replace, if_pos rfl, hheld]
    rfl
  · rename_i hnone
    simp [List.lookup_append, Option.not_isSome_iff_eq_none.mp hnone]

theorem get?_put_of_ne (t : FileTree) (h : other ≠ place) (entry : Entry) :
    (t.put place entry).get? other = t.get? other := by
  by_cases ho : other = []
  · subst ho
    rfl
  · rw [get?_of_ne_nil _ ho, get?_of_ne_nil _ ho, put]
    split
    · rw [lookup_replace, if_neg h]
    · simp [List.lookup_append, lookup_cons, h]

theorem lookup_without (entries : List (List String × Entry)) (place other : List String) :
    (entries.filter fun e => e.1 != place).lookup other =
      if other = place then none else entries.lookup other := by
  induction entries with
  | nil => simp
  | cons e entries ih =>
    obtain ⟨q, held⟩ := e
    by_cases hq : q = place
    · subst hq
      rw [List.filter_cons_of_neg (by simp), ih, lookup_cons]
      by_cases ho : other = q <;> simp [ho]
    · rw [List.filter_cons_of_pos (by simpa using hq), lookup_cons, lookup_cons, ih]
      by_cases ho : other = place
      · subst ho
        rw [if_neg (Ne.symm hq), if_pos rfl, if_pos rfl]
      · rw [if_neg ho, if_neg ho]

theorem get?_drop_self (t : FileTree) (h : place ≠ []) : (t.drop place).get? place = none := by
  rw [get?_of_ne_nil _ h, drop, lookup_without, if_pos rfl]

theorem get?_drop_of_ne (t : FileTree) (h : other ≠ place) :
    (t.drop place).get? other = t.get? other := by
  by_cases ho : other = []
  · subst ho
    rfl
  · rw [get?_of_ne_nil _ ho, get?_of_ne_nil _ ho, drop, lookup_without, if_neg h]

/-- A tree that has grown by directories: all that was there is, and no file is new. -/
structure Grown (before after : FileTree) : Prop where
  keeps : ∀ place entry, before.get? place = some entry → after.get? place = some entry
  files : ∀ place text, after.get? place = some (.file text) → before.get? place = some (.file text)

/-- The files of two trees are the same but for the one at a place. -/
def SameBut (before after : FileTree) (place : List String) : Prop :=
  ∀ other ≠ place, ∀ text,
    after.get? other = some (.file text) ↔ before.get? other = some (.file text)

theorem Grown.refl (t : FileTree) : Grown t t := ⟨fun _ _ h => h, fun _ _ h => h⟩

theorem Grown.trans {t'' : FileTree} (h : Grown t t') (h' : Grown t' t'') : Grown t t'' :=
  ⟨fun place entry hp => h'.keeps place entry (h.keeps place entry hp),
    fun place text hp => h.files place text (h'.files place text hp)⟩

theorem keeps_put (t : FileTree) (h : t.get? place = none) (entry : Entry) (other : List String)
    (held : Entry) (ho : t.get? other = some held) :
    (t.put place entry).get? other = some held := by
  have hne : other ≠ place := by
    rintro rfl
    rw [h] at ho
    cases ho
  rw [get?_put_of_ne t hne, ho]

theorem Grown.of_put (t : FileTree) (h : t.get? place = none) :
    Grown t (t.put place .directory) := by
  refine ⟨keeps_put t h .directory, fun other text ho => ?_⟩
  by_cases hne : other = place
  · subst hne
    rw [get?_put_self t (ne_nil_of_get?_eq_none h)] at ho
    cases ho
  · rwa [get?_put_of_ne t hne] at ho

/-- The place that steps lead to. -/
def reach (t : FileTree) (steps : List String) : Except FileError (List String) :=
  if t.holds steps then .ok steps else t.walk [] steps

/-- A path that the system takes leads where its steps lead, unless that is a file with a slash
behind. -/
theorem locate_eq_reach {p : Path} (hbad : '\x00' ∉ p.text.toList)
    (hlong : p.text.utf8ByteSize ≤ maxPath) :
    t.locate p = t.reach p.steps >>= fun place =>
      match t.get? place with
      | some (.file _) => if p.endsInSlash = true then .error .notDirectory else .ok place
      | _ => .ok place := by
  unfold locate reach
  rw [if_neg (by simpa using hbad), if_neg (Nat.not_lt_of_le hlong)]
  by_cases hholds : t.holds p.steps = true
  · rw [if_pos hholds, if_pos hholds]
    rfl
  · rw [if_neg hholds, if_neg hholds]
    rfl

/-- A path that leads somewhere is a text that the system takes. -/
theorem takes_of_locate {p : Path} (h : t.locate p = .ok place) :
    '\x00' ∉ p.text.toList ∧ p.text.utf8ByteSize ≤ maxPath := by
  unfold locate at h
  by_cases hbad : p.text.toList.contains '\x00' = true
  · rw [if_pos hbad] at h
    cases h
  rw [if_neg hbad] at h
  by_cases hlong : maxPath < p.text.utf8ByteSize
  · rw [if_pos hlong] at h
    cases h
  exact ⟨by simpa using hbad, Nat.le_of_not_lt hlong⟩

theorem reach_of_locate {p : Path} (h : t.locate p = .ok place) : t.reach p.steps = .ok place := by
  obtain ⟨hbad, hlong⟩ := takes_of_locate h
  rw [locate_eq_reach hbad hlong] at h
  obtain ⟨found, hreach, h⟩ := Except.exists_of_bind_eq_ok h
  -- Where the way ends, only a slash after the name of a file can still be refused.
  obtain rfl : found = place := by
    split at h
    · split at h <;> cases h
      rfl
    · cases h
      rfl
  exact hreach

/-- Where a way leads on, every place on it is a directory; so it leads there still where no
directory is gone. -/
theorem walk_of_directories
    (h : ∀ other, t.get? other = some .directory → t'.get? other = some .directory)
    {start : List String} (steps : List String) (hw : t.walk start steps = .ok place) :
    t'.walk start steps = .ok place := by
  induction steps generalizing start with
  | nil => exact hw
  | cons step steps ih =>
    unfold walk at hw ⊢
    split at hw
    · cases hw
    · cases hw
    · rename_i hstart
      rw [h start hstart]
      dsimp only
      split at hw
      · rw [if_pos ‹_›]
        exact ih hw
      · rw [if_neg ‹_›]
        split at hw
        · rw [if_pos ‹_›]
          exact ih hw
        · rw [if_neg ‹_›]
          split at hw
          · cases hw
          · rw [if_neg ‹_›]
            exact ih hw

/-- A walk along plain names ends where the names say. -/
theorem walk_plain {start : List String} (steps : List String)
    (hplain : ∀ step ∈ steps, step ≠ "." ∧ step ≠ "..") (hw : t.walk start steps = .ok place) :
    place = start ++ steps := by
  induction steps generalizing start with
  | nil =>
    cases hw
    rw [List.append_nil]
  | cons step steps ih =>
    obtain ⟨hdot, hup⟩ := hplain step List.mem_cons_self
    unfold walk at hw
    split at hw
    · cases hw
    · cases hw
    · rw [if_neg hdot, if_neg hup] at hw
      split at hw
      · cases hw
      · rw [ih (fun s hs => hplain s (List.mem_cons_of_mem _ hs)) hw, List.append_assoc,
          List.singleton_append]

theorem reach_of_keeps (h : ∀ place entry, t.get? place = some entry → t'.get? place = some entry)
    {steps : List String} (hr : t.reach steps = .ok place) : t'.reach steps = .ok place := by
  unfold reach at hr ⊢
  by_cases hholds : t.holds steps = true
  · rw [if_pos hholds] at hr
    have hstill : t'.holds steps = true := by
      simp only [holds, Bool.and_eq_true, decide_eq_true_eq] at hholds ⊢
      exact ⟨h _ _ hholds.1, hholds.2⟩
    rwa [if_pos hstill]
  · rw [if_neg hholds] at hr
    split
    · -- The steps are plain names by now, so the walk has ended where they say.
      rename_i hnow
      simp only [holds, Bool.and_eq_true, List.all_eq_true, decide_eq_true_eq] at hnow
      have hplain := walk_plain steps (fun step hstep =>
        ⟨(hnow.2 step hstep).1.1, (hnow.2 step hstep).1.2⟩) hr
      rw [List.nil_append] at hplain
      rw [hplain]
    · exact walk_of_directories (fun other => h other .directory) steps hr

theorem checkParent_eq_ok (h : t.checkParent place = .ok ()) :
    t.get? place.dropLast = some .directory := by
  unfold checkParent at h
  split at h
  · cases h
  · cases h
  · assumption

theorem checkParent_of_directory (h : t.get? place.dropLast = some .directory) :
    t.checkParent place = .ok () := by
  unfold checkParent
  rw [h]

/-- Makes an entry where nothing stands yet, as directories and new files are made. -/
def make (t : FileTree) (p : Path) (entry : Entry) : Except FileError FileTree := do
  let place ← t.locate p
  if (t.get? place).isSome then throw .exists
  t.checkParent place
  return t.put place entry

theorem make_eq_ok {p : Path} {entry : Entry} (h : t.make p entry = .ok t') :
    ∃ place, t.locate p = .ok place ∧ t.get? place = none ∧
      t.get? place.dropLast = some .directory ∧ t' = t.put place entry := by
  obtain ⟨place, hplace, h⟩ := Except.exists_of_bind_eq_ok h
  by_cases hthere : (t.get? place).isSome = true
  · rw [if_pos hthere] at h
    cases h
  · rw [if_neg hthere] at h
    obtain ⟨⟨⟩, hparent, h⟩ := Except.exists_of_bind_eq_ok h
    cases h
    exact ⟨place, hplace, Option.not_isSome_iff_eq_none.mp hthere, checkParent_eq_ok hparent, rfl⟩

theorem make_of_locate {p : Path} (hplace : t.locate p = .ok place) (hfree : t.get? place = none)
    (hparent : t.get? place.dropLast = some .directory) (entry : Entry) :
    t.make p entry = .ok (t.put place entry) := by
  unfold make
  rw [hplace]
  dsimp only [bind, Except.bind]
  rw [hfree, checkParent_of_directory hparent]
  rfl

theorem makeDirectory_eq_ok {p : Path} (h : t.makeDirectory p = .ok t') :
    ∃ place, t.locate p = .ok place ∧ t.get? place = none ∧
      t.get? place.dropLast = some .directory ∧ t' = t.put place .directory :=
  make_eq_ok h

theorem ensureDirectory_eq_ok {p : Path} (h : t.ensureDirectory p = .ok t') :
    t.makeDirectory p = .ok t' ∨ t.isDirectory p = true ∧ t' = t := by
  unfold ensureDirectory at h
  cases hmade : t.makeDirectory p with
  | ok made =>
    rw [hmade] at h
    exact .inl h
  | error cause =>
    rw [hmade] at h
    dsimp only at h
    split at h
    · cases h
      exact .inr ⟨‹_›, rfl⟩
    · cases h

/-- A directory that is there is not made again. -/
theorem ensureDirectory_of_locate {p : Path} (hplace : t.locate p = .ok place)
    (hdir : t.get? place = some .directory) : t.ensureDirectory p = .ok t := by
  unfold ensureDirectory makeDirectory isDirectory entry?
  simp only [hplace, hdir, bind, Except.bind, Option.isSome_some, if_true]
  rfl

theorem makeDirectory_grown {p : Path} (h : t.makeDirectory p = .ok t') : Grown t t' := by
  obtain ⟨place, -, hfree, -, rfl⟩ := makeDirectory_eq_ok h
  exact .of_put t hfree

theorem ensureDirectory_grown {p : Path} (h : t.ensureDirectory p = .ok t') : Grown t t' := by
  rcases ensureDirectory_eq_ok h with hmade | ⟨-, rfl⟩
  · exact makeDirectory_grown hmade
  · exact .refl _

/-- Making directories, even where it fails on the way, changes no file. -/
theorem makeDirectories_grown (t : FileTree) (p : Path) (depth : Nat) :
    Grown t (t.makeDirectories p depth).2 := by
  induction depth generalizing t p with
  | zero => exact .refl t
  | succ depth ih =>
    unfold makeDirectories
    split
    · rename_i hmade
      exact ensureDirectory_grown hmade
    · have habove := ih t p.parent
      split
      · rename_i hmade
        rwa [hmade] at habove
      · rename_i hmade
        rw [hmade] at habove
        split
        · rename_i hensured
          exact habove.trans (ensureDirectory_grown hensured)
        · exact habove
    · exact .refl t

theorem createFile_eq_ok {p : Path} {text : String} (h : t.createFile p text = .ok t') :
    ∃ place, t.locate p = .ok place ∧ t.get? place = none ∧
      t.get? place.dropLast = some .directory ∧ t' = t.put place (.file (some text)) :=
  make_eq_ok h

theorem createFile_of_locate {p : Path} (hplace : t.locate p = .ok place)
    (hfree : t.get? place = none) (hparent : t.get? place.dropLast = some .directory)
    (text : String) : t.createFile p text = .ok (t.put place (.file (some text))) :=
  make_of_locate hplace hfree hparent _

theorem writeFile_eq_ok {p : Path} {text : Option String} (h : t.writeFile p text = .ok t') :
    ∃ place, t.locate p = .ok place ∧ t' = t.put place (.file text) := by
  obtain ⟨place, hplace, h⟩ := Except.exists_of_bind_eq_ok h
  split at h
  · cases h
  · obtain ⟨⟨⟩, -, h⟩ := Except.exists_of_bind_eq_ok h
    cases h
    exact ⟨place, hplace, rfl⟩

theorem writeFile_of_locate {p : Path} (hplace : t.locate p = .ok place)
    (hend : p.endsInSlash = false) (hfile : t.get? place ≠ some .directory)
    (hparent : t.get? place.dropLast = some .directory) (text : Option String) :
    t.writeFile p text = .ok (t.put place (.file text)) := by
  unfold writeFile
  rw [hplace]
  dsimp only [bind, Except.bind]
  rw [hend, checkParent_of_directory hparent, if_neg (by simpa using hfile)]
  rfl

theorem rename_eq_ok {source target : Path} (h : t.rename source target = .ok t') :
    ∃ start place entry, t.locate source = .ok start ∧ t.locate target = .ok place ∧
      t.get? start = some entry ∧ t.get? place ≠ some .directory ∧
        t.get? place.dropLast = some .directory ∧
          t' = ((t.drop start).drop place).put place entry := by
  obtain ⟨start, hstart, h⟩ := Except.exists_of_bind_eq_ok h
  obtain ⟨place, hplace, h⟩ := Except.exists_of_bind_eq_ok h
  split at h
  · cases h
  · rename_i entry hentry
    by_cases hdir : t.get? place = some .directory
    · rw [if_pos hdir] at h
      cases h
    · rw [if_neg hdir] at h
      obtain ⟨⟨⟩, hparent, h⟩ := Except.exists_of_bind_eq_ok h
      cases h
      exact ⟨start, place, entry, hstart, hplace, hentry, hdir, checkParent_eq_ok hparent, rfl⟩

theorem rename_of_locate {source target : Path} {start : List String} {entry : Entry}
    (hstart : t.locate source = .ok start) (hplace : t.locate target = .ok place)
    (hentry : t.get? start = some entry) (hfile : t.get? place ≠ some .directory)
    (hparent : t.get? place.dropLast = some .directory) :
    t.rename source target = .ok (((t.drop start).drop place).put place entry) := by
  unfold rename
  rw [hstart, hplace]
  dsimp only [bind, Except.bind]
  rw [hentry, checkParent_of_directory hparent]
  dsimp only
  rw [if_neg hfile]
  rfl

theorem removeFile_eq_ok {p : Path} (h : t.removeFile p = .ok t') :
    ∃ place text, t.locate p = .ok place ∧ t.get? place = some (.file text) ∧
      t' = t.drop place := by
  obtain ⟨place, hplace, h⟩ := Except.exists_of_bind_eq_ok h
  split at h
  · cases h
  · cases h
  · rename_i text hentry
    cases h
    exact ⟨place, text, hplace, hentry, rfl⟩

theorem removeFile_of_locate {p : Path} {text : Option String} (hplace : t.locate p = .ok place)
    (hfile : t.get? place = some (.file text)) : t.removeFile p = .ok (t.drop place) := by
  unfold removeFile
  rw [hplace]
  dsimp only [bind, Except.bind]
  rw [hfile]
  rfl

theorem readText_eq_ok {p : Path} {text : String} (h : t.readText p = .ok text) :
    ∃ place, t.locate p = .ok place ∧ t.get? place = some (.file (some text)) := by
  obtain ⟨place, hplace, h⟩ := Except.exists_of_bind_eq_ok h
  split at h
  · cases h
  · cases h
  · cases h
  · rename_i held hheld
    cases h
    exact ⟨place, hplace, hheld⟩

theorem readText_of_locate {p : Path} {text : String} (hplace : t.locate p = .ok place)
    (hfile : t.get? place = some (.file (some text))) : t.readText p = .ok text := by
  unfold readText
  rw [hplace]
  dsimp only [bind, Except.bind]
  rw [hfile]
  rfl

/-- Only what a path leads to is listed. -/
theorem exists_locate_of_list {p : Path} {names : List String} (h : t.list p = .ok names) :
    ∃ place, t.locate p = .ok place := by
  obtain ⟨place, hplace, -⟩ := Except.exists_of_bind_eq_ok h
  exact ⟨place, hplace⟩

theorem sameBut_drop (t : FileTree) (place : List String) : SameBut t (t.drop place) place :=
  fun other hne text => by rw [get?_drop_of_ne t hne]

/-- A file that is written beside another and moved in its place: the one it is beside is free, and
the other ends up with the text. -/
theorem staged_of_rename {t₁ t₂ t₃ : FileTree} {temp final : Path} {text : String}
    (hcreate : t₁.createFile temp text = .ok t₂) (hrename : t₂.rename temp final = .ok t₃) :
    ∃ beside target, t₁.locate temp = .ok beside ∧ t₁.get? beside = none ∧
      t₂ = t₁.put beside (.file (some text)) ∧ t₂.locate final = .ok target ∧
      t₂.get? target ≠ some .directory ∧ t₂.get? target.dropLast = some .directory ∧
      t₃ = ((t₂.drop beside).drop target).put target (.file (some text)) := by
  obtain ⟨beside, hbeside, hfree, -, rfl⟩ := createFile_eq_ok hcreate
  obtain ⟨start, target, entry, hstart, htarget, hentry, hfile, hparent, rfl⟩ :=
    rename_eq_ok hrename
  -- The path of the new file leads to the place that it led to before.
  have hsame : start = beside := by
    have hreach := reach_of_keeps (keeps_put t₁ hfree (.file (some text))) (reach_of_locate hbeside)
    rw [reach_of_locate hstart] at hreach
    exact Except.ok.inj hreach
  subst hsame
  rw [get?_put_self t₁ (ne_nil_of_get?_eq_none hfree), Option.some.injEq] at hentry
  subst hentry
  exact ⟨start, target, hbeside, hfree, rfl, htarget, hfile, hparent, rfl⟩

/-- A file written beside another and moved into its place changes that file and no other. -/
theorem sameBut_of_staged {t₁ : FileTree} {beside : List String} (hgrown : Grown t t₁)
    (hfree : t₁.get? beside = none) (hplace : place ≠ []) (text : String) :
    (((((t₁.put beside (.file (some text))).drop beside).drop place).put place
        (.file (some text))).get? place = some (.file (some text))) ∧
      SameBut t ((((t₁.put beside (.file (some text))).drop beside).drop place).put place
        (.file (some text))) place := by
  refine ⟨get?_put_self _ hplace _, fun other ho held => ?_⟩
  rw [get?_put_of_ne _ ho, get?_drop_of_ne _ ho]
  by_cases hother : other = beside
  · subst hother
    rw [get?_drop_self _ (ne_nil_of_get?_eq_none hfree)]
    constructor
    · intro h
      cases h
    · intro h
      rw [hgrown.keeps _ _ h] at hfree
      cases hfree
  · rw [get?_drop_of_ne _ hother, get?_put_of_ne _ hother]
    exact ⟨hgrown.files other held, hgrown.keeps other _⟩

theorem sameBut_of_rename {t₁ t₂ t₃ : FileTree} {temp final : Path} {text : String}
    (hgrown : Grown t t₁) (hcreate : t₁.createFile temp text = .ok t₂)
    (hrename : t₂.rename temp final = .ok t₃) (hplace : t.locate final = .ok place) :
    t₃.get? place = some (.file (some text)) ∧ SameBut t t₃ place := by
  obtain ⟨beside, target, -, hfree, rfl, htarget, hfile, -, rfl⟩ := staged_of_rename hcreate hrename
  have htop := ne_nil_of_get?_ne_directory hfile
  have hplaced : target = place := by
    have hreach := reach_of_keeps (keeps_put t₁ hfree (.file (some text)))
      (reach_of_keeps hgrown.keeps (reach_of_locate hplace))
    rw [reach_of_locate htarget] at hreach
    exact Except.ok.inj hreach
  subst hplaced
  exact sameBut_of_staged hgrown hfree htop text

/-- Trees that hold the same along plain steps are walked in the same way. -/
theorem walk_congr {start : List String} (steps : List String)
    (hplain : ∀ step ∈ steps, step ≠ "." ∧ step ≠ "..")
    (h : ∀ rest, rest <+: steps → t.get? (start ++ rest) = t'.get? (start ++ rest)) :
    t.walk start steps = t'.walk start steps := by
  induction steps generalizing start with
  | nil => rfl
  | cons step steps ih =>
    obtain ⟨hdot, hup⟩ := hplain step List.mem_cons_self
    have hstart : t.get? start = t'.get? start := by
      simpa using h [] (List.nil_prefix)
    have hrest := @ih (start ++ [step])
      (fun other hother => hplain other (List.mem_cons_of_mem _ hother)) fun rest hprefix => by
        simpa using h (step :: rest) (List.cons_prefix_cons.mpr ⟨rfl, hprefix⟩)
    simp only [walk, hstart, if_neg hdot, if_neg hup, hrest]

/-- Along plain steps a path is located in the same way, and what stands there is the same. -/
theorem locate_congr {p : Path} (hplain : ∀ step ∈ p.steps, step ≠ "." ∧ step ≠ "..")
    (h : ∀ place, place <+: p.steps → t.get? place = t'.get? place) :
    t.locate p = t'.locate p := by
  have hholds : t.holds p.steps = t'.holds p.steps := by
    unfold holds
    rw [h _ (List.dropLast_prefix p.steps)]
  have hwalk : t.walk [] p.steps = t'.walk [] p.steps :=
    walk_congr p.steps hplain fun rest hprefix => h rest hprefix
  have hend := h p.steps List.prefix_rfl
  unfold locate
  rw [hholds]
  by_cases hdirect : t'.holds p.steps = true
  · simp only [hdirect, if_true, pure_bind, hend]
  · simp only [hdirect, if_false, hwalk, Bool.false_eq_true]
    cases hplace : t'.walk [] p.steps with
    | error cause => rfl
    | ok place =>
      have hsame : place = p.steps := walk_plain p.steps hplain hplace
      subst hsame
      simp only [bind, Except.bind, hend]

theorem readText_congr {p : Path} (hplain : ∀ step ∈ p.steps, step ≠ "." ∧ step ≠ "..")
    (h : ∀ place, place <+: p.steps → t.get? place = t'.get? place) :
    t.readText p = t'.readText p := by
  unfold readText
  rw [locate_congr hplain h]
  cases hplace : t'.locate p with
  | error cause => rfl
  | ok place =>
    have hreach := reach_of_locate hplace
    have hsame : place = p.steps := by
      unfold reach at hreach
      split at hreach
      · exact (Except.ok.inj hreach).symm
      · exact walk_plain p.steps hplain hreach
    simp only [bind, Except.bind, hsame, h p.steps List.prefix_rfl]

end DocumentEngine.FileTree

namespace DocumentEngine

namespace Path

/-- A name that is one step of a path. -/
def IsName (name : String) : Prop := name ≠ "" ∧ '/' ∉ name.toList

/-- The steps of a text behind a slash are one more where the text is a name. -/
theorem steps_slash (before : List Char) {name : String} (h : IsName name) :
    (⟨String.ofList (before ++ '/' :: name.toList)⟩ : Path).steps =
      (⟨String.ofList before⟩ : Path).steps ++ [name] := by
  unfold steps Text.splitAt
  rw [String.toList_ofList, String.toList_ofList, Text.splitChars_append,
    Text.splitChars_of_notMem h.2, List.map_append, List.filter_append, List.map_singleton,
    String.ofList_toList]
  simp [h.1]

theorem join_eq (p : Path) {name : String} (h : IsName name) :
    p.join name = if p.text.isEmpty || p.text.toList.getLast? = some '/' then ⟨p.text ++ name⟩
      else ⟨p.text ++ "/" ++ name⟩ := by
  unfold join
  split
  · rename_i cs hcs
    exact absurd (by rw [hcs]; exact List.mem_cons_self) h.2
  · rfl

/-- The path of a name below another has the text of the other at its front, and the name at its
end. -/
theorem exists_text_join (p : Path) {name : String} (h : IsName name) :
    ∃ between, (p.join name).text = p.text ++ between ++ name := by
  rw [join_eq p h]
  split
  · exact ⟨"", by rw [String.append_empty]⟩
  · exact ⟨"/", rfl⟩

theorem steps_join (p : Path) {name : String} (h : IsName name) :
    (p.join name).steps = p.steps ++ [name] := by
  rw [join_eq p h]
  by_cases hempty : p.text = ""
  · rw [hempty, String.empty_append, if_pos (by simp)]
    obtain ⟨text⟩ := p
    dsimp only at hempty
    subst hempty
    rw [steps, Text.splitAt_of_notMem h.2]
    simp [steps, Text.splitAt, Text.splitChars, h.1]
  · by_cases hslash : p.text.toList.getLast? = some '/'
    · rw [if_pos (by simp [hslash])]
      obtain ⟨before, hbefore⟩ := List.getLast?_eq_some_iff.mp hslash
      have htext : p.text ++ name = String.ofList (before ++ '/' :: name.toList) := by
        rw [← String.toList_inj, String.toList_append, hbefore, String.toList_ofList]
        simp
      have hp : p = ⟨String.ofList (before ++ '/' :: [])⟩ := by
        obtain ⟨text⟩ := p
        rw [← hbefore, String.ofList_toList]
      have hsame : (⟨String.ofList (before ++ '/' :: [])⟩ : Path).steps =
          (⟨String.ofList before⟩ : Path).steps := by
        unfold steps Text.splitAt
        rw [String.toList_ofList, String.toList_ofList, Text.splitChars_append]
        simp [Text.splitChars]
      rw [htext, steps_slash before h, hp, hsame]
    · rw [if_neg (by simp [hempty, hslash])]
      have htext : p.text ++ "/" ++ name = String.ofList (p.text.toList ++ '/' :: name.toList) := by
        rw [← String.toList_inj, String.toList_append, String.toList_append, String.toList_ofList]
        simp
      rw [htext, steps_slash _ h, String.ofList_toList]

end Path

end DocumentEngine
