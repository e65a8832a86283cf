import DocumentEngine.Proofs.FileTree.Sound
import Mathlib.Data.List.Induction

/-!
Ways through a tree. In a sound tree a path is followed step by step, so that the way below a
directory goes on from where the path of the directory has led, and the path of a directory leads
there while no directory is gone.
-/

namespace DocumentEngine

namespace Path

/-- A path that ends in a step ends in no slash and in no name for the place itself. -/
theorem trimEnd_step {name : String} (h : IsStep name) (before : List Char) :
    trimEnd (name.toList.reverse ++ before) = name.toList.reverse ++ before := by
  have hne : name.toList.reverse ≠ [] := fun hnil =>
    h.1.1 (String.toList_eq_nil_iff.mp (List.reverse_eq_nil_iff.mp hnil))
  have hslash : '/' ∉ name.toList.reverse := fun hmem => h.1.2 (List.mem_reverse.mp hmem)
  have hdot : name.toList.reverse ≠ ['.'] := fun heq => h.2.1 (by
    rw [← String.toList_inj, ← List.reverse_reverse name.toList, heq]
    rfl)
  match hrev : name.toList.reverse with
  | [] => exact absurd hrev hne
  | [c] =>
    rw [hrev] at hslash hdot
    unfold trimEnd
    split
    · simp_all
    · simp_all
    · rfl
  | c :: d :: cs =>
    rw [hrev] at hslash
    unfold trimEnd
    split
    · simp_all
    · simp_all
    · rfl

/-- The directory above a path in another directory is that directory. -/
theorem parent_join {type name : String} (p : Path) (htype : IsStep type) (h : IsStep name) :
    ((p.join type).join name).parent = p.join type := by
  obtain ⟨between, htext⟩ := p.exists_text_join htype.1
  have hempty : (p.join type).text.isEmpty = false := by
    rw [htext]
    simp [htype.1.1]
  have hends : (p.join type).text.toList.getLast? ≠ some '/' := by
    have hslash := FileTree.endsInSlash_join (p := p) htype.1
    simpa [endsInSlash] using hslash
  have hpath : (p.join type).join name = ⟨(p.join type).text ++ "/" ++ name⟩ := by
    rw [join_eq _ h.1, hempty]
    simp [hends]
  have hrev : ((p.join type).join name).text.toList.reverse =
      name.toList.reverse ++ '/' :: (p.join type).text.toList.reverse := by
    rw [hpath, String.toList_append, String.toList_append, List.reverse_append, List.reverse_append]
    rfl
  have hbefore : (name.toList.reverse ++ '/' :: (p.join type).text.toList.reverse).dropWhile
      (· ≠ '/') = '/' :: (p.join type).text.toList.reverse := by
    rw [List.dropWhile_append_of_pos]
    · rfl
    · intro c hc
      have hnot : c ≠ '/' := by
        rintro rfl
        exact h.1.2 (List.mem_reverse.mp hc)
      simpa using hnot
  have htrim : trimEnd ('/' :: (p.join type).text.toList.reverse) =
      (p.join type).text.toList.reverse := by
    rw [trimEnd, htext, String.toList_append (s := p.text ++ between), List.reverse_append,
      trimEnd_step htype]
  have hsome : (p.join type).text.toList.reverse.isEmpty = false := by
    rw [List.isEmpty_reverse, Bool.eq_false_iff]
    intro hnil
    rw [List.isEmpty_iff, String.toList_eq_nil_iff] at hnil
    rw [hnil] at hempty
    cases hempty
  unfold parent
  rw [hrev, trimEnd_step h, hbefore]
  dsimp only
  rw [htrim, hsome, List.reverse_reverse, String.ofList_toList]
  rfl

end Path

namespace FileTree

variable {t t' : FileTree} {place : List String} {p : Path}

/-- A way goes on from where its first part has led. -/
theorem walk_append (t : FileTree) (start steps rest : List String) :
    t.walk start (steps ++ rest) = t.walk start steps >>= fun place => t.walk place rest := by
  induction steps generalizing start with
  | nil => rfl
  | cons step steps ih =>
    rw [List.cons_append, walk, walk, ih, ih, ih]
    split
    · rfl
    · rfl
    · split_ifs <;> rfl

/-- A way along plain names all of whose places are directories leads to its end. -/
theorem walk_eq_ok {start : List String} (steps : List String)
    (hplain : ∀ step ∈ steps, step ≠ "." ∧ step ≠ ".." ∧ step.utf8ByteSize ≤ maxName)
    (h : ∀ before, before <+: steps → before ≠ steps →
      t.get? (start ++ before) = some .directory) :
    t.walk start steps = .ok (start ++ steps) := by
  induction steps generalizing start with
  | nil => rw [walk, List.append_nil]
  | cons step steps ih =>
    obtain ⟨hdot, hup, hshort⟩ := hplain step List.mem_cons_self
    have hstart : t.get? start = some .directory := by
      simpa using h [] List.nil_prefix (List.cons_ne_nil _ _).symm
    have hrest := @ih (start ++ [step]) (fun other hother => hplain other (by simp [hother]))
      fun before hbefore hne => by
        simpa using h (step :: before) (List.cons_prefix_cons.mpr ⟨rfl, hbefore⟩) (by simpa using hne)
    rw [walk, hstart]
    dsimp only
    rw [if_neg hdot, if_neg hup, if_neg (Nat.not_lt_of_le hshort), hrest, List.append_assoc]
    rfl

/-- A path leads nowhere only because its way does. -/
theorem reach_of_missing (h : t.locate p = .error .missing) :
    t.reach p.steps = .error .missing := by
  by_cases hbad : '\x00' ∈ p.text.toList
  · unfold locate at h
    rw [if_pos (by simpa using hbad)] at h
    cases h
  by_cases hlong : p.text.utf8ByteSize ≤ maxPath
  · rw [locate_eq_reach hbad hlong] at h
    cases hreach : t.reach p.steps with
    | error cause =>
      rw [hreach] at h
      cases h
      rfl
    | ok place =>
      rw [hreach] at h
      dsimp only [bind, Except.bind] at h
      split at h
      · split at h <;> cases h
      · cases h
  · unfold locate at h
    rw [if_neg (by simpa using hbad), if_pos (Nat.lt_of_not_le hlong)] at h
    cases h

namespace Sound

/-- All that is above a place of a sound tree is a directory. -/
theorem directory_of_prefix (h : t.Sound) {above : List String} (hthere : (t.get? place).isSome = true)
    (habove : above <+: place) (hne : above ≠ place) : t.get? above = some .directory := by
  obtain ⟨rest, rfl⟩ := habove
  induction rest using List.reverseRecOn with
  | nil => exact absurd (List.append_nil above).symm hne
  | append_singleton rest last ih =>
    have hparent := h.parents _ hthere
    rw [← List.append_assoc, List.dropLast_concat] at hparent
    by_cases hrest : rest = []
    · rwa [hrest, List.append_nil] at hparent
    · exact ih (by rw [hparent]; rfl) (by simpa using hrest)

/-- In a sound tree a path is followed step by step. -/
theorem reach_eq_walk (h : t.Sound) (steps : List String) : t.reach steps = t.walk [] steps := by
  unfold reach
  split
  · rename_i hholds
    simp only [holds, Bool.and_eq_true, List.all_eq_true, decide_eq_true_eq] at hholds
    obtain ⟨habove, hplain⟩ := hholds
    symm
    refine walk_eq_ok steps (fun step hstep => ?_) fun before hbefore hne => ?_
    · exact ⟨(hplain step hstep).1.1, (hplain step hstep).1.2, (hplain step hstep).2⟩
    · rw [List.nil_append]
      have hshort : before <+: steps.dropLast := by
        obtain ⟨rest, rfl⟩ := hbefore
        have hrest : rest ≠ [] := fun hnil => hne (by rw [hnil, List.append_nil])
        rw [List.dropLast_append_of_ne_nil hrest]
        exact List.prefix_append _ _
      by_cases heq : before = steps.dropLast
      · rwa [heq]
      · exact h.directory_of_prefix (by rw [habove]; rfl) hshort heq
  · rfl

/-- Where the path of a directory leads, it leads still while no directory is gone. -/
theorem locate_of_directories (h : t.Sound) (h' : t'.Sound)
    (hkept : ∀ other, t.get? other = some .directory → t'.get? other = some .directory)
    (hplace : t.locate p = .ok place) (hdir : t.get? place = some .directory) :
    t'.locate p = .ok place := by
  have hwalk := reach_of_locate hplace
  rw [h.reach_eq_walk] at hwalk
  have hwalk' := walk_of_directories hkept p.steps hwalk
  obtain ⟨hbad, hlong⟩ := takes_of_locate hplace
  rw [locate_eq_reach hbad hlong, h'.reach_eq_walk, hwalk']
  dsimp only [bind, Except.bind]
  rw [hkept place hdir]

end Sound

end FileTree

end DocumentEngine
