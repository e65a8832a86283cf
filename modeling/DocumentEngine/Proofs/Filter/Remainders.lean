import DocumentEngine.Proofs.Filter.Walks

/-!
What a failed look-up of a field tells: the words behind the references that lead furthest. The
resolver compares what was left over in each place by its size, which for ASCII names grows with the
number of words.
-/

namespace DocumentEngine.Schema

/-- Words of ASCII characters, none of them empty. -/
def Plain (words : List String) : Prop :=
  ∀ word ∈ words, word ≠ "" ∧ ∀ c ∈ word.toList, c.toNat < 0x80

namespace Plain

variable {words rest rest' : List String}

theorem of_suffix (h : Plain words) (hrest : rest <:+ words) : Plain rest :=
  fun word hword => h word (hrest.subset hword)

theorem concat_ascii (h : Plain words) : ∀ c ∈ (Text.concat words).toList, c.toNat < 0x80 := by
  intro c hc
  obtain ⟨word, hword, hmem⟩ := Text.mem_concat_iff.mp hc
  exact (h word hword).2 c hmem

theorem length_le_concat (h : Plain words) : words.length ≤ (Text.concat words).toList.length := by
  induction words with
  | nil => exact Nat.zero_le _
  | cons word words ih =>
    have hword : 0 < word.toList.length := List.length_pos_of_ne_nil fun hnil =>
      (h word List.mem_cons_self).1 (String.toList_eq_nil_iff.mp hnil)
    have hrest := ih fun w hw => h w (List.mem_cons_of_mem word hw)
    rw [Text.concat_cons, String.toList_append, List.length_append, List.length_cons]
    omega

/-- More words take more bytes. -/
theorem size_le (h : Plain words) (hrest : rest <:+ words) :
    (fieldName rest).utf8ByteSize + (words.length - rest.length) ≤
      (fieldName words).utf8ByteSize := by
  obtain ⟨front, rfl⟩ := hrest
  have hfront : Plain front := fun word hword => h word (List.mem_append_left rest hword)
  have hback : Plain rest := h.of_suffix (List.suffix_append front rest)
  have hlength := hfront.length_le_concat
  unfold fieldName
  rw [Text.utf8ByteSize_lowerFirst hback.concat_ascii, Text.utf8ByteSize_lowerFirst h.concat_ascii,
    Text.concat_append, String.toList_append, List.length_append, List.length_append]
  omega

theorem size_lt_iff (h : Plain words) (hrest : rest <:+ words) (hrest' : rest' <:+ words) :
    (fieldName rest).utf8ByteSize < (fieldName rest').utf8ByteSize ↔
      rest.length < rest'.length := by
  rcases Nat.lt_or_ge rest.length rest'.length with hlt | hge
  · have hsize := (h.of_suffix hrest').size_le (List.suffix_of_suffix_length_le hrest hrest' hlt.le)
    omega
  · have hsize := (h.of_suffix hrest).size_le (List.suffix_of_suffix_length_le hrest' hrest hge)
    omega

end Plain

/-- Words that lead through references alone. -/
def Passable (s : Schema) (t : DocumentType) (words : List String) : Prop :=
  ∃ groups u, groups.flatten = words ∧ s.Passage DocumentType.Spells t groups u

/-- The words behind those that lead through references, with more than `k` of them in the first
group. -/
def Leaves (s : Schema) (t : DocumentType) (k : Nat) (words rest : List String) : Prop :=
  ∃ groups u, groups.flatten ++ rest = words ∧ s.Passage DocumentType.Spells t groups u ∧
    ∀ g ∈ groups.head?, k < g.length

/-- The least that is left. -/
structure LeavesLeast (s : Schema) (t : DocumentType) (k : Nat) (words rest : List String) :
    Prop where
  leaves : s.Leaves t k words rest
  least : ∀ rest', s.Leaves t k words rest' → rest.length ≤ rest'.length

variable {s : Schema} {t u : DocumentType} {words rest rest' : List String} {f : Field} {k : Nat}

/-- A passage begins with words. -/
theorem Passage.length_pos {groups : List (List String)}
    (h : s.Passage DocumentType.Spells t groups u) : ∀ g ∈ groups.head?, 0 < g.length := by
  cases h with
  | here => simp
  | step field target rest =>
    rintro g ⟨⟩
    exact List.length_pos_of_ne_nil field.1

namespace Leaves

theorem zero_iff :
    s.Leaves t 0 words rest ↔ ∃ front, s.Passable t front ∧ front ++ rest = words := by
  constructor
  · rintro ⟨groups, u, hwhole, hpassage, -⟩
    exact ⟨groups.flatten, ⟨groups, u, rfl, hpassage⟩, hwhole⟩
  · rintro ⟨front, ⟨groups, u, rfl, hpassage⟩, hwhole⟩
    exact ⟨groups, u, hwhole, hpassage, hpassage.length_pos⟩

theorem suffix (h : s.Leaves t k words rest) : rest <:+ words := by
  obtain ⟨groups, -, hwhole, -⟩ := h
  exact ⟨groups.flatten, hwhole⟩

theorem of_succ (h : s.Leaves t (k + 1) words rest) : s.Leaves t k words rest := by
  obtain ⟨groups, u, hwhole, hpassage, hfirst⟩ := h
  exact ⟨groups, u, hwhole, hpassage, fun g hg => Nat.lt_of_succ_lt (hfirst g hg)⟩

/-- A first group of `k + 1` words leaves what is left behind it. -/
theorem of_drop (hk : k + 1 ≤ words.length)
    (hfield : t.looseField? (fieldName (words.take (k + 1))) = some f)
    (htarget : (f.target? >>= s.type?) = some u) (h : s.Leaves u 0 (words.drop (k + 1)) rest) :
    s.Leaves t k words rest := by
  obtain ⟨groups, v, hwhole, hpassage, -⟩ := h
  have hlength : (words.take (k + 1)).length = k + 1 := List.length_take_of_le hk
  have hne : words.take (k + 1) ≠ [] := List.ne_nil_of_length_eq_add_one hlength
  refine ⟨words.take (k + 1) :: groups, v, ?_, .step ⟨hne, hfield⟩ htarget hpassage, ?_⟩
  · rw [List.flatten_cons, List.append_assoc, hwhole, List.take_append_drop]
  · rintro g ⟨⟩
    rw [hlength]
    exact k.lt_succ_self

theorem succ_or_drop (h : s.Leaves t k words rest) : s.Leaves t (k + 1) words rest ∨
    ∃ f u, t.looseField? (fieldName (words.take (k + 1))) = some f ∧
      (f.target? >>= s.type?) = some u ∧ s.Leaves u 0 (words.drop (k + 1)) rest := by
  obtain ⟨groups, v, hwhole, hpassage, hfirst⟩ := h
  cases hpassage with
  | here => exact .inl ⟨[], t, hwhole, .here t, by simp⟩
  | @step _ u _ first f groups hspells htarget hrest =>
    rcases Nat.lt_or_ge (k + 1) first.length with hlonger | hle
    · refine .inl ⟨first :: groups, v, hwhole, .step hspells htarget hrest, ?_⟩
      rintro g ⟨⟩
      exact hlonger
    · rw [List.flatten_cons, List.append_assoc] at hwhole
      have hlength : first.length = k + 1 := Nat.le_antisymm hle (hfirst first rfl)
      rw [← hwhole, ← hlength, List.take_left, List.drop_left]
      exact .inr ⟨f, u, hspells.2, htarget, groups, v, rfl, hrest, hrest.length_pos⟩

end Leaves

namespace LeavesLeast

/-- Before any first group is tried, all words are left. -/
theorem all (s : Schema) (t : DocumentType) (words : List String) :
    s.LeavesLeast t words.length words words where
  leaves := ⟨[], t, rfl, .here t, by simp⟩
  least := by
    rintro rest' ⟨groups, v, hwhole, hpassage, hfirst⟩
    cases hpassage with
    | here => exact (congrArg List.length hwhole).ge
    | @step _ u _ first f groups hspells htarget hrest =>
      have hlonger := hfirst first rfl
      have hlength := congrArg List.length hwhole
      rw [List.flatten_cons, List.append_assoc, List.length_append] at hlength
      omega

/-- A first group that leads nowhere leaves nothing more. -/
theorem of_succ (h : s.LeavesLeast t (k + 1) words rest)
    (hnone : ∀ f u, t.looseField? (fieldName (words.take (k + 1))) = some f →
      (f.target? >>= s.type?) ≠ some u) : s.LeavesLeast t k words rest where
  leaves := h.leaves.of_succ
  least := by
    intro rest' hrest'
    rcases hrest'.succ_or_drop with hbefore | ⟨f, u, hfield, htarget, -⟩
    · exact h.least rest' hbefore
    · exact absurd htarget (hnone f u hfield)

/-- A first group that leads on leaves the less of what is left behind it and what was left
before. -/
theorem of_drop {least : List String} (h : s.LeavesLeast t (k + 1) words rest)
    (hk : k + 1 ≤ words.length)
    (hfield : t.looseField? (fieldName (words.take (k + 1))) = some f)
    (htarget : (f.target? >>= s.type?) = some u)
    (hdrop : s.LeavesLeast u 0 (words.drop (k + 1)) rest')
    (hleast : least = if rest'.length < rest.length then rest' else rest) :
    s.LeavesLeast t k words least := by
  have hle : least.length ≤ rest.length ∧ least.length ≤ rest'.length := by
    rw [hleast]
    split <;> omega
  constructor
  · rw [hleast]
    split
    · exact hdrop.leaves.of_drop hk hfield htarget
    · exact h.leaves.of_succ
  · intro other hother
    rcases hother.succ_or_drop with hbefore | ⟨g, v, hfound, hv, hbehind⟩
    · exact hle.1.trans (h.least other hbefore)
    · rw [hfield] at hfound
      cases hfound
      rw [htarget] at hv
      cases hv
      exact hle.2.trans (hdrop.least other hbehind)

/-- The least is left behind the most words that lead through references. -/
theorem exists_front (h : s.LeavesLeast t 0 words rest) :
    ∃ front, s.Passable t front ∧ front ++ rest = words ∧
      ∀ front', front' <+: words → s.Passable t front' → front'.length ≤ front.length := by
  obtain ⟨front, hpassable, hwhole⟩ := Leaves.zero_iff.mp h.leaves
  refine ⟨front, hpassable, hwhole, ?_⟩
  rintro front' ⟨rest', hwhole'⟩ hpassable'
  have hle := h.least rest' (Leaves.zero_iff.mpr ⟨front', hpassable', hwhole'⟩)
  have hlength := congrArg List.length (hwhole.trans hwhole'.symm)
  rw [List.length_append, List.length_append] at hlength
  omega

end LeavesLeast

/-- A failure tells the least that is left. -/
theorem exists_leavesLeast_of_resolveWords (s : Schema) (t : DocumentType) (words : List String)
    (k : Nat) (deepest : String) (hk : k ≤ words.length) (hplain : Plain words)
    (hdeepest : ∃ rest, s.LeavesLeast t k words rest ∧ deepest = fieldName rest) :
    ∀ remainder, s.resolveWords t words k deepest = .error remainder →
      ∃ rest, s.LeavesLeast t 0 words rest ∧ remainder = fieldName rest := by
  fun_induction resolveWords s t words k deepest with
  | case1 =>
    rintro remainder ⟨⟩
    exact hdeepest
  | case2 t words k deepest hfield ih =>
    obtain ⟨rest, hleast, hsaid⟩ := hdeepest
    refine ih (Nat.le_of_succ_le hk) hplain ⟨rest, hleast.of_succ fun f u hfound => ?_, hsaid⟩
    rw [hfield] at hfound
    cases hfound
  | case3 =>
    rintro remainder ⟨⟩
  | case4 t words k deepest f hfield hlength htarget ih =>
    obtain ⟨rest, hleast, hsaid⟩ := hdeepest
    refine ih (Nat.le_of_succ_le hk) hplain ⟨rest, hleast.of_succ fun g u hfound => ?_, hsaid⟩
    rw [hfield] at hfound
    cases hfound
    rw [htarget]
    exact (Option.some_ne_none u).symm
  | case5 =>
    rintro remainder ⟨⟩
  | case6 t words k deepest f hfield hlength u htarget behind remainder hfailed ihbehind ih =>
    obtain ⟨rest, hleast, rfl⟩ := hdeepest
    obtain ⟨rest', hleast', rfl⟩ := ihbehind le_rfl (hplain.of_suffix (List.drop_suffix _ _))
      ⟨behind, .all s u behind, rfl⟩ remainder hfailed
    have hsizes := hplain.size_lt_iff
      (hleast'.leaves.suffix.trans (List.drop_suffix _ _)) hleast.leaves.suffix
    refine ih (Nat.le_of_succ_le hk) hplain ⟨_, hleast.of_drop hk hfield htarget hleast' rfl, ?_⟩
    rw [apply_ite fieldName]
    simp only [hsizes, dite_eq_ite]

end DocumentEngine.Schema
