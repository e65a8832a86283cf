import Mathlib.Data.List.Lex
import DocumentEngine.Filter.Path
import DocumentEngine.Proofs.Text.Case
import DocumentEngine.Proofs.Text.Words

/-!
How the words of a field path are resolved. A walk goes from field to field, each but the last a
reference; where words are divided into groups that spell the fields of a walk, the resolver takes
the division with the longest groups in front.
-/

namespace DocumentEngine

namespace DocumentType

variable {t : DocumentType} {f : Field} {name : String}

theorem looseField?_eq_some_iff : t.looseField? name = some f ↔ t.field? name = some f ∨
    t.field? name = none ∧
      (t.fields.find? fun g => Text.lowerFirst g.name == Text.lowerFirst name) = some f := by
  unfold looseField?
  rw [Option.orElse_eq_orElse, Option.orElse_eq_or, Option.or_eq_some_iff]

theorem name_of_field? (h : t.field? name = some f) : f.name = name := by
  simpa using List.find?_some h

theorem lowerFirst_of_looseField? (h : t.looseField? name = some f) :
    Text.lowerFirst f.name = Text.lowerFirst name := by
  rcases looseField?_eq_some_iff.mp h with hexact | ⟨-, hloose⟩
  · rw [name_of_field? hexact]
  · simpa using List.find?_some hloose

/-- A field that is found loosely is the first of its name. -/
theorem field?_of_looseField? (h : t.looseField? name = some f) : t.field? f.name = some f := by
  rcases looseField?_eq_some_iff.mp h with hexact | ⟨-, hloose⟩
  · rwa [name_of_field? hexact]
  · obtain ⟨hfound, before, after, hfields, hbefore⟩ := List.find?_eq_some_iff_append.mp hloose
    refine List.find?_eq_some_iff_append.mpr ⟨by simp, before, after, hfields, fun g hg => ?_⟩
    have hother := hbefore g hg
    rw [Bool.not_eq_true', beq_eq_false_iff_ne] at hother ⊢
    intro hname
    rw [hname] at hother
    exact hother (beq_iff_eq.mp hfound)

/-- Words spell a field that is found, loosely, by their field name. -/
def Spells (t : DocumentType) (words : List String) (f : Field) : Prop :=
  words ≠ [] ∧ t.looseField? (Schema.fieldName words) = some f

/-- The field of a name, exactly. -/
def Has (t : DocumentType) (name : String) (f : Field) : Prop := t.field? name = some f

end DocumentType

namespace Schema

section

variable (s : Schema) {α : Type} (R : DocumentType → α → Field → Prop)

/-- Names of references, as `R` relates names of a type to its fields, that lead from a type to
another. -/
inductive Passage : DocumentType → List α → DocumentType → Prop
  | here (t : DocumentType) : Passage t [] t
  | step {t u v : DocumentType} {name : α} {f : Field} {names : List α} (field : R t name f)
      (target : (f.target? >>= s.type?) = some u) (rest : Passage u names v) :
      Passage t (name :: names) v

/-- Names of fields of which each but the last is a reference to the type that has the next. -/
inductive Walk : DocumentType → List α → List Field → Prop
  | last {t : DocumentType} {name : α} {f : Field} (field : R t name f) : Walk t [name] [f]
  | step {t u : DocumentType} {name : α} {f : Field} {names : List α} {fields : List Field}
      (field : R t name f) (target : (f.target? >>= s.type?) = some u) (rest : Walk u names fields) :
      Walk t (name :: names) (f :: fields)

end

section

variable {s : Schema} {α β : Type} {R : DocumentType → α → Field → Prop}
  {R' : DocumentType → β → Field → Prop} {t u : DocumentType} {names : List α} {fields : List Field}

theorem Walk.exists_cons (h : s.Walk R t names fields) : ∃ name names' f fields',
    names = name :: names' ∧ fields = f :: fields' ∧ R t name f ∧
      (names' = [] ∧ fields' = [] ∨
        ∃ u, (f.target? >>= s.type?) = some u ∧ s.Walk R u names' fields') := by
  cases h with
  | last field => exact ⟨_, _, _, _, rfl, rfl, field, .inl ⟨rfl, rfl⟩⟩
  | step field target rest => exact ⟨_, _, _, _, rfl, rfl, field, .inr ⟨_, target, rest⟩⟩

theorem Walk.imp (h : s.Walk R t names fields)
    {R' : DocumentType → α → Field → Prop} (hR : ∀ t name f, R t name f → R' t name f) :
    s.Walk R' t names fields := by
  induction h with
  | last field => exact .last (hR _ _ _ field)
  | step field target _ ih => exact .step (hR _ _ _ field) target ih

/-- The fields of a walk have other names to walk by. -/
theorem Walk.renamed (h : s.Walk R t names fields) (name : Field → β)
    (hname : ∀ t, ∀ a ∈ names, ∀ f, R t a f → R' t (name f) f) :
    s.Walk R' t (fields.map name) fields := by
  induction h with
  | last field => exact .last (hname _ _ List.mem_cons_self _ field)
  | step field target _ ih =>
    exact .step (hname _ _ List.mem_cons_self _ field) target
      (ih fun t a ha => hname t a (List.mem_cons_of_mem _ ha))

theorem Passage.append_walk {front back : List α} (hfront : s.Passage R t front u)
    (hback : s.Walk R u back fields) : ∃ more, s.Walk R t (front ++ back) (more ++ fields) := by
  induction hfront with
  | here t => exact ⟨[], hback⟩
  | step field target _ ih =>
    obtain ⟨more, hmore⟩ := ih hback
    exact ⟨_ :: more, .step field target hmore⟩

end

/-- Words divided into groups that spell the fields of a walk. -/
structure Reading (s : Schema) (t : DocumentType) (words : List String)
    (groups : List (List String)) (fields : List Field) : Prop where
  whole : groups.flatten = words
  walk : s.Walk DocumentType.Spells t groups fields

/-- The first group has at most `k` words. -/
def FirstWithin (k : Nat) (groups : List (List String)) : Prop := ∀ g ∈ groups.head?, g.length ≤ k

section

variable {s : Schema} {t u : DocumentType} {words : List String}
  {groups : List (List String)} {f : Field} {fields : List Field} {k : Nat}

namespace Reading

theorem of_spells (h : t.Spells words f) : s.Reading t words [words] [f] where
  whole := List.flatten_singleton
  walk := .last h

theorem take_cons (h : t.Spells (words.take k) f) (htarget : (f.target? >>= s.type?) = some u)
    (hrest : s.Reading u (words.drop k) groups fields) :
    s.Reading t words (words.take k :: groups) (f :: fields) where
  whole := by rw [List.flatten_cons, hrest.whole, List.take_append_drop]
  walk := .step h htarget hrest.walk

theorem words_ne_nil (h : s.Reading t words groups fields) : words ≠ [] := by
  obtain ⟨first, groups, f, fields, rfl, -, hspells, -⟩ := h.walk.exists_cons
  rw [← h.whole, List.flatten_cons]
  exact List.append_ne_nil_of_left_ne_nil hspells.1 _

theorem firstWithin (h : s.Reading t words groups fields) : FirstWithin words.length groups := by
  intro g hg
  rw [← h.whole]
  exact (List.sublist_flatten_of_mem (List.mem_of_mem_head? hg)).length_le

theorem not_firstWithin_zero (h : s.Reading t words groups fields) : ¬ FirstWithin 0 groups := by
  obtain ⟨first, groups, f, fields, rfl, -, hspells, -⟩ := h.walk.exists_cons
  intro hzero
  exact hspells.1 (List.eq_nil_of_length_eq_zero (Nat.le_zero.mp (hzero first rfl)))

/-- What is read from a first group of `k` words and behind it. -/
theorem of_take (h : s.Reading t words (words.take k :: groups) fields) (hk : k ≤ words.length) :
    ∃ f fields', fields = f :: fields' ∧ t.looseField? (fieldName (words.take k)) = some f ∧
      (words.length = k ∧ groups = [] ∨ ∃ u, (f.target? >>= s.type?) = some u ∧
        s.Reading u (words.drop k) groups fields') := by
  obtain ⟨first, groups, f, fields', heq, rfl, hspells, hrest⟩ := h.walk.exists_cons
  cases heq
  have hbehind : words.drop k = groups.flatten := by
    have hwhole := h.whole
    rw [List.flatten_cons] at hwhole
    exact List.append_cancel_left ((List.take_append_drop k words).trans hwhole.symm)
  refine ⟨f, fields', rfl, hspells.2, ?_⟩
  rcases hrest with ⟨rfl, rfl⟩ | ⟨u, htarget, hwalk⟩
  · exact .inl ⟨Nat.le_antisymm (List.drop_eq_nil_iff.mp hbehind) hk, rfl⟩
  · exact .inr ⟨u, htarget, hbehind.symm, hwalk⟩

theorem behind_take (h : s.Reading t words (words.take k :: groups) fields) (hk : k < words.length)
    (hfield : t.looseField? (fieldName (words.take k)) = some f) :
    ∃ u fields', (f.target? >>= s.type?) = some u ∧ s.Reading u (words.drop k) groups fields' := by
  obtain ⟨g, fields', -, hfound, hrest⟩ := h.of_take hk.le
  rw [hfield] at hfound
  cases hfound
  rcases hrest with ⟨hall, -⟩ | ⟨u, htarget, hread⟩
  · exact absurd hall hk.ne'
  · exact ⟨u, fields', htarget, hread⟩

theorem shorter_or_take (h : s.Reading t words groups fields)
    (hfirst : FirstWithin (k + 1) groups) :
    FirstWithin k groups ∨ ∃ groups', groups = words.take (k + 1) :: groups' := by
  obtain ⟨first, groups, -, -, rfl, -⟩ := h.walk.exists_cons
  rcases Nat.lt_or_eq_of_le (hfirst first rfl) with hlt | heq
  · refine .inl ?_
    rintro g ⟨⟩
    exact Nat.le_of_lt_succ hlt
  · refine .inr ⟨groups, ?_⟩
    rw [← h.whole, List.flatten_cons, ← heq, List.take_left]

end Reading

/-- The reading that has the longest first group, of at most `k` words, then the longest second one,
and so on. -/
structure Greediest (s : Schema) (t : DocumentType) (k : Nat) (words : List String)
    (groups : List (List String)) (fields : List Field) : Prop where
  reading : s.Reading t words groups fields
  first : FirstWithin k groups
  greatest : ∀ groups' fields', s.Reading t words groups' fields' → FirstWithin k groups' →
    groups'.map List.length ≤ groups.map List.length

namespace Greediest

theorem widen (h : s.Greediest t k words groups fields)
    (hnone : ∀ groups' fields', s.Reading t words groups' fields' → FirstWithin (k + 1) groups' →
      FirstWithin k groups') : s.Greediest t (k + 1) words groups fields where
  reading := h.reading
  first := fun g hg => Nat.le_succ_of_le (h.first g hg)
  greatest := fun groups' fields' hread hfirst =>
    h.greatest groups' fields' hread (hnone groups' fields' hread hfirst)

/-- A first group of as many words as there may be is greatest where what follows it is. -/
theorem of_take (hk : k + 1 ≤ words.length)
    (hread : s.Reading t words (words.take (k + 1) :: groups) fields)
    (hgreatest : ∀ groups' fields', s.Reading t words (words.take (k + 1) :: groups') fields' →
      groups'.map List.length ≤ groups.map List.length) :
    s.Greediest t (k + 1) words (words.take (k + 1) :: groups) fields where
  reading := hread
  first := by
    rintro g ⟨⟩
    exact List.length_take_le _ _
  greatest := by
    intro groups' fields' hread' hfirst
    obtain ⟨first, rest, f, fields'', rfl, -, -, -⟩ := hread'.walk.exists_cons
    rw [List.map_cons, List.map_cons]
    rcases hread'.shorter_or_take hfirst with hshorter | ⟨groups'', heq⟩
    · have hlt : first.length < (words.take (k + 1)).length := by
        rw [List.length_take_of_le hk]
        exact Nat.lt_succ_of_le (hshorter first rfl)
      exact le_of_lt (.rel hlt)
    · cases heq
      exact List.cons_le_cons _ (hgreatest _ _ hread')

end Greediest

/-- A path is that of the greediest reading, and a failure means that there is no reading. -/
def TakesGreediest (s : Schema) (t : DocumentType) (k : Nat) (words : List String) :
    Except String (List String) → Prop
  | .ok path => ∃ groups fields, s.Greediest t k words groups fields ∧ path = fields.map Field.name
  | .error _ => ∀ groups fields, s.Reading t words groups fields → ¬ FirstWithin k groups

/-- Where nothing is read from a first group of as many words as there may be, it may as well have
fewer. -/
theorem TakesGreediest.widen {outcome : Except String (List String)}
    (h : s.TakesGreediest t k words outcome)
    (hnone : ∀ groups fields, ¬ s.Reading t words (words.take (k + 1) :: groups) fields) :
    s.TakesGreediest t (k + 1) words outcome := by
  have hshorter : ∀ groups fields, s.Reading t words groups fields → FirstWithin (k + 1) groups →
      FirstWithin k groups := by
    intro groups fields hread hfirst
    rcases hread.shorter_or_take hfirst with hshorter | ⟨groups', rfl⟩
    · exact hshorter
    · exact absurd hread (hnone groups' fields)
  cases outcome with
  | ok path =>
    obtain ⟨groups, fields, hgreediest, hpath⟩ := h
    exact ⟨groups, fields, hgreediest.widen hshorter, hpath⟩
  | error remainder =>
    exact fun groups fields hread hfirst =>
      h groups fields hread (hshorter groups fields hread hfirst)

/-- The resolver tries the first groups from the longest on, so that what it finds first is greediest
and what it does not find is not there. -/
theorem takesGreediest_resolveWords (s : Schema) (t : DocumentType) (words : List String) (k : Nat)
    (deepest : String) (hk : k ≤ words.length) :
    s.TakesGreediest t k words (s.resolveWords t words k deepest) := by
  fun_induction resolveWords s t words k deepest with
  | case1 => exact fun _ _ hread => hread.not_firstWithin_zero
  -- the first `k + 1` words name no field
  | case2 t words k deepest hfield ih =>
    refine (ih (Nat.le_of_succ_le hk)).widen fun groups fields hread => ?_
    obtain ⟨f, -, -, hfound, -⟩ := hread.of_take hk
    rw [hfield] at hfound
    cases hfound
  -- all words name a field
  | case3 t words k deepest f hfield hlength =>
    have htake : words.take (k + 1) = words := List.take_of_length_le hlength
    refine ⟨[words.take (k + 1)], [f], .of_take hk ?_ fun groups fields hread => ?_, rfl⟩
    · rw [htake] at hfield ⊢
      exact .of_spells ⟨List.ne_nil_of_length_pos (Nat.zero_lt_of_lt hk), hfield⟩
    · obtain ⟨g, fields', -, -, ⟨-, rfl⟩ | ⟨u, -, hrest⟩⟩ := hread.of_take hk
      · exact le_rfl
      · exact absurd (List.drop_eq_nil_iff.mpr hlength) hrest.words_ne_nil
  -- the field is no reference
  | case4 t words k deepest f hfield hlength htarget ih =>
    refine (ih (Nat.le_of_succ_le hk)).widen fun groups fields hread => ?_
    obtain ⟨u, -, hu, -⟩ := hread.behind_take (Nat.lt_of_not_le hlength) hfield
    rw [htarget] at hu
    cases hu
  -- the words behind the reference are found, or not, from the type that it leads to
  | case5 t words k deepest f hfield hlength u htarget rest path hrest ih =>
    have htaken := ih le_rfl
    rw [hrest] at htaken
    obtain ⟨groups, fields, hgreediest, rfl⟩ := htaken
    refine ⟨words.take (k + 1) :: groups, f :: fields,
      .of_take hk ?_ fun groups' fields' hread => ?_, rfl⟩
    · refine .take_cons ⟨fun hnil => ?_, hfield⟩ htarget hgreediest.reading
      rw [List.take_eq_nil_iff, or_iff_right k.succ_ne_zero] at hnil
      exact List.ne_nil_of_length_pos (Nat.zero_lt_of_lt hk) hnil
    · obtain ⟨v, fields'', hv, hread'⟩ := hread.behind_take (Nat.lt_of_not_le hlength) hfield
      rw [htarget] at hv
      cases hv
      exact hgreediest.greatest groups' fields'' hread' hread'.firstWithin
  | case6 t words k deepest f hfield hlength u htarget rest remainder hrest ihrest ih =>
    refine (ih (Nat.le_of_succ_le hk)).widen fun groups fields hread => ?_
    have hnone := ihrest le_rfl
    rw [hrest] at hnone
    obtain ⟨v, fields', hv, hread'⟩ := hread.behind_take (Nat.lt_of_not_le hlength) hfield
    rw [htarget] at hv
    cases hv
    exact hnone groups fields' hread' hread'.firstWithin

end

end Schema

end DocumentEngine
