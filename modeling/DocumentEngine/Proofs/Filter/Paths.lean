import DocumentEngine.Proofs.Filter.Remainders
import DocumentEngine.Proofs.State

/-!
Field paths as a whole. A name without dots is looked up as its words are; dotted parts are looked
up one behind the other. The path that is found names each field exactly, and is found again as it
is.
-/

namespace DocumentEngine

/-- A field that is found by its own name, also where the name is looked up as a path. -/
structure DocumentType.Rereads (t : DocumentType) (name : String) (f : Field) : Prop where
  exact : t.field? name = some f
  again : t.looseField? (Text.lowerFirst name) = some f
  named : name ≠ ""
  undotted : '.' ∉ name.toList

/-- A field that words without dots spell is found by its own name. -/
theorem DocumentType.Spells.rereads {t : DocumentType} {words : List String} {f : Field}
    (h : t.Spells words f) (hwords : ∀ word ∈ words, word ≠ "" ∧ '.' ∉ word.toList) :
    t.Rereads f.name f := by
  obtain ⟨hne, hfield⟩ := h
  have hlower : Text.lowerFirst f.name = Schema.fieldName words := by
    rw [lowerFirst_of_looseField? hfield, Schema.fieldName, Text.lowerFirst_lowerFirst]
  refine ⟨field?_of_looseField? hfield, by rw [hlower, hfield], fun hempty => ?_, fun hdot => ?_⟩
  · rw [← Text.lowerFirst_eq_empty_iff, hlower, Schema.fieldName,
      Text.lowerFirst_eq_empty_iff] at hempty
    obtain ⟨word, words, rfl⟩ := List.exists_cons_of_ne_nil hne
    rw [Text.concat_cons, String.append_eq_empty_iff] at hempty
    exact (hwords word List.mem_cons_self).1 hempty.1
  · rw [← Text.dot_mem_lowerFirst_iff, hlower, Schema.fieldName, Text.dot_mem_lowerFirst_iff,
      Text.mem_concat_iff] at hdot
    obtain ⟨word, hword, hmem⟩ := hdot
    exact (hwords word hword).2 hmem

namespace Schema

variable {s : Schema} {t u : DocumentType} {field whole name part p : String}
  {parts path names : List String} {f : Field} {fields : List Field}

/-- What is found for a part without dots is found again by its names. -/
theorem exists_walk_of_resolveWords (hdot : '.' ∉ part.toList)
    (h : s.resolveWords t (Text.camelWords part) (Text.camelWords part).length
      (fieldName (Text.camelWords part)) = .ok path) :
    ∃ fields, s.Walk DocumentType.Rereads t path fields := by
  have htaken := takesGreediest_resolveWords s t (Text.camelWords part) _
    (fieldName (Text.camelWords part)) le_rfl
  rw [h] at htaken
  obtain ⟨groups, fields, hgreediest, rfl⟩ := htaken
  refine ⟨fields, hgreediest.reading.walk.renamed Field.name fun t group hgroup f hspells => ?_⟩
  refine hspells.rereads fun word hword => ?_
  have hmem : word ∈ Text.camelWords part :=
    hgreediest.reading.whole ▸ List.mem_flatten_of_mem hgroup hword
  exact ⟨Text.ne_empty_of_mem_camelWords hmem,
    fun hdotted => hdot (Text.subset_of_mem_camelWords hmem hdotted)⟩

theorem follow?_cons (hfield : t.field? name = some f) :
    s.follow? t (name :: path) = (f.target? >>= s.type?) >>= (s.follow? · path) := by
  rw [follow?, hfield]
  exact (bind_assoc f.target? s.type? _).symm

/-- The fields of a walk that is followed to its end are references. -/
theorem Walk.passage (h : s.Walk DocumentType.Rereads t names fields)
    (hfollow : s.follow? t names = some u) : s.Passage DocumentType.Rereads t names u := by
  induction h with
  | last field =>
    rw [follow?_cons field.exact] at hfollow
    obtain ⟨v, htarget, hv⟩ := Option.bind_eq_some_iff.mp hfollow
    cases hv
    exact .step field htarget (.here _)
  | step field target _ ih =>
    rw [follow?_cons field.exact, target] at hfollow
    exact .step field target (ih hfollow)

theorem resolveParts_cons_eq_ok (h : s.resolveParts whole t (part :: parts) = .ok path) :
    ∃ front, s.resolveWords t (Text.camelWords part) (Text.camelWords part).length
        (fieldName (Text.camelWords part)) = .ok front ∧
      (parts = [] ∧ path = front ∨ parts ≠ [] ∧ ∃ u back, s.follow? t front = some u ∧
        s.resolveParts whole u parts = .ok back ∧ path = front ++ back) := by
  unfold resolveParts at h
  dsimp only at h
  split at h
  · cases h
  obtain ⟨front, hfront, h⟩ := Except.exists_of_bind_eq_ok h
  refine ⟨front, hfront, ?_⟩
  cases parts with
  | nil =>
    cases h
    exact .inl ⟨rfl, rfl⟩
  | cons next parts =>
    dsimp only at h
    cases hfollow : s.follow? t front with
    | none =>
      rw [hfollow] at h
      cases h
    | some u =>
      rw [hfollow] at h
      obtain ⟨back, hback, h⟩ := Except.exists_of_bind_eq_ok h
      cases h
      exact .inr ⟨List.cons_ne_nil next parts, u, back, rfl, hback, rfl⟩

theorem exists_walk_of_resolveParts (h : s.resolveParts whole t parts = .ok path) (hne : parts ≠ [])
    (hdot : ∀ part ∈ parts, '.' ∉ part.toList) :
    ∃ fields, s.Walk DocumentType.Rereads t path fields := by
  induction parts generalizing t path with
  | nil => exact absurd rfl hne
  | cons part parts ih =>
    rw [List.forall_mem_cons] at hdot
    obtain ⟨front, hfront, hrest⟩ := resolveParts_cons_eq_ok h
    obtain ⟨fields, hwalk⟩ := exists_walk_of_resolveWords hdot.1 hfront
    rcases hrest with ⟨-, rfl⟩ | ⟨hparts, u, back, hfollow, hback, rfl⟩
    · exact ⟨fields, hwalk⟩
    · obtain ⟨fields', hwalk'⟩ := ih hback hparts hdot.2
      obtain ⟨more, hmore⟩ := (hwalk.passage hfollow).append_walk hwalk'
      exact ⟨more ++ fields', hmore⟩

/-- Every path that is found has the names of a walk. -/
theorem exists_walk_of_resolvePath (h : s.resolvePath t field = .ok p) :
    ∃ names fields, s.Walk DocumentType.Rereads t names fields ∧ p = ".".intercalate names := by
  obtain ⟨names, hnames, h⟩ := Except.exists_of_bind_eq_ok h
  cases h
  have hne : Text.splitAt '.' field ≠ [] :=
    List.map_eq_nil_iff.not.mpr (Text.splitChars_ne_nil '.' field.toList)
  obtain ⟨fields, hwalk⟩ := exists_walk_of_resolveParts hnames hne fun _ hpart =>
    Text.notMem_of_mem_splitAt hpart
  exact ⟨names, fields, hwalk, rfl⟩

/-- The names of a walk are what its path is cut into. -/
theorem Walk.splitAt_eq (h : s.Walk DocumentType.Rereads t names fields) :
    Text.splitAt '.' (".".intercalate names) = names := by
  have hnames : names ≠ [] ∧ ∀ name ∈ names, '.' ∉ name.toList := by
    induction h with
    | last field =>
      exact ⟨List.cons_ne_nil _ _, List.forall_mem_singleton.mpr field.undotted⟩
    | step field _ _ ih =>
      exact ⟨List.cons_ne_nil _ _, List.forall_mem_cons.mpr ⟨field.undotted, ih.2⟩⟩
  exact Text.splitAt_intercalate hnames.1 hnames.2

/-! Names without dots -/

theorem resolvePath_of_notMem (hdot : '.' ∉ field.toList)
    (hwords : Text.camelWords field ≠ []) : s.resolvePath t field =
      (s.resolveWords t (Text.camelWords field) (Text.camelWords field).length
        (fieldName (Text.camelWords field))).map fun path => ".".intercalate path := by
  unfold resolvePath
  rw [Text.splitAt_of_notMem hdot, resolveParts]
  simp only [List.isEmpty_iff, if_neg hwords]
  cases s.resolveWords t (Text.camelWords field) (Text.camelWords field).length
    (fieldName (Text.camelWords field)) <;> rfl

/-- A name without dots is found where its words are read, and its path is that of the reading which
is greatest by the lengths of its groups. -/
theorem resolvePath_reading (hdot : '.' ∉ field.toList)
    (hwords : Text.camelWords field ≠ []) :
    (∀ p, s.resolvePath t field = .ok p → ∃ groups fields,
      s.Reading t (Text.camelWords field) groups fields ∧
      (∀ groups' fields', s.Reading t (Text.camelWords field) groups' fields' →
        groups'.map List.length ≤ groups.map List.length) ∧
      p = ".".intercalate (fields.map Field.name)) ∧
    ∀ remainder, s.resolvePath t field = .error remainder →
      ∀ groups fields, ¬ s.Reading t (Text.camelWords field) groups fields := by
  have htaken := takesGreediest_resolveWords s t (Text.camelWords field) _
    (fieldName (Text.camelWords field)) le_rfl
  rw [resolvePath_of_notMem hdot hwords]
  cases hfound : s.resolveWords t (Text.camelWords field) (Text.camelWords field).length
    (fieldName (Text.camelWords field)) with
  | ok names =>
    rw [hfound] at htaken
    obtain ⟨groups, fields, hgreediest, rfl⟩ := htaken
    refine ⟨?_, nofun⟩
    rintro p ⟨⟩
    exact ⟨groups, fields, hgreediest.reading, fun groups' fields' hread =>
      hgreediest.greatest groups' fields' hread hread.firstWithin, rfl⟩
  | error remainder =>
    rw [hfound] at htaken
    exact ⟨nofun, fun _ _ groups fields hread => htaken groups fields hread hread.firstWithin⟩

/-- What is told of an ASCII name without dots that names no field: the words behind the most that
lead through references. -/
theorem exists_passable_of_resolvePath {remainder : String} (hdot : '.' ∉ field.toList)
    (hwords : Text.camelWords field ≠ []) (hascii : ∀ c ∈ field.toList, c.toNat < 0x80)
    (h : s.resolvePath t field = .error remainder) :
    ∃ front rest, front ++ rest = Text.camelWords field ∧ s.Passable t front ∧
      (∀ front', front' <+: Text.camelWords field → s.Passable t front' →
        front'.length ≤ front.length) ∧ remainder = fieldName rest := by
  have hplain : Plain (Text.camelWords field) := by
    intro word hword
    exact ⟨Text.ne_empty_of_mem_camelWords hword,
      fun c hc => hascii c (Text.subset_of_mem_camelWords hword hc)⟩
  rw [resolvePath_of_notMem hdot hwords] at h
  cases hfailed : s.resolveWords t (Text.camelWords field) (Text.camelWords field).length
    (fieldName (Text.camelWords field)) with
  | ok names =>
    rw [hfailed] at h
    cases h
  | error remainder =>
    rw [hfailed] at h
    cases h
    obtain ⟨rest, hleast, hsaid⟩ := exists_leavesLeast_of_resolveWords s t _ _ _ le_rfl hplain
      ⟨_, .all s t _, rfl⟩ remainder hfailed
    obtain ⟨front, hpassable, hwhole, hlongest⟩ := hleast.exists_front
    exact ⟨front, rest, hwhole, hpassable, hlongest, hsaid⟩

/-- A name without dots is found exactly where its words are read as a walk, and its path names the
fields of the walk that has the longest first group, then the longest second one, and so on. Where
there is no walk, an ASCII name is answered with the words behind the most of them that lead through
references alone. Of every name, dotted ones as well, the path names a walk field by field,
exactly. -/
theorem resolvePath_walks (s : Schema) (t : DocumentType) (field : String) :
    ('.' ∉ field.toList → Text.camelWords field ≠ [] →
      ((∃ p, s.resolvePath t field = .ok p) ↔
        ∃ groups fields, s.Reading t (Text.camelWords field) groups fields) ∧
      (∀ p, s.resolvePath t field = .ok p → ∃ groups fields,
        s.Reading t (Text.camelWords field) groups fields ∧
        (∀ groups' fields', s.Reading t (Text.camelWords field) groups' fields' →
          groups'.map List.length ≤ groups.map List.length) ∧
        p = ".".intercalate (fields.map Field.name)) ∧
      ∀ remainder, s.resolvePath t field = .error remainder →
        (∀ c ∈ field.toList, c.toNat < 0x80) →
        ∃ front rest, front ++ rest = Text.camelWords field ∧ s.Passable t front ∧
          (∀ front', front' <+: Text.camelWords field → s.Passable t front' →
            front'.length ≤ front.length) ∧ remainder = fieldName rest) ∧
    ∀ p, s.resolvePath t field = .ok p →
      ∃ fields, s.Walk DocumentType.Has t (Text.splitAt '.' p) fields := by
  refine ⟨fun hdot hwords => ?_, fun p hp => ?_⟩
  · obtain ⟨hfound, hfailed⟩ := resolvePath_reading (s := s) (t := t) hdot hwords
    refine ⟨⟨fun ⟨p, hp⟩ => ?_, fun ⟨groups, fields, hread⟩ => ?_⟩, hfound,
      fun _ hremainder hascii => exists_passable_of_resolvePath hdot hwords hascii hremainder⟩
    · obtain ⟨groups, fields, hread, -⟩ := hfound p hp
      exact ⟨groups, fields, hread⟩
    · cases hp : s.resolvePath t field with
      | ok p => exact ⟨p, rfl⟩
      | error remainder => exact absurd hread (hfailed remainder hp groups fields)
  · obtain ⟨names, fields, hwalk, rfl⟩ := exists_walk_of_resolvePath hp
    rw [hwalk.splitAt_eq]
    exact ⟨fields, hwalk.imp fun t name f hrereads => hrereads.exact⟩

/-- Persons with a name and a friend, who is a person. -/
def person : DocumentType where
  name := "Person"
  fields := [.ofScalar "name" .string, .ofReference "friend" "Person"]

/-- The schema of persons alone, who refer to each other. -/
def persons : Schema := ⟨[person]⟩

theorem type?_person : persons.type? "Person" = some person := by decide

theorem looseField?_person :
    person.looseField? (fieldName ["friend"]) = some (.ofReference "friend" "Person") ∧
    person.looseField? (fieldName ["Name"]) = some (.ofScalar "name" .string) ∧
    ∀ words ∈ [["friend", "Name"], ["friend", "Zip"], ["Zip"]],
      person.looseField? (fieldName words) = none := by
  decide +kernel

theorem camelWords_person : Text.camelWords "friendName" = ["friend", "Name"] ∧
    Text.camelWords "friendZip" = ["friend", "Zip"] := by decide

theorem resolvePath_friendName : persons.resolvePath person "friendName" = .ok "friend.name" := by
  obtain ⟨hfriend, hname, hnone⟩ := looseField?_person
  have hall := hnone ["friend", "Name"] (by simp)
  rw [resolvePath_of_notMem (by decide) (by decide), camelWords_person.1]
  simp [resolveWords, hall, hfriend, hname, type?_person, Field.ofReference, Field.ofScalar,
    Field.target?, Except.map]

theorem resolvePath_friendZip : persons.resolvePath person "friendZip" = .error "zip" := by
  obtain ⟨hfriend, -, hnone⟩ := looseField?_person
  have hall := hnone ["friend", "Zip"] (by simp)
  have hzip := hnone ["Zip"] (by simp)
  have hsizes : (fieldName ["Zip"]).utf8ByteSize < (fieldName ["friend", "Zip"]).utf8ByteSize := by
    decide +kernel
  have hsaid : fieldName ["Zip"] = "zip" := by decide +kernel
  rw [resolvePath_of_notMem (by decide) (by decide), camelWords_person.2]
  simpa [resolveWords, hall, hfriend, hzip, type?_person, Field.ofReference, Field.target?,
    Except.map, hsizes] using hsaid

theorem resolvePath_walks_person :
    ('.' ∉ "friendName".toList ∧ Text.camelWords "friendName" ≠ [] ∧
      ∃ p, persons.resolvePath person "friendName" = .ok p) ∧
    (∃ front rest, front ++ rest = ["friend", "Zip"] ∧ persons.Passable person front ∧
      "zip" = fieldName rest) ∧
    ∃ fields, persons.Walk DocumentType.Has person ["friend", "name"] fields := by
  obtain ⟨hfriend, hname, -⟩ := looseField?_person
  refine ⟨⟨by decide, by decide, ?_⟩, ?_, ?_⟩
  · have hwhole : [["friend"], ["Name"]].flatten = Text.camelWords "friendName" := by
      rw [camelWords_person.1]
      rfl
    exact ((resolvePath_walks persons person "friendName").1 (by decide) (by decide)).1.mpr
      ⟨_, _, hwhole, .step ⟨by decide, hfriend⟩ type?_person (.last ⟨by decide, hname⟩)⟩
  · have hascii : "friendZip".toList.all (fun c => decide (c.toNat < 0x80)) = true := by decide
    simp only [List.all_eq_true, decide_eq_true_eq] at hascii
    obtain ⟨front, rest, hwhole, hpassable, -, hzip⟩ :=
      ((resolvePath_walks persons person "friendZip").1 (by decide) (by decide)).2.2
        "zip" resolvePath_friendZip hascii
    rw [camelWords_person.2] at hwhole
    exact ⟨front, rest, hwhole, hpassable, hzip⟩
  · have hparts : Text.splitAt '.' "friend.name" = ["friend", "name"] := by decide
    rw [← hparts]
    exact (resolvePath_walks persons person "friendName").2 "friend.name" resolvePath_friendName

/-! Paths that are resolved again -/

theorem camelWords_ne_nil_of_rereads (h : t.Rereads name f) : Text.camelWords name ≠ [] :=
  fun hnil => h.named ((Text.isCut_camelWords name).eq_nil_iff.mp hnil)

/-- All words of a name that is found again are tried first, and spell the name. -/
theorem resolveWords_of_rereads (h : t.Rereads name f) (deepest : String) :
    s.resolveWords t (Text.camelWords name) (Text.camelWords name).length deepest = .ok [name] := by
  have hspelt : fieldName (Text.camelWords name) = Text.lowerFirst name := by
    rw [fieldName, Text.concat_camelWords]
  obtain ⟨k, hk⟩ := Nat.exists_eq_add_one_of_ne_zero
    (List.length_pos_of_ne_nil (camelWords_ne_nil_of_rereads h)).ne'
  have hall : (Text.camelWords name).take (k + 1) = Text.camelWords name :=
    List.take_of_length_le hk.le
  rw [hk, resolveWords, hall, hspelt, h.again]
  dsimp only
  rw [dif_pos hk.le, DocumentType.name_of_field? h.exact]

/-- The names of a walk are found one behind the other. -/
theorem Walk.resolveParts_eq (h : s.Walk DocumentType.Rereads t names fields) (whole : String) :
    s.resolveParts whole t names = .ok names := by
  induction h with
  | last field =>
    rw [resolveParts]
    simp only [List.isEmpty_iff, if_neg (camelWords_ne_nil_of_rereads field),
      resolveWords_of_rereads field]
    rfl
  | @step t u name f names fields field target rest ih =>
    obtain ⟨next, names, rfl⟩ : ∃ next rest, names = next :: rest := by
      obtain ⟨next, rest, -, -, hnames, -⟩ := rest.exists_cons
      exact ⟨next, rest, hnames⟩
    have hfollow : s.follow? t [name] = some u := by
      rw [follow?_cons field.exact, target]
      rfl
    rw [resolveParts]
    simp only [List.isEmpty_iff, if_neg (camelWords_ne_nil_of_rereads field),
      resolveWords_of_rereads field, bind, Except.bind, hfollow, ih]
    rfl

/-- A path that was found is found again as it is. -/
theorem resolvePath_resolved (h : s.resolvePath t field = .ok p) :
    s.resolvePath t p = .ok p := by
  obtain ⟨names, fields, hwalk, rfl⟩ := exists_walk_of_resolvePath h
  unfold resolvePath
  rw [hwalk.splitAt_eq, hwalk.resolveParts_eq]
  rfl

theorem resolvePath_resolved_person :
    persons.resolvePath person "friendName" = .ok "friend.name" ∧
      persons.resolvePath person "friend.name" = .ok "friend.name" :=
  ⟨resolvePath_friendName, resolvePath_resolved resolvePath_friendName⟩

end Schema

end DocumentEngine
