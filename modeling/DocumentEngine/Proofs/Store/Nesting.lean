import DocumentEngine.Proofs.Json.Depth
import DocumentEngine.Proofs.Store.Files

/-!
The nesting of stored documents. A tree is nested within a bound for each directory where its files
are unfinished writes or documents no deeper than the bound. The documents of such a tree can be
read again exactly where they are no deeper than the limit of the reader, and a fetch fails for the
content of a file exactly where one of them is deeper.
-/

namespace DocumentEngine

open Action

/-- A printed document is read again as a document that stands for it. -/
theorem Json.InRange.stands_of_ofText? {doc read : Document} (h : Json.InRange (.obj doc))
    (hread : Json.ofText? (Json.pretty (.obj doc)) = some (.obj read)) :
    Json.Stands (.obj read) (.obj doc) := by
  rcases Nat.lt_or_ge Json.maxDepth (Json.obj doc).depth with hdeep | hdepth
  · rw [h.ofText?_deep hdeep] at hread
    cases hread
  · obtain ⟨found, hfound, hstands⟩ := h.ofText?_obj hdepth
    rw [hfound] at hread
    cases hread
    exact hstands

namespace Store

variable {s : Store} {type id : String} {doc : Document} {files files' : FileTree}
  {bound bound' : List String → Nat}

/-- A document whose numbers fit their kinds, nested no deeper than a bound. -/
structure Bounded (doc : Document) (d : Nat) : Prop where
  inRange : Json.InRange (.obj doc)
  depth : (Json.obj doc).depth ≤ d

theorem Bounded.mono {d d' : Nat} (h : Bounded doc d) (hle : d ≤ d') : Bounded doc d' :=
  ⟨h.inRange, h.depth.trans hle⟩

/-- Every file of a tree is an unfinished write, or holds a document that is nested no deeper than
the bound of its directory. -/
structure Nested (bound : List String → Nat) (files : FileTree) : Prop where
  sound : files.Sound
  files : ∀ place text, files.get? place = some (.file text) →
    place.getLast?.any isTempName = true ∨
      ∃ doc, text = some (Json.pretty (.obj doc)) ∧ Bounded doc (bound place.dropLast)

/-- A directory to which the paths of documents of a type lead. -/
def Home (s : Store) (type : String) (dir : List String) : Prop :=
  ∃ name place, s.Leads type name place ∧ place.dropLast = dir

/-- In a plain directory all documents of a type are at home. -/
theorem Home.eq_of_plain {dir : List String} (h : s.Home type dir) (hdir : s.PlainDir type) :
    dir = (s.typeDir type).steps := by
  obtain ⟨name, place, hleads, rfl⟩ := h
  rw [hleads.eq_of_plain hdir, List.dropLast_concat]

/-- A tree without files is nested within any bound. -/
theorem Nested.of_no_files (hsound : files.Sound)
    (h : ∀ place text, files.get? place ≠ some (.file text)) : Nested bound files :=
  ⟨hsound, fun place text hplace => absurd hplace (h place text)⟩

/-- What a path of a document leads to is no unfinished write, and so it holds a document. -/
theorem Nested.exists_of_leads (h : Nested bound files) {name : String} {place : List String}
    {text : Option String} (hleads : s.Leads type name place) (htemp : isTempName name = false)
    (hheld : files.get? place = some (.file text)) :
    ∃ doc, text = some (Json.pretty (.obj doc)) ∧ Bounded doc (bound place.dropLast) := by
  rcases h.files place text hheld with hunfinished | hdoc
  · rw [hleads.getLast?, Option.any_some, htemp] at hunfinished
    cases hunfinished
  · exact hdoc

/-- A document that is read is nested no deeper than its home allows. -/
theorem Nested.bounded_of_leads (h : Nested bound files) {name text : String} {place : List String}
    (hleads : s.Leads type name place) (htemp : isTempName name = false)
    (hheld : files.get? place = some (.file (some text)))
    (hread : Json.ofText? text = some (.obj doc)) :
    ∃ dir, s.Home type dir ∧ Bounded doc (bound dir) := by
  obtain ⟨own, htext, hbounded⟩ := h.exists_of_leads hleads htemp hheld
  cases htext
  have hstands := hbounded.inRange.stands_of_ofText? hread
  exact ⟨_, ⟨name, place, hleads, rfl⟩, hstands.inRange, hstands.depth.trans hbounded.depth⟩

theorem Nested.bounded_of_mem_stored (h : Nested bound files) {docs : List Document}
    (hdocs : s.stored files type = .ok docs) (hdoc : doc ∈ docs) :
    ∃ dir, s.Home type dir ∧ Bounded doc (bound dir) := by
  obtain ⟨name, place, text, htemp, hleads, hheld, hread⟩ :=
    leads_of_mem_stored h.sound hdocs hdoc
  exact h.bounded_of_leads hleads htemp hheld hread

theorem Nested.bounded_of_find? (h : Nested bound files)
    (hfind : s.find? files type id = .ok (some doc)) :
    ∃ dir, s.Home type dir ∧ Bounded doc (bound dir) := by
  obtain ⟨htemp, place, text, hleads, hheld, hread⟩ := leads_of_find? hfind
  exact h.bounded_of_leads hleads htemp hheld hread

/-- A change that leaves no file but those that there were keeps a tree nested, within any bound
that is no less. -/
theorem Nested.of_lessened (h : Nested bound files) (hle : ∀ dir, bound dir ≤ bound' dir)
    (hless : Lessened files files') : Nested bound' files' := by
  refine ⟨hless.sound h.sound, fun place text hplace => ?_⟩
  rcases h.files place text (hless.files place text hplace) with hunfinished | ⟨doc, htext, hdoc⟩
  · exact .inl hunfinished
  · exact .inr ⟨doc, htext, hdoc.mono (hle place.dropLast)⟩

/-- A write keeps a tree nested within a bound that is no less, and that the document keeps. -/
theorem Nested.of_written (h : Nested bound files) (hle : ∀ dir, bound dir ≤ bound' dir)
    {result : Except StoreError Unit} (hwritten : s.Written type id doc files files' result)
    (hdoc : result = .ok () → ∀ dir, s.Home type dir → Bounded doc (bound' dir)) :
    Nested bound' files' := by
  refine ⟨hwritten.sound h.sound, fun place text hplace => ?_⟩
  rcases hwritten.files place text hplace with hold | hunfinished | ⟨hok, hleads, rfl⟩
  · rcases h.files place text hold with hunfinished | ⟨own, htext, hown⟩
    · exact .inl hunfinished
    · exact .inr ⟨own, htext, hown.mono (hle place.dropLast)⟩
  · exact .inl hunfinished
  · exact .inr ⟨doc, rfl, hdoc hok place.dropLast ⟨id, place, hleads, rfl⟩⟩

/-- The text of a file is a document that is nested deeper than the reader goes. -/
def HoldsDeep (files : FileTree) (path : Path) : Prop :=
  ∃ doc, files.readText path = .ok (Json.pretty (.obj doc)) ∧ Json.InRange (.obj doc) ∧
    Json.maxDepth < (Json.obj doc).depth

/-- The files of a type in a nested tree hold printed documents. -/
theorem Nested.readText_eq (h : Nested bound files) {paths : List Path}
    (hpaths : s.documentFiles files type = .ok paths) {path : Path} (hpath : path ∈ paths) :
    ∃ doc dir, files.readText path = .ok (Json.pretty (.obj doc)) ∧ s.Home type dir ∧
      Bounded doc (bound dir) := by
  obtain ⟨name, place, text, htemp, rfl, hleads, hplace, hheld⟩ :=
    leads_of_mem_documentFiles h.sound hpaths hpath
  obtain ⟨doc, rfl, hbounded⟩ := h.exists_of_leads hleads htemp hheld
  exact ⟨doc, _, FileTree.readText_of_locate hplace hheld, ⟨name, place, hleads, rfl⟩, hbounded⟩

/-- A printed document is read, or it is refused for its depth. -/
theorem readDocument?_of_readText {path : Path} (hrange : Json.InRange (.obj doc))
    (htext : files.readText path = .ok (Json.pretty (.obj doc))) :
    ((∃ read, readDocument? files path = .ok (some read)) ∧
      (Json.obj doc).depth ≤ Json.maxDepth) ∨
    readDocument? files path = .error (.decode path .unreadable) ∧
      Json.maxDepth < (Json.obj doc).depth := by
  unfold readDocument? decode
  rw [htext]
  dsimp only
  rcases Nat.lt_or_ge Json.maxDepth (Json.obj doc).depth with hdeep | hdepth
  · rw [hrange.ofText?_deep hdeep]
    exact .inr ⟨rfl, hdeep⟩
  · obtain ⟨read, hread, -⟩ := hrange.ofText?_obj hdepth
    rw [hread]
    exact .inl ⟨⟨read, rfl⟩, hdepth⟩

/-- A file is refused exactly where it holds a document that is too deep. -/
theorem readDocument?_eq_error_iff {path : Path} (hrange : Json.InRange (.obj doc))
    (htext : files.readText path = .ok (Json.pretty (.obj doc))) :
    readDocument? files path = .error (.decode path .unreadable) ↔ HoldsDeep files path := by
  constructor
  · intro hrefused
    rcases readDocument?_of_readText hrange htext with ⟨⟨read, hread⟩, -⟩ | ⟨-, hdeep⟩
    · rw [hrefused] at hread
      cases hread
    · exact ⟨doc, htext, hrange, hdeep⟩
  · rintro ⟨own, hown, hrange', hdeep⟩
    rcases readDocument?_of_readText hrange' hown with ⟨-, hdepth⟩ | ⟨hrefused, -⟩
    · exact absurd hdeep (Nat.not_lt_of_le hdepth)
    · exact hrefused

/-- Where each file is read or refused, reading them all fails where one of them is refused. -/
theorem documents_decode_iff {paths : List Path} (hpaths : ∀ path ∈ paths,
      (∃ read, readDocument? files path = .ok (some read)) ∨
        readDocument? files path = .error (.decode path .unreadable)) :
    (∃ path fault, documents files paths = .error (.decode path fault)) ↔
      ∃ path ∈ paths, readDocument? files path = .error (.decode path .unreadable) := by
  induction paths with
  | nil =>
    constructor
    · rintro ⟨path, fault, hfailed⟩
      cases hfailed
    · rintro ⟨path, hpath, -⟩
      cases hpath
  | cons path paths ih =>
    have hrest := ih fun other hother => hpaths other (List.mem_cons_of_mem path hother)
    rw [documents]
    rcases hpaths path List.mem_cons_self with ⟨read, hread⟩ | hrefused
    · rw [hread]
      dsimp only
      constructor
      · rintro ⟨other, fault, hfailed⟩
        cases hothers : documents files paths with
        | ok docs =>
          rw [hothers] at hfailed
          cases hfailed
        | error cause =>
          rw [hothers] at hfailed
          cases hfailed
          obtain ⟨refused, hmem, hrefused⟩ := hrest.mp ⟨other, fault, hothers⟩
          exact ⟨refused, List.mem_cons_of_mem path hmem, hrefused⟩
      · rintro ⟨refused, hmem, hrefused⟩
        rcases List.mem_cons.mp hmem with rfl | hmem
        · rw [hrefused] at hread
          cases hread
        · obtain ⟨other, fault, hfailed⟩ := hrest.mpr ⟨refused, hmem, hrefused⟩
          rw [hfailed]
          exact ⟨other, fault, rfl⟩
    · rw [hrefused]
      exact ⟨fun _ => ⟨path, List.mem_cons_self, hrefused⟩, fun _ => ⟨path, .unreadable, rfl⟩⟩

/-- A fetch from a nested tree fails for the content of a file exactly where a file of the type
holds a document that is nested deeper than the reader goes. -/
theorem Nested.found_decode_iff (h : Nested bound files)
    (ht : (s.schema.type? type).isSome = true) (query : Query) :
    (∃ path fault, s.found files type query = .error (.decode path fault)) ↔
      ∃ paths, s.documentFiles files type = .ok paths ∧ ∃ path ∈ paths, HoldsDeep files path := by
  obtain ⟨t, ht⟩ := Option.isSome_iff_exists.mp ht
  unfold found stored
  rw [ht]
  dsimp only
  cases hpaths : s.documentFiles files type with
  | error cause =>
    constructor
    · rintro ⟨path, fault, hfailed⟩
      unfold documentFiles at hpaths
      dsimp only at hpaths
      split at hpaths
      · cases hpaths
      · cases hpaths
        cases hfailed
      · cases hpaths
    · rintro ⟨paths, hok, -⟩
      cases hok
  | ok paths =>
    have hread : ∀ path ∈ paths, (∃ read, readDocument? files path = .ok (some read)) ∨
        readDocument? files path = .error (.decode path .unreadable) := by
      intro path hpath
      obtain ⟨doc, dir, htext, -, hdoc⟩ := h.readText_eq hpaths hpath
      rcases readDocument?_of_readText hdoc.inRange htext with ⟨hread, -⟩ | ⟨hrefused, -⟩
      · exact .inl hread
      · exact .inr hrefused
    have hrefused : ∀ path ∈ paths, readDocument? files path = .error (.decode path .unreadable) ↔
        HoldsDeep files path := by
      intro path hpath
      obtain ⟨doc, dir, htext, -, hdoc⟩ := h.readText_eq hpaths hpath
      exact readDocument?_eq_error_iff hdoc.inRange htext
    have hdocuments := documents_decode_iff hread
    constructor
    · rintro ⟨path, fault, hfailed⟩
      cases hdocs : documents files paths with
      | ok docs =>
        change (documents files paths).map _ = _ at hfailed
        rw [hdocs] at hfailed
        cases hfailed
      | error cause =>
        change (documents files paths).map _ = _ at hfailed
        rw [hdocs] at hfailed
        cases hfailed
        obtain ⟨other, hother, hdeep⟩ := hdocuments.mp ⟨path, fault, hdocs⟩
        exact ⟨paths, rfl, other, hother, (hrefused other hother).mp hdeep⟩
    · rintro ⟨_, hok, path, hpath, hdeep⟩
      cases hok
      obtain ⟨other, fault, hfailed⟩ := hdocuments.mpr ⟨path, hpath, (hrefused path hpath).mpr hdeep⟩
      refine ⟨other, fault, ?_⟩
      change (documents files paths).map _ = _
      rw [hfailed]
      rfl

/-- A fetch fails for the content of a file. -/
def FailsToDecode (s : Store) (state : State) (type : String) (query : Query) : Prop :=
  ∃ path fault, (exec (s.fetch type query) state).1 = .error (.decode path fault)

/-- Every stored document of a type is read again, and no fetch fails for the content of a file. -/
structure Legible (s : Store) (state : State) (type : String) : Prop where
  decoded : ∀ paths, s.documentFiles state.files type = .ok paths → ∀ path ∈ paths,
    ∃ doc, readDocument? state.files path = .ok (some doc)
  fetched : ∀ query, ¬ s.FailsToDecode state type query

variable {state : State}

theorem Nested.failsToDecode_iff (h : Nested bound state.files)
    (ht : (s.schema.type? type).isSome = true) (query : Query) :
    s.FailsToDecode state type query ↔ ∃ paths, s.documentFiles state.files type = .ok paths ∧
      ∃ path ∈ paths, HoldsDeep state.files path := by
  obtain ⟨fetched, hfetch, -⟩ := s.exec_fetch type query state
  unfold FailsToDecode
  rw [hfetch]
  exact h.found_decode_iff ht query

/-- Where the bound is within the reach of the reader, a type is legible. -/
theorem Nested.legible (h : Nested bound state.files)
    (ht : (s.schema.type? type).isSome = true)
    (hbound : ∀ dir, s.Home type dir → bound dir ≤ Json.maxDepth) : s.Legible state type := by
  have hall : ∀ paths, s.documentFiles state.files type = .ok paths → ∀ path ∈ paths,
      (∃ doc, readDocument? state.files path = .ok (some doc)) ∧ ¬ HoldsDeep state.files path := by
    intro paths hpaths path hpath
    obtain ⟨doc, dir, htext, hhome, hdoc⟩ := h.readText_eq hpaths hpath
    rcases readDocument?_of_readText hdoc.inRange htext with ⟨⟨read, hread⟩, -⟩ | ⟨-, hdeep⟩
    · refine ⟨⟨read, hread⟩, fun hdeep => ?_⟩
      rw [(readDocument?_eq_error_iff hdoc.inRange htext).mpr hdeep] at hread
      cases hread
    · exact absurd (hdoc.depth.trans (hbound dir hhome)) (Nat.not_le_of_lt hdeep)
  refine ⟨fun paths hpaths path hpath => (hall paths hpaths path hpath).1, fun query hfailed => ?_⟩
  obtain ⟨paths, hpaths, path, hpath, hdeep⟩ := (h.failsToDecode_iff ht query).mp hfailed
  exact (hall paths hpaths path hpath).2 hdeep

end Store

end DocumentEngine
