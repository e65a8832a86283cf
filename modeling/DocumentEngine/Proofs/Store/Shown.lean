import DocumentEngine.Pipeline.Rule
import DocumentEngine.Proofs.Evaluation.Hidden
import DocumentEngine.Proofs.Store.Fetch

/-!
Stores that differ only in documents that a filter hides. A fetch of the type that demands the
filter finds the same in both, and so does any fetch of another type, as long as no path that it
reads goes through a relation into the type.
-/

namespace DocumentEngine

open Evaluation

namespace Store

section

variable {s : Schema} {loader loader' : Loader} {hidden : String} {t : DocumentType}

theorem sortKeys_avoids (h : SameBeyond s hidden loader loader') (rules : List SortRule)
    (doc : Document) (memo : Memo)
    (hrules : s.allAvoid hidden t (rules.map SortRule.field) = true) :
    sortKeys s loader t doc memo rules = sortKeys s loader' t doc memo rules := by
  induction rules generalizing doc memo with
  | nil => rfl
  | cons rule rules ih =>
    rw [List.map_cons, Schema.allAvoid, List.all_cons, Bool.and_eq_true] at hrules
    simp only [sortKeys, resolvePath, resolve_avoids h _ doc memo hrules.1]
    rw [ih _ _ hrules.2]

/-- The row of a document is the same where no path of the query asks for a hidden document. -/
theorem row?_avoids (h : SameBeyond s hidden loader loader') (query : Query) (memo : Memo)
    (doc : Document) (hquery : s.allAvoid hidden t query.paths = true) :
    row? s loader t query memo doc = row? s loader' t query memo doc := by
  simp only [Schema.allAvoid, Query.paths, List.all_append, Bool.and_eq_true] at hquery
  obtain ⟨⟨hfilter, hsince⟩, hsort⟩ := hquery
  have hverdict : verdictOf s loader t query.filter memo doc =
      verdictOf s loader' t query.filter memo doc := by
    cases hf : query.filter with
    | none => rfl
    | some f =>
      rw [hf] at hfilter
      exact passes_avoids h f doc memo hfilter
  rw [row?_eq, row?_eq]
  simp only [rowMemo, hverdict, passesCursor_avoids h query.since _ _ hsince,
    sortKeys_avoids h query.sort _ _ hsort]

variable {g : Filter}

/-- A filter that demands another has its paths and those of the other. -/
theorem paths_require (query : Query) (g : Filter) {p : String}
    (hp : p ∈ Query.paths { query with filter := (FilterEdit.require g).apply query.filter }) :
    p ∈ query.paths ∨ p ∈ g.conditions.map Condition.field := by
  have hconditions : ∀ f : Filter, (Filter.all [f, g]).conditions = f.conditions ++ g.conditions := by
    intro f
    simp [Filter.all, Filter.conditions, Filter.listConditions]
  unfold Query.paths at hp ⊢
  cases hf : query.filter with
  | none =>
    simp only [hf, FilterEdit.apply, Option.elim_some, List.mem_append] at hp
    simp only [Option.elim_none, List.mem_append]
    tauto
  | some f =>
    simp only [hf, FilterEdit.apply, Option.elim_some, hconditions, List.map_append,
      List.mem_append] at hp
    simp only [Option.elim_some, List.mem_append]
    tauto

theorem allAvoid_require (hg : g.isOwn t = true) {query : Query}
    (hquery : s.allAvoid hidden t query.paths = true) :
    s.allAvoid hidden t (Query.paths
      { query with filter := (FilterEdit.require g).apply query.filter }) = true := by
  refine List.all_eq_true.mpr fun p hp => ?_
  rcases paths_require query g hp with hp | hp
  · exact List.all_eq_true.mp hquery p hp
  · obtain ⟨c, hc, rfl⟩ := List.mem_map.mp hp
    rw [(splitAt_of_isOwn hg hc).1]
    rfl

/-- A query that demands a filter has no row for a document that the filter hides. -/
theorem row?_of_hidden (hg : g.isOwn t = true) {doc : Document} (hdoc : g.shows doc = false)
    (query : Query) :
    (row? s loader t { query with filter := (FilterEdit.require g).apply query.filter } []
      doc).1 = none := by
  have hfails : (verdictOf s loader t ((FilterEdit.require g).apply query.filter) [] doc).holds =
      false := by
    cases hf : query.filter with
    | none =>
      have hverdict := passes_own (s := s) hg (Memo.faithful_nil loader) fun name _ =>
        (rfl : doc.get? name = doc.get? name)
      rw [hdoc] at hverdict
      exact hverdict
    | some f =>
      have hpair : verdictOf s loader t ((FilterEdit.require g).apply (some f)) [] doc =
          passesAll s loader t doc [] [f, g] := by
        simp only [verdictOf, FilterEdit.apply, Filter.all, passes]
      rw [hpair, passesAll]
      split
      · have hsame : (passes s loader t doc [] f).Same loader _ :=
          passes_same f (Memo.faithful_nil loader) (Memo.faithful_nil loader)
        have hkeeps : ∀ name, t.isOwn name = true →
            (passes s loader t doc [] f).doc.get? name = doc.get? name :=
          fun name hown => passes_keeps hown f doc []
        have hverdict := passes_own (s := s) hg hsame.left hkeeps
        rw [hdoc] at hverdict
        rw [passesAll, if_neg (by rw [hverdict]; exact Bool.false_ne_true)]
        exact hverdict
      · exact Bool.eq_false_iff.mpr ‹_›
  rw [row?_eq]
  simp only [hfails, Bool.false_and, Bool.false_eq_true, if_false]

end

variable {s : Store} {t : DocumentType} {g : Filter} {a b : FileTree}

/-- Whether a file holds a document that a filter shows. -/
def showsAt (g : Filter) (files : FileTree) (path : Path) : Bool :=
  match readDocument? files path with
  | .ok (some doc) => g.shows doc
  | _ => false

/-- Every file of a type holds a document. -/
def Readable (files : FileTree) (paths : List Path) : Prop :=
  ∀ path ∈ paths, ∃ doc, readDocument? files path = .ok (some doc)

/-- Two trees that hold the same, except for documents of a type that a filter hides. -/
structure SameShown (s : Store) (t : DocumentType) (g : Filter) (a b : FileTree) : Prop where
  files_eq : ∀ u ∈ s.schema.types, u.name ≠ t.name →
    s.documentFiles a u.name = s.documentFiles b u.name
  content_eq : ∀ u ∈ s.schema.types, u.name ≠ t.name → ∀ paths,
    s.documentFiles a u.name = .ok paths → ∀ path ∈ paths,
      readDocument? a path = readDocument? b path
  find_eq : ∀ u ∈ s.schema.types, u.name ≠ t.name → ∀ id,
    s.find? a u.name id = s.find? b u.name id
  shown : ∃ left right, s.documentFiles a t.name = .ok left ∧ Readable a left ∧
    s.documentFiles b t.name = .ok right ∧ Readable b right ∧
    left.filter (showsAt g a) = right.filter (showsAt g b) ∧
    ∀ path ∈ left.filter (showsAt g a), readDocument? a path = readDocument? b path

theorem documents_congr {paths : List Path}
    (h : ∀ path ∈ paths, readDocument? a path = readDocument? b path) :
    documents a paths = documents b paths := by
  induction paths with
  | nil => rfl
  | cons path paths ih =>
    rw [documents, documents, h path List.mem_cons_self,
      ih fun other hother => h other (List.mem_cons_of_mem _ hother)]

/-- The shown documents of a type are those in the files that show one. -/
theorem documents_shown {paths : List Path} (h : Readable a paths) (g : Filter) :
    ∃ docs, documents a paths = .ok docs ∧
      documents a (paths.filter (showsAt g a)) = .ok (docs.filter g.shows) := by
  induction paths with
  | nil => exact ⟨[], rfl, rfl⟩
  | cons path paths ih =>
    obtain ⟨doc, hdoc⟩ := h path List.mem_cons_self
    obtain ⟨docs, hdocs, hshown⟩ := ih fun other hother => h other (List.mem_cons_of_mem _ hother)
    have hshows : showsAt g a path = g.shows doc := by
      rw [showsAt, hdoc]
    refine ⟨doc :: docs, by rw [documents, hdoc, hdocs]; rfl, ?_⟩
    cases hg : g.shows doc with
    | true =>
      rw [List.filter_cons_of_pos (hshows.trans hg), List.filter_cons_of_pos hg, documents, hdoc,
        hshown]
      rfl
    | false =>
      rw [List.filter_cons_of_neg (by rw [hshows, hg]; exact Bool.false_ne_true),
        List.filter_cons_of_neg (by rw [hg]; exact Bool.false_ne_true), hshown]

namespace SameShown

theorem sameBeyond (h : s.SameShown t g a b) :
    SameBeyond s.schema t.name (s.related? a) (s.related? b) := by
  intro u hu hne id
  unfold related?
  rw [h.find_eq u hu hne id]

theorem stored_eq (h : s.SameShown t g a b) {u : DocumentType} (hu : u ∈ s.schema.types)
    (hne : u.name ≠ t.name) : s.stored a u.name = s.stored b u.name := by
  unfold stored
  rw [← h.files_eq u hu hne]
  cases hpaths : s.documentFiles a u.name with
  | error cause => rfl
  | ok paths => exact documents_congr (h.content_eq u hu hne paths hpaths)

theorem stored_shown (h : s.SameShown t g a b) : ∃ left right, s.stored a t.name = .ok left ∧
    s.stored b t.name = .ok right ∧ left.filter g.shows = right.filter g.shows := by
  obtain ⟨left, right, hleft, hreadleft, hright, hreadright, hfilter, hcontent⟩ := h.shown
  obtain ⟨docs, hdocs, hshown⟩ := documents_shown hreadleft g
  obtain ⟨docs', hdocs', hshown'⟩ := documents_shown hreadright g
  refine ⟨docs, docs', ?_, ?_, ?_⟩
  · rw [stored, hleft]
    exact hdocs
  · rw [stored, hright]
    exact hdocs'
  · have hsame := documents_congr hcontent
    rw [hshown, hfilter, hshown'] at hsame
    exact Except.ok.inj hsame

/-- A fetch of another type finds the same. -/
theorem found_eq (h : s.SameShown t g a b) {u : DocumentType}
    (hu : s.schema.type? u.name = some u) (hne : u.name ≠ t.name) (query : Query)
    (hquery : s.schema.allAvoid t.name u query.paths = true) :
    s.found a u.name query = s.found b u.name query := by
  unfold found
  simp only [hu, h.stored_eq (List.mem_of_find?_eq_some hu) hne,
    row?_avoids h.sameBeyond query [] _ hquery]

/-- A fetch of the type that demands the filter finds the same. -/
theorem found_require (h : s.SameShown t g a b) (ht : s.schema.type? t.name = some t)
    (hg : g.isOwn t = true) (query : Query)
    (hquery : s.schema.allAvoid t.name t query.paths = true) :
    s.found a t.name { query with filter := (FilterEdit.require g).apply query.filter } =
      s.found b t.name { query with filter := (FilterEdit.require g).apply query.filter } := by
  have hdemanded := allAvoid_require hg hquery
  obtain ⟨left, right, hleft, hright, hshown⟩ := h.stored_shown
  have hvisible : ∀ (files : FileTree) (docs : List Document),
      docs.filterMap (fun doc => (row? s.schema (s.related? files) t
        { query with filter := (FilterEdit.require g).apply query.filter } [] doc).1) =
      (docs.filter g.shows).filterMap (fun doc => (row? s.schema (s.related? files) t
        { query with filter := (FilterEdit.require g).apply query.filter } [] doc).1) := by
    intro files docs
    rw [List.filterMap_filter]
    congr 1
    funext doc
    cases hdoc : g.shows doc with
    | true => rfl
    | false => rw [row?_of_hidden hg hdoc query]; rfl
  unfold found
  simp only [ht, hleft, hright, Except.map]
  rw [hvisible a left, hvisible b right, hshown]
  simp only [row?_avoids h.sameBeyond _ [] _ hdemanded]

end SameShown

end Store

end DocumentEngine
