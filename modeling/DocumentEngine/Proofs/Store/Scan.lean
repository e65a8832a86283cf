import DocumentEngine.Proofs.Evaluation.Order
import DocumentEngine.Proofs.Json.Equality
import DocumentEngine.Proofs.Store.Files
import DocumentEngine.Proofs.Text

/-!
What a fetch is. The documents of a type are taken in the order of their file names; each passes
the filter and the cursor, or not, by itself, and has its own keys; those that pass are sorted,
rows that tie staying in the order of their files; and the first ones up to the limit are the
answer, as they are stored.
-/

namespace DocumentEngine

open Action Evaluation

namespace Store

/-- The row of a document by an evaluation of its own: if it passes the filter and then the cursor,
its keys under the sort rules beside the document as it is stored. -/
def rowAfresh? (schema : Schema) (loader : Loader) (t : DocumentType) (query : Query)
    (doc : Document) : Option Row :=
  let filtered := verdictOf schema loader t query.filter [] doc
  let beyond := passesCursor schema loader t filtered.doc filtered.memo query.since
  if filtered.holds && beyond.holds then
    some ⟨(sortKeys schema loader t beyond.doc beyond.memo query.sort).1, doc⟩
  else none

/-- A scan of a type for a query: the names of the files of its documents, the documents, the rows
of those that pass in their final order, and the answer. -/
structure Scan (s : Store) (files : FileTree) (type : String) (t : DocumentType) (query : Query)
    where
  names : List String
  docs : List Document
  sorted : List Row
  answer : List Document
  /-- Every file of a document in the directory of the type is there, as often as it is listed. -/
  names_perm : ∀ listed, files.list (s.typeDir type) = .ok listed →
    names.Perm (listed.filter fun name => files.isFile ((s.typeDir type).join name) &&
      !isTempName ((s.typeDir type).join name).fileName)
  /-- Without a directory there are no documents. -/
  names_nil : files.list (s.typeDir type) = .error .missing → names = []
  names_ordered : names.Pairwise fun a b => Text.bytes a ≤ Text.bytes b
  docs_read : List.Forall₂
    (fun name doc => readDocument? files ((s.typeDir type).join name) = .ok (some doc)) names docs
  sorted_perm : sorted.Perm (docs.filterMap (rowAfresh? s.schema (s.related? files) t query))
  sorted_ordered : sorted.Pairwise fun a b => ¬ Sooner query.sort b.keys a.keys
  sorted_stable : ∀ some : List Row,
    some.Sublist (docs.filterMap (rowAfresh? s.schema (s.related? files) t query)) →
      some.Pairwise (fun a b => ¬ Sooner query.sort b.keys a.keys) → some.Sublist sorted
  answer_eq : answer = ((query.limit.elim sorted sorted.take).map Row.doc)

section

variable {s : Store} {files : FileTree} {type : String} {t : DocumentType} {query : Query}

theorem row?_eq_rowAfresh? (schema : Schema) (loader : Loader) (t : DocumentType) (query : Query)
    (doc : Document) :
    (row? schema loader t query [] doc).1 = rowAfresh? schema loader t query doc := by
  rw [row?_eq]
  rfl

theorem length_sortKeys (schema : Schema) (loader : Loader) (t : DocumentType) (doc : Document)
    (memo : Memo) (rules : List SortRule) :
    (sortKeys schema loader t doc memo rules).1.length = rules.length := by
  induction rules generalizing doc memo with
  | nil => rfl
  | cons rule rules ih =>
    rw [sortKeys, List.length_cons, List.length_cons, ih]

theorem length_keys_of_rowAfresh? {schema : Schema} {loader : Loader} {doc : Document} {row : Row}
    (h : rowAfresh? schema loader t query doc = some row) :
    row.keys.length = query.sort.length := by
  unfold rowAfresh? at h
  dsimp only at h
  split at h
  · cases h
    exact length_sortKeys _ _ _ _ _ _
  · cases h

/-- Names are put in the order of their bytes. -/
theorem sortNames_ordered (names : List String) :
    (sortNames names).Pairwise fun a b => Text.bytes a ≤ Text.bytes b := by
  have hle : ∀ a b : String, (compare a b != .gt) = true ↔ a ≤ b := fun a b => by
    rw [bne_iff_ne, compare_le_iff_le]
  have hsorted : (sortNames names).Pairwise fun a b => (compare a b != .gt) = true := by
    refine List.pairwise_mergeSort (fun a b c hab hbc => ?_) (fun a b => ?_) names
    · exact (hle a c).mpr (((hle a b).mp hab).trans ((hle b c).mp hbc))
    · rw [Bool.or_eq_true, hle, hle]
      exact le_total a b
  exact hsorted.imp fun h => Text.le_iff_bytes_le.mp ((hle _ _).mp h)

/-- Names in order are what sorting any arrangement of them gives. -/
theorem sortNames_eq {names ordered : List String} (hperm : names.Perm ordered)
    (hordered : ordered.Pairwise (· ≤ ·)) : sortNames names = ordered := by
  have hsorted : (sortNames names).Pairwise (· ≤ ·) :=
    (sortNames_ordered names).imp Text.le_iff_bytes_le.mpr
  exact ((List.mergeSort_perm names _).trans hperm).eq_of_pairwise
    (fun _ _ _ _ hab hba => le_antisymm hab hba) hsorted hordered

/-- The files of the documents of a type in the order of their names. -/
theorem exists_names_of_documentFiles {paths : List Path}
    (h : s.documentFiles files type = .ok paths) :
    ∃ names, paths = names.map (s.typeDir type).join ∧
      (∀ listed, files.list (s.typeDir type) = .ok listed →
        names.Perm (listed.filter fun name => files.isFile ((s.typeDir type).join name) &&
          !isTempName ((s.typeDir type).join name).fileName)) ∧
      (files.list (s.typeDir type) = .error .missing → names = []) ∧
      names.Pairwise fun a b => Text.bytes a ≤ Text.bytes b := by
  unfold documentFiles at h
  dsimp only at h
  cases hlist : files.list (s.typeDir type) with
  | error cause =>
    rw [hlist] at h
    cases cause <;> cases h
    exact ⟨[], rfl, fun _ h => (by cases h), fun _ => rfl, .nil⟩
  | ok listed =>
    rw [hlist] at h
    cases h
    refine ⟨(sortNames listed).filter fun name => files.isFile ((s.typeDir type).join name) &&
      !isTempName ((s.typeDir type).join name).fileName, ?_, ?_, fun h => (by cases h), ?_⟩
    · rw [List.filter_map]
      rfl
    · rintro _ ⟨⟩
      exact (List.mergeSort_perm listed _).filter _
    · exact (sortNames_ordered listed).sublist List.filter_sublist

/-- Documents that are all read are read one for each file. -/
theorem documents_eq_ok {paths : List Path}
    (h : ∀ path ∈ paths, ∃ doc, readDocument? files path = .ok (some doc)) :
    ∃ docs, documents files paths = .ok docs ∧
      List.Forall₂ (fun path doc => readDocument? files path = .ok (some doc)) paths docs := by
  induction paths with
  | nil => exact ⟨[], rfl, .nil⟩
  | cons path paths ih =>
    obtain ⟨doc, hdoc⟩ := h path List.mem_cons_self
    obtain ⟨docs, hdocs, hread⟩ := ih fun p hp => h p (List.mem_cons_of_mem _ hp)
    refine ⟨doc :: docs, ?_, .cons hdoc hread⟩
    rw [documents, hdoc]
    simp [hdocs, Except.map]

/-- A fetch of a type all files of which can be read is a scan of the type. No document that it
leaves out for the limit comes sooner than one that it gives, and the files stay as they are. -/
theorem fetch_scan (s : Store) (type : String) (t : DocumentType) (query : Query) (state : State)
    (paths : List Path) (ht : s.schema.type? type = some t)
    (hpaths : s.documentFiles state.files type = .ok paths)
    (hread : ∀ path ∈ paths, ∃ doc, readDocument? state.files path = .ok (some doc)) :
    ∃ (scan : Scan s state.files type t query) (state' : State),
      exec (s.fetch type query) state = (.ok scan.answer, state') ∧
      (∀ limit, query.limit = some limit → ∀ shown ∈ scan.sorted.take limit,
        ∀ omitted ∈ scan.sorted.drop limit, ¬ Sooner query.sort omitted.keys shown.keys) ∧
      state'.files = state.files := by
  obtain ⟨docs, hdocs, hall⟩ := documents_eq_ok hread
  obtain ⟨names, rfl, hperm, hnil, hnames⟩ := exists_names_of_documentFiles hpaths
  obtain ⟨state', hfetch, halike⟩ := s.exec_fetch type query state
  have hlength : ∀ row ∈ docs.filterMap (rowAfresh? s.schema (s.related? state.files) t query),
      row.keys.length = query.sort.length := by
    intro row hrow
    obtain ⟨doc, -, hdoc⟩ := List.mem_filterMap.mp hrow
    exact length_keys_of_rowAfresh? hdoc
  obtain ⟨hsorted, hordered, hstable⟩ := sortRows_spec hlength
  refine ⟨⟨names, docs, _, _, hperm, hnil, hnames, (List.forall₂_map_left_iff.mp hall), hsorted,
    hordered, hstable, rfl⟩, state', ?_, ?_, halike.1⟩
  · have hrows : (fun doc => (row? s.schema (s.related? state.files) t query [] doc).1) =
        rowAfresh? s.schema (s.related? state.files) t query :=
      funext fun doc => row?_eq_rowAfresh? _ _ _ _ _
    rw [hfetch]
    unfold found stored
    rw [ht]
    dsimp only
    rw [hpaths, hrows]
    change (Except.map _ (documents state.files _), state') = _
    rw [hdocs]
    unfold selectRows
    cases query.limit <;> rfl
  · intro limit _ shown hshown omitted homitted
    have hsplit := hordered
    rw [← List.take_append_drop limit (sortRows _ _)] at hsplit
    exact (List.pairwise_append.mp hsplit).2.2 shown hshown omitted homitted

end

section

private def peak : DocumentType where
  name := "Cerro"
  fields := [.ofIdentifier "id", .ofScalar "altura" .int]

private def peaks : Store := ⟨⟨"/data"⟩, "default", ⟨[peak]⟩⟩

private def peakOf (id : String) (height : Nat) : Document :=
  [("altura", .num (.int height)), ("id", .str id)]

private def threePeaks : State where
  files := ⟨[(["data"], .directory), (["data", "Cerro"], .directory),
    (["data", "Cerro", "c3"], .file (some (Json.pretty (.obj (peakOf "c3" 4000))))),
    (["data", "Cerro", "c1"], .file (some (Json.pretty (.obj (peakOf "c1" 4000))))),
    (["data", "Cerro", "c2"], .file (some (Json.pretty (.obj (peakOf "c2" 6000)))))]⟩

private def highestTwo : Query where
  sort := [⟨"altura", .descending⟩]
  limit := some 2

private theorem files_peaks : peaks.documentFiles threePeaks.files "Cerro" =
    .ok (["c1", "c2", "c3"].map (peaks.typeDir "Cerro").join) := by
  have hlist : threePeaks.files.list (peaks.typeDir "Cerro") = .ok ["c2", "c1", "c3"] := by
    decide +kernel
  have hsort : sortNames ["c2", "c1", "c3"] = ["c1", "c2", "c3"] :=
    sortNames_eq (List.Perm.swap ..) (by decide +kernel)
  unfold documentFiles
  dsimp only
  rw [hlist]
  dsimp only
  rw [hsort]
  decide +kernel

theorem fetch_scan_peaks :
    ∃ (scan : Scan peaks threePeaks.files "Cerro" peak highestTwo) (state' : State),
      exec (peaks.fetch "Cerro" highestTwo) threePeaks = (.ok scan.answer, state') ∧
      ∀ shown ∈ scan.sorted.take 2, ∀ omitted ∈ scan.sorted.drop 2,
        ¬ Sooner highestTwo.sort omitted.keys shown.keys := by
  have hread : ∀ path ∈ ["c1", "c2", "c3"].map (peaks.typeDir "Cerro").join,
      ((readDocument? threePeaks.files path).toOption.bind id).isSome = true := by decide +kernel
  obtain ⟨scan, state', hfetch, hbest, -⟩ := fetch_scan peaks "Cerro" peak highestTwo threePeaks
    (["c1", "c2", "c3"].map (peaks.typeDir "Cerro").join) (by rfl) files_peaks (fun path hpath => by
      have hsome := hread path hpath
      rcases hfound : readDocument? threePeaks.files path with cause | _ | doc
      · simp [hfound, Except.toOption] at hsome
      · simp [hfound, Except.toOption] at hsome
      · exact ⟨doc, rfl⟩)
  exact ⟨scan, state', hfetch, hbest 2 rfl⟩

end

end Store

end DocumentEngine
