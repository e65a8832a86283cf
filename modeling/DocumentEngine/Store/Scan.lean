import DocumentEngine.Evaluation.Sort
import DocumentEngine.Evaluation.Verdict
import DocumentEngine.Store.Basic

/-!
Fetching documents of a type. Every file of the type is read in the order of names; the documents
that pass the filter and the cursor are sorted, and the first ones up to the limit are the answer.
Relations are looked up only for the verdicts and the sort keys: documents come back as stored.
-/

namespace DocumentEngine

open Evaluation (Memo Load Row)

namespace Store

/-- The document of a relation. One that cannot be read counts as absent. -/
def related? (s : Store) (files : FileTree) (type id : String) : Option Document :=
  match s.find? files type id with
  | .ok doc => doc
  | .error _ => none

/-- The values of a document at the paths of sort rules. -/
def sortKeys (schema : Schema) (loader : Evaluation.Loader) (t : DocumentType) (doc : Document)
    (memo : Memo) : List SortRule → List (Option Json) × Memo
  | [] => ([], memo)
  | rule :: rules =>
    let r := Evaluation.resolvePath schema loader t doc memo rule.field
    let (keys, memo) := sortKeys schema loader t r.doc r.memo rules
    (r.value :: keys, memo)

/-- The row of a document, if it passes the filter and the cursor of a query. -/
def row? (schema : Schema) (loader : Evaluation.Loader) (t : DocumentType) (query : Query)
    (memo : Memo) (doc : Document) : Option Row × Memo :=
  let verdict := match query.filter with
    | some f => Evaluation.passes schema loader t doc memo f
    | none => ⟨true, doc, memo⟩
  if !verdict.holds then (none, verdict.memo)
  else
    let verdict :=
      Evaluation.passesCursor schema loader t verdict.doc verdict.memo query.since
    if !verdict.holds then (none, verdict.memo)
    else
      let (keys, memo) := sortKeys schema loader t verdict.doc verdict.memo query.sort
      (some ⟨keys, doc⟩, memo)

/-- The rows of the documents in files, up to the first file that cannot be read. -/
def rows (schema : Schema) (loader : Evaluation.Loader) (t : DocumentType) (query : Query)
    (files : FileTree) : Memo → List Path → Except StoreError (List Row) × Memo
  | memo, [] => (.ok [], memo)
  | memo, path :: paths =>
    match readDocument? files path with
    | .error e => (.error e, memo)
    | .ok none => rows schema loader t query files memo paths
    | .ok (some doc) =>
      let (row, memo) := row? schema loader t query memo doc
      match rows schema loader t query files memo paths with
      | (.ok found, memo) => (.ok (row.toList ++ found), memo)
      | (.error e, memo) => (.error e, memo)

/-- Names in the order of code points. -/
def sortNames (names : List String) : List String := names.mergeSort fun a b => compare a b != .gt

/-- The files of the documents of a type in the order of their names. -/
def documentFiles (s : Store) (files : FileTree) (type : String) :
    Except StoreError (List Path) :=
  let dir := s.typeDir type
  match files.list dir with
  | .error .missing => .ok []
  | .error cause => .error (.io dir cause)
  | .ok names =>
    .ok (((sortNames names).map dir.join).filter fun path =>
      files.isFile path && !isTempName path.fileName)

/-- A warning for each relation that could not be read. -/
def warnUnreadable (s : Store) (files : FileTree) (state : State) (load : Load) : State :=
  match s.find? files load.type load.id with
  | .ok _ => state
  | .error e => state.warn "STORE_RELATION_UNRESOLVED"
      [("type", load.type), ("id", load.id), ("error", e.message)]

/-- Counts and reports a fetch. -/
def reportFetch (s : Store) (type : String) (query : Query) (scanned returned : Nat) :
    StoreM Unit :=
  let conditions := match query.filter with
    | some f => f.conditions.length
    | none => 0
  modify fun state =>
    (state.count fun m => (m.countFetch type).countScanned scanned).report .documentsFetched
      [("namespace", s.space), ("type", type), ("conditions", toString conditions),
       ("scanned", toString scanned), ("returned", toString returned)]

/-- Rows in order, up to the limit of a query. -/
def selectRows (query : Query) (found : List Row) : List Row :=
  let sorted := Evaluation.sortRows query.sort found
  match query.limit with
  | some n => sorted.take n
  | none => sorted

/-- The documents of a type that a query asks for. -/
def fetch (s : Store) (type : String) (query : Query) : StoreM (List Document) := do
  match s.schema.type? type with
  | none => throw (.unknownType type)
  | some t =>
    let files := (← get).files
    let paths ← lift (s.documentFiles files type)
    let (found, memo) := rows s.schema (s.related? files) t query files [] paths
    modify fun state => memo.foldl (s.warnUnreadable files) state
    let selected := selectRows query (← lift found)
    s.reportFetch type query paths.length selected.length
    return selected.map Row.doc

end Store

end DocumentEngine
