import DocumentEngine.Evaluation.Condition
import DocumentEngine.Evaluation.Relation

/-!
Verdicts of filters and cursors on documents. Conditions are tried from left to right and no
further than the verdict needs; relations that one condition fills in are there for the next.
-/

namespace DocumentEngine.Evaluation

/-- A verdict, the document with the relations filled in that were met, and the memo. -/
structure Verdict where
  holds : Bool
  doc : Document
  memo : Memo

/-- Whether the value at a path passes an operator. -/
def test (s : Schema) (loader : Loader) (t : DocumentType) (doc : Document) (memo : Memo)
    (path : String) (op : Operator) (targets : List Json) : Verdict :=
  let r := resolvePath s loader t doc memo path
  ⟨satisfies op r.value targets, r.doc, r.memo⟩

mutual

/-- Whether a document passes a filter. -/
def passes (s : Schema) (loader : Loader) (t : DocumentType) (doc : Document) (memo : Memo) :
    Filter → Verdict
  | .condition c => test s loader t doc memo c.field c.operator c.operand.values
  | .and fs => passesAll s loader t doc memo fs
  | .or fs => passesAny s loader t doc memo fs

/-- Whether a document passes every filter. -/
def passesAll (s : Schema) (loader : Loader) (t : DocumentType) (doc : Document) (memo : Memo) :
    List Filter → Verdict
  | [] => ⟨true, doc, memo⟩
  | f :: fs =>
    let v := passes s loader t doc memo f
    if v.holds then passesAll s loader t v.doc v.memo fs else v

/-- Whether a document passes one of the filters. -/
def passesAny (s : Schema) (loader : Loader) (t : DocumentType) (doc : Document) (memo : Memo) :
    List Filter → Verdict
  | [] => ⟨false, doc, memo⟩
  | f :: fs =>
    let v := passes s loader t doc memo f
    if v.holds then v else passesAny s loader t v.doc v.memo fs

end

/-- Whether a document is greater than a cursor at each of its paths. -/
def passesCursor (s : Schema) (loader : Loader) (t : DocumentType) (doc : Document)
    (memo : Memo) : Keyed Json → Verdict
  | [] => ⟨true, doc, memo⟩
  | (path, value) :: cursor =>
    let v := test s loader t doc memo path .gt [value]
    if v.holds then passesCursor s loader t v.doc v.memo cursor else v

end DocumentEngine.Evaluation
