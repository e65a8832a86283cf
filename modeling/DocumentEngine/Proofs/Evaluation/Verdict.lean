import DocumentEngine.Evaluation.Verdict
import DocumentEngine.Proofs.Evaluation.Disturbance

/-!
Verdicts of filters as truth values of trees. Where no path disturbs another, each condition of a
filter gets the verdict that it gets alone on the stored document, whatever was evaluated before
it. What was loaded before never matters.
-/

namespace DocumentEngine

namespace Filter

mutual

/-- The truth value of a filter when its conditions have given truth values. -/
def truth (v : Condition → Bool) : Filter → Bool
  | .condition c => v c
  | .and fs => truthAll v fs
  | .or fs => truthAny v fs

/-- Whether all filters are true. -/
def truthAll (v : Condition → Bool) : List Filter → Bool
  | [] => true
  | f :: fs => truth v f && truthAll v fs

/-- Whether one of the filters is true. -/
def truthAny (v : Condition → Bool) : List Filter → Bool
  | [] => false
  | f :: fs => truth v f || truthAny v fs

end

/-- Filters that differ only in the order of the children of some nodes. -/
inductive Rearranged : Filter → Filter → Prop
  | refl (f : Filter) : Rearranged f f
  | trans {f g h : Filter} : Rearranged f g → Rearranged g h → Rearranged f h
  | and {fs gs : List Filter} : fs.Perm gs → Rearranged (.and fs) (.and gs)
  | or {fs gs : List Filter} : fs.Perm gs → Rearranged (.or fs) (.or gs)
  | inAnd {f g : Filter} (before after : List Filter) : Rearranged f g →
      Rearranged (.and (before ++ f :: after)) (.and (before ++ g :: after))
  | inOr {f g : Filter} (before after : List Filter) : Rearranged f g →
      Rearranged (.or (before ++ f :: after)) (.or (before ++ g :: after))

theorem truthAll_eq (v : Condition → Bool) (fs : List Filter) : truthAll v fs = fs.all (truth v) := by
  induction fs with
  | nil => rfl
  | cons f fs ih => rw [truthAll, List.all_cons, ih]

theorem truthAny_eq (v : Condition → Bool) (fs : List Filter) : truthAny v fs = fs.any (truth v) := by
  induction fs with
  | nil => rfl
  | cons f fs ih => rw [truthAny, List.any_cons, ih]

theorem listConditions_eq (fs : List Filter) : listConditions fs = fs.flatMap conditions := by
  induction fs with
  | nil => rfl
  | cons f fs ih => rw [listConditions, List.flatMap_cons, ih]

theorem Rearranged.truth_eq {f g : Filter} (h : Rearranged f g) (v : Condition → Bool) :
    f.truth v = g.truth v := by
  induction h with
  | refl f => rfl
  | trans _ _ ih ih' => exact ih.trans ih'
  | and hp =>
    simp only [truth, truthAll_eq]
    exact hp.all_eq
  | or hp =>
    simp only [truth, truthAny_eq]
    exact hp.any_eq
  | inAnd before after _ ih => simp only [truth, truthAll_eq, List.all_append, List.all_cons, ih]
  | inOr before after _ ih => simp only [truth, truthAny_eq, List.any_append, List.any_cons, ih]

theorem Rearranged.mem_conditions {f g : Filter} (h : Rearranged f g) (c : Condition) :
    c ∈ f.conditions ↔ c ∈ g.conditions := by
  induction h with
  | refl f => rfl
  | trans _ _ ih ih' => exact ih.trans ih'
  | and hp =>
    simp only [conditions, listConditions_eq, List.mem_flatMap, hp.mem_iff]
  | or hp =>
    simp only [conditions, listConditions_eq, List.mem_flatMap, hp.mem_iff]
  | inAnd before after _ ih =>
    simp only [conditions, listConditions_eq, List.flatMap_append, List.flatMap_cons,
      List.mem_append, ih]
  | inOr before after _ ih =>
    simp only [conditions, listConditions_eq, List.flatMap_append, List.flatMap_cons,
      List.mem_append, ih]

end Filter

namespace Evaluation

/-- No path disturbs another. -/
def Undisturbed (s : Schema) (t : DocumentType) (paths : List String) : Prop :=
  ∀ p ∈ paths, ∀ q ∈ paths, disturbs s t (Text.splitAt '.' p) (Text.splitAt '.' q) = false

instance (s : Schema) (t : DocumentType) (paths : List String) :
    Decidable (Undisturbed s t paths) := by
  unfold Undisturbed
  infer_instance

/-- The verdict of an operator on the value at a path, alone on a stored document. -/
def testAlone (s : Schema) (loader : Loader) (t : DocumentType) (doc : Document) (path : String)
    (op : Operator) (targets : List Json) : Bool :=
  (test s loader t doc [] path op targets).holds

/-- The verdict that a condition gets alone on a stored document. -/
def alone (s : Schema) (loader : Loader) (t : DocumentType) (doc : Document) (c : Condition) :
    Bool :=
  testAlone s loader t doc c.field c.operator c.operand.values

/-- A working copy on which every path reads as on the stored document. -/
def ReadsAlike (s : Schema) (loader : Loader) (t : DocumentType) (paths : List String)
    (doc copy : Document) : Prop :=
  ∀ q ∈ paths, read s loader t copy (Text.splitAt '.' q) = read s loader t doc (Text.splitAt '.' q)

/-- A verdict that is the expected one, and leaves a copy that reads alike and a faithful memo. -/
structure Verdict.IsAlone (s : Schema) (loader : Loader) (t : DocumentType) (paths : List String)
    (doc : Document) (holds : Bool) (v : Verdict) : Prop where
  holds_eq : v.holds = holds
  alike : ReadsAlike s loader t paths doc v.doc
  faithful : v.memo.Faithful loader

section

variable {s : Schema} {loader : Loader} {t : DocumentType} {paths : List String}
  {doc copy : Document} {memo : Memo}

theorem ReadsAlike.filled (hu : Undisturbed s t paths)
    (ha : ReadsAlike s loader t paths doc copy) {p : String} (hp : p ∈ paths) :
    ReadsAlike s loader t paths doc (filled s loader t copy (Text.splitAt '.' p)) := by
  intro q hq
  rw [read_filled s loader _ t copy _ (hu p hp q hq)]
  exact ha q hq

theorem test_isAlone (hu : Undisturbed s t paths) (ha : ReadsAlike s loader t paths doc copy)
    (hm : memo.Faithful loader) {p : String} (hp : p ∈ paths) (op : Operator)
    (targets : List Json) :
    (test s loader t copy memo p op targets).IsAlone s loader t paths doc
      (testAlone s loader t doc p op targets) := by
  obtain ⟨hvalue, hdoc, hmemo⟩ := resolve_spec s loader t copy hm (Text.splitAt '.' p)
  have halone := (resolve_spec s loader t doc (Memo.faithful_nil loader)
    (Text.splitAt '.' p)).value_eq
  refine ⟨?_, ?_, hmemo⟩
  · simp only [testAlone, test, resolvePath, hvalue, halone, ha p hp]
  · simp only [test, resolvePath, hdoc]
    exact ha.filled hu hp

mutual

/-- A filter gets the truth value of its tree, at any moment of a scan. -/
theorem passes_isAlone (hu : Undisturbed s t paths) :
    (f : Filter) → {copy : Document} → {memo : Memo} →
      ReadsAlike s loader t paths doc copy → memo.Faithful loader →
      (∀ c ∈ f.conditions, c.field ∈ paths) →
      (passes s loader t copy memo f).IsAlone s loader t paths doc
        (f.truth (alone s loader t doc))
  | .condition c, _, _, ha, hm, hf => by
    rw [passes, Filter.truth]
    exact test_isAlone hu ha hm (hf c (by simp [Filter.conditions])) _ _
  | .and fs, _, _, ha, hm, hf => by
    rw [passes, Filter.truth]
    exact passesAll_isAlone hu fs ha hm hf
  | .or fs, _, _, ha, hm, hf => by
    rw [passes, Filter.truth]
    exact passesAny_isAlone hu fs ha hm hf

theorem passesAll_isAlone (hu : Undisturbed s t paths) :
    (fs : List Filter) → {copy : Document} → {memo : Memo} →
      ReadsAlike s loader t paths doc copy → memo.Faithful loader →
      (∀ c ∈ Filter.listConditions fs, c.field ∈ paths) →
      (passesAll s loader t copy memo fs).IsAlone s loader t paths doc
        (Filter.truthAll (alone s loader t doc) fs)
  | [], _, _, ha, hm, _ => by
    rw [passesAll, Filter.truthAll]
    exact ⟨rfl, ha, hm⟩
  | f :: fs, copy, memo, ha, hm, hf => by
    have h := passes_isAlone hu f ha hm fun c hc => hf c (List.mem_append_left _ hc)
    have htail : ∀ c ∈ Filter.listConditions fs, c.field ∈ paths := fun c hc =>
      hf c (List.mem_append_right _ hc)
    rw [passesAll, Filter.truthAll]
    cases hv : (passes s loader t copy memo f).holds with
    | true =>
      rw [← h.holds_eq, hv, Bool.true_and]
      exact passesAll_isAlone hu fs h.alike h.faithful htail
    | false =>
      rw [← h.holds_eq, hv, Bool.false_and]
      exact ⟨hv, h.alike, h.faithful⟩

theorem passesAny_isAlone (hu : Undisturbed s t paths) :
    (fs : List Filter) → {copy : Document} → {memo : Memo} →
      ReadsAlike s loader t paths doc copy → memo.Faithful loader →
      (∀ c ∈ Filter.listConditions fs, c.field ∈ paths) →
      (passesAny s loader t copy memo fs).IsAlone s loader t paths doc
        (Filter.truthAny (alone s loader t doc) fs)
  | [], _, _, ha, hm, _ => by
    rw [passesAny, Filter.truthAny]
    exact ⟨rfl, ha, hm⟩
  | f :: fs, copy, memo, ha, hm, hf => by
    have h := passes_isAlone hu f ha hm fun c hc => hf c (List.mem_append_left _ hc)
    have htail : ∀ c ∈ Filter.listConditions fs, c.field ∈ paths := fun c hc =>
      hf c (List.mem_append_right _ hc)
    rw [passesAny, Filter.truthAny]
    cases hv : (passes s loader t copy memo f).holds with
    | true =>
      rw [← h.holds_eq, hv, Bool.true_or]
      exact ⟨hv, h.alike, h.faithful⟩
    | false =>
      rw [← h.holds_eq, hv, Bool.false_or]
      exact passesAny_isAlone hu fs h.alike h.faithful htail

end

theorem passesCursor_isAlone (hu : Undisturbed s t paths)
    (ha : ReadsAlike s loader t paths doc copy) (hm : memo.Faithful loader) (since : Keyed Json)
    (hs : ∀ entry ∈ since, entry.1 ∈ paths) :
    (passesCursor s loader t copy memo since).IsAlone s loader t paths doc
      (since.all fun entry => testAlone s loader t doc entry.1 .gt [entry.2]) := by
  induction since generalizing copy memo with
  | nil => exact ⟨rfl, ha, hm⟩
  | cons entry since ih =>
    obtain ⟨path, value⟩ := entry
    have h := test_isAlone hu ha hm (hs _ List.mem_cons_self) .gt [value]
    rw [passesCursor, List.all_cons]
    cases hv : (test s loader t copy memo path .gt [value]).holds with
    | true =>
      rw [← h.holds_eq, hv, Bool.true_and]
      exact ih h.alike h.faithful fun e he => hs e (List.mem_cons_of_mem _ he)
    | false =>
      rw [← h.holds_eq, hv, Bool.false_and]
      exact ⟨hv, h.alike, h.faithful⟩

end

section

variable {s : Schema} {loader : Loader} {t : DocumentType} {doc : Document}

/-- Two verdicts on one document that differ at most in what they keep loaded. -/
structure Verdict.Same (loader : Loader) (v w : Verdict) : Prop where
  holds_eq : v.holds = w.holds
  doc_eq : v.doc = w.doc
  left : v.memo.Faithful loader
  right : w.memo.Faithful loader

theorem test_same {memo memo' : Memo} (hm : memo.Faithful loader) (hm' : memo'.Faithful loader)
    (path : String) (op : Operator) (targets : List Json) :
    (test s loader t doc memo path op targets).Same loader
      (test s loader t doc memo' path op targets) := by
  have h := resolve_spec s loader t doc hm (Text.splitAt '.' path)
  have h' := resolve_spec s loader t doc hm' (Text.splitAt '.' path)
  refine ⟨?_, h.doc_eq.trans h'.doc_eq.symm, h.faithful, h'.faithful⟩
  simp only [test, resolvePath, h.value_eq, h'.value_eq]

mutual

/-- The verdict of a filter does not depend on what was loaded before. -/
theorem passes_same :
    (f : Filter) → {doc : Document} → {memo memo' : Memo} → memo.Faithful loader →
      memo'.Faithful loader →
      (passes s loader t doc memo f).Same loader (passes s loader t doc memo' f)
  | .condition c, _, _, _, hm, hm' => by
    rw [passes, passes]
    exact test_same hm hm' _ _ _
  | .and fs, _, _, _, hm, hm' => by
    rw [passes, passes]
    exact passesAll_same fs hm hm'
  | .or fs, _, _, _, hm, hm' => by
    rw [passes, passes]
    exact passesAny_same fs hm hm'

theorem passesAll_same :
    (fs : List Filter) → {doc : Document} → {memo memo' : Memo} → memo.Faithful loader →
      memo'.Faithful loader →
      (passesAll s loader t doc memo fs).Same loader (passesAll s loader t doc memo' fs)
  | [], _, _, _, hm, hm' => by
    rw [passesAll, passesAll]
    exact ⟨rfl, rfl, hm, hm'⟩
  | f :: fs, doc, memo, memo', hm, hm' => by
    have h := @passes_same f doc _ _ hm hm'
    rw [passesAll, passesAll]
    cases hv : (passes s loader t doc memo' f).holds with
    | true =>
      rw [h.holds_eq, hv, h.doc_eq]
      exact passesAll_same fs h.left h.right
    | false =>
      rw [h.holds_eq, hv]
      exact h

theorem passesAny_same :
    (fs : List Filter) → {doc : Document} → {memo memo' : Memo} → memo.Faithful loader →
      memo'.Faithful loader →
      (passesAny s loader t doc memo fs).Same loader (passesAny s loader t doc memo' fs)
  | [], _, _, _, hm, hm' => by
    rw [passesAny, passesAny]
    exact ⟨rfl, rfl, hm, hm'⟩
  | f :: fs, doc, memo, memo', hm, hm' => by
    have h := @passes_same f doc _ _ hm hm'
    rw [passesAny, passesAny]
    cases hv : (passes s loader t doc memo' f).holds with
    | true =>
      rw [h.holds_eq, hv]
      exact h
    | false =>
      rw [h.holds_eq, hv, h.doc_eq]
      exact passesAny_same fs h.left h.right

end

theorem passesCursor_same {memo memo' : Memo} (hm : memo.Faithful loader)
    (hm' : memo'.Faithful loader) (since : Keyed Json) :
    (passesCursor s loader t doc memo since).Same loader
      (passesCursor s loader t doc memo' since) := by
  induction since generalizing doc memo memo' with
  | nil => exact ⟨rfl, rfl, hm, hm'⟩
  | cons entry since ih =>
    obtain ⟨path, value⟩ := entry
    have h : (test s loader t doc memo path .gt [value]).Same loader _ :=
      test_same hm hm' path .gt [value]
    rw [passesCursor, passesCursor]
    cases hv : (test s loader t doc memo' path .gt [value]).holds with
    | true =>
      rw [h.holds_eq, hv, h.doc_eq]
      exact ih h.left h.right
    | false =>
      rw [h.holds_eq, hv]
      exact h

end

end Evaluation

end DocumentEngine
