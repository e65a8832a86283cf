import DocumentEngine.Proofs.Evaluation.Verdict
import DocumentEngine.Store.Scan

/-!
The rows of a fetch. A fetch reads the documents of a type one by one with a memo of the relations
met so far; each row is the row of its document by itself. Where no path of the query disturbs
another, it is the row with every part of the query evaluated alone; where one does, some filter of
two conditions tells the difference.
-/

namespace DocumentEngine

open Evaluation

/-- The paths that a query reads: of its filter, its cursor and its order. -/
def Query.paths (q : Query) : List String :=
  (q.filter.elim [] fun f => f.conditions.map Condition.field) ++ q.since.map Prod.fst ++
    q.sort.map SortRule.field

namespace Store

/-- The documents in files, up to the first file that cannot be read. -/
def documents (files : FileTree) : List Path → Except StoreError (List Document)
  | [] => .ok []
  | path :: paths =>
    match readDocument? files path with
    | .error e => .error e
    | .ok found => (documents files paths).map (found.toList ++ ·)

/-- The row of a stored document with every part of the query evaluated alone. -/
def rowAlone? (s : Schema) (loader : Loader) (t : DocumentType) (query : Query) (doc : Document) :
    Option Row :=
  if (query.filter.all fun f => f.truth (alone s loader t doc)) &&
      query.since.all fun entry => testAlone s loader t doc entry.1 .gt [entry.2] then
    some ⟨query.sort.map fun rule => (resolvePath s loader t doc [] rule.field).value, doc⟩
  else none

/-- The verdict of an optional filter. -/
def verdictOf (s : Schema) (loader : Loader) (t : DocumentType) (filter : Option Filter)
    (memo : Memo) (doc : Document) : Verdict :=
  match filter with
  | some f => passes s loader t doc memo f
  | none => ⟨true, doc, memo⟩

/-- The memo that a row leaves behind. -/
def rowMemo (s : Schema) (loader : Loader) (t : DocumentType) (query : Query) (memo : Memo)
    (doc : Document) : Memo :=
  let v := verdictOf s loader t query.filter memo doc
  let w := passesCursor s loader t v.doc v.memo query.since
  if v.holds then
    if w.holds then (sortKeys s loader t w.doc w.memo query.sort).2 else w.memo
  else v.memo

theorem row?_eq (s : Schema) (loader : Loader) (t : DocumentType) (query : Query) (memo : Memo)
    (doc : Document) :
    row? s loader t query memo doc =
      let v := verdictOf s loader t query.filter memo doc
      let w := passesCursor s loader t v.doc v.memo query.since
      (if v.holds && w.holds then
        some ⟨(sortKeys s loader t w.doc w.memo query.sort).1, doc⟩
      else none, rowMemo s loader t query memo doc) := by
  unfold row? rowMemo verdictOf
  cases query.filter with
  | none =>
    cases h : (passesCursor s loader t doc memo query.since).holds <;> simp [h]
  | some f =>
    cases h : (passes s loader t doc memo f).holds with
    | false => simp [h]
    | true =>
      cases h' : (passesCursor s loader t (passes s loader t doc memo f).doc
        (passes s loader t doc memo f).memo query.since).holds <;> simp [h, h']

section

variable {s : Schema} {loader : Loader} {t : DocumentType} {doc copy : Document}
  {memo memo' : Memo}

theorem verdictOf_same (hm : memo.Faithful loader) (hm' : memo'.Faithful loader)
    (filter : Option Filter) :
    (verdictOf s loader t filter memo doc).Same loader (verdictOf s loader t filter memo' doc) := by
  cases filter with
  | none => exact ⟨rfl, rfl, hm, hm'⟩
  | some f => exact passes_same f hm hm'

theorem sortKeys_same (hm : memo.Faithful loader) (hm' : memo'.Faithful loader)
    (rules : List SortRule) :
    (sortKeys s loader t doc memo rules).1 = (sortKeys s loader t doc memo' rules).1 ∧
      (sortKeys s loader t doc memo rules).2.Faithful loader := by
  induction rules generalizing doc memo memo' with
  | nil => exact ⟨rfl, hm⟩
  | cons rule rules ih =>
    have h : (resolvePath s loader t doc memo rule.field).Reads loader _ _ :=
      resolve_spec s loader t doc hm (Text.splitAt '.' rule.field)
    have h' : (resolvePath s loader t doc memo' rule.field).Reads loader _ _ :=
      resolve_spec s loader t doc hm' (Text.splitAt '.' rule.field)
    have hrest := @ih (resolvePath s loader t doc memo rule.field).doc _ _ h.faithful h'.faithful
    refine ⟨?_, hrest.2⟩
    simp only [sortKeys]
    rw [hrest.1, h.value_eq, h'.value_eq, h.doc_eq, h'.doc_eq]

/-- A row does not depend on what was loaded before, and leaves a faithful memo. -/
theorem row?_same (hm : memo.Faithful loader) (query : Query) :
    (row? s loader t query memo doc).1 = (row? s loader t query [] doc).1 ∧
      (row? s loader t query memo doc).2.Faithful loader := by
  have hv : (verdictOf s loader t query.filter memo doc).Same loader _ :=
    verdictOf_same hm (Memo.faithful_nil loader) query.filter
  have hw := @passesCursor_same s loader t (verdictOf s loader t query.filter memo doc).doc _ _
    hv.left hv.right query.since
  have hk := @sortKeys_same s loader t (passesCursor s loader t
    (verdictOf s loader t query.filter memo doc).doc
    (verdictOf s loader t query.filter memo doc).memo query.since).doc _ _ hw.left hw.right query.sort
  constructor
  · simp only [row?_eq, ← hv.doc_eq, ← hv.holds_eq, ← hw.doc_eq, ← hw.holds_eq, ← hk.1]
  · simp only [row?_eq, rowMemo]
    split
    · split
      · exact hk.2
      · exact hw.left
    · exact hv.left

/-- The rows of a scan are the rows of its documents, each by itself. -/
theorem rows_eq (hm : memo.Faithful loader) (query : Query) (files : FileTree)
    (paths : List Path) :
    (rows s loader t query files memo paths).1 =
      (documents files paths).map (·.filterMap fun doc => (row? s loader t query [] doc).1) := by
  induction paths generalizing memo with
  | nil => rfl
  | cons path paths ih =>
    rw [rows, documents]
    cases readDocument? files path with
    | error e => rfl
    | ok found =>
      cases found with
      | none =>
        rw [ih hm]
        cases documents files paths <;> rfl
      | some doc =>
        obtain ⟨hrow, hmemo⟩ := @row?_same s loader t doc _ hm query
        have hrest := ih hmemo
        rcases hr : rows s loader t query files (row? s loader t query memo doc).2 paths with
          ⟨rest, memo''⟩
        rw [hr] at hrest
        dsimp only at hrest ⊢
        rw [hr, hrest, hrow]
        cases documents files paths with
        | error e => rfl
        | ok docs =>
          simp only [Except.map, Option.toList, List.singleton_append, List.filterMap_cons]
          cases (row? s loader t query [] doc).1 <;> rfl

section

variable {paths : List String}

theorem sortKeys_alone (hu : Undisturbed s t paths) (ha : ReadsAlike s loader t paths doc copy)
    (hm : memo.Faithful loader) (rules : List SortRule)
    (hr : ∀ rule ∈ rules, rule.field ∈ paths) :
    (sortKeys s loader t copy memo rules).1 =
        rules.map fun rule => (resolvePath s loader t doc [] rule.field).value := by
  induction rules generalizing copy memo with
  | nil => rfl
  | cons rule rules ih =>
    have hp := hr rule List.mem_cons_self
    have hspec : (resolvePath s loader t copy memo rule.field).Reads loader _ _ :=
      resolve_spec s loader t copy hm (Text.splitAt '.' rule.field)
    have halone : (resolvePath s loader t doc [] rule.field).value = _ :=
      (resolve_spec s loader t doc (Memo.faithful_nil loader)
        (Text.splitAt '.' rule.field)).value_eq
    have hcopy : ReadsAlike s loader t paths doc
        (resolvePath s loader t copy memo rule.field).doc := by
      rw [hspec.doc_eq]
      exact ha.filled hu hp
    have hrest := ih hcopy hspec.faithful fun r h => hr r (List.mem_cons_of_mem _ h)
    simp only [sortKeys, List.map_cons, hrest, hspec.value_eq, halone, ha _ hp]

/-- The row of a document in a scan is the row with every part of the query evaluated alone. -/
theorem row?_alone (hu : Undisturbed s t paths) (hm : memo.Faithful loader) (query : Query)
    (hq : ∀ p ∈ query.paths, p ∈ paths) :
    (row? s loader t query memo doc).1 = rowAlone? s loader t query doc := by
  have hcursor : ∀ entry ∈ query.since, entry.1 ∈ paths := fun entry he =>
    hq _ (by simp only [Query.paths, List.mem_append, List.mem_map]; exact .inl (.inr ⟨_, he, rfl⟩))
  have hsort : ∀ rule ∈ query.sort, rule.field ∈ paths := fun rule hr =>
    hq _ (by simp only [Query.paths, List.mem_append, List.mem_map]; exact .inr ⟨_, hr, rfl⟩)
  have hfilter : (verdictOf s loader t query.filter memo doc).IsAlone s loader t paths doc
      (query.filter.all fun f => f.truth (alone s loader t doc)) := by
    cases hf : query.filter with
    | none => exact ⟨rfl, fun _ _ => rfl, hm⟩
    | some f =>
      refine passes_isAlone hu f (fun _ _ => rfl) hm fun c hc => hq _ ?_
      simp only [Query.paths, hf, List.mem_append, Option.elim_some, List.mem_map]
      exact .inl (.inl ⟨c, hc, rfl⟩)
  have hsince := passesCursor_isAlone hu hfilter.alike hfilter.faithful query.since hcursor
  have hkeys := sortKeys_alone hu hsince.alike hsince.faithful query.sort hsort
  unfold rowAlone?
  simp only [row?_eq, hfilter.holds_eq, hsince.holds_eq, hkeys]

/-- The rows of a scan are those of its documents with every part of the query evaluated alone. -/
theorem rows_alone (hu : Undisturbed s t paths) (hm : memo.Faithful loader) (query : Query)
    (hq : ∀ p ∈ query.paths, p ∈ paths) (files : FileTree) (places : List Path) :
    (rows s loader t query files memo places).1 =
      (documents files places).map (·.filterMap (rowAlone? s loader t query)) := by
  have hrow : (fun doc => (row? s loader t query [] doc).1) = rowAlone? s loader t query :=
    funext fun doc => row?_alone hu (Memo.faithful_nil loader) query hq
  rw [rows_eq hm, hrow]

end

end

end Store

namespace Evaluation

/-- Two paths, one of which disturbs the other, are told apart by a filter of two conditions. -/
theorem exists_filter_of_disturbs {s : Schema} {t : DocumentType} {p q : String}
    (h : disturbs s t (Text.splitAt '.' p) (Text.splitAt '.' q) = true) :
    ∃ (loader : Loader) (doc : Document) (f : Filter),
      (∀ c ∈ f.conditions, c.field = p ∨ c.field = q) ∧
        (passes s loader t doc [] f).holds ≠ f.truth (alone s loader t doc) := by
  obtain ⟨doc, target, hp, hne⟩ := changesVerdict_of_disturbs s _ t _ h
  refine ⟨blankLoader, doc,
    .and [.condition ⟨p, .ne, .single .null⟩, .condition ⟨q, .eq, .single target⟩], ?_, ?_⟩
  · intro c hc
    simp only [Filter.conditions, Filter.listConditions, List.mem_append, List.mem_singleton,
      List.not_mem_nil, or_false] at hc
    rcases hc with rfl | rfl
    · exact .inl rfl
    · exact .inr rfl
  · have hfirst := resolve_spec s blankLoader t doc (Memo.faithful_nil blankLoader)
      (Text.splitAt '.' p)
    have hthen := resolve_spec s blankLoader t (filled s blankLoader t doc (Text.splitAt '.' p))
      hfirst.faithful (Text.splitAt '.' q)
    have halone := resolve_spec s blankLoader t doc (Memo.faithful_nil blankLoader)
      (Text.splitAt '.' q)
    have hnull : satisfies .ne (none : Option Json) [.null] = true := rfl
    simp only [passes, passesAll, test, resolvePath, Filter.truth, Filter.truthAll, alone,
      testAlone, Operand.values, hfirst.value_eq, hfirst.doc_eq, hp, hnull, if_true,
      hthen.value_eq, halone.value_eq, Bool.and_true, Bool.true_and]
    exact fun heq => hne (by cases hs : satisfies .eq _ [target] <;> simp_all)

/-- Filters over some paths have the truth values of their trees on all documents exactly where no
path disturbs another. There the order of children does not matter, a filter behind another holds
by itself, and a scan finds the rows with every part of its query evaluated alone. -/
theorem truth_iff_undisturbed (s : Schema) (t : DocumentType) (paths : List String) :
    ((∀ (loader : Loader) (doc : Document) (f : Filter), (∀ c ∈ f.conditions, c.field ∈ paths) →
      (passes s loader t doc [] f).holds = f.truth (alone s loader t doc)) ↔
        Undisturbed s t paths) ∧
    (Undisturbed s t paths → ∀ (loader : Loader) (memo : Memo), memo.Faithful loader →
      (∀ (doc : Document) (f g : Filter), (∀ c ∈ f.conditions, c.field ∈ paths) →
        f.Rearranged g →
          (passes s loader t doc memo f).holds = (passes s loader t doc memo g).holds) ∧
      (∀ (doc : Document) (f g : Filter),
        (∀ c ∈ (Filter.and [f, g]).conditions, c.field ∈ paths) →
          (passes s loader t doc memo (.and [f, g])).holds = true →
            (passes s loader t doc [] g).holds = true) ∧
      ∀ (query : Query) (files : FileTree) (places : List Path), (∀ p ∈ query.paths, p ∈ paths) →
        (Store.rows s loader t query files memo places).1 =
          (Store.documents files places).map
            (·.filterMap (Store.rowAlone? s loader t query))) := by
  have htruth : Undisturbed s t paths → ∀ (loader : Loader) (memo : Memo),
      memo.Faithful loader → ∀ (doc : Document) (f : Filter),
      (∀ c ∈ f.conditions, c.field ∈ paths) →
        (passes s loader t doc memo f).holds = f.truth (alone s loader t doc) := by
    intro hu loader memo hm doc f hf
    exact (passes_isAlone hu f (fun _ _ => rfl) hm hf).holds_eq
  refine ⟨⟨?_, fun hu loader => htruth hu loader [] (Memo.faithful_nil loader)⟩, ?_⟩
  · intro hall p hp q hq
    by_contra hd
    obtain ⟨loader, doc, f, hf, hne⟩ := exists_filter_of_disturbs (by simpa using hd)
    refine hne (hall loader doc f fun c hc => ?_)
    rcases hf c hc with h | h
    · exact h ▸ hp
    · exact h ▸ hq
  · intro hu loader memo hm
    refine ⟨?_, ?_, fun query files places hq => Store.rows_alone hu hm query hq files places⟩
    · intro doc f g hf hfg
      rw [htruth hu loader memo hm doc f hf, hfg.truth_eq]
      exact (htruth hu loader memo hm doc g fun c hc => hf c ((hfg.mem_conditions c).mpr hc)).symm
    · intro doc f g hfg h
      have hg : ∀ c ∈ g.conditions, c.field ∈ paths := fun c hc =>
        hfg c (by simp [Filter.conditions, Filter.listConditions, hc])
      rw [htruth hu loader memo hm doc _ hfg] at h
      simp only [Filter.truth, Filter.truthAll, Bool.and_true, Bool.and_eq_true] at h
      rw [htruth hu loader [] (Memo.faithful_nil loader) doc g hg]
      exact h.2

/-- A filter in front of another can make that one hold on a document where it does not hold by
itself: the first reads below a relation, the second compares the pointer of the relation. -/
theorem exists_filter_switched_off :
    ∃ (s : Schema) (t : DocumentType) (loader : Loader) (doc : Document) (f g : Filter),
      (passes s loader t doc [] (.and [f, g])).holds = true ∧
        (passes s loader t doc [] g).holds = false := by
  let province : DocumentType :=
    ⟨"Provincia", [.ofIdentifier "id", .ofScalar "nombre" .string], none, none, {}⟩
  let employee : DocumentType :=
    ⟨"Empleado", [.ofIdentifier "id", .ofReference "provincia" "Provincia"], none, none, {}⟩
  refine ⟨⟨[province, employee]⟩, employee,
    fun _ _ => some [("id", .str "p1"), ("nombre", .str "Salta")],
    [("id", .str "e1"), ("provincia_id", .str "p1")],
    .condition ⟨"provincia.nombre", .eq, .single (.str "Salta")⟩,
    .condition ⟨"provincia", .ne, .single (.str "p1")⟩, ?_, ?_⟩
  · decide +kernel
  · decide +kernel

end Evaluation

end DocumentEngine
