import DocumentEngine.Evaluation.Sort
import DocumentEngine.Proofs.Sorting
import Mathlib.Data.String.Basic

/-!
The order of results. Values of any sorts stand in a total preorder, and so do the keys of rows
under sort rules, of which the first that tells two rows apart decides. A sort keeps the rows, puts
none before a row that comes sooner, and leaves rows that tie as they were.
-/

namespace DocumentEngine.Evaluation

/-- What decides the place of a value: its sort, then the number or the text in it. -/
def standing : Option Json → Nat × Int × String
  | some (.bool b) => (2, if b then 1 else 0, "")
  | some (.num n) => (3, n.toDouble.position, "")
  | some (.str text) => (4, 0, text)
  | v => (sortRank v, 0, "")

theorem compareValues_eq : compareValues =
    compareLex (compareOn fun v => (standing v).1)
      (compareLex (compareOn fun v => (standing v).2.1) (compareOn fun v => (standing v).2.2)) := by
  funext a b
  rcases a with _ | _ | a | a | a | a | a <;> rcases b with _ | _ | b | b | b | b | b <;>
    simp [compareValues, compareLex, compareOn, standing, sortRank, Double.compare] <;>
    try rfl
  cases a <;> cases b <;> rfl

instance : Std.TransCmp compareValues := by
  rw [compareValues_eq]
  infer_instance

private theorem transCmp_comp {α β : Type} (cmp : β → β → Ordering) [Std.TransCmp cmp]
    (f : α → β) : Std.TransCmp fun a b => cmp (f a) (f b) where
  eq_swap := Std.OrientedCmp.eq_swap
  isLE_trans := Std.TransCmp.isLE_trans

/-- The order of two values under a rule. -/
def compareUnder (rule : SortRule) (a b : Option Json) : Ordering :=
  match rule.direction with
  | .ascending => compareValues a b
  | .descending => (compareValues a b).swap

theorem transCmp_compareUnder (rule : SortRule) : Std.TransCmp (compareUnder rule) := by
  cases h : rule.direction with
  | ascending =>
    have heq : compareUnder rule = compareValues := by
      funext a b
      simp only [compareUnder, h]
    rw [heq]
    infer_instance
  | descending =>
    have heq : compareUnder rule = fun a b => compareValues b a := by
      funext a b
      simp only [compareUnder, h]
      exact Std.OrientedCmp.eq_swap.symm
    rw [heq]
    infer_instance

theorem compareKeys_cons (rule : SortRule) (rules : List SortRule) :
    compareKeys (rule :: rules) =
      compareLex (fun as bs => compareUnder rule (as.headD none) (bs.headD none))
        fun as bs => compareKeys rules as.tail bs.tail := rfl

theorem transCmp_compareKeys (rules : List SortRule) : Std.TransCmp (compareKeys rules) := by
  induction rules with
  | nil => exact { eq_swap := rfl, isLE_trans := fun _ _ => rfl }
  | cons rule rules ih =>
    have hhead := transCmp_compareUnder rule
    have hfirst := transCmp_comp (compareUnder rule) fun as : List (Option Json) => as.headD none
    have hrest := transCmp_comp (compareKeys rules) fun as : List (Option Json) => as.tail
    rw [compareKeys_cons]
    infer_instance

/-- The order of two rows under sort rules. -/
def compareRows (rules : List SortRule) (a b : Row) : Ordering := compareKeys rules a.keys b.keys

instance (rules : List SortRule) : Std.TransCmp (compareRows rules) :=
  have := transCmp_compareKeys rules
  transCmp_comp (compareKeys rules) Row.keys

/-- One list of keys comes sooner than another: the first rule that tells them apart says so, one
that descends by the greater value. -/
inductive Sooner : List SortRule → List (Option Json) → List (Option Json) → Prop where
  | ascending {rule : SortRule} {rules : List SortRule} {a b : Option Json}
      {as bs : List (Option Json)} (hrule : rule.direction = .ascending)
      (h : compareValues a b = .lt) : Sooner (rule :: rules) (a :: as) (b :: bs)
  | descending {rule : SortRule} {rules : List SortRule} {a b : Option Json}
      {as bs : List (Option Json)} (hrule : rule.direction = .descending)
      (h : compareValues a b = .gt) : Sooner (rule :: rules) (a :: as) (b :: bs)
  | tied {rule : SortRule} {rules : List SortRule} {a b : Option Json}
      {as bs : List (Option Json)} (h : compareValues a b = .eq) (hrest : Sooner rules as bs) :
      Sooner (rule :: rules) (a :: as) (b :: bs)

/-- The first rule that tells two lists of keys apart decides their order. -/
theorem compareKeys_eq_lt_iff {rules : List SortRule} {as bs : List (Option Json)}
    (ha : as.length = rules.length) (hb : bs.length = rules.length) :
    compareKeys rules as bs = .lt ↔ Sooner rules as bs := by
  constructor
  · intro h
    induction rules generalizing as bs with
    | nil => cases h
    | cons rule rules ih =>
      obtain ⟨a, as, rfl⟩ := List.exists_cons_of_length_eq_add_one ha
      obtain ⟨b, bs, rfl⟩ := List.exists_cons_of_length_eq_add_one hb
      have hdirected : (compareUnder rule a b).then (compareKeys rules as bs) = .lt := h
      rcases Ordering.then_eq_lt.mp hdirected with hfirst | ⟨hfirst, hrest⟩
      · cases hd : rule.direction with
        | ascending => exact .ascending hd (by simpa [compareUnder, hd] using hfirst)
        | descending => exact .descending hd (by simpa [compareUnder, hd] using hfirst)
      · refine .tied ?_ (ih (by simpa using ha) (by simpa using hb) hrest)
        cases hd : rule.direction <;> simpa [compareUnder, hd] using hfirst
  · intro h
    clear ha hb
    induction h with
    | ascending hrule h => simp [compareKeys, hrule, h]
    | descending hrule h => simp [compareKeys, hrule, h]
    | @tied rule rules a b as bs h _ ih => cases hd : rule.direction <;> simp [compareKeys, h, hd, ih]

/-- Keys may stand before others unless those come sooner. -/
theorem compareKeys_ne_gt_iff {rules : List SortRule} {as bs : List (Option Json)}
    (ha : as.length = rules.length) (hb : bs.length = rules.length) :
    (compareKeys rules as bs != .gt) = true ↔ ¬ Sooner rules bs as := by
  have htrans := transCmp_compareKeys rules
  rw [← compareKeys_eq_lt_iff hb ha, bne_iff_ne, Ne, Std.OrientedCmp.gt_iff_lt]

/-- A sort keeps the rows, puts none before a row that comes sooner, and leaves rows none of which
comes sooner than one before it as they were. -/
theorem sortRows_spec {rules : List SortRule} {rows : List Row}
    (h : ∀ row ∈ rows, row.keys.length = rules.length) :
    (sortRows rules rows).Perm rows ∧
      (sortRows rules rows).Pairwise (fun a b => ¬ Sooner rules b.keys a.keys) ∧
      ∀ some : List Row, some.Sublist rows →
        some.Pairwise (fun a b => ¬ Sooner rules b.keys a.keys) →
          some.Sublist (sortRows rules rows) := by
  have hrows := preorders_of_transCmp (compareRows rules)
  have hperm : (sortRows rules rows).Perm rows := List.mergeSort_perm rows _
  have hkept : ∀ {a b : Row}, a ∈ rows → b ∈ rows →
      ((compareRows rules a b != .gt) = true ↔ ¬ Sooner rules b.keys a.keys) := fun ha hb =>
    compareKeys_ne_gt_iff (h _ ha) (h _ hb)
  refine ⟨hperm, ?_, fun some hsome hordered => ?_⟩
  · have hpairs := List.pairwise_mergeSort hrows.le_trans hrows.le_total rows
    exact hpairs.imp_of_mem fun ha hb => (hkept (hperm.mem_iff.mp ha) (hperm.mem_iff.mp hb)).mp
  · refine List.sublist_mergeSort hrows.le_trans hrows.le_total ?_ hsome
    exact hordered.imp_of_mem fun ha hb => (hkept (hsome.subset ha) (hsome.subset hb)).mpr

/-- Values of all sorts stand in a total preorder, and so do rows under any sort rules. Of all
orders of the rows a sort gives the one in which rows that tie stay as they were, so that a second
sort changes nothing. -/
theorem sortRows_total_preorder (rules : List SortRule) :
    Preorders compareValues ∧ Preorders (compareRows rules) ∧
      ∀ rows : List Row,
        (∀ sorted, SortsStably (compareRows rules) rows sorted ↔ sorted = sortRows rules rows) ∧
        sortRows rules (sortRows rules rows) = sortRows rules rows := by
  have hrows := preorders_of_transCmp (compareRows rules)
  refine ⟨preorders_of_transCmp compareValues, hrows, fun rows => ⟨fun sorted => ?_, ?_⟩⟩
  · exact hrows.sortsStably_iff
  · exact List.mergeSort_of_pairwise (List.pairwise_mergeSort hrows.le_trans hrows.le_total rows)

end DocumentEngine.Evaluation
