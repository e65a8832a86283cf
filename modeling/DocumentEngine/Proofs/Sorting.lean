import Mathlib.Tactic.Common

/-!
Stable sorting under a comparison. A comparison that makes a total preorder leaves one order only to
which the items of a list can be brought where ties stay as they were, and a merge sort finds it.
-/

namespace DocumentEngine

variable {α : Type}

/-- A comparison that makes a total preorder: a value ties with itself, two values turned around
compare in reverse, and neither order nor ties break off. -/
structure Preorders (cmp : α → α → Ordering) : Prop where
  refl (a : α) : cmp a a = .eq
  swap (a b : α) : cmp a b = (cmp b a).swap
  trans {a b c : α} (hab : cmp a b ≠ .gt) (hbc : cmp b c ≠ .gt) : cmp a c ≠ .gt
  tie_trans {a b c : α} (hab : cmp a b = .eq) (hbc : cmp b c = .eq) : cmp a c = .eq

/-- The items that tie with a value. -/
def ties (cmp : α → α → Ordering) (a : α) (items : List α) : List α :=
  items.filter fun b => cmp a b == .eq

/-- The items of a list in order, where those that tie with one of them stand as they stood. -/
structure SortsStably (cmp : α → α → Ordering) (items sorted : List α) : Prop where
  perm : sorted.Perm items
  ordered : sorted.Pairwise fun a b => cmp a b ≠ .gt
  stable (a : α) : ties cmp a sorted = ties cmp a items

theorem preorders_of_transCmp (cmp : α → α → Ordering) [Std.TransCmp cmp] : Preorders cmp where
  refl _ := Std.ReflCmp.compare_self
  swap _ _ := Std.OrientedCmp.eq_swap
  trans hab hbc :=
    Ordering.isLE_iff_ne_gt.mp <| Std.TransCmp.isLE_trans (Ordering.isLE_iff_ne_gt.mpr hab)
      (Ordering.isLE_iff_ne_gt.mpr hbc)
  tie_trans hab hbc := Std.TransCmp.eq_trans hab hbc

theorem mem_ties {cmp : α → α → Ordering} {a b : α} {items : List α} :
    b ∈ ties cmp a items ↔ b ∈ items ∧ cmp a b = .eq := by
  rw [ties, List.mem_filter, beq_iff_eq]

theorem ties_cons_of_tie {cmp : α → α → Ordering} {a b : α} (hab : cmp a b = .eq)
    (items : List α) : ties cmp a (b :: items) = b :: ties cmp a items :=
  List.filter_cons_of_pos (beq_iff_eq.mpr hab)

namespace Preorders

variable {cmp : α → α → Ordering} (h : Preorders cmp)

include h

theorem le_trans (a b c : α) (hab : (cmp a b != .gt) = true) (hbc : (cmp b c != .gt) = true) :
    (cmp a c != .gt) = true := by
  rw [bne_iff_ne] at *
  exact h.trans hab hbc

theorem le_total (a b : α) : (cmp a b != .gt || cmp b a != .gt) = true := by
  rw [h.swap b a]
  cases cmp a b <;> rfl

theorem tie_of_le {a b : α} (hab : cmp a b ≠ .gt) (hba : cmp b a ≠ .gt) : cmp a b = .eq := by
  rw [h.swap b a] at hba
  cases hcmp : cmp a b with
  | eq => rfl
  | lt =>
    rw [hcmp] at hba
    exact absurd rfl hba
  | gt => exact absurd hcmp hab

theorem tie_symm {a b : α} (hab : cmp a b = .eq) : cmp b a = .eq := by
  rw [h.swap b a, hab]
  rfl

theorem mem_of_ties_eq {l l' : List α} (hties : ∀ a, ties cmp a l = ties cmp a l') {a : α}
    (ha : a ∈ l) : a ∈ l' := by
  have hself : a ∈ ties cmp a l := mem_ties.mpr ⟨ha, h.refl a⟩
  rw [hties a] at hself
  exact (mem_ties.mp hself).1

/-- The first item of a list in order stands behind none of the list. -/
theorem head_le {a b : α} {l : List α} (hl : (a :: l).Pairwise fun a b => cmp a b ≠ .gt)
    (hb : b ∈ a :: l) : cmp a b ≠ .gt := by
  rcases List.mem_cons.mp hb with rfl | hin
  · rw [h.refl b]
    exact fun hc => nomatch hc
  · exact (List.pairwise_cons.mp hl).1 b hin

/-- Two lists in order with the same ties are equal. -/
theorem eq_of_ties_eq {l l' : List α} (hl : l.Pairwise fun a b => cmp a b ≠ .gt)
    (hl' : l'.Pairwise fun a b => cmp a b ≠ .gt) (hties : ∀ a, ties cmp a l = ties cmp a l') :
    l = l' := by
  induction l generalizing l' with
  | nil =>
    cases l' with
    | nil => rfl
    | cons b l' =>
      exact absurd (h.mem_of_ties_eq (fun a => (hties a).symm) List.mem_cons_self) List.not_mem_nil
  | cons a l ih =>
    cases l' with
    | nil => exact absurd (h.mem_of_ties_eq hties List.mem_cons_self) List.not_mem_nil
    | cons b l' =>
      -- each head stands somewhere in the other list, so that the heads tie
      have hab : cmp a b = .eq := h.tie_of_le
        (h.head_le hl (h.mem_of_ties_eq (fun c => (hties c).symm) List.mem_cons_self))
        (h.head_le hl' (h.mem_of_ties_eq hties List.mem_cons_self))
      have hhead := hties a
      rw [ties_cons_of_tie (h.refl a), ties_cons_of_tie hab] at hhead
      obtain rfl : a = b := (List.cons.inj hhead).1
      refine congrArg (a :: ·) (ih hl.of_cons hl'.of_cons fun c => ?_)
      have hc := hties c
      unfold ties at hc
      rw [List.filter_cons, List.filter_cons] at hc
      split at hc
      · exact (List.cons.inj hc).2
      · exact hc

theorem sortsStably_mergeSort (items : List α) :
    SortsStably cmp items (items.mergeSort fun a b => cmp a b != .gt) where
  perm := List.mergeSort_perm items _
  ordered :=
    (List.pairwise_mergeSort h.le_trans h.le_total items).imp fun hle => bne_iff_ne.mp hle
  stable a := by
    -- items that tie are in order as they stand, so that the sort leaves them in a row
    have hordered : (ties cmp a items).Pairwise fun b c => (cmp b c != .gt) = true := by
      refine List.pairwise_of_forall_mem_list fun b hb c hc => ?_
      rw [h.tie_trans (h.tie_symm (mem_ties.mp hb).2) (mem_ties.mp hc).2]
      rfl
    have hkept := (List.sublist_mergeSort h.le_trans h.le_total hordered
      List.filter_sublist).filter fun b => cmp a b == .eq
    have hsame : (ties cmp a items).filter (fun b => cmp a b == .eq) = ties cmp a items := by
      simp only [ties, List.filter_filter, Bool.and_self]
    rw [hsame] at hkept
    exact (hkept.eq_of_length ((List.mergeSort_perm items _).filter _).length_eq.symm).symm

/-- A merge sort gives the one stable order. -/
theorem sortsStably_iff {items sorted : List α} :
    SortsStably cmp items sorted ↔ sorted = items.mergeSort fun a b => cmp a b != .gt := by
  have hsort := h.sortsStably_mergeSort items
  constructor
  · intro hsorted
    exact h.eq_of_ties_eq hsorted.ordered hsort.ordered fun a =>
      (hsorted.stable a).trans (hsort.stable a).symm
  · rintro rfl
    exact hsort

end Preorders

end DocumentEngine
