import DocumentEngine.Proofs.Projection.Slots

/-!
Filling the slots of a round. Slots part ways, so the order in which they are filled does not
matter, and filling all of them and later what they leave open is the same as putting in the value
of each at once. What a filling leaves open is smaller than the slot that was filled.
-/

namespace DocumentEngine

open Projected (Resolves)

/-- The filling of a slot with the documents that a function finds. -/
def Slot.filling (s : Schema) (find : Finder) (slot : Slot) : Projected :=
  match s.type? slot.type with
  | none => ⟨.null, [], []⟩
  | some t =>
    match slot.kind, slot.pointer with
    | .relation, .one id =>
      match find t.name id with
      | some doc => Projection.project s t doc slot.selection.selections slot.path .stored
      | none => ⟨.null, [], []⟩
    | .relation, .many ids =>
      Projection.projectList s t (ids.filterMap (find t.name)) slot.selection.selections slot.path
    | .parentField, pointer =>
      match pointer.ids.head? >>= find t.name with
      | some doc => Projection.projectField s t doc slot.path .stored slot.selection
      | none => ⟨.null, [], []⟩

/-- The slots that the filling of a slot leaves are below it and smaller. -/
theorem Slot.filling_bounded (s : Schema) (find : Finder) (slot : Slot) :
    (slot.filling s find).Bounded slot.path (slot.size - 1) := by
  unfold Slot.filling
  cases s.type? slot.type with
  | none => exact .closed .null []
  | some t =>
    have hsize : Projection.slotBound (Selection.heightBelow slot.selection.selections) .stored ≤
        slot.size - 1 := by
      simp only [Projection.slotBound, Slot.size, slot.selection.height_eq, reduceCtorEq, if_false]
      omega
    dsimp only
    cases hkind : slot.kind with
    | relation =>
      cases slot.pointer with
      | one id =>
        dsimp only
        cases find t.name id with
        | none => exact .closed .null []
        | some doc => exact (Projection.project_bounded s t doc _ slot.path .stored).mono hsize
      | many ids => exact (Projection.projectList_bounded s t _ _ slot.path).mono hsize
    | parentField =>
      dsimp only
      cases slot.pointer.ids.head? >>= find t.name with
      | none => exact .closed .null []
      | some doc =>
        refine (Projection.projectField_bounded s slot.selection t doc slot.path .stored).mono ?_
        simp only [Projection.slotBound, Slot.size, hkind, reduceCtorEq, if_false, if_true]
        omega

/-- What a batch knows fills a slot with slots that are below it and smaller. -/
theorem Batch.fill_bounded (b : Batch) (s : Schema) (slot : Slot) :
    (b.fill s slot).Bounded slot.path (slot.size - 1) :=
  slot.filling_bounded s b.lookup

/-- A batch that knows what a function finds fills a slot with it. -/
theorem Batch.fill_eq {s : Schema} {find : Finder} {b : Batch} {slot : Slot}
    (h : ∀ id ∈ slot.pointer.ids, b.lookup slot.type id = find slot.type id) :
    b.fill s slot = slot.filling s find := by
  have hsame : b.fill s slot = slot.filling s b.lookup := rfl
  rw [hsame, Slot.filling, Slot.filling]
  cases ht : s.type? slot.type with
  | none => rfl
  | some t =>
    have hname : t.name = slot.type := Projection.type?_name s ht
    rw [← hname] at h
    dsimp only
    cases slot.kind with
    | relation =>
      cases hp : slot.pointer with
      | one id =>
        rw [hp] at h
        dsimp only
        rw [h id (List.mem_singleton_self id)]
      | many ids =>
        rw [hp] at h
        dsimp only
        have hfound : ids.filterMap (b.lookup t.name) = ids.filterMap (find t.name) :=
          List.filterMap_congr h
        rw [hfound]
    | parentField =>
      have hhead : slot.pointer.ids.head? >>= b.lookup t.name =
          slot.pointer.ids.head? >>= find t.name := by
        cases hids : slot.pointer.ids with
        | nil => rfl
        | cons id ids => exact h id (hids ▸ List.mem_cons_self)
      dsimp only
      rw [hhead]

/-- A document that is found becomes the value that it has without slots. -/
theorem Projection.project_resolves (s : Schema) (find : Finder) {t : DocumentType}
    (ht : s.type? t.name = some t) {selections : List Selection}
    (hd : Selection.DistinctBelow selections) (doc : Document) (path : ResponsePath)
    (origin : Origin) :
    (project s t doc selections path origin).Resolves s find path
      (slotBound (Selection.heightBelow selections) origin)
      (Direct.document s find t origin selections doc) := by
  unfold project Direct.document
  by_cases hempty : selections.isEmpty
  · rw [if_pos hempty, if_pos hempty]
    exact .closed _ []
  · rw [if_neg hempty, if_neg hempty]
    exact .object (projectFields_resolves s find selections hd ht doc path origin)

/-- A list of documents becomes the list of the values that they have without slots. -/
theorem Projection.projectList_resolves (s : Schema) (find : Finder) {t : DocumentType}
    (ht : s.type? t.name = some t) {selections : List Selection}
    (hd : Selection.DistinctBelow selections) (docs : List Document) (path : ResponsePath) :
    (projectList s t docs selections path).Resolves s find path
      (slotBound (Selection.heightBelow selections) .stored)
      (.arr (docs.map (Direct.document s find t .stored selections))) :=
  .list (.ofMap _ _ docs fun i doc => project_resolves s find ht hd doc (path ++ [.index i]) .stored)

theorem Selection.Distinct.below {selection : Selection} (h : selection.Distinct) :
    Selection.DistinctBelow selection.selections := by
  cases selection
  exact h

/-- The filling of a slot becomes what is to stand in it, and its slots are smaller. -/
theorem Slot.filling_resolves (s : Schema) (find : Finder) {slot : Slot}
    (hd : slot.selection.Distinct) :
    (slot.filling s find).Resolves s find slot.path (slot.size - 1) (Direct.slot s find slot) := by
  unfold Slot.filling Direct.slot
  cases ht : s.type? slot.type with
  | none => exact .closed .null []
  | some t =>
    have hself : s.type? t.name = some t := by rw [Projection.type?_name s ht, ht]
    have hsize : Projection.slotBound (Selection.heightBelow slot.selection.selections) .stored ≤
        slot.size - 1 := by
      simp only [Projection.slotBound, Slot.size, slot.selection.height_eq, reduceCtorEq, if_false]
      omega
    dsimp only
    cases hkind : slot.kind with
    | relation =>
      cases slot.pointer with
      | one id =>
        dsimp only [Finder.follow]
        cases find t.name id with
        | none => exact .closed .null []
        | some doc =>
          exact (Projection.project_resolves s find hself hd.below doc slot.path .stored).mono hsize
      | many ids =>
        exact (Projection.projectList_resolves s find hself hd.below _ slot.path).mono hsize
    | parentField =>
      dsimp only
      cases slot.pointer.ids.head? >>= find t.name with
      | none => exact .closed .null []
      | some doc =>
        refine (Projection.projectField_resolves s find slot.selection hd hself doc slot.path
          .stored).mono ?_
        simp only [Projection.slotBound, Slot.size, hkind, reduceCtorEq, if_false, if_true]
        omega

namespace Direct

variable (s : Schema) (find : Finder)

/-- A value put beside slots stays where it is while they are settled. -/
theorem settle_setAt (data v : Json) {path : ResponsePath} {slots : List Slot}
    (h : ∀ slot ∈ slots, slot.path.Diverge path) :
    settle s find (data.setAt v path) slots = (settle s find data slots).setAt v path := by
  induction slots generalizing data with
  | nil => rfl
  | cons slot slots ih =>
    have hrest := ih (data.setAt (Direct.slot s find slot) slot.path)
      fun other hother => h other (List.mem_cons_of_mem _ hother)
    rw [← Json.setAt_comm data v _ (h slot List.mem_cons_self).symm] at hrest
    exact hrest

/-- The data with slots filled, before what their fillings leave open. -/
def fillAll (filling : Slot → Projected) (data : Json) (round : List Slot) : Json :=
  round.foldl (fun data slot => data.setAt (filling slot).value slot.path) data

theorem settle_fillAll (filling : Slot → Projected) (data : Json) {round slots : List Slot}
    (h : ∀ slot ∈ slots, ∀ other ∈ round, slot.path.Diverge other.path) :
    settle s find (fillAll filling data round) slots =
      fillAll filling (settle s find data slots) round := by
  induction round generalizing data with
  | nil => rfl
  | cons other round ih =>
    have hrest := ih (data.setAt (filling other).value other.path)
      fun slot hslot o ho => h slot hslot o (List.mem_cons_of_mem _ ho)
    rw [settle_setAt s find data _ fun slot hslot => h slot hslot other List.mem_cons_self] at hrest
    exact hrest

/-- Filling the slots of a round and settling what that leaves open puts the value of each into
it. -/
theorem settle_round (data : Json) {round : List Slot} {filling : Slot → Projected}
    {value : Slot → Json}
    (hfilling : ∀ slot ∈ round, (filling slot).Resolves s find slot.path (slot.size - 1)
      (value slot))
    (hapart : round.Pairwise fun a b => a.path.Diverge b.path) :
    settle s find (fillAll filling data round) (round.flatMap fun slot => (filling slot).slots) =
      round.foldl (fun data slot => data.setAt (value slot) slot.path) data := by
  induction round generalizing data with
  | nil => rfl
  | cons slot round ih =>
    obtain ⟨hhead, htail⟩ := List.pairwise_cons.mp hapart
    have hself := hfilling slot List.mem_cons_self
    have hbelow : ∀ inner ∈ (filling slot).slots, ∀ other ∈ round,
        inner.path.Diverge other.path := fun inner hinner other hother =>
      (hhead other hother).of_isPrefix (hself.within inner hinner) (List.prefix_refl _)
    rw [List.flatMap_cons, settle_append]
    change settle s find (settle s find
      (fillAll filling (data.setAt (filling slot).value slot.path) round) (filling slot).slots) _ = _
    rw [settle_fillAll s find filling _ hbelow, hself.settles]
    exact ih _ (fun other hother => hfilling other (List.mem_cons_of_mem _ hother)) htail

/-- What the fillings of a round leave open is smaller than the slots of the round. -/
theorem small_round {round : List Slot} {filling : Slot → Projected} {value : Slot → Json}
    (hfilling : ∀ slot ∈ round, (filling slot).Resolves s find slot.path (slot.size - 1)
      (value slot)) {fuel : Nat} (hsize : ∀ slot ∈ round, slot.size ≤ fuel + 1) :
    ∀ slot ∈ round.flatMap fun slot => (filling slot).slots, slot.size ≤ fuel := by
  intro slot hslot
  obtain ⟨outer, houter, hinner⟩ := List.mem_flatMap.mp hslot
  have hless := (hfilling outer houter).small slot hinner
  have hbound := hsize outer houter
  omega

theorem distinct_round {round : List Slot} {filling : Slot → Projected} {value : Slot → Json}
    (hfilling : ∀ slot ∈ round, (filling slot).Resolves s find slot.path (slot.size - 1)
      (value slot)) :
    ∀ slot ∈ round.flatMap fun slot => (filling slot).slots, slot.selection.Distinct := by
  intro slot hslot
  obtain ⟨outer, houter, hinner⟩ := List.mem_flatMap.mp hslot
  exact (hfilling outer houter).distinct slot hinner

/-- What the fillings of a round leave open parts ways again. -/
theorem apart_round {round : List Slot} {filling : Slot → Projected} {value : Slot → Json}
    (hfilling : ∀ slot ∈ round, (filling slot).Resolves s find slot.path (slot.size - 1)
      (value slot))
    (hapart : round.Pairwise fun a b => a.path.Diverge b.path) :
    (round.flatMap fun slot => (filling slot).slots).Pairwise
      fun a b => a.path.Diverge b.path := by
  refine List.pairwise_flatMap.mpr ⟨fun slot hslot => (hfilling slot hslot).apart, ?_⟩
  refine hapart.imp_of_mem fun {a b} ha hb hdiverge x hx y hy => ?_
  exact hdiverge.of_isPrefix ((hfilling a ha).within x hx) ((hfilling b hb).within y hy)

end Direct

end DocumentEngine
