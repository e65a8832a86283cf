import DocumentEngine.Proofs.Projection.Filling

/-!
How projections are made up. The answer to a selection is a value, a fault at null, a slot that its
placeholder stands for, an object of the answers to the selections below, or a list of answers to
the selection itself. So are the fillings of slots, and what holds of answers is proved by induction
on how they are made up.
-/

namespace DocumentEngine

/-- A projection that answers a selection at a path. -/
inductive Projected.Answers : Selection → ResponsePath → Projected → Prop
  | value (selection : Selection) (path : ResponsePath) (v : Json) :
      Answers selection path ⟨v, [], []⟩
  | fault (selection : Selection) (path : ResponsePath) (cause : EngineError) :
      Answers selection path ⟨.null, [], [⟨path, cause⟩]⟩
  | slot (slot : Slot) : (slot.kind = .relation → slot.selection.selections ≠ []) →
      Answers slot.selection slot.path ⟨slot.pointer.placeholder, [slot], []⟩
  | object (selection : Selection) (path : ResponsePath) (answer : Selection → Projected) :
      (∀ inner ∈ selection.selections,
        Answers inner (path ++ [.key inner.responseKey]) (answer inner)) →
      Answers selection path
        (.object (selection.selections.map fun inner => (inner.responseKey, answer inner)))
  | list (selection : Selection) (path : ResponsePath) (items : List Projected) :
      (∀ i item, items[i]? = some item → Answers selection (path ++ [.index i]) item) →
      Answers selection path (.list items)

/-- The answers to a selection at the indices of a list are a list that answers it. -/
theorem Projected.Answers.ofMapIdx {α : Type} {selection : Selection} {path : ResponsePath}
    (f : Nat → α → Projected) (xs : List α)
    (h : ∀ i x, Answers selection (path ++ [.index i]) (f i x)) :
    Answers selection path (.list (xs.mapIdx f)) := by
  refine .list selection path _ fun i item hitem => ?_
  obtain ⟨x, -, rfl⟩ := Option.map_eq_some_iff.mp (List.getElem?_mapIdx.symm.trans hitem)
  exact h i x

namespace Projection

open Projected (Answers)

theorem deferParent_answers (t : DocumentType) (doc : Document) (selection : Selection)
    (path : ResponsePath) (origin : Origin) :
    (deferParent t doc selection path origin).Answers selection path := by
  unfold deferParent
  cases origin with
  | stored => exact .value ..
  | embedded =>
    cases doc.get? t.identifierName >>= Json.idText? with
    | none => exact .value ..
    | some id =>
      exact .slot ⟨path, t.name, .one id, selection, .parentField⟩ fun hkind => by cases hkind

theorem reference_answers (t : DocumentType) (f : Field) (target : String) (doc : Document)
    (selection : Selection) (path : ResponsePath) (origin : Origin) :
    (reference t f target doc selection path origin).Answers selection path := by
  unfold reference
  cases doc.get? f.name <|> doc.get? f.pointerKey with
  | none => exact deferParent_answers t doc selection path origin
  | some pointer =>
    dsimp only
    unfold deferRelation
    by_cases hempty : selection.selections.isEmpty
    · rw [if_pos hempty]
      exact .value ..
    · rw [if_neg hempty]
      cases Pointer.ofJson? pointer with
      | none => exact .value ..
      | some ids =>
        exact .slot ⟨path, target, ids, selection, .relation⟩ fun _ hnil =>
          hempty (List.isEmpty_iff.mpr hnil)

mutual

/-- The projection of a document onto a field answers it. -/
theorem projectField_answers (s : Schema) :
    (selection : Selection) → (t : DocumentType) → (doc : Document) → (path : ResponsePath) →
      (origin : Origin) → (projectField s t doc path origin selection).Answers selection path
  | .field label name arguments below, t, doc, path, origin => by
    refine projectField_of_parts (fun path p => p.Answers (.field label name arguments below) path)
      s t doc path origin _ (.value _) (.fault _) (deferParent_answers t doc _ path origin)
      (fun f target => reference_answers t f target doc _ path origin) (fun u copy path => ?_)
      fun items f => .ofMapIdx f items
    change Answers _ _ (project s u copy below path .embedded)
    unfold project
    split
    · exact .value ..
    · rw [projectFields_eq]
      exact .object (.field label name arguments below) path _ fun inner hinner =>
        projectBelow_answers s below inner hinner u copy _ .embedded

/-- The projections of a document onto fields answer them. -/
theorem projectBelow_answers (s : Schema) :
    (selections : List Selection) → (inner : Selection) → inner ∈ selections →
      (t : DocumentType) → (doc : Document) → (path : ResponsePath) → (origin : Origin) →
      (projectField s t doc path origin inner).Answers inner path
  | [], _, hinner, _, _, _, _ => by cases hinner
  | selection :: rest, inner, hinner, t, doc, path, origin => by
    rcases List.mem_cons.mp hinner with hhead | hinner
    · rw [hhead]
      exact projectField_answers s selection t doc path origin
    · exact projectBelow_answers s rest inner hinner t doc path origin

end

/-- A document answers a selection with the fields below it. -/
theorem project_answers (s : Schema) (t : DocumentType) (doc : Document) (selection : Selection)
    (path : ResponsePath) (origin : Origin) :
    (project s t doc selection.selections path origin).Answers selection path := by
  unfold project
  split
  · exact .value ..
  · rw [projectFields_eq]
    exact .object selection path _ fun inner _ => projectField_answers s inner t doc _ origin

theorem projectList_answers (s : Schema) (t : DocumentType) (docs : List Document)
    (selection : Selection) (path : ResponsePath) :
    (projectList s t docs selection.selections path).Answers selection path :=
  .ofMapIdx _ docs fun _ doc => project_answers s t doc selection _ .stored

end Projection

/-- The filling of a slot answers its selection at its path. -/
theorem Slot.filling_answers (s : Schema) (find : Finder) (slot : Slot) :
    (slot.filling s find).Answers slot.selection slot.path := by
  unfold Slot.filling
  cases s.type? slot.type with
  | none => exact .value ..
  | some t =>
    dsimp only
    cases slot.kind with
    | relation =>
      cases slot.pointer with
      | one id =>
        dsimp only
        cases find t.name id with
        | none => exact .value ..
        | some doc => exact Projection.project_answers s t doc slot.selection slot.path .stored
      | many ids => exact Projection.projectList_answers s t _ slot.selection slot.path
    | parentField =>
      dsimp only
      cases slot.pointer.ids.head? >>= find t.name with
      | none => exact .value ..
      | some doc => exact Projection.projectField_answers s slot.selection t doc slot.path .stored

/-- What is left open has something below it to fill, or is a field that a copy lacks. -/
theorem Projected.Answers.three_le_size {selection : Selection} {path : ResponsePath}
    {p : Projected} (h : p.Answers selection path) : ∀ slot ∈ p.slots, 3 ≤ slot.size := by
  induction h with
  | value selection path v => simp
  | fault selection path cause => simp
  | slot slot hbelow =>
    intro other hother
    rw [List.mem_singleton.mp hother, Slot.size, slot.selection.height_eq]
    cases hkind : slot.kind with
    | relation =>
      obtain ⟨inner, rest, hinner⟩ := List.exists_cons_of_ne_nil (hbelow hkind)
      have hheight := inner.height_eq
      rw [hinner, Selection.heightBelow]
      omega
    | parentField =>
      rw [if_pos rfl]
      omega
  | object selection path answer _ ih =>
    intro slot hslot
    obtain ⟨field, hfield, hmem⟩ := List.mem_flatMap.mp hslot
    obtain ⟨inner, hinner, rfl⟩ := List.mem_map.mp hfield
    exact ih inner hinner slot hmem
  | list selection path items _ ih =>
    intro slot hslot
    obtain ⟨item, hitem, hmem⟩ := List.mem_flatMap.mp hslot
    obtain ⟨i, hi⟩ := List.mem_iff_getElem?.mp hitem
    exact ih i item hi slot hmem

end DocumentEngine
