import DocumentEngine.Projection.Fill
import DocumentEngine.Proofs.Keyed

/-!
Where the slots of a projection lie and how large they are. They lie below the path of the
projection, and none is larger than what was selected.
-/

namespace DocumentEngine

/-- A projection with slots below a path, of some size at most. -/
structure Projected.Bounded (path : ResponsePath) (size : Nat) (p : Projected) : Prop where
  within : ∀ slot ∈ p.slots, path <+: slot.path
  small : ∀ slot ∈ p.slots, slot.size ≤ size

namespace Projected.Bounded

variable {path : ResponsePath} {size : Nat}

theorem closed (v : Json) (faults : List ResponseError) : Bounded path size ⟨v, [], faults⟩ where
  within := by simp
  small := by simp

theorem ofSlot {slot : Slot} (v : Json) (faults : List ResponseError) (hpath : slot.path = path)
    (hsize : slot.size ≤ size) : Bounded path size ⟨v, [slot], faults⟩ where
  within := by simp [hpath]
  small := by simpa using hsize

theorem mono {p : Projected} {size' : Nat} (h : Bounded path size p) (hle : size ≤ size') :
    Bounded path size' p :=
  ⟨h.within, fun slot hslot => (h.small slot hslot).trans hle⟩

/-- An object is bounded where each of its fields is bounded at its key. -/
theorem object {fields : List (String × Projected)}
    (h : ∀ field ∈ fields, field.2.Bounded (path ++ [.key field.1]) size) :
    (Projected.object fields).Bounded path size where
  within slot hslot := by
    obtain ⟨field, hfield, hmem⟩ := List.mem_flatMap.mp hslot
    exact (List.prefix_append path [.key field.1]).trans ((h field hfield).within slot hmem)
  small slot hslot := by
    obtain ⟨field, hfield, hmem⟩ := List.mem_flatMap.mp hslot
    exact (h field hfield).small slot hmem

/-- A list is bounded where each of its items is bounded at its index. -/
theorem list {α : Type} (f : Nat → α → Projected) (xs : List α)
    (h : ∀ i x, (f i x).Bounded (path ++ [.index i]) size) :
    (Projected.list (xs.mapIdx f)).Bounded path size where
  within slot hslot := by
    obtain ⟨item, hitem, hmem⟩ := List.mem_flatMap.mp hslot
    obtain ⟨i, hi, rfl⟩ := List.mem_mapIdx.mp hitem
    exact (List.prefix_append path [.index i]).trans ((h i _).within slot hmem)
  small slot hslot := by
    obtain ⟨item, hitem, hmem⟩ := List.mem_flatMap.mp hslot
    obtain ⟨i, hi, rfl⟩ := List.mem_mapIdx.mp hitem
    exact (h i _).small slot hmem

end Projected.Bounded

theorem Selection.height_eq (selection : Selection) :
    selection.height = Selection.heightBelow selection.selections + 1 := by
  cases selection
  rfl

namespace Projection

/-- A bound on the slots of a selection, from a stored document or from a copy. -/
def slotBound (height : Nat) (origin : Origin) : Nat :=
  2 * height + (if origin = .embedded then 1 else 0)

theorem deferParent_bounded (t : DocumentType) (doc : Document) (selection : Selection)
    (path : ResponsePath) (origin : Origin) :
    (deferParent t doc selection path origin).Bounded path (slotBound selection.height origin) := by
  unfold deferParent
  cases origin with
  | stored => exact .closed .null []
  | embedded =>
    cases doc.get? t.identifierName >>= Json.idText? with
    | none => exact .closed .null []
    | some id => exact .ofSlot .null [] rfl (by rfl)

theorem reference_bounded (t : DocumentType) (f : Field) (target : String) (doc : Document)
    (selection : Selection) (path : ResponsePath) (origin : Origin) :
    (reference t f target doc selection path origin).Bounded path
      (slotBound selection.height origin) := by
  unfold reference
  cases doc.get? f.name <|> doc.get? f.pointerKey with
  | none => exact deferParent_bounded t doc selection path origin
  | some pointer =>
    dsimp only
    unfold deferRelation
    split
    · exact .closed pointer []
    · cases Pointer.ofJson? pointer with
      | none => exact .closed .null []
      | some ids => exact .ofSlot ids.placeholder [] rfl (by simp [Slot.size, slotBound])

/-- What holds at a path of values, of faults, of what is deferred and of the copies that a document
embeds, and of lists of what it holds of at their indices, holds of the projection onto a field. -/
theorem projectField_of_parts (holds : ResponsePath → Projected → Prop) (s : Schema)
    (t : DocumentType) (doc : Document) (path : ResponsePath) (origin : Origin)
    (selection : Selection)
    (value : ∀ path v, holds path ⟨v, [], []⟩)
    (fault : ∀ path cause, holds path ⟨.null, [], [⟨path, cause⟩]⟩)
    (parent : holds path (deferParent t doc selection path origin))
    (deferred : ∀ f target, holds path (reference t f target doc selection path origin))
    (copy : ∀ u copy path, holds path (project s u copy selection.selections path .embedded))
    (list : ∀ (items : List Json) (f : Nat → Json → Projected),
      (∀ i item, holds (path ++ [.index i]) (f i item)) → holds path (.list (items.mapIdx f))) :
    holds path (projectField s t doc path origin selection) := by
  obtain ⟨label, name, arguments, below⟩ := selection
  rw [projectField]
  by_cases hname : name = typeNameField
  · rw [if_pos hname]
    exact value path _
  rw [if_neg hname]
  cases t.field? name with
  | none => exact fault path _
  | some f =>
    dsimp only
    cases f.target? with
    | none =>
      dsimp only
      cases doc.get? f.name with
      | some v => exact value path v
      | none => exact parent
    | some target =>
      dsimp only
      cases s.type? target with
      | none => exact value path _
      | some u =>
        dsimp only
        cases doc.get? f.name with
        | none => exact deferred f target
        | some v =>
          cases v with
          | obj held => exact copy u held path
          | null => exact value path _
          | arr items =>
            dsimp only
            split
            · refine list items _ fun i item => ?_
              cases item with
              | obj held => exact copy u held _
              | _ => exact value _ _
            · exact deferred f target
          | _ => exact deferred f target

mutual

/-- The slots of a projection onto a field are bounded by the field. -/
theorem projectField_bounded (s : Schema) :
    (selection : Selection) → (t : DocumentType) → (doc : Document) → (path : ResponsePath) →
      (origin : Origin) →
      (projectField s t doc path origin selection).Bounded path (slotBound selection.height origin)
  | .field label name arguments below, t, doc, path, origin => by
    refine projectField_of_parts (fun path p => p.Bounded path
      (slotBound (Selection.heightBelow below + 1) origin)) s t doc path origin _
      (fun path v => .closed v []) (fun path cause => .closed .null _)
      (deferParent_bounded t doc (.field label name arguments below) path origin)
      (fun f target => reference_bounded t f target doc (.field label name arguments below) path
        origin) (fun u copy path => ?_) fun items f => .list f items
    change Projected.Bounded _ _ (project s u copy below path .embedded)
    unfold project
    split
    · exact .closed _ []
    · refine .mono (.object (projectFields_bounded s below u copy path .embedded)) ?_
      simp only [slotBound, if_true]
      omega

/-- The slots of projections onto fields are bounded at the keys of the fields. -/
theorem projectFields_bounded (s : Schema) :
    (selections : List Selection) → (t : DocumentType) → (doc : Document) →
      (path : ResponsePath) → (origin : Origin) →
      ∀ field ∈ projectFields s t doc path origin selections,
        field.2.Bounded (path ++ [.key field.1])
          (slotBound (Selection.heightBelow selections) origin)
  | [], _, _, _, _, field, hfield => by
    rw [projectFields] at hfield
    cases hfield
  | selection :: rest, t, doc, path, origin, field, hfield => by
    rw [projectFields] at hfield
    rcases List.mem_cons.mp hfield with rfl | hfield
    · refine (projectField_bounded s selection t doc _ origin).mono ?_
      simp only [slotBound, Selection.heightBelow]
      omega
    · refine (projectFields_bounded s rest t doc path origin field hfield).mono ?_
      simp only [slotBound, Selection.heightBelow]
      omega

end

theorem project_bounded (s : Schema) (t : DocumentType) (doc : Document)
    (selections : List Selection) (path : ResponsePath) (origin : Origin) :
    (project s t doc selections path origin).Bounded path
      (slotBound (Selection.heightBelow selections) origin) := by
  unfold project
  split
  · exact .closed _ []
  · exact .object (projectFields_bounded s selections t doc path origin)

theorem projectList_bounded (s : Schema) (t : DocumentType) (docs : List Document)
    (selections : List Selection) (path : ResponsePath) :
    (projectList s t docs selections path).Bounded path
      (slotBound (Selection.heightBelow selections) .stored) :=
  .list _ docs fun i doc => project_bounded s t doc selections (path ++ [.index i]) .stored

end Projection

theorem Slot.two_le_size (slot : Slot) : 2 ≤ slot.size := by
  rw [Slot.size, slot.selection.height_eq]
  omega

end DocumentEngine
