import DocumentEngine.Proofs.Projection.Bounds
import DocumentEngine.Proofs.Projection.Direct

/-!
The slots of a projection. They lie below the path of the projection, part ways from each other,
and are bounded by the selection; and with the right values in them the projection is the value
that projection without slots gives.
-/

namespace DocumentEngine

mutual

/-- Response keys are distinct at each level of a selection. -/
def Selection.Distinct : Selection → Prop
  | .field _ _ _ below => Selection.DistinctBelow below

/-- Response keys are distinct within selections and at each level of them. -/
def Selection.DistinctBelow : List Selection → Prop
  | [] => True
  | selection :: rest =>
    selection.responseKey ∉ rest.map Selection.responseKey ∧ selection.Distinct ∧
      Selection.DistinctBelow rest

end

theorem Selection.DistinctBelow.nodup {selections : List Selection}
    (h : Selection.DistinctBelow selections) : (selections.map Selection.responseKey).Nodup := by
  induction selections with
  | nil => exact List.nodup_nil
  | cons selection selections ih => exact List.nodup_cons.mpr ⟨h.1, ih h.2.2⟩

theorem Selection.DistinctBelow.of_mem {selections : List Selection}
    (h : Selection.DistinctBelow selections) {selection : Selection}
    (hmem : selection ∈ selections) : selection.Distinct := by
  induction selections with
  | nil => cases hmem
  | cons head rest ih =>
    rcases List.mem_cons.mp hmem with rfl | hmem
    · exact h.2.1
    · exact ih h.2.2 hmem

/-- A projection with bounded slots, which become a value. -/
structure Projected.Resolves (s : Schema) (find : Finder) (path : ResponsePath) (size : Nat)
    (p : Projected) (v : Json) : Prop extends p.Bounded path size where
  apart : p.slots.Pairwise fun a b => a.path.Diverge b.path
  distinct : ∀ slot ∈ p.slots, slot.selection.Distinct
  settles : ∀ data : Json,
    Direct.settle s find (data.setAt p.value path) p.slots = data.setAt v path

theorem Direct.settle_append (s : Schema) (find : Finder) (data : Json) (a b : List Slot) :
    settle s find data (a ++ b) = settle s find (settle s find data a) b :=
  List.foldl_append ..

namespace Projected.Resolves

variable {s : Schema} {find : Finder} {path : ResponsePath} {size : Nat}

theorem closed (v : Json) (faults : List ResponseError) :
    Resolves s find path size ⟨v, [], faults⟩ v where
  toBounded := .closed v faults
  apart := .nil
  distinct := by simp
  settles _ := rfl

theorem ofSlot {slot : Slot} (v : Json) (faults : List ResponseError) (hpath : slot.path = path)
    (hsize : slot.size ≤ size) (hdistinct : slot.selection.Distinct) :
    Resolves s find path size ⟨v, [slot], faults⟩ (Direct.slot s find slot) where
  toBounded := .ofSlot v faults hpath hsize
  apart := List.pairwise_singleton ..
  distinct := by simpa using hdistinct
  settles data := by
    simp only [Direct.settle, List.foldl_cons, List.foldl_nil, hpath, Json.setAt_setAt]

theorem mono {p : Projected} {v : Json} {size' : Nat} (h : Resolves s find path size p v)
    (hle : size ≤ size') : Resolves s find path size' p v :=
  ⟨h.toBounded.mono hle, h.apart, h.distinct, h.settles⟩

/-- Fields that resolve under distinct keys of an object. -/
inductive Fields (s : Schema) (find : Finder) (path : ResponsePath) (size : Nat) :
    List (String × Projected) → List (String × Json) → Prop
  | nil : Fields s find path size [] []
  | cons {key : String} {p : Projected} {v : Json} {fields : List (String × Projected)}
      {values : List (String × Json)} :
      key ∉ fields.map Prod.fst → Resolves s find (path ++ [.key key]) size p v →
        Fields s find path size fields values →
          Fields s find path size ((key, p) :: fields) ((key, v) :: values)

/-- Items that resolve at the indices of a list from one on. -/
inductive Items (s : Schema) (find : Finder) (path : ResponsePath) (size : Nat) :
    Nat → List Projected → List Json → Prop
  | nil (i : Nat) : Items s find path size i [] []
  | cons {i : Nat} {p : Projected} {v : Json} {items : List Projected} {values : List Json} :
      Resolves s find (path ++ [.index i]) size p v → Items s find path size (i + 1) items values →
        Items s find path size i (p :: items) (v :: values)

theorem Fields.mono {fields : List (String × Projected)} {values : List (String × Json)}
    {size' : Nat} (h : Fields s find path size fields values) (hle : size ≤ size') :
    Fields s find path size' fields values := by
  induction h with
  | nil => exact .nil
  | cons hkey hp _ ih => exact .cons hkey (hp.mono hle) ih

theorem Fields.within {fields : List (String × Projected)} {values : List (String × Json)}
    (h : Fields s find path size fields values) :
    ∀ slot ∈ fields.flatMap fun field => field.2.slots,
      ∃ key ∈ fields.map Prod.fst, path ++ [.key key] <+: slot.path := by
  induction h with
  | nil => simp
  | @cons key p v fields values _ hp _ ih =>
    intro slot hslot
    rw [List.flatMap_cons, List.mem_append] at hslot
    rcases hslot with hslot | hslot
    · exact ⟨key, List.mem_cons_self, hp.within slot hslot⟩
    · obtain ⟨other, hother, hpre⟩ := ih slot hslot
      exact ⟨other, List.mem_cons_of_mem _ hother, hpre⟩

theorem Fields.apart {fields : List (String × Projected)} {values : List (String × Json)}
    (h : Fields s find path size fields values) :
    (fields.flatMap fun field => field.2.slots).Pairwise fun a b => a.path.Diverge b.path := by
  induction h with
  | nil => exact .nil
  | @cons key p v fields values hkey hp hrest ih =>
    rw [List.flatMap_cons, List.pairwise_append]
    refine ⟨hp.apart, ih, fun a ha b hb => ?_⟩
    obtain ⟨other, hother, hpre⟩ := hrest.within b hb
    have hne : PathSegment.key key ≠ PathSegment.key other := by
      intro heq
      cases heq
      exact hkey hother
    exact ((ResponsePath.Diverge.head [] [] hne).under path).of_isPrefix (hp.within a ha) hpre

theorem Fields.settles {fields : List (String × Projected)} {values : List (String × Json)}
    (h : Fields s find path size fields values) (members : List (String × Json)) (data : Json) :
    Direct.settle s find
      (data.setAt (.obj (Keyed.union members (fields.map fun field => (field.1, field.2.value))))
        path) (fields.flatMap fun field => field.2.slots) =
      data.setAt (.obj (Keyed.union members values)) path := by
  induction h generalizing members with
  | nil => rfl
  | @cons key p v fields values hkey hp hrest ih =>
    have hplaced : key ∉ (fields.map fun field => (field.1, field.2.value)).map Prod.fst := by
      rw [List.map_map]
      exact hkey
    generalize hrests : (fields.map fun field => (field.1, field.2.value)) = placed at hplaced
    have hput : ∀ w : Json, (data.setAt (.obj ((Keyed.insert members key p.value).union placed))
        path).setAt w (path ++ [.key key]) =
          data.setAt (.obj ((Keyed.insert members key w).union placed)) path := by
      intro w
      have hthere : ((Keyed.insert members key p.value).union placed).get? key = some p.value := by
        rw [Keyed.get?_union_of_notMem _ hplaced, Keyed.get?_insert_self]
      rw [Json.setAt_setAt_below, Json.setAt_key hthere, Json.setAt, Keyed.insert_union _ hplaced,
        Keyed.insert_insert]
    rw [List.map_cons, List.flatMap_cons, Direct.settle_append, Keyed.union_cons, Keyed.union_cons,
      hrests, ← hput p.value, hp.settles, hput v, ← hrests]
    exact ih (Keyed.insert members key v)

theorem Fields.bounded {fields : List (String × Projected)} {values : List (String × Json)}
    (h : Fields s find path size fields values) :
    ∀ field ∈ fields, field.2.Bounded (path ++ [.key field.1]) size := by
  induction h with
  | nil => simp
  | cons _ hp _ ih =>
    intro field hfield
    rcases List.mem_cons.mp hfield with rfl | hfield
    · exact hp.toBounded
    · exact ih field hfield

/-- An object of fields that resolve under distinct keys resolves. -/
theorem object {fields : List (String × Projected)} {values : List (String × Json)}
    (h : Fields s find path size fields values) :
    Resolves s find path size (.object fields) (.obj (Keyed.ofList values)) where
  toBounded := .object h.bounded
  apart := h.apart
  distinct slot hslot := by
    induction h with
    | nil => simp [Projected.object] at hslot
    | cons _ hp _ ih =>
      simp only [Projected.object, List.flatMap_cons, List.mem_append] at hslot
      rcases hslot with hslot | hslot
      · exact hp.distinct slot hslot
      · exact ih hslot
  settles data := h.settles [] data

theorem Items.ofMap {α : Type} (f : Nat → α → Projected) (g : α → Json) (xs : List α)
    (h : ∀ i x, Resolves s find (path ++ [.index i]) size (f i x) (g x)) :
    Items s find path size 0 (xs.mapIdx f) (xs.map g) := by
  have hfrom : ∀ k, Items s find path size k (xs.mapIdx fun i => f (i + k)) (xs.map g) := by
    induction xs with
    | nil => exact fun k => .nil k
    | cons x xs ih =>
      intro k
      rw [List.mapIdx_cons, List.map_cons, Nat.zero_add]
      refine .cons (h k x) ?_
      have hrest := ih (k + 1)
      simp only [← Nat.add_assoc, Nat.add_right_comm _ k 1] at hrest
      exact hrest
  exact hfrom 0

theorem Items.within {i : Nat} {items : List Projected} {values : List Json}
    (h : Items s find path size i items values) :
    ∀ slot ∈ items.flatMap Projected.slots,
      ∃ j, i ≤ j ∧ path ++ [.index j] <+: slot.path := by
  induction h with
  | nil => simp
  | @cons i p v items values hp _ ih =>
    intro slot hslot
    rw [List.flatMap_cons, List.mem_append] at hslot
    rcases hslot with hslot | hslot
    · exact ⟨i, le_rfl, hp.within slot hslot⟩
    · obtain ⟨j, hj, hpre⟩ := ih slot hslot
      exact ⟨j, by omega, hpre⟩

theorem Items.apart {i : Nat} {items : List Projected} {values : List Json}
    (h : Items s find path size i items values) :
    (items.flatMap Projected.slots).Pairwise fun a b => a.path.Diverge b.path := by
  induction h with
  | nil => exact .nil
  | @cons i p v items values hp hrest ih =>
    rw [List.flatMap_cons, List.pairwise_append]
    refine ⟨hp.apart, ih, fun a ha b hb => ?_⟩
    obtain ⟨j, hj, hpre⟩ := hrest.within b hb
    have hne : PathSegment.index i ≠ PathSegment.index j := by
      intro heq
      cases heq
      omega
    exact ((ResponsePath.Diverge.head [] [] hne).under path).of_isPrefix (hp.within a ha) hpre

theorem Items.settles {i : Nat} {items : List Projected} {values : List Json}
    (h : Items s find path size i items values) (before : List Json) (hi : before.length = i)
    (data : Json) :
    Direct.settle s find (data.setAt (.arr (before ++ items.map Projected.value)) path)
      (items.flatMap Projected.slots) = data.setAt (.arr (before ++ values)) path := by
  induction h generalizing before with
  | nil => rfl
  | @cons i p v items values hp _ ih =>
    have hput : ∀ w : Json, (data.setAt (.arr (before ++ p.value :: items.map Projected.value))
        path).setAt w (path ++ [.index i]) =
          data.setAt (.arr (before ++ w :: items.map Projected.value)) path := by
      intro w
      have hthere : (before ++ p.value :: items.map Projected.value)[i]? = some p.value := by
        rw [← hi, List.getElem?_append_right le_rfl, Nat.sub_self, List.getElem?_cons_zero]
      have hset : (before ++ p.value :: items.map Projected.value).set i w =
          before ++ w :: items.map Projected.value := by
        rw [← hi, List.set_append_right _ _ le_rfl, Nat.sub_self, List.set_cons_zero]
      rw [Json.setAt_setAt_below, Json.setAt_index hthere, Json.setAt, hset]
    have hrest := ih (before ++ [v]) (by rw [List.length_append, hi, List.length_singleton])
    rw [List.append_assoc, List.append_assoc, List.singleton_append, List.singleton_append] at hrest
    rw [List.map_cons, List.flatMap_cons, Direct.settle_append, ← hput p.value, hp.settles, hput v,
      hrest]

/-- A list of items that resolve at its indices resolves. -/
theorem list {items : List Projected} {values : List Json}
    (h : Items s find path size 0 items values) :
    Resolves s find path size (.list items) (.arr values) where
  within slot hslot := by
    obtain ⟨j, -, hpre⟩ := h.within slot hslot
    exact (List.prefix_append path [.index j]).trans hpre
  apart := h.apart
  small slot hslot := by
    generalize 0 = i at h
    induction h with
    | nil => simp [Projected.list] at hslot
    | cons hp _ ih =>
      simp only [Projected.list, List.flatMap_cons, List.mem_append] at hslot
      rcases hslot with hslot | hslot
      · exact hp.small slot hslot
      · exact ih hslot
  distinct slot hslot := by
    generalize 0 = i at h
    induction h with
    | nil => simp [Projected.list] at hslot
    | cons hp _ ih =>
      simp only [Projected.list, List.flatMap_cons, List.mem_append] at hslot
      rcases hslot with hslot | hslot
      · exact hp.distinct slot hslot
      · exact ih hslot
  settles data := h.settles [] rfl data

end Projected.Resolves

namespace Projection

open Projected (Resolves)

variable (s : Schema) (find : Finder)

theorem deferParent_resolves {t : DocumentType} (ht : s.type? t.name = some t) (doc : Document)
    {selection : Selection} (hd : selection.Distinct) (path : ResponsePath) (origin : Origin) :
    (deferParent t doc selection path origin).Resolves s find path
      (slotBound selection.height origin) (Direct.missing s find t doc origin selection) := by
  unfold deferParent Direct.missing Finder.original?
  cases origin with
  | stored => exact .closed .null []
  | embedded =>
    dsimp only
    cases hid : doc.get? t.identifierName >>= Json.idText? with
    | none => exact .closed .null []
    | some id =>
      have hvalue : Direct.slot s find ⟨path, t.name, .one id, selection, .parentField⟩ =
          ((some id >>= find t.name).map fun d =>
            Direct.field s find t d .null selection).getD .null := by
        simp only [Direct.slot, ht, Pointer.ids, List.head?_cons]
      have hslot := @Resolves.ofSlot s find path (slotBound selection.height .embedded)
        ⟨path, t.name, .one id, selection, .parentField⟩ .null [] rfl (by rfl) hd
      rw [hvalue] at hslot
      exact hslot

theorem deferRelation_resolves {target : String} {u : DocumentType}
    (hu : s.type? target = some u) (pointer : Json) {selection : Selection}
    (hd : selection.Distinct) (path : ResponsePath) (origin : Origin) :
    (deferRelation target pointer selection path).Resolves s find path
      (slotBound selection.height origin)
      (if selection.selections.isEmpty then pointer
        else ((Pointer.ofJson? pointer).map
          (find.follow u.name (Direct.document s find u .stored selection.selections))).getD
            .null) := by
  unfold deferRelation
  by_cases hempty : selection.selections.isEmpty
  · rw [if_pos hempty, if_pos hempty]
    exact .closed pointer []
  · rw [if_neg hempty, if_neg hempty]
    cases Pointer.ofJson? pointer with
    | none => exact .closed .null []
    | some ids =>
      have hvalue : Direct.slot s find ⟨path, target, ids, selection, .relation⟩ =
          find.follow u.name (Direct.document s find u .stored selection.selections) ids := by
        simp only [Direct.slot, hu]
      have hslot := @Resolves.ofSlot s find path (slotBound selection.height origin)
        ⟨path, target, ids, selection, .relation⟩ ids.placeholder [] rfl
        (by simp [Slot.size, slotBound]) hd
      rw [hvalue] at hslot
      exact hslot

theorem type?_name {t : DocumentType} {name : String} (h : s.type? name = some t) :
    t.name = name := by
  simpa using List.find?_some h

theorem projectFields_eq (t : DocumentType) (doc : Document) (path : ResponsePath)
    (origin : Origin) (selections : List Selection) :
    projectFields s t doc path origin selections = selections.map fun inner =>
      (inner.responseKey, projectField s t doc (path ++ [.key inner.responseKey]) origin inner) := by
  induction selections with
  | nil =>
    rw [projectFields]
    rfl
  | cons selection rest ih => rw [projectFields, List.map_cons, ih]

mutual

/-- A projection onto a field becomes the value that the field has without slots. -/
theorem projectField_resolves :
    (selection : Selection) → selection.Distinct → {t : DocumentType} →
      s.type? t.name = some t → (doc : Document) → (path : ResponsePath) → (origin : Origin) →
      (projectField s t doc path origin selection).Resolves s find path
        (slotBound selection.height origin)
        (Direct.field s find t doc (Direct.missing s find t doc origin selection) selection)
  | .field label name arguments below, hd, t, ht, doc, path, origin => by
    rw [projectField, Direct.field]
    dsimp only
    by_cases hname : name = typeNameField
    · rw [if_pos hname, if_pos hname]
      exact .closed _ []
    rw [if_neg hname, if_neg hname]
    cases hf : t.field? name with
    | none => exact .closed .null _
    | some f =>
      dsimp only
      cases htarget : f.target? with
      | none =>
        dsimp only
        cases hv : doc.get? f.name with
        | some v => exact .closed v []
        | none => exact deferParent_resolves s find ht doc hd path origin
      | some target =>
        dsimp only
        cases hu : s.type? target with
        | none => exact .closed .null []
        | some u =>
          have hself : s.type? u.name = some u := by rw [type?_name s hu, hu]
          have hcopy : ∀ (copy : Document) (path : ResponsePath),
              (if below.isEmpty then ⟨.obj copy, [], []⟩
                else Projected.object (projectFields s u copy path .embedded below)).Resolves s find
                  path (slotBound (Selection.heightBelow below + 1) origin)
                  (Direct.document s find u .embedded below copy) := by
            intro copy path
            unfold Direct.document
            by_cases hempty : below.isEmpty
            · rw [if_pos hempty, if_pos hempty]
              exact .closed _ []
            · rw [if_neg hempty, if_neg hempty]
              refine .mono (.object (projectFields_resolves below hd hself copy path .embedded)) ?_
              simp only [slotBound, if_true]
              omega
          have hreference : (reference t f target doc (.field label name arguments below) path
              origin).Resolves s find path (slotBound (Selection.heightBelow below + 1) origin)
                (match doc.get? f.name <|> doc.get? f.pointerKey with
                | none => Direct.missing s find t doc origin (.field label name arguments below)
                | some pointer =>
                  if below.isEmpty then pointer
                  else ((Pointer.ofJson? pointer).map
                    (find.follow u.name (Direct.document s find u .stored below))).getD .null) := by
            unfold reference
            cases doc.get? f.name <|> doc.get? f.pointerKey with
            | none => exact deferParent_resolves s find ht doc hd path origin
            | some pointer => exact deferRelation_resolves s find hu pointer hd path origin
          dsimp only
          cases hv : doc.get? f.name with
          | none =>
            rw [hv] at hreference
            exact hreference
          | some v =>
            rw [hv] at hreference
            cases v with
            | obj copy => exact hcopy copy path
            | null => exact .closed .null []
            | arr items =>
              by_cases hany : items.any fun item => item.obj?.isSome
              · dsimp only
                rw [if_pos hany, if_pos hany]
                refine .list (.ofMap _ _ items fun i item => ?_)
                cases item with
                | obj copy => exact hcopy copy (path ++ [.index i])
                | null => exact .closed .null []
                | bool b => exact .closed (.bool b) []
                | num n => exact .closed (.num n) []
                | str text => exact .closed (.str text) []
                | arr inner => exact .closed (.arr inner) []
              · dsimp only
                rw [if_neg hany, if_neg hany]
                exact hreference
            | bool b => exact hreference
            | num n => exact hreference
            | str text => exact hreference

/-- Projections onto fields become the values that the fields have without slots. -/
theorem projectFields_resolves :
    (selections : List Selection) → Selection.DistinctBelow selections → {t : DocumentType} →
      s.type? t.name = some t → (doc : Document) → (path : ResponsePath) → (origin : Origin) →
      Projected.Resolves.Fields s find path
        (slotBound (Selection.heightBelow selections) origin)
        (projectFields s t doc path origin selections)
        (Direct.fields s find t doc origin selections)
  | [], _, _, _, _, _, _ => by
    rw [projectFields, Direct.fields]
    exact .nil
  | selection :: rest, hd, t, ht, doc, path, origin => by
    obtain ⟨hkey, hself, hrest⟩ := hd
    have hkeys : (projectFields s t doc path origin rest).map Prod.fst =
        rest.map Selection.responseKey := by
      rw [projectFields_eq, List.map_map]
      rfl
    have hhead := projectField_resolves selection hself ht doc
      (path ++ [.key selection.responseKey]) origin
    have htail := projectFields_resolves rest hrest ht doc path origin
    rw [projectFields, Direct.fields_cons]
    refine .cons (by rwa [hkeys]) (hhead.mono ?_) (htail.mono ?_)
    · simp only [slotBound, Selection.heightBelow]
      omega
    · simp only [slotBound, Selection.heightBelow]
      omega

end

end Projection

end DocumentEngine
