import DocumentEngine.Proofs.Projection.Answers

/-!
Where slots and faults stand in a projection. The path of a slot leads to the placeholder of its
pointer and the path of a fault to null; slots part ways from each other and from faults. Every
answer to a selection with distinct response keys is placed so, and stays so while its slots are
filled with answers and while members are added to it.
-/

namespace DocumentEngine

/-- A projection whose slots and faults stand below a path where they say, apart from each other. -/
structure Projected.Placed (path : ResponsePath) (p : Projected) : Prop where
  held : ∀ slot ∈ p.slots, ∃ below, slot.path = path ++ below ∧
    p.value.at? below = some slot.pointer.placeholder
  null : ∀ fault ∈ p.faults, ∃ below, fault.path = path ++ below ∧ p.value.at? below = some .null
  apart : p.slots.Pairwise fun a b => a.path.Diverge b.path
  clear : ∀ slot ∈ p.slots, ∀ fault ∈ p.faults, slot.path.Diverge fault.path
  distinct : ∀ slot ∈ p.slots, slot.selection.Distinct

/-- The paths of the slots and of the faults of a projection. -/
def Projected.places (p : Projected) : List ResponsePath :=
  p.slots.map Slot.path ++ p.faults.map ResponseError.path

theorem Projected.mem_places {p : Projected} {place : ResponsePath} : place ∈ p.places ↔
    (∃ slot ∈ p.slots, slot.path = place) ∨ ∃ fault ∈ p.faults, fault.path = place := by
  rw [Projected.places, List.mem_append, List.mem_map, List.mem_map]

namespace Projected.Placed

variable {path : ResponsePath}

theorem value (v : Json) : Placed path ⟨v, [], []⟩ where
  held := by simp
  null := by simp
  apart := .nil
  clear := by simp
  distinct := by simp

theorem fault (cause : EngineError) : Placed path ⟨.null, [], [⟨path, cause⟩]⟩ where
  held := by simp
  null fault hfault := by
    rw [List.mem_singleton.mp hfault]
    exact ⟨[], (List.append_nil path).symm, rfl⟩
  apart := .nil
  clear := by simp
  distinct := by simp

theorem slot {slot : Slot} (hd : slot.selection.Distinct) :
    Placed slot.path ⟨slot.pointer.placeholder, [slot], []⟩ where
  held other hother := by
    rw [List.mem_singleton.mp hother]
    exact ⟨[], (List.append_nil _).symm, rfl⟩
  null := by simp
  apart := List.pairwise_singleton ..
  clear := by simp
  distinct other hother := List.mem_singleton.mp hother ▸ hd

/-- Places are below the path. -/
theorem exists_below {p : Projected} (h : p.Placed path) {place : ResponsePath}
    (hplace : place ∈ p.places) : ∃ below v, place = path ++ below ∧ p.value.at? below = some v ∧
      v.obj? = none := by
  rcases mem_places.mp hplace with ⟨slot, hslot, rfl⟩ | ⟨fault, hfault, rfl⟩
  · obtain ⟨below, hpath, hat⟩ := h.held slot hslot
    exact ⟨below, _, hpath, hat, by cases slot.pointer <;> rfl⟩
  · obtain ⟨below, hpath, hat⟩ := h.null fault hfault
    exact ⟨below, _, hpath, hat, rfl⟩

theorem isPrefix_of_mem {p : Projected} (h : p.Placed path) {place : ResponsePath}
    (hplace : place ∈ p.places) : path <+: place := by
  obtain ⟨below, _, rfl, -⟩ := h.exists_below hplace
  exact List.prefix_append path below

/-- What is placed in a value is placed in a value that has it below a path. -/
theorem lift {below : ResponsePath} {v : Json} {p : Projected} (h : p.Placed (path ++ below))
    (hv : v.at? below = some p.value) : Placed path ⟨v, p.slots, p.faults⟩ where
  held slot hslot := by
    obtain ⟨rest, hpath, hat⟩ := h.held slot hslot
    exact ⟨below ++ rest, by rw [hpath, List.append_assoc], (Json.at?_append hv rest).trans hat⟩
  null fault hfault := by
    obtain ⟨rest, hpath, hat⟩ := h.null fault hfault
    exact ⟨below ++ rest, by rw [hpath, List.append_assoc], (Json.at?_append hv rest).trans hat⟩
  apart := h.apart
  clear := h.clear
  distinct := h.distinct

/-- What is placed in a value is placed in a value that is the same at the places. -/
theorem of_same {v w : Json} {slots : List Slot} {faults : List ResponseError}
    (h : Placed path ⟨v, slots, faults⟩)
    (hsame : ∀ below, path ++ below ∈ Projected.places ⟨v, slots, faults⟩ →
      w.at? below = v.at? below) :
    Placed path ⟨w, slots, faults⟩ where
  held slot hslot := by
    obtain ⟨below, hpath, hat⟩ := h.held slot hslot
    exact ⟨below, hpath, (hsame below (mem_places.mpr (.inl ⟨slot, hslot, hpath⟩))).trans hat⟩
  null fault hfault := by
    obtain ⟨below, hpath, hat⟩ := h.null fault hfault
    exact ⟨below, hpath, (hsame below (mem_places.mpr (.inr ⟨fault, hfault, hpath⟩))).trans hat⟩
  apart := h.apart
  clear := h.clear
  distinct := h.distinct

/-- Slots and faults that part ways are placed together in one value. -/
theorem append {v : Json} {slots slots' : List Slot} {faults faults' : List ResponseError}
    (h : Placed path ⟨v, slots, faults⟩) (h' : Placed path ⟨v, slots', faults'⟩)
    (hapart : ∀ a ∈ Projected.places ⟨v, slots, faults⟩,
      ∀ b ∈ Projected.places ⟨v, slots', faults'⟩, a.Diverge b) :
    Placed path ⟨v, slots ++ slots', faults ++ faults'⟩ where
  held slot hslot := (List.mem_append.mp hslot).elim (h.held slot) (h'.held slot)
  null fault hfault := (List.mem_append.mp hfault).elim (h.null fault) (h'.null fault)
  apart := List.pairwise_append.mpr ⟨h.apart, h'.apart, fun a ha b hb =>
    hapart _ (mem_places.mpr (.inl ⟨a, ha, rfl⟩)) _ (mem_places.mpr (.inl ⟨b, hb, rfl⟩))⟩
  clear slot hslot fault hfault := by
    rcases List.mem_append.mp hslot with hslot | hslot
    · rcases List.mem_append.mp hfault with hfault | hfault
      · exact h.clear slot hslot fault hfault
      · exact hapart _ (mem_places.mpr (.inl ⟨slot, hslot, rfl⟩)) _
          (mem_places.mpr (.inr ⟨fault, hfault, rfl⟩))
    · rcases List.mem_append.mp hfault with hfault | hfault
      · exact (hapart _ (mem_places.mpr (.inr ⟨fault, hfault, rfl⟩)) _
          (mem_places.mpr (.inl ⟨slot, hslot, rfl⟩))).symm
      · exact h'.clear slot hslot fault hfault
  distinct slot hslot := (List.mem_append.mp hslot).elim (h.distinct slot) (h'.distinct slot)

/-- Parts that are placed one step into a value, at different steps, are placed in the value. -/
theorem of_parts {v : Json} {parts : List (PathSegment × Projected)}
    (hsteps : (parts.map Prod.fst).Nodup)
    (hparts : ∀ part ∈ parts, v.step? part.1 = some part.2.value ∧
      part.2.Placed (path ++ [part.1])) :
    Placed path ⟨v, parts.flatMap fun part => part.2.slots,
      parts.flatMap fun part => part.2.faults⟩ := by
  induction parts with
  | nil => exact .value v
  | cons part parts ih =>
    obtain ⟨hnotin, hsteps⟩ := List.nodup_cons.mp hsteps
    obtain ⟨hstep, hpart⟩ := hparts part List.mem_cons_self
    have hrest := ih hsteps fun other hother => hparts other (List.mem_cons_of_mem _ hother)
    refine (hpart.lift (Json.at?_cons hstep [])).append hrest fun a ha b hb => ?_
    have hbelow : ∃ other ∈ parts, path ++ [other.1] <+: b := by
      have hplace : ∃ other ∈ parts, b ∈ other.2.places := by
        rcases mem_places.mp hb with ⟨slot, hslot, rfl⟩ | ⟨fault, hfault, rfl⟩
        · obtain ⟨other, hother, hmem⟩ := List.mem_flatMap.mp hslot
          exact ⟨other, hother, mem_places.mpr (.inl ⟨slot, hmem, rfl⟩)⟩
        · obtain ⟨other, hother, hmem⟩ := List.mem_flatMap.mp hfault
          exact ⟨other, hother, mem_places.mpr (.inr ⟨fault, hmem, rfl⟩)⟩
      obtain ⟨other, hother, hmem⟩ := hplace
      exact ⟨other, hother,
        (hparts other (List.mem_cons_of_mem _ hother)).2.isPrefix_of_mem hmem⟩
    obtain ⟨other, hother, hb⟩ := hbelow
    have hne : part.1 ≠ other.1 := fun heq =>
      hnotin (heq ▸ List.mem_map_of_mem hother)
    exact ((ResponsePath.Diverge.head [] [] hne).under path).of_isPrefix
      (hpart.isPrefix_of_mem ha) hb

/-- Fields that are placed at distinct keys are placed in their object. -/
theorem object {selections : List Selection} {answer : Selection → Projected}
    (hkeys : (selections.map Selection.responseKey).Nodup)
    (h : ∀ inner ∈ selections, (answer inner).Placed (path ++ [.key inner.responseKey])) :
    (Projected.object (selections.map fun inner => (inner.responseKey, answer inner))).Placed
      path := by
  let parts : List (PathSegment × Projected) := selections.map fun inner =>
    (.key inner.responseKey, answer inner)
  have hsteps : (parts.map Prod.fst).Nodup := by
    rw [List.map_map]
    exact List.pairwise_map.mpr ((List.pairwise_map.mp hkeys).imp fun hne heq =>
      hne (PathSegment.key.inj heq))
  have hplaced := @of_parts path (Projected.object
    (selections.map fun inner => (inner.responseKey, answer inner))).value parts hsteps
    fun part hpart => by
      obtain ⟨inner, hinner, rfl⟩ := List.mem_map.mp hpart
      refine ⟨Keyed.get?_union_of_mem [] ?_ ?_, h inner hinner⟩
      · rwa [List.map_map, List.map_map]
      · rw [List.map_map]
        exact List.mem_map_of_mem (f := fun inner => (inner.responseKey, (answer inner).value))
          hinner
  rw [List.flatMap_map, List.flatMap_map] at hplaced
  rw [Projected.object, List.flatMap_map, List.flatMap_map]
  exact hplaced

/-- Items that are placed at their indices are placed in their list. -/
theorem list {items : List Projected}
    (h : ∀ (i : Nat) (item : Projected), items[i]? = some item →
      item.Placed (path ++ [.index i])) :
    (Projected.list items).Placed path := by
  let parts : List (PathSegment × Projected) := items.zipIdx.map fun item => (.index item.2, item.1)
  have hsteps : (parts.map Prod.fst).Nodup := by
    have hindices : (items.zipIdx.map Prod.snd).Nodup := by
      rw [List.zipIdx_map_snd]
      exact List.nodup_range'
    rw [List.map_map]
    exact List.pairwise_map.mpr ((List.pairwise_map.mp hindices).imp fun hne heq =>
      hne (PathSegment.index.inj heq))
  have hplaced := @of_parts path (Projected.list items).value parts hsteps
    fun part hpart => by
      obtain ⟨⟨item, i⟩, hitem, rfl⟩ := List.mem_map.mp hpart
      have hi := List.mk_mem_zipIdx_iff_getElem?.mp hitem
      refine ⟨?_, h i item hi⟩
      change (items.map Projected.value)[i]? = _
      rw [List.getElem?_map, hi]
      rfl
  have hitems : parts.map Prod.snd = items := by
    rw [List.map_map]
    exact List.zipIdx_map_fst ..
  have hslots : items.flatMap Projected.slots = parts.flatMap fun part => part.2.slots := by
    conv_lhs => rw [← hitems, List.flatMap_map]
  have hfaults : items.flatMap Projected.faults = parts.flatMap fun part => part.2.faults := by
    conv_lhs => rw [← hitems, List.flatMap_map]
  rw [Projected.list, hslots, hfaults]
  exact hplaced

end Projected.Placed

/-- An answer to a selection with distinct response keys is placed at its path. -/
theorem Projected.Answers.placed {selection : Selection} {path : ResponsePath} {p : Projected}
    (h : p.Answers selection path) (hd : selection.Distinct) : p.Placed path := by
  induction h with
  | value selection path v => exact .value v
  | fault selection path cause => exact .fault cause
  | slot slot _ => exact .slot hd
  | object selection path answer _ ih =>
    exact .object hd.below.nodup fun inner hinner => ih inner hinner (hd.below.of_mem hinner)
  | list selection path items _ ih => exact .list fun i item hitem => ih i item hitem hd

namespace Projected

/-- The data of a request under way as a projection: an object with members under some keys at most,
and in it the slots that wait and the errors so far. -/
structure Rooted (keys : List String) (p : Projected) : Prop where
  placed : p.Placed []
  members : ∃ members, p.value = .obj members ∧ Keyed.keys members ⊆ keys

namespace Rooted

variable {keys : List String} {slots : List Slot} {faults : List ResponseError}

/-- Every place is below one of the keys. -/
theorem exists_key {p : Projected} (h : p.Rooted keys) {place : ResponsePath}
    (hplace : place ∈ p.places) : ∃ key ∈ keys, ∃ rest, place = .key key :: rest := by
  obtain ⟨members, hvalue, hkeys⟩ := h.members
  obtain ⟨below, v, hbelow, hat, hplain⟩ := h.placed.exists_below hplace
  rw [hvalue] at hat
  rw [hbelow, List.nil_append]
  cases below with
  | nil =>
    cases hat
    cases hplain
  | cons a rest =>
    obtain ⟨child, hstep, -⟩ := Option.bind_eq_some_iff.mp hat
    cases a with
    | index i => cases hstep
    | key key =>
      refine ⟨key, hkeys ?_, rest, rfl⟩
      by_contra hnot
      have hnone : Keyed.get? members key = none := Keyed.get?_eq_none_iff.mpr hnot
      cases hnone.symm.trans hstep

/-- An answer to the selection of the first slot takes the place of the slot. -/
theorem fill {data : Json} {slot : Slot} {p : Projected}
    (h : Rooted keys ⟨data, slot :: slots, faults⟩) (hp : p.Answers slot.selection slot.path) :
    Rooted keys ⟨data.setAt p.value slot.path, slots ++ p.slots, faults ++ p.faults⟩ := by
  have hplaced : p.Placed ([] ++ slot.path) :=
    hp.placed (h.placed.distinct slot List.mem_cons_self)
  obtain ⟨hhead, htail⟩ := List.pairwise_cons.mp h.placed.apart
  have hrest : Placed [] ⟨data, slots, faults⟩ :=
    ⟨fun other hother => h.placed.held other (List.mem_cons_of_mem _ hother), h.placed.null, htail,
      fun other hother => h.placed.clear other (List.mem_cons_of_mem _ hother),
      fun other hother => h.placed.distinct other (List.mem_cons_of_mem _ hother)⟩
  have hapart : ∀ place ∈ places ⟨data, slots, faults⟩, slot.path.Diverge place := by
    intro place hplace
    rcases mem_places.mp hplace with ⟨other, hother, rfl⟩ | ⟨fault, hfault, rfl⟩
    · exact hhead other hother
    · exact h.placed.clear slot List.mem_cons_self fault hfault
  have hheld : (data.at? slot.path).isSome := by
    obtain ⟨below, hpath, hat⟩ := h.placed.held slot List.mem_cons_self
    rw [hpath, List.nil_append, hat]
    rfl
  constructor
  · refine (hrest.of_same fun below hbelow =>
      Json.at?_setAt_of_diverge _ _ (hapart below hbelow)).append
        (hplaced.lift (Json.at?_setAt_self hheld p.value)) fun a ha b hb => ?_
    exact (hapart a ha).symm.of_isPrefix (List.prefix_refl a) (hplaced.isPrefix_of_mem hb)
  · obtain ⟨key, hkey, rest, hpath⟩ := h.exists_key
      (mem_places.mpr (.inl ⟨slot, List.mem_cons_self, rfl⟩))
    obtain ⟨members, hvalue, hkeys⟩ := h.members
    change data = _ at hvalue
    change ∃ members, data.setAt p.value slot.path = .obj members ∧ Keyed.keys members ⊆ keys
    rw [hvalue, hpath]
    cases hmember : Keyed.get? members key with
    | none =>
      rw [Json.setAt_of_step?_eq_none (v := .obj members) (a := .key key) hmember]
      exact ⟨members, rfl, hkeys⟩
    | some child =>
      rw [Json.setAt_key hmember]
      exact ⟨_, rfl, Keyed.keys_insert_subset hkeys hkey _⟩

/-- Answers to the selections of the slots that wait take the places of these. -/
theorem fillAll {filling : Slot → Projected}
    (hfilling : ∀ slot, (filling slot).Answers slot.selection slot.path) {data : Json}
    {round left : List Slot} (h : Rooted keys ⟨data, round ++ left, faults⟩) :
    Rooted keys ⟨Direct.fillAll filling data round,
      left ++ round.flatMap fun slot => (filling slot).slots,
      faults ++ round.flatMap fun slot => (filling slot).faults⟩ := by
  induction round generalizing data left faults with
  | nil =>
    rw [List.flatMap_nil, List.flatMap_nil, List.append_nil, List.append_nil]
    exact h
  | cons slot round ih =>
    have hslots : Rooted keys ⟨data, slot :: (round ++ left), faults⟩ := h
    have hfilled := hslots.fill (hfilling slot)
    rw [List.append_assoc] at hfilled
    rw [List.flatMap_cons, List.flatMap_cons, ← List.append_assoc, ← List.append_assoc]
    exact ih hfilled

/-- An answer to a selection with a key of its own is added under its key. -/
theorem add {data : Document} {selection : Selection} {p : Projected}
    (h : Rooted keys ⟨.obj data, slots, faults⟩) (hkey : selection.responseKey ∉ keys)
    (hd : selection.Distinct) (hp : p.Answers selection [.key selection.responseKey]) :
    Rooted (keys ++ [selection.responseKey])
      ⟨.obj (data.insert selection.responseKey p.value), slots ++ p.slots, faults ++ p.faults⟩ := by
  have hplaced : p.Placed ([] ++ [.key selection.responseKey]) := hp.placed hd
  constructor
  · have hold : ∀ place ∈ places ⟨.obj data, slots, faults⟩,
        place.Diverge [.key selection.responseKey] ∧
          (Json.obj (data.insert selection.responseKey p.value)).at? place =
            (Json.obj data).at? place := by
      intro place hplace
      obtain ⟨key, hmem, rest, rfl⟩ := h.exists_key hplace
      have hne : key ≠ selection.responseKey := fun heq => hkey (heq ▸ hmem)
      refine ⟨.head _ _ fun heq => hne (PathSegment.key.inj heq), ?_⟩
      have hstep : (Json.obj (data.insert selection.responseKey p.value)).step? (.key key) =
          (Json.obj data).step? (.key key) := Keyed.get?_insert_of_ne data p.value (Ne.symm hne)
      rw [Json.at?, Json.at?, hstep]
    have hstep : (Json.obj (data.insert selection.responseKey p.value)).step?
        (.key selection.responseKey) = some p.value := Keyed.get?_insert_self data _ p.value
    have hadded := Json.at?_cons hstep []
    refine (h.placed.of_same fun below hbelow => (hold below hbelow).2).append
      (hplaced.lift hadded) fun a ha b hb => ?_
    exact (hold a ha).1.of_isPrefix (List.prefix_refl a) (hplaced.isPrefix_of_mem hb)
  · obtain ⟨members, hvalue, hkeys⟩ := h.members
    cases hvalue
    exact ⟨_, rfl, Keyed.keys_insert_subset (List.subset_append_of_subset_left _ hkeys)
      (List.mem_append_right _ (List.mem_singleton_self _)) _⟩

end Rooted

end Projected

end DocumentEngine
