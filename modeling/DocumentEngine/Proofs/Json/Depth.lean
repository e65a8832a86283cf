import DocumentEngine.Proofs.Json.Printed
import DocumentEngine.Proofs.Json.Reader

/-!
The nesting of values. A printed value is read again exactly where lists and objects are nested no
deeper than the limit; what is read is nested no deeper than what was printed, and its numbers fit
their kinds.
-/

namespace DocumentEngine

namespace Json

mutual

/-- How deep lists and objects are nested in a value. -/
def depth : Json → Nat
  | .arr items => depthOfItems items + 1
  | .obj members => depthOfMembers members + 1
  | _ => 0

/-- The greatest depth of items. -/
def depthOfItems : List Json → Nat
  | [] => 0
  | v :: vs => max (depth v) (depthOfItems vs)

/-- The greatest depth of the values of members. -/
def depthOfMembers : List (String × Json) → Nat
  | [] => 0
  | (_, v) :: ms => max (depth v) (depthOfMembers ms)

end

theorem depthOfItems_le_iff {items : List Json} {d : Nat} :
    depthOfItems items ≤ d ↔ ∀ v ∈ items, v.depth ≤ d := by
  induction items with
  | nil => simp [depthOfItems]
  | cons v vs ih => rw [depthOfItems, max_le_iff, ih, List.forall_mem_cons]

theorem depthOfMembers_le_iff {members : List (String × Json)} {d : Nat} :
    depthOfMembers members ≤ d ↔ ∀ entry ∈ members, entry.2.depth ≤ d := by
  induction members with
  | nil => simp [depthOfMembers]
  | cons m ms ih => rw [depthOfMembers, max_le_iff, ih, List.forall_mem_cons]

theorem depth_arr_le_iff {items : List Json} {d : Nat} :
    (Json.arr items).depth ≤ d + 1 ↔ ∀ v ∈ items, v.depth ≤ d := by
  rw [depth, Nat.add_le_add_iff_right, depthOfItems_le_iff]

theorem depth_obj_le_iff {members : List (String × Json)} {d : Nat} :
    (Json.obj members).depth ≤ d + 1 ↔ ∀ entry ∈ members, entry.2.depth ≤ d := by
  rw [depth, Nat.add_le_add_iff_right, depthOfMembers_le_iff]

/-- A value that is read in place of another: its numbers fit their kinds, and it is nested no
deeper. -/
structure Stands (v w : Json) : Prop where
  inRange : v.InRange
  depth : v.depth ≤ w.depth

/-- A value that was written is read again, or not, by its depth alone. -/
structure Rereads (v : Json) : Prop where
  read : ∀ d, v.depth ≤ d → ∃ w, v.written.toJson? d = some w ∧ Stands w v
  deep : ∀ d < v.depth, v.written.toJson? d = none

theorem rereads_items {items : List Json} (h : ∀ v ∈ items, Rereads v) :
    (∀ d, depthOfItems items ≤ d → ∃ ws, Written.itemsToJson? d (writtenItems items) = some ws ∧
      ∀ w ∈ ws, w.InRange ∧ w.depth ≤ depthOfItems items) ∧
    ∀ d < depthOfItems items, Written.itemsToJson? d (writtenItems items) = none := by
  induction items with
  | nil =>
    refine ⟨fun d _ => ⟨[], rfl, fun _ hw => absurd hw List.not_mem_nil⟩, fun d hd => ?_⟩
    exact absurd hd (Nat.not_lt_zero d)
  | cons v vs ih =>
    obtain ⟨hread, hdeep⟩ := h v List.mem_cons_self
    obtain ⟨hreads, hdeeps⟩ := ih fun w hw => h w (List.mem_cons_of_mem v hw)
    refine ⟨fun d hd => ?_, fun d hd => ?_⟩
    · rw [depthOfItems, max_le_iff] at hd
      obtain ⟨w, hw, hstands⟩ := hread d hd.1
      obtain ⟨ws, hws, hall⟩ := hreads d hd.2
      refine ⟨w :: ws, ?_, ?_⟩
      · rw [writtenItems, Written.itemsToJson?, hw, hws]
        rfl
      · rw [depthOfItems]
        intro x hx
        rcases List.mem_cons.mp hx with rfl | hx
        · exact ⟨hstands.inRange, hstands.depth.trans (le_max_left _ _)⟩
        · exact ⟨(hall x hx).1, (hall x hx).2.trans (le_max_right _ _)⟩
    · rw [writtenItems, Written.itemsToJson?]
      rw [depthOfItems, lt_max_iff] at hd
      rcases hd with hd | hd
      · rw [hdeep d hd]
        rfl
      · rw [hdeeps d hd]
        cases v.written.toJson? d <;> rfl

theorem rereads_members {members : List (String × Json)}
    (h : ∀ entry ∈ members, Rereads entry.2) :
    (∀ d, depthOfMembers members ≤ d →
      ∃ ws, Written.membersToJson? d (writtenMembers members) = some ws ∧
        ∀ entry ∈ ws, entry.2.InRange ∧ entry.2.depth ≤ depthOfMembers members) ∧
    ∀ d < depthOfMembers members, Written.membersToJson? d (writtenMembers members) = none := by
  induction members with
  | nil =>
    refine ⟨fun d _ => ⟨[], rfl, fun _ hw => absurd hw List.not_mem_nil⟩, fun d hd => ?_⟩
    exact absurd hd (Nat.not_lt_zero d)
  | cons m ms ih =>
    obtain ⟨k, v⟩ := m
    obtain ⟨hread, hdeep⟩ := h (k, v) List.mem_cons_self
    obtain ⟨hreads, hdeeps⟩ := ih fun entry hentry => h entry (List.mem_cons_of_mem _ hentry)
    refine ⟨fun d hd => ?_, fun d hd => ?_⟩
    · rw [depthOfMembers, max_le_iff] at hd
      obtain ⟨w, hw, hstands⟩ := hread d hd.1
      obtain ⟨ws, hws, hall⟩ := hreads d hd.2
      refine ⟨(k, w) :: ws, ?_, ?_⟩
      · rw [writtenMembers, Written.membersToJson?, hw, hws]
        rfl
      · rw [depthOfMembers]
        intro x hx
        rcases List.mem_cons.mp hx with rfl | hx
        · exact ⟨hstands.inRange, hstands.depth.trans (le_max_left _ _)⟩
        · exact ⟨(hall x hx).1, (hall x hx).2.trans (le_max_right _ _)⟩
    · rw [writtenMembers, Written.membersToJson?]
      rw [depthOfMembers, lt_max_iff] at hd
      rcases hd with hd | hd
      · rw [hdeep d hd]
        rfl
      · rw [hdeeps d hd]
        cases v.written.toJson? d <;> rfl

/-- Every value whose numbers fit their kinds is read again by its depth alone. -/
theorem InRange.rereads {v : Json} (h : v.InRange) : Rereads v := by
  induction h with
  | null =>
    exact ⟨fun _ _ => ⟨.null, rfl, .null, Nat.le_refl 0⟩, fun _ hd => absurd hd (Nat.not_lt_zero _)⟩
  | bool b =>
    exact ⟨fun _ _ => ⟨.bool b, rfl, .bool b, Nat.le_refl 0⟩,
      fun _ hd => absurd hd (Nat.not_lt_zero _)⟩
  | @num n h =>
    obtain ⟨m, hm⟩ := Option.isSome_iff_exists.mp (spells_ofNumber h).read
    refine ⟨fun d _ => ⟨.num m, ?_, .num (inRange_of_read? hm), Nat.le_refl 0⟩,
      fun _ hd => absurd hd (Nat.not_lt_zero _)⟩
    rw [written, Written.toJson?, hm]
    rfl
  | str s =>
    exact ⟨fun _ _ => ⟨.str s, rfl, .str s, Nat.le_refl 0⟩, fun _ hd => absurd hd (Nat.not_lt_zero _)⟩
  | arr _ ih =>
    obtain ⟨hread, hdeep⟩ := rereads_items ih
    refine ⟨fun d hd => ?_, fun d hd => ?_⟩
    · obtain ⟨d, rfl⟩ := Nat.exists_eq_add_one_of_ne_zero (n := d) (by
        rintro rfl
        exact Nat.not_succ_le_zero _ hd)
      obtain ⟨ws, hws, hall⟩ := hread d (Nat.le_of_succ_le_succ hd)
      refine ⟨.arr ws, ?_, .arr fun w hw => (hall w hw).1,
        depth_arr_le_iff.mpr fun w hw => (hall w hw).2⟩
      rw [written, Written.toJson?, hws]
      rfl
    · rw [written]
      cases d with
      | zero => rfl
      | succ d =>
        rw [Written.toJson?, hdeep d (Nat.lt_of_succ_lt_succ hd)]
        rfl
  | obj _ ih =>
    obtain ⟨hread, hdeep⟩ := rereads_members ih
    refine ⟨fun d hd => ?_, fun d hd => ?_⟩
    · obtain ⟨d, rfl⟩ := Nat.exists_eq_add_one_of_ne_zero (n := d) (by
        rintro rfl
        exact Nat.not_succ_le_zero _ hd)
      obtain ⟨ws, hws, hall⟩ := hread d (Nat.le_of_succ_le_succ hd)
      have hkept : ∀ entry ∈ Keyed.ofList ws, entry ∈ ws := fun entry hentry =>
        (Keyed.mem_union hentry).resolve_left List.not_mem_nil
      refine ⟨.obj (Keyed.ofList ws), ?_, .obj fun entry hentry => (hall entry (hkept _ hentry)).1,
        depth_obj_le_iff.mpr fun entry hentry => (hall entry (hkept _ hentry)).2⟩
      rw [written, Written.toJson?, hws]
      rfl
    · rw [written]
      cases d with
      | zero => rfl
      | succ d =>
        rw [Written.toJson?, hdeep d (Nat.lt_of_succ_lt_succ hd)]
        rfl

/-- A printed object is read again as an object, where it is nested no deeper than the limit. -/
theorem InRange.ofText?_obj {doc : Document} (h : InRange (.obj doc))
    (hdepth : (Json.obj doc).depth ≤ maxDepth) :
    ∃ read : Document, ofText? (pretty (.obj doc)) = some (.obj read) ∧
      Stands (.obj read) (.obj doc) := by
  obtain ⟨w, hw, hstands⟩ := h.rereads.read maxDepth hdepth
  obtain ⟨read, rfl⟩ : ∃ read, w = .obj read := by
    rw [written, maxDepth, Written.toJson?] at hw
    obtain ⟨ms, -, hms⟩ := Option.map_eq_some_iff.mp hw
    exact ⟨_, hms.symm⟩
  refine ⟨read, ?_, hstands⟩
  rw [ofText?, h.ofText?_pretty]
  exact hw

/-- A printed value that is nested deeper than the limit is not read. -/
theorem InRange.ofText?_deep {v : Json} (h : v.InRange) (hdepth : maxDepth < v.depth) :
    ofText? v.pretty = none := by
  rw [ofText?, h.ofText?_pretty]
  exact h.rereads.deep maxDepth hdepth

end Json

end DocumentEngine
