import DocumentEngine.Proofs.Engine.Nesting
import DocumentEngine.Proofs.Engine.Requests
import DocumentEngine.Proofs.Schema.Structure

/-!
Reading after runs of requests. Each mutation may nest a document two levels deeper than any that is
stored, since an inline reference copies what it names with the copies that this holds. So a run of
a few mutations leaves nothing that cannot be read again, and so does any run where the copies of a
type are of types below it; but types that copy one another can grow out of reach.
-/

namespace DocumentEngine

open Action Mutation

/-- Heights of types within the reach of the reader: a type has room for a list, and stands above
the types of its inline references by a level for the copy and one for a list of copies. -/
structure Schema.Layered (s : Schema) (height : String → Nat) : Prop where
  least : ∀ t ∈ s.types, 2 ≤ height t.name
  most : ∀ t ∈ s.types, height t.name ≤ Json.maxDepth
  copies : ∀ t ∈ s.types, ∀ f ∈ t.fields, f.inline = true → ∀ target, f.target? = some target →
    height target + (if f.list then 2 else 1) ≤ height t.name

namespace Engine

variable {e : Engine}

/-- Wherever documents stand, two levels are room for a mutation. -/
theorem room_of_count (e : Engine) (n : Nat) :
    e.Room (fun _ => 2 * n) (fun _ => 2 * (n + 1)) where
  grows _ := by omega
  least _ _ _ _ := by omega
  own _ _ _ _ _ _ := by omega
  copies _ _ _ _ _ _ _ _ _ _ _ := by split <;> omega

/-- Where types stand above those that they copy, there is room for any number of mutations. -/
theorem room_of_layered (hlaid : e.store.Laid) (hcheck : e.schema.check = .ok ())
    {height : String → Nat} (h : e.schema.Layered height) :
    e.Room (fun dir => height (dir.getLast?.getD "")) (fun dir => height (dir.getLast?.getD "")) := by
  have hhome : ∀ t ∈ e.schema.types, ∀ dir, e.store.Home t.name dir →
      height (dir.getLast?.getD "") = height t.name := by
    intro t ht dir hdir
    rw [hdir.eq_of_plain (hlaid.plainDir ht), hlaid.steps_typeDir ht, List.getLast?_concat]
    rfl
  refine ⟨fun _ => Nat.le_refl _, fun t ht dir hdir => ?_, fun t ht dir dir' hdir hdir' => ?_,
    fun t ht f hf target hinline htarget dir dir' hdir hdir' => ?_⟩
  · rw [hhome t ht dir hdir]
    exact h.least t ht
  · rw [hhome t ht dir hdir, hhome t ht dir' hdir']
  · obtain ⟨u, hu, -, rfl⟩ := Schema.exists_target hcheck ht hf htarget
    rw [hhome u hu dir hdir, hhome t ht dir' hdir']
    exact h.copies t ht f hf hinline u.name htarget

theorem isSome_type? {t : DocumentType} (ht : t ∈ e.schema.types) :
    (e.store.schema.type? t.name).isSome = true := by
  unfold Schema.type?
  rw [List.find?_isSome]
  exact ⟨t, ht, by simp⟩

/-- After a run of requests from a store without files a fetch fails for the content of a file
exactly where a document of the type is nested deeper than the reader goes. None is, and every
document can be read again, after fewer than 64 mutations, and after any number of them where the
types have heights that stand above those of the types that they copy. -/
theorem legible_after_requests (e : Engine) (requests : List (String × String)) (state : State)
    (he : e.Bare) (hcatalog : Catalog.ofSchema e.space e.schema = .ok e.catalog)
    (hsound : state.files.Sound)
    (hempty : ∀ place text, state.files.get? place ≠ some (.file text)) :
    let left := served e requests state
    ∀ t ∈ e.schema.types,
      (∀ query, e.store.FailsToDecode left t.name query ↔
        ∃ paths, e.store.documentFiles left.files t.name = .ok paths ∧
          ∃ path ∈ paths, Store.HoldsDeep left.files path) ∧
      (countMutations requests < 64 → e.store.Legible left t.name) ∧
      (e.store.Laid → e.schema.check = .ok () → ∀ height, e.schema.Layered height →
        e.store.Legible left t.name) := by
  intro left t ht
  have hset : ∀ name entry, e.mutations.get? name = some entry →
      Json.InRange (.obj entry.operation.set) := fun name entry hentry =>
    Catalog.inRange_of_ofSchema hcatalog e.space hentry
  have hcounted : Store.Nested (fun _ => 2 * countMutations requests) left.files := by
    have hrun : Store.Nested (fun _ => 2 * (0 + countMutations requests)) left.files :=
      @invariant_of_served e (fun n => Store.Nested fun _ => 2 * n)
        (fun n requestId selection state harguments h =>
          nested_after_mutated he hset (room_of_count e n) harguments h)
        he.readsPlainly.readsQuietly requests state 0
        (.of_no_files hsound hempty)
    rwa [Nat.zero_add] at hrun
  refine ⟨hcounted.failsToDecode_iff (isSome_type? ht), fun hfew => ?_,
    fun hlaid hcheck height hlayered => ?_⟩
  · refine hcounted.legible (isSome_type? ht) fun _ _ => ?_
    have hmost : Json.maxDepth = 127 := rfl
    omega
  · have hroom := room_of_layered hlaid hcheck hlayered
    have hrun : Store.Nested (fun dir => height (dir.getLast?.getD "")) left.files :=
      @invariant_of_served e (fun _ => Store.Nested fun dir => height (dir.getLast?.getD ""))
        (fun _ requestId selection state harguments h =>
          nested_after_mutated he hset hroom harguments h)
        he.readsPlainly.readsQuietly requests state 0
        (.of_no_files hsound hempty)
    refine hrun.legible (isSome_type? ht) fun dir hdir => ?_
    rw [hdir.eq_of_plain (hlaid.plainDir ht), hlaid.steps_typeDir ht, List.getLast?_concat]
    exact hlayered.most t ht

section

private def parish : DocumentType where
  name := "Provincia"
  fields := [.ofIdentifier "id", .ofScalar "nombre" .string]

/-- Residents with a copy of their province. -/
private def resident : DocumentType where
  name := "Empleado"
  fields := [.ofIdentifier "id", (Field.ofReference "provincia" "Provincia").inlined]

private def chancery : Engine :=
  bare ⟨"/data"⟩ ⟨[resident, parish]⟩
    ((Catalog.ofSchema "default" ⟨[resident, parish]⟩).toOption.getD ⟨"default", []⟩)

/-- The creation of a province, and that of a resident with a copy of it. -/
private def settlements : List (String × String) :=
  [("r1", "mutation \x7b provinciaCreate(id: \"p1\", nombre: \"Salta\") \x7b id \x7d \x7d"),
    ("r2", "mutation \x7b empleadoCreate(id: \"e1\", provincia: \"p1\") \x7b id \x7d \x7d")]

private def openLand : State where
  files := ⟨[(["data"], .directory)]⟩

private theorem chancery_layered :
    chancery.schema.Layered fun type => if type = "Provincia" then 2 else 3 where
  least := by decide
  most := by decide
  copies := by
    intro t ht f hf hinline target htarget
    rcases List.mem_cons.mp ht with rfl | ht
    · rcases List.mem_cons.mp hf with rfl | hf
      · cases hinline
      · rw [List.mem_singleton.mp hf] at htarget ⊢
        cases htarget
        decide
    · rw [List.mem_singleton.mp ht] at hf
      simp only [parish, List.mem_cons, List.not_mem_nil, or_false] at hf
      rcases hf with rfl | rfl <;> cases hinline

theorem legible_after_requests_settlements :
    chancery.store.Legible (served chancery settlements openLand) "Empleado" := by
  have hcatalog : (Catalog.ofSchema "default" ⟨[resident, parish]⟩).isOk = true := rfl
  exact (legible_after_requests chancery settlements openLand (bare_bare _ _ _)
    (Except.eq_ok_getD hcatalog ⟨"default", []⟩) (FileTree.sound_of_entries (by decide) (by decide))
    (FileTree.get?_ne_file_of_entries (by decide)) resident List.mem_cons_self).2.2
      ⟨by decide +kernel, by decide⟩ rfl _ chancery_layered

private def brood : Field := (Field.ofReference "hijos" "Nodo").ofList.inlined

/-- Nodes with copies of others. -/
private def node : DocumentType where
  name := "Nodo"
  fields := [.ofIdentifier "id", brood]

private def nursery : Engine :=
  bare ⟨"/data"⟩ ⟨[node]⟩ ((Catalog.ofSchema "default" ⟨[node]⟩).toOption.getD ⟨"default", []⟩)

private def planting : String × String :=
  ("r", "mutation \x7b nodoCreate(id: \"n1\", hijos: []) \x7b id \x7d \x7d")

/-- Gives a node a copy of itself. -/
private def growth : String × String :=
  ("r", "mutation \x7b nodoUpdate(id: \"n1\", hijos: [\"n1\"]) \x7b id \x7d \x7d")

private def growing : Document := [("hijos", .arr [.str "n1"]), ("id", .str "n1")]

/-- The operation that gives a node its copies. -/
private def regrowth : Operation := .ofImplicit "update" .modify ["hijos"]

private theorem ofText_growth : ∃ selection, selection.name = "nodoUpdate" ∧
    selection.arguments = growing ∧
    Request.ofText growth.2 = .ok ⟨.mutation, none, [selection]⟩ := by
  have hread : (Request.ofText growth.2).toOption.map (fun request =>
      ((request.kind, request.name), request.selections.map fun s => (s.name, s.arguments))) =
      some ((.mutation, none), [("nodoUpdate", growing)]) := by
    decide +kernel
  obtain ⟨⟨kind, name, selections⟩, hrequest, hparts⟩ := Option.map_eq_some_iff.mp hread
  obtain ⟨hhead, hselections⟩ := Prod.mk.inj hparts
  obtain ⟨rfl, rfl⟩ := Prod.mk.inj hhead
  obtain ⟨selection, rfl, hselection⟩ := List.map_eq_singleton_iff.mp hselections
  obtain ⟨hname, harguments⟩ := Prod.mk.inj hselection
  refine ⟨selection, hname, harguments, ?_⟩
  cases hof : Request.ofText growth.2 with
  | error message =>
    rw [hof] at hrequest
    cases hrequest
  | ok request =>
    rw [hof] at hrequest
    cases hrequest
    rfl

/-- The node with some copies. -/
private def holding (copies : List Json) : Document := [("hijos", .arr copies), ("id", .str "n1")]

/-- The copies that the node holds after some updates: one of the node as it was before. -/
private def copies : Nat → List Json
  | 0 => []
  | n + 1 => [.obj (holding (copies n))]

private theorem inRange_holding {vs : List Json} (h : ∀ v ∈ vs, v.InRange) :
    Json.InRange (.obj (holding vs)) := by
  refine .obj fun entry hentry => ?_
  rcases List.mem_cons.mp hentry with rfl | hentry
  · exact .arr h
  · rw [List.mem_singleton.mp hentry]
    exact .str "n1"

private theorem inRange_copies (n : Nat) : ∀ v ∈ copies n, v.InRange := by
  induction n with
  | zero => exact fun v hv => absurd hv List.not_mem_nil
  | succ n ih =>
    intro v hv
    rw [List.mem_singleton.mp hv]
    exact inRange_holding ih

private theorem depth_holding (vs : List Json) :
    (Json.obj (holding vs)).depth = Json.depthOfItems vs + 2 := by
  simp [holding, Json.depth, Json.depthOfMembers]

private theorem depth_copies (n : Nat) : Json.depthOfItems (copies n) = 2 * n := by
  induction n with
  | zero => rfl
  | succ n ih =>
    rw [copies, Json.depthOfItems, depth_holding, ih, Json.depthOfItems, Nat.max_zero]
    rfl

private theorem toJson?_holding {vs : List Json} {d : Nat}
    (h : Json.Written.itemsToJson? d (Json.writtenItems vs) = some vs) :
    (Json.obj (holding vs)).written.toJson? (d + 2) = some (.obj (holding vs)) := by
  have hordered : Keyed.Ascending [("hijos", Json.arr vs), ("id", .str "n1")] :=
    List.pairwise_pair.mpr (by decide : "hijos" < "id")
  simp only [holding, Json.written, Json.writtenMembers, Json.Written.toJson?,
    Json.Written.membersToJson?, h]
  exact congrArg (fun ms => some (Json.obj ms)) (Keyed.ofList_of_ascending hordered)

/-- What is written of the copies is read as it was, within the reach of the reader. -/
private theorem itemsToJson?_copies {n d : Nat} (hd : 2 * n ≤ d) :
    Json.Written.itemsToJson? d (Json.writtenItems (copies n)) = some (copies n) := by
  induction n generalizing d with
  | zero => rfl
  | succ n ih =>
    obtain ⟨d, rfl⟩ := Nat.exists_eq_add_of_le' (Nat.le_trans (by omega : 2 ≤ 2 * (n + 1)) hd)
    rw [copies, Json.writtenItems, Json.Written.itemsToJson?,
      toJson?_holding (ih (Nat.le_of_add_le_add_right hd))]
    rfl

private theorem ofText?_holding_copies {n : Nat} (hn : n < 63) :
    Json.ofText? (Json.pretty (.obj (holding (copies n)))) = some (.obj (holding (copies n))) := by
  rw [Json.ofText?, (inRange_holding (inRange_copies n)).ofText?_pretty]
  exact toJson?_holding (itemsToJson?_copies (d := 125) (by omega))

/-- The node takes the copies at hand in the place of those that it had. -/
private theorem merge_growing (vs ws : List Json) :
    merge node [("hijos", .arr ws)] (holding vs) (growing.union regrowth.set) = holding ws := rfl

private theorem node_asksById : node.AsksById nursery.schema :=
  Query.asksById_of_isWord (f := .ofIdentifier "id") (by decide) (by decide) (by decide) (by decide)
    (by decide)

private theorem nursery_roomy : nursery.store.Roomy node.name "n1" where
  fits := ⟨by decide +kernel, by decide +kernel, by decide +kernel⟩
  name := by decide +kernel
  path := by decide +kernel

private theorem openLand_empty (place : List String) (hplace : place ≠ []) :
    openLand.files.get? (["data"] ++ place) = none := by
  have hne : ["data"] ++ place ≠ ["data"] := by simpa using hplace
  rw [FileTree.get?_of_ne_nil _ (by simp)]
  exact (FileTree.lookup_cons _ _ _ _).trans (if_neg hne)

/-- The first request makes the directory of the type and the file of the node. -/
private theorem planting_leaves :
    ((nursery.executeText planting.1 planting.2).run openLand).2.files.entries =
      ((openLand.files.put ["data", "Nodo"] .directory).put ["data", "Nodo", "n1"]
        (.file (some (Json.pretty (.obj (holding [])))))).entries ∧
    ((nursery.executeText planting.1 planting.2).run openLand).2.minted = 1 := by decide +kernel

/-- What the store holds after some updates: the node, with as many copies one inside the other. -/
private structure Copied (n : Nat) (state : State) : Prop where
  represents : nursery.store.Represents ["data"] state.files
    (Shelf.empty.put node.name "n1" (holding (copies n)))
  clear : Store.Clear ["data"] node.name state
  minted : state.minted = n + 1

namespace Copied

variable {n : Nat} {state : State}

private theorem get?_eq (n : Nat) : (Shelf.empty.put node.name "n1" (holding (copies n))).get?
    node.name "n1" = some (holding (copies n)) := by
  rw [Shelf.get?_put, if_pos ⟨rfl, rfl⟩]

private theorem readsBack (hn : n < 63) :
    Store.ReadsBack (Shelf.empty.put node.name "n1" (holding (copies n))) := by
  intro type id doc hdoc
  rw [Shelf.get?_put] at hdoc
  split at hdoc
  · cases hdoc
    exact ofText?_holding_copies hn
  · cases hdoc

private theorem find? (h : Copied n state) (hn : n < 63) :
    nursery.store.find? state.files node.name "n1" = .ok (some (holding (copies n))) := by
  rw [h.represents.find?_of_some (by decide) (get?_eq n),
    Store.decode_of_readsBack (ofText?_holding_copies hn)]
  rfl

private theorem exec_checkReferences (h : Copied n state) (hn : n < 63) :
    exec (nursery.checkReferences node growing) state =
      (.ok [("hijos", .arr (copies (n + 1)))], state) := by
  have hstored : nursery.StoredUnder state.files node.name (referencedIds (.arr [.str "n1"]))
      [holding (copies n)] := .cons (h.find? hn) .nil
  have hkey : referenceField? node "hijos" = some brood := rfl
  have hadded := exec_addReferenced_of_storedUnder hkey rfl hstored []
  unfold checkReferences growing
  rw [List.foldlM_cons, exec_bind_ok hadded]
  rfl

/-- Nothing stands against an update while the node can be read. -/
private theorem modifies (h : Copied n state) (hn : n < 63) :
    nursery.Modifies node regrowth state growing growing (holding (copies n))
      [("hijos", .arr (copies (n + 1)))] "n1" where
  context := rfl
  taken := rfl
  assigned := rfl
  names := rfl
  asked := Filter.idTarget?_str (by decide) (by decide)
  stored := by
    refine ⟨[holding (copies n)], ?_, ?_⟩
    · exact h.represents.stored_clear (readsBack hn) (by decide)
        (nursery_roomy.fits.of_join (by decide)) h.clear.directory
    · have hown : (holding (copies n)).get? node.identifierName = some (.str "n1") := rfl
      rw [List.find?_cons, DocumentType.answersTo_eq_hasId hown]
      rfl
  refers := h.exec_checkReferences hn
  valid := rfl
  keeps := rfl

/-- An update makes the node hold a copy of itself as it was. -/
private theorem step (h : Copied n state) (hn : n < 63) :
    Copied (n + 1) ((nursery.executeText growth.1 growth.2).run state).2 := by
  have he : nursery.Bare := bare_bare _ _ _
  obtain ⟨after, hwrite, hrepresents, hclear, hminted⟩ := (h.modifies hn).exec_write_clear he rfl
    node_asksById (by decide) h.represents (by rw [get?_eq]; rfl) h.clear (by decide) (by decide)
    nursery_roomy (by rw [h.minted]; omega) growth.1
  obtain ⟨selection, hname, harguments, hrequest⟩ := ofText_growth
  have hentry : nursery.mutations.get? selection.name = some ⟨"Nodo", regrowth⟩ := by
    rw [hname]
    rfl
  rw [← harguments] at hwrite
  have hleft := executeText_alike he hrequest growth.1 state
  rw [mutated_of_write selection hentry rfl rfl hwrite] at hleft
  refine ⟨?_, hclear.of_alike hleft, ?_⟩
  · rw [hleft.files]
    rwa [Shelf.put_put, merge_growing] at hrepresents
  · rw [hleft.minted, hminted, h.minted]

private theorem replicate (h : Copied n state) {count : Nat} (hcount : n + count ≤ 63) :
    Copied (n + count) (served nursery (List.replicate count growth) state) := by
  induction count generalizing n state with
  | zero => exact h
  | succ count ih =>
    have hrest := ih (h.step (by omega)) (by omega)
    rw [List.replicate_succ, served_cons, Nat.add_comm count, ← Nat.add_assoc]
    exact hrest

/-- The first request leaves the node without copies. -/
private theorem start :
    Copied 0 ((nursery.executeText planting.1 planting.2).run openLand).2 := by
  have hland : nursery.store.Represents ["data"] openLand.files Shelf.empty :=
    Store.represents_empty (FileTree.sound_of_entries (by decide +kernel) (by decide))
      (by decide +kernel) (by decide +kernel) openLand_empty
  have hfree : openLand.files.get? ["data", "Nodo"] = none := openLand_empty ["Nodo"] (by simp)
  have hroot : openLand.files.get? (["data", "Nodo"] : List String).dropLast = some .directory :=
    hland.directory
  have hsound := hland.sound.put (by simp) (by decide) hroot (by simp [hfree]) .directory
  have hmade : nursery.store.Represents ["data"]
      (openLand.files.put ["data", "Nodo"] .directory) Shelf.empty :=
    hland.of_same hsound (fun place => FileTree.keeps_put _ hfree .directory place .directory)
      fun _ _ => FileTree.get?_put_of_ne _ (by simp) _
  have hdir : (openLand.files.put ["data", "Nodo"] .directory).get? ["data", "Nodo"] =
      some .directory := FileTree.get?_put_self _ (by simp) _
  have hput := @Store.Rooted.putFile nursery.store ["data"] "Nodo" "n1" _ hmade.toRooted
    (by decide) (by decide) hdir (hmade.ne_directory "Nodo" "n1")
    (some (Json.pretty (.obj (holding []))))
  have hfiles := FileTree.eq_of_entries planting_leaves.1
  refine ⟨?_, ⟨?_, fun id count _ => ?_⟩, planting_leaves.2⟩
  · rw [hfiles]
    exact hmade.put hput (by decide) nursery_roomy.fits
  · rw [hfiles]
    exact hput.kept _ hdir
  · have hne : ¬ (node.name = "Nodo" ∧ Store.tempName id count = "n1") := fun heq =>
      Store.tempName_ne (by decide) id count heq.2
    rw [hfiles]
    refine (hput.others _ _ hne).trans ?_
    rw [FileTree.get?_put_of_ne _ (by simp)]
    exact openLand_empty [node.name, Store.tempName id count] (by simp)

/-- A node with more copies one inside the other than the reader goes is refused. -/
private theorem failsToDecode (h : Copied 63 state) (query : Query) :
    nursery.store.FailsToDecode state node.name query := by
  have hdeep : Json.maxDepth < (Json.obj (holding (copies 63))).depth := by
    rw [depth_holding, depth_copies]
    decide
  have hread : Store.readDocument? state.files ((nursery.store.typeDir node.name).join "n1") =
      .error (.decode ((nursery.store.typeDir node.name).join "n1") .unreadable) := by
    have hrange := inRange_holding (inRange_copies 63)
    have htext := h.represents.readText_of_some (by decide) (get?_eq 63)
    exact (Store.readDocument?_eq_error_iff hrange htext).mpr ⟨_, htext, hrange, hdeep⟩
  have hfiles : nursery.store.documentFiles state.files node.name = .ok _ :=
    h.represents.documentFiles_clear (by decide) (nursery_roomy.fits.of_join (by decide))
      h.clear.directory
  have hkeys : (Shelf.empty.put node.name "n1" (holding (copies 63)) node.name).keys = ["n1"] := by
    rw [Shelf.put, if_pos rfl]
    rfl
  have hfound : nursery.store.found state.files node.name query =
      .error (.decode ((nursery.store.typeDir node.name).join "n1") .unreadable) := by
    have htype : nursery.store.schema.type? node.name = some node := rfl
    unfold Store.found Store.stored
    rw [htype, hfiles, hkeys]
    dsimp only [bind, Except.bind, List.map]
    rw [Store.documents, hread]
    rfl
  obtain ⟨fetched, hfetch, -⟩ := nursery.store.exec_fetch node.name query state
  exact ⟨(nursery.store.typeDir node.name).join "n1", .unreadable, by rw [hfetch, hfound]⟩

end Copied

/-- Types that copy one another grow out of reach: after 64 mutations a document that takes a copy
of itself each time is too deep to be read, and no fetch of its type succeeds any more. -/
theorem exists_run_illegible :
    ∃ (e : Engine) (requests : List (String × String)) (state : State) (t : DocumentType),
      e.Bare ∧ e.schema.check.isOk = true ∧ Catalog.ofSchema e.space e.schema = .ok e.catalog ∧
      state.files.Sound ∧ (∀ place text, state.files.get? place ≠ some (.file text)) ∧
      t ∈ e.schema.types ∧ countMutations requests = 64 ∧
      ∀ query, e.store.FailsToDecode (served e requests state) t.name query := by
  have hcatalog : (Catalog.ofSchema "default" ⟨[node]⟩).isOk = true := rfl
  refine ⟨nursery, planting :: List.replicate 63 growth, openLand, node, bare_bare _ _ _, rfl,
    Except.eq_ok_getD hcatalog ⟨"default", []⟩,
    FileTree.sound_of_entries (by decide +kernel) (by decide),
    FileTree.get?_ne_file_of_entries (by decide), List.mem_cons_self, ?_, ?_⟩
  · have hplanting : mutationFields planting.2 = 1 := by decide +kernel
    have hgrowth : mutationFields growth.2 = 1 := by decide +kernel
    unfold countMutations
    rw [List.map_cons, List.sum_cons, List.map_replicate, hplanting, hgrowth]
    rfl
  · have hrun : Copied (0 + 63) (served nursery (List.replicate 63 growth) _) :=
      Copied.start.replicate (by decide)
    rw [← served_cons] at hrun
    exact hrun.failsToDecode

end

end Engine

end DocumentEngine
