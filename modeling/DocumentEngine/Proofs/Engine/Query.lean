import DocumentEngine.Engine.Execute
import DocumentEngine.Proofs.Engine.Fresh
import DocumentEngine.Proofs.Store.Named
import DocumentEngine.Schema.Structure

/-!
Queries. The data of a query is the data that its fields have without slots: the fields are
projected one after the other, and the rounds at the end settle all that they left open.
-/

namespace DocumentEngine

open Action

namespace Store.Named

variable {s : Store} {files : FileTree}

theorem readable (h : s.Named files) {type : String} (htype : (s.schema.type? type).isSome) :
    (s.contents? files type).isSome := by
  obtain ⟨t, ht⟩ := Option.isSome_iff_exists.mp htype
  obtain ⟨docs, hstored⟩ := (h.files_named type t ht).stored_ok
  rw [Projection.type?_name s.schema ht] at hstored
  rw [contents?_eq_some_iff.mpr ⟨ht, hstored⟩]
  rfl

theorem identified (h : s.Named files) : s.Identified files := by
  intro type t docs hc a ha b hb id hida hidb
  obtain ⟨ht, hstored⟩ := contents?_eq_some_iff.mp hc
  have hnamed := h.files_named type t ht
  rw [← Projection.type?_name s.schema ht] at hstored
  cases (hnamed.readDocument?_eq hstored ha hida).symm.trans
    (hnamed.readDocument?_eq hstored hb hidb)
  rfl

end Store.Named

namespace Engine

/-- The documents of a root field of a query, with their type and whether they are a list. -/
def rootDocuments (e : Engine) (files : FileTree) (selection : Selection) :
    Except EngineError (DocumentType × Bool × List Document) :=
  match e.schema.roots.get? selection.name with
  | none => .error (.unknownField "Query" selection.name)
  | some root =>
    match e.schema.type? root.type with
    | none => .error (.schema (.unknownType root.type))
    | some t =>
      match Query.compile e.schema t e.config.maxLimit selection.arguments with
      | .error cause => .error (.compile cause)
      | .ok query =>
        ((e.store.found files t.name query).mapError .ofStore).map (t, root.plural, ·)

/-- The projection of a root field of a query. A field that fails is null. -/
def projectRoot (e : Engine) (files : FileTree) (selection : Selection) : Projected :=
  let path : ResponsePath := [.key selection.responseKey]
  match e.rootDocuments files selection with
  | .error _ => ⟨.null, [], []⟩
  | .ok (t, true, docs) => Projection.projectList e.schema t docs selection.selections path
  | .ok (_, false, []) => ⟨.null, [], []⟩
  | .ok (t, false, doc :: _) =>
    Projection.project e.schema t doc selection.selections path .stored

end Engine

namespace Direct

/-- The value of a root field of a query, with every pointer followed at once in the store. A field
that fails is null. -/
def root (e : Engine) (files : FileTree) (selection : Selection) : Json :=
  match e.rootDocuments files selection with
  | .error _ => .null
  | .ok (t, plural, docs) =>
    let value := document e.schema (e.store.finder files) t .stored selection.selections
    if plural then .arr (docs.map value) else (docs.head?.map value).getD .null

/-- The data of a query, with every pointer followed at once in the store. -/
def data (e : Engine) (files : FileTree) (selections : List Selection) : Json :=
  .obj (Keyed.ofList (selections.map fun selection =>
    (selection.responseKey, root e files selection)))

end Direct

namespace Engine

variable {e : Engine} {requestId : String} {r : Resolution} {state : State}

/-- What a root field of a query comes to where documents are refused: its projection or its
error. -/
def rootOutcome (e : Engine) (refusal : Refusal) (files : FileTree) (selection : Selection) :
    Except EngineError Projected :=
  match e.rootDocuments files selection with
  | .error cause => .error cause
  | .ok (t, _, docs) => (refusal.pass t.name docs).map fun _ => e.projectRoot files selection

/-- The projection of a root field of a query where documents are refused. -/
def admittedRoot (e : Engine) (refusal : Refusal) (files : FileTree) (selection : Selection) :
    Projected :=
  (e.rootOutcome refusal files selection).toOption.getD ⟨.null, [], []⟩

/-- The errors of a root field of a query. -/
def rootErrors (e : Engine) (refusal : Refusal) (files : FileTree) (selection : Selection) :
    List ResponseError :=
  match e.rootOutcome refusal files selection with
  | .ok p => p.faults
  | .error cause => [⟨[.key selection.responseKey], cause⟩]

/-- The slots that the root fields of a query leave open. -/
def admittedWaiting (e : Engine) (refusal : Refusal) (files : FileTree)
    (selections : List Selection) : List Slot :=
  selections.flatMap fun selection => (e.admittedRoot refusal files selection).slots

/-- The data of a query with the slots of its root fields open. -/
def admittedPlaced (e : Engine) (refusal : Refusal) (files : FileTree)
    (selections : List Selection) : Json :=
  .obj (Keyed.ofList (selections.map fun selection =>
    (selection.responseKey, (e.admittedRoot refusal files selection).value)))

theorem admittedRoot_never (e : Engine) (files : FileTree) :
    e.admittedRoot .never files = e.projectRoot files := by
  funext selection
  unfold admittedRoot rootOutcome
  cases hroot : e.rootDocuments files selection with
  | error cause =>
    rw [projectRoot, hroot]
    rfl
  | ok found =>
    dsimp only
    rw [Refusal.pass_never]
    rfl

section

variable {refusal : Refusal}

theorem exec_resolveQuery (hr : e.Refuses requestId refusal) (selection : Selection) :
    ∃ state', exec (e.resolveQuery requestId selection [.key selection.responseKey]) state =
        (e.rootOutcome refusal state.files selection, state') ∧ state'.Alike state := by
  unfold resolveQuery rootOutcome projectRoot rootDocuments
  cases e.schema.roots.get? selection.name with
  | none => exact ⟨state, rfl, .refl state⟩
  | some root =>
    dsimp only
    unfold requireType
    cases e.schema.type? root.type with
    | none => exact ⟨state, rfl, .refl state⟩
    | some t =>
      dsimp only
      rw [exec_bind_ok (exec_pure t state)]
      cases Query.compile e.schema t e.config.maxLimit selection.arguments with
      | error cause => exact ⟨state, rfl, .refl state⟩
      | ok query =>
        have hquery : exec (EngineM.ofFilter (.ok query)) state = (.ok query, state) :=
          exec_engineLift (.ok query) state
        rw [exec_bind_ok hquery]
        obtain ⟨state', hread, halike⟩ := hr.exec_read t.name query state
        refine ⟨state', ?_, halike⟩
        dsimp only
        cases hfound : e.store.found state.files t.name query with
        | error cause =>
          rw [hfound] at hread
          exact exec_bind_error hread
        | ok docs =>
          rw [hfound] at hread
          change exec _ _ = ((refusal.pass t.name docs).map _, _)
          change exec _ _ = (refusal.pass t.name docs, _) at hread
          unfold Refusal.pass at hread ⊢
          generalize docs.findSome? (refusal t.name) = refused at hread ⊢
          cases refused with
          | some cause => exact exec_bind_error hread
          | none =>
            rw [exec_bind_ok hread]
            cases root.plural with
            | true => rfl
            | false => cases docs <;> rfl

theorem resolveRoot_eq (e : Engine) (requestId : String) (kind : RequestKind)
    (selection : Selection) :
    e.resolveRoot requestId kind selection =
      attempt (match kind with
        | .query => e.resolveQuery requestId selection [.key selection.responseKey]
        | .mutation => e.resolveMutation requestId selection [.key selection.responseKey]) >>=
          takeOver requestId [.key selection.responseKey] := by
  unfold resolveRoot
  congr 1

/-- A root field of a query gives its projection, leaves the slots of it and records its errors. -/
theorem reports_addRoot (hr : e.Refuses requestId refusal) (data : Document)
    (selection : Selection) :
    Reports (e.addRoot requestId .query data selection) r state
      (data.insert selection.responseKey (e.admittedRoot refusal state.files selection).value)
      { r.batch with
        pending := r.batch.pending ++ (e.admittedRoot refusal state.files selection).slots }
      (e.rootErrors refusal state.files selection) := by
  obtain ⟨state', hexec, halike⟩ := @exec_resolveQuery e requestId state refusal hr selection
  have hroot : Reports (e.resolveRoot requestId .query selection) r state
      (e.admittedRoot refusal state.files selection).value
      { r.batch with
        pending := r.batch.pending ++ (e.admittedRoot refusal state.files selection).slots }
      (e.rootErrors refusal state.files selection) := by
    rw [resolveRoot_eq]
    refine .of_quiet_bind (.of_attempt hexec halike) fun r' state'' hr' _ => ?_
    rw [← hr']
    exact .of_takeOver requestId _ _
  unfold addRoot
  rw [← List.append_nil (e.rootErrors refusal state.files selection)]
  exact .of_bind hroot fun r' _ hr' _ => .of_pure_at hr' _

/-- The root fields of a query give the object of their projections, leave all their slots and
record all their errors. -/
theorem reports_addRoots (hr : e.Refuses requestId refusal) (selections : List Selection)
    (data : Document) :
    Reports (selections.foldlM (e.addRoot requestId .query) data) r state
      (data.union (selections.map fun selection =>
        (selection.responseKey, (e.admittedRoot refusal state.files selection).value)))
      { r.batch with
        pending := r.batch.pending ++ e.admittedWaiting refusal state.files selections }
      (selections.flatMap (e.rootErrors refusal state.files)) := by
  induction selections generalizing data r state with
  | nil =>
    rw [admittedWaiting, List.flatMap_nil, List.append_nil]
    exact .of_pure _
  | cons selection selections ih =>
    rw [List.foldlM_cons, List.map_cons, Keyed.union_cons, admittedWaiting, List.flatMap_cons,
      List.flatMap_cons, ← List.append_assoc]
    refine .of_bind (reports_addRoot hr data selection) fun r' state' hr' halike => ?_
    have hrest := @ih r' state'
      (data.insert selection.responseKey (e.admittedRoot refusal state.files selection).value)
    rw [hr', halike.files] at hrest
    exact hrest

/-- A query gives the data, leaves the slots and records the errors of its root fields and of the
rounds after them. -/
theorem reports_resolveAll (hr : e.Refuses requestId refusal) {request : Request}
    (hkind : request.kind = .query) :
    let batch : Batch := ⟨e.admittedWaiting refusal state.files request.selections, []⟩
    let placed := e.admittedPlaced refusal state.files request.selections
    Reports (e.resolveAll requestId request) {} state
      (refusedRounds e state.files refusal batch.rounds placed batch).1
      (refusedRounds e state.files refusal batch.rounds placed batch).2
      (request.selections.flatMap (e.rootErrors refusal state.files) ++
        roundsErrors e state.files refusal batch.rounds placed batch) := by
  intro batch placed
  unfold resolveAll
  rw [hkind]
  refine .of_bind (reports_addRoots hr request.selections []) fun r' state' hr' halike => ?_
  have hflush := @reports_flush e refusal requestId r' state' hr placed
  rw [hr', halike.files] at hflush
  exact hflush

end

theorem projectRoot_resolves (files : FileTree) {selection : Selection}
    (hd : selection.Distinct) :
    (e.projectRoot files selection).Resolves e.schema (e.store.finder files)
      [.key selection.responseKey] (2 * selection.height) (Direct.root e files selection) := by
  unfold projectRoot Direct.root
  have hself : ∀ t plural docs, e.rootDocuments files selection = .ok (t, plural, docs) →
      e.schema.type? t.name = some t := by
    intro t plural docs h
    unfold rootDocuments at h
    split at h
    · cases h
    · split at h
      · cases h
      · rename_i root _ u hu
        split at h
        · cases h
        · cases hfound : e.store.found files u.name _ with
          | error cause =>
            rw [hfound] at h
            cases h
          | ok found =>
            rw [hfound] at h
            cases h
            rw [Projection.type?_name e.schema hu, hu]
  have hsize : Projection.slotBound (Selection.heightBelow selection.selections) .stored ≤
      2 * selection.height := by
    simp only [Projection.slotBound, selection.height_eq, reduceCtorEq, if_false]
    omega
  rcases hroot : e.rootDocuments files selection with cause | ⟨t, plural, docs⟩
  · exact .closed .null []
  · have ht := hself t plural docs hroot
    cases plural with
    | true => exact (Projection.projectList_resolves _ _ ht hd.below docs _).mono hsize
    | false =>
      cases docs with
      | nil => exact .closed .null []
      | cons doc docs => exact (Projection.project_resolves _ _ ht hd.below doc _ .stored).mono hsize

theorem size_le_rounds {b : Batch} {slot : Slot} (h : slot ∈ b.pending) : slot.size ≤ b.rounds := by
  have hgrows : ∀ (slots : List Slot) (n : Nat),
      n ≤ slots.foldl (fun n slot => max n slot.size) n ∧
        ∀ slot ∈ slots, slot.size ≤ slots.foldl (fun n slot => max n slot.size) n := by
    intro slots
    induction slots with
    | nil => exact fun n => ⟨le_rfl, by simp⟩
    | cons head slots ih =>
      intro n
      obtain ⟨hbase, hall⟩ := ih (max n head.size)
      rw [List.foldl_cons]
      refine ⟨(le_max_left ..).trans hbase, fun slot hslot => ?_⟩
      rcases List.mem_cons.mp hslot with rfl | hslot
      · exact (le_max_right ..).trans hbase
      · exact hall slot hslot
  exact (hgrows b.pending 0).2 slot h

theorem rounds_le {b : Batch} {n : Nat} (h : ∀ slot ∈ b.pending, slot.size ≤ n) : b.rounds ≤ n := by
  have hbound : ∀ (slots : List Slot) (m : Nat), m ≤ n → (∀ slot ∈ slots, slot.size ≤ n) →
      slots.foldl (fun n slot => max n slot.size) m ≤ n := by
    intro slots
    induction slots with
    | nil => exact fun _ hm _ => hm
    | cons head slots ih =>
      intro m hm hslots
      exact ih _ (max_le hm (hslots head List.mem_cons_self)) fun slot hslot =>
        hslots slot (List.mem_cons_of_mem _ hslot)
  exact hbound b.pending 0 n.zero_le h

/-- Projections of root fields under distinct keys become the values of the fields where each does
alone. -/
theorem rootFields_resolve {s : Schema} {find : Finder} {projected : Selection → Projected}
    {value : Selection → Json} {selections : List Selection}
    (hroot : ∀ selection : Selection, selection.Distinct → (projected selection).Resolves s find
      [.key selection.responseKey] (2 * selection.height) (value selection))
    (hd : Selection.DistinctBelow selections) :
    Projected.Resolves.Fields s find [] (2 * Selection.heightBelow selections)
      (selections.map fun selection => (selection.responseKey, projected selection))
      (selections.map fun selection => (selection.responseKey, value selection)) := by
  induction selections with
  | nil => exact .nil
  | cons selection selections ih =>
    obtain ⟨hkey, hself, hrest⟩ := hd
    refine .cons ?_ ((hroot selection hself).mono ?_) ((ih hrest).mono ?_)
    · rwa [List.map_map]
    · simp only [Selection.heightBelow]
      omega
    · simp only [Selection.heightBelow]
      omega

/-- The slots that the root fields of a query leave open. -/
def waiting (e : Engine) (files : FileTree) (selections : List Selection) : List Slot :=
  selections.flatMap fun selection => (e.projectRoot files selection).slots

/-- The data of a query with the slots of its root fields open. -/
def placed (e : Engine) (files : FileTree) (selections : List Selection) : Json :=
  .obj (Keyed.ofList (selections.map fun selection =>
    (selection.responseKey, (e.projectRoot files selection).value)))

/-- The data of a query is what rounds with stored documents make of the projections of its root
fields, and they leave open what the query leaves open. -/
theorem query_settleRounds (e : Engine) (requestId : String) (request : Request) (state : State)
    (he : e.ReadsPlainly) (hdot : e.schema.PlainIdentifiers)
    (hid : e.store.Identified state.files) (hkind : request.kind = .query) :
    let waiting := e.waiting state.files request.selections
    let settled := e.store.settleRounds state.files (Batch.rounds ⟨waiting, []⟩)
      (e.placed state.files request.selections) waiting
    ((e.executeRequest requestId request).run state).1.data = settled.1 ∧
      (after (e.resolveAll requestId request) {} state).1.2.batch.pending = settled.2 := by
  intro waiting settled
  have hall := @reports_resolveAll e requestId state .never (he.refuses requestId) request hkind
  have hwaiting : e.admittedWaiting .never state.files request.selections = waiting := by
    rw [admittedWaiting, admittedRoot_never]
    rfl
  have hplaced : e.admittedPlaced .never state.files request.selections =
      e.placed state.files request.selections := by
    rw [admittedPlaced, admittedRoot_never]
    rfl
  dsimp only at hall
  rw [hwaiting, hplaced, refusedRounds_never] at hall
  -- The batch that the root fields leave has their slots and knows nothing yet.
  have hfresh : Batch.Fresh e.store state.files ⟨waiting, []⟩ := Batch.fresh_of_memo_nil _ _ rfl
  obtain ⟨hdata, hpending, -⟩ := roundsOf_fresh hdot hid (Batch.rounds ⟨waiting, []⟩)
    (e.placed state.files request.selections) hfresh
  have hvalue : ((e.executeRequest requestId request).run state).1.data =
      (after (e.resolveAll requestId request) {} state).1.1 := rfl
  rw [hvalue, hall.value_eq, hall.batch_eq]
  exact ⟨hdata, hpending⟩

/-- Rounds with stored documents settle all slots of the root fields of a query. -/
theorem settleRounds_placed {files : FileTree} (hstore : e.store.Named files)
    {selections : List Selection} (hkeys : Selection.DistinctBelow selections) :
    e.store.settleRounds files (Batch.rounds ⟨e.waiting files selections, []⟩)
        (e.placed files selections) (e.waiting files selections) =
      (Direct.data e files selections, []) := by
  have hresolves := Projected.Resolves.object
    (rootFields_resolve (fun _ => projectRoot_resolves (e := e) files) hkeys)
  have hobject : Projected.object (selections.map fun selection =>
      (selection.responseKey, e.projectRoot files selection)) =
        ⟨e.placed files selections, e.waiting files selections,
          selections.flatMap fun selection => (e.projectRoot files selection).faults⟩ := by
    simp only [Projected.object, List.map_map, List.flatMap_map, placed, waiting]
    rfl
  rw [hobject] at hresolves
  rw [Store.settleRounds_eq (fun type h => hstore.readable h) (e.placed files selections)
    (fun slot hslot => size_le_rounds (b := ⟨e.waiting files selections, []⟩) hslot)
    hresolves.distinct hresolves.apart]
  exact Prod.ext (hresolves.settles .null) rfl

/-- The data of a query is what its fields have with every pointer followed at once, and no slot is
left open. -/
theorem query_data_eq_direct (e : Engine) (requestId : String) (request : Request) (state : State)
    (he : e.ReadsPlainly) (hdot : e.schema.PlainIdentifiers) (hstore : e.store.Named state.files)
    (hkind : request.kind = .query) (hkeys : Selection.DistinctBelow request.selections) :
    ((e.executeRequest requestId request).run state).1.data =
        Direct.data e state.files request.selections ∧
      (after (e.resolveAll requestId request) {} state).1.2.batch.pending = [] := by
  obtain ⟨hdata, hpending⟩ := query_settleRounds e requestId request state he hdot
    hstore.identified hkind
  rw [settleRounds_placed hstore hkeys] at hdata hpending
  exact ⟨hdata, hpending⟩

section

/-- Employees of provinces, and provinces with employees at their heads. -/
private def offices : Schema where
  types := [
    { name := "Empleado"
      fields := [.ofIdentifier "id", .ofReference "provincia" "Provincia"] },
    { name := "Provincia"
      fields := [.ofIdentifier "id", .ofReference "jefe" "Empleado"] }]

/-- An employee and a province that point at each other. -/
private def ring : FileTree :=
  ⟨[(["data"], .directory), (["data", "Empleado"], .directory), (["data", "Provincia"], .directory),
    (["data", "Empleado", "e1"],
      .file (some "\x7b\"id\": \"e1\", \"provincia_id\": \"p1\"\x7d")),
    (["data", "Provincia", "p1"],
      .file (some "\x7b\"id\": \"p1\", \"jefe_id\": \"e1\"\x7d"))]⟩

/-- A query that goes around the ring. -/
private def around : Request where
  kind := .query
  name := none
  selections := [.field none "empleados" [] [.field none "id" [] [],
    .field none "provincia" [] [.field none "jefe" [] [.field none "provincia" [] []]]]]

theorem query_data_eq_direct_ring :
    (((bare ⟨"/data"⟩ offices ⟨"default", []⟩).executeRequest "r" around).run
      { files := ring }).1.data =
        Direct.data (bare ⟨"/data"⟩ offices ⟨"default", []⟩) ring around.selections :=
  (query_data_eq_direct (bare ⟨"/data"⟩ offices ⟨"default", []⟩) "r" around { files := ring }
    (bare_bare _ _ _).readsPlainly (by unfold Schema.PlainIdentifiers; decide)
    (Store.named_of_isTypeNamed (by decide +kernel)) rfl
    (by simp [around, Selection.DistinctBelow, Selection.Distinct, Selection.responseKey,
      Selection.label, Selection.name])).1

end

/-- Where the name of an identifier reads as a path its documents are not found by their ids. -/
theorem exists_query_data_ne_direct :
    ∃ (e : Engine) (request : Request) (state : State), e.schema.check.isOk = true ∧
      e.ReadsPlainly ∧ e.store.Named state.files ∧ request.kind = .query ∧
      Selection.DistinctBelow request.selections ∧
      ((e.executeRequest "r" request).run state).1.data ≠
        Direct.data e state.files request.selections := by
  let province : DocumentType :=
    { name := "Provincia", fields := [.ofIdentifier "codigo.iso", .ofScalar "nombre" .string] }
  let employee : DocumentType :=
    { name := "Empleado", fields := [.ofIdentifier "id", .ofReference "provincia" "Provincia"] }
  let files : FileTree :=
    ⟨[(["data"], .directory), (["data", "Empleado"], .directory),
      (["data", "Provincia"], .directory),
      (["data", "Empleado", "e1"],
        .file (some "\x7b\"id\": \"e1\", \"provincia_id\": \"p1\"\x7d")),
      (["data", "Provincia", "p1"],
        .file (some "\x7b\"codigo.iso\": \"p1\", \"nombre\": \"Salta\"\x7d"))]⟩
  let request : Request :=
    ⟨.query, none, [.field none "empleados" []
      [.field none "provincia" [] [.field none "nombre" [] []]]]⟩
  refine ⟨bare ⟨"/data"⟩ ⟨[employee, province]⟩ ⟨"default", []⟩, request, { files := files },
    by decide +kernel, (bare_bare _ _ _).readsPlainly, Store.named_of_isTypeNamed (by decide +kernel),
    rfl, ?_, ?_⟩
  · simp [request, Selection.DistinctBelow, Selection.Distinct, Selection.responseKey,
      Selection.label, Selection.name]
  · intro h
    have htexts := congrArg Json.compact h
    revert htexts
    decide +kernel

end Engine

end DocumentEngine
