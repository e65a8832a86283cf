import DocumentEngine.Proofs.Engine.Rounds
import DocumentEngine.Proofs.Projection.Filling

/-!
Fresh batches. A batch is fresh for a store when all it knows is what the store holds; the empty
batch is, and rounds keep it so. What rounds give does not depend on what a fresh batch knows, and
where every type can be read it is what the slots have without rounds. Where documents are refused
the same holds, but a round fails all slots of a type of which it asks for a refused document.
-/

namespace DocumentEngine

/-- No two stored documents of a type hold one id. -/
def Store.Identified (s : Store) (files : FileTree) : Prop :=
  ∀ type t docs, s.contents? files type = some (t, docs) → ∀ a ∈ docs, ∀ b ∈ docs, ∀ id,
    t.idOf? a = some id → t.idOf? b = some id → a = b

/-- No identifier field of a schema has a name that reads as a path. -/
def Schema.PlainIdentifiers (s : Schema) : Prop := ∀ t ∈ s.types, '.' ∉ t.identifierName.toList

/-- All that a batch knows is what a store holds. -/
def Batch.Fresh (s : Store) (files : FileTree) (b : Batch) : Prop :=
  ∀ type id found, b.known? type id = some found →
    (s.contents? files type).isSome = true ∧ found = s.finder files type id

theorem Batch.fresh_of_memo_nil (s : Store) (files : FileTree) {b : Batch} (h : b.memo = []) :
    b.Fresh s files := by
  intro type id found hknown
  rw [Batch.known?, h] at hknown
  cases hknown

namespace Store

variable {s : Store} {files : FileTree}

theorem finder_eq_some (hi : s.Identified files) {type id : String} {t : DocumentType}
    {docs : List Document} (hc : s.contents? files type = some (t, docs)) {doc : Document}
    (hdoc : doc ∈ docs) (hid : t.idOf? doc = some id) : s.finder files type id = some doc := by
  unfold finder
  rw [hc, Option.bind_some]
  dsimp only
  cases hfind : docs.find? fun doc => t.idOf? doc == some id with
  | none =>
    have hnone := List.find?_eq_none.mp hfind doc hdoc
    simp [hid] at hnone
  | some other =>
    have hother : t.idOf? other = some id := by simpa using List.find?_some hfind
    rw [hi type t docs hc other (List.mem_of_find?_eq_some hfind) doc hdoc id hother hid]

theorem finder_eq_none {type id : String} {t : DocumentType} {docs : List Document}
    (hc : s.contents? files type = some (t, docs)) (h : ∀ doc ∈ docs, t.idOf? doc ≠ some id) :
    s.finder files type id = none := by
  unfold finder
  rw [hc, Option.bind_some]
  exact List.find?_eq_none.mpr fun doc hdoc => by simpa using h doc hdoc

/-- Whether a round cannot fill slots of a type: an id of the type is asked for, and the documents
of the type cannot be read. -/
def blocks (s : Store) (files : FileTree) (round : List Slot) (type : String) : Bool :=
  (s.contents? files type).isNone && round.any fun slot =>
    slot.type == type && !slot.pointer.ids.isEmpty

/-- The filling of a slot of a round with stored documents. -/
def filling (s : Store) (files : FileTree) (round : List Slot) (slot : Slot) : Projected :=
  if s.blocks files round slot.type then ⟨.null, [], []⟩
  else slot.filling s.schema (s.finder files)

/-- The data and the slots that wait after rounds that fill slots with stored documents. -/
def settleRounds (s : Store) (files : FileTree) : Nat → Json → List Slot → Json × List Slot
  | 0, data, pending => (data, pending)
  | fuel + 1, data, pending =>
    if pending.isEmpty then (data, pending)
    else
      settleRounds s files fuel (Direct.fillAll (s.filling files pending) data pending)
        (pending.flatMap fun slot => (s.filling files pending slot).slots)

end Store

/-- A fresh batch that knows the ids of a slot fills it with stored documents. -/
theorem Batch.fill_of_fresh {s : Store} {files : FileTree} {b : Batch} (hb : b.Fresh s files)
    {slot : Slot} (hknown : ∀ id ∈ slot.pointer.ids, b.isMemoized slot.type id = true)
    (schema : Schema) : b.fill schema slot = slot.filling schema (s.finder files) := by
  refine Batch.fill_eq fun id hid => ?_
  obtain ⟨found, hfound⟩ := Option.isSome_iff_exists.mp (hknown id hid)
  rw [Batch.lookup, hfound, (hb _ _ _ hfound).2]
  rfl

namespace Engine

variable {e : Engine} {files : FileTree}

theorem loadInto_isMemoized {b : Batch} {type id : String} (h : b.isMemoized type id = true)
    (entry : String × List String) : (loadInto e files b entry).isMemoized type id = true := by
  unfold loadInto
  split
  · exact Batch.isMemoized_rememberAll h ..
  · exact h

theorem loadInto_pending (b : Batch) (entry : String × List String) :
    (loadInto e files b entry).pending = b.pending := by
  unfold loadInto
  split
  · exact Batch.pending_rememberAll ..
  · rfl

section

variable (hdot : e.schema.PlainIdentifiers) (hi : e.store.Identified files)

include hdot

theorem loadInto_isMemoized_of_mem {entry : String × List String}
    (hc : (e.store.contents? files entry.1).isSome = true) {id : String} (hid : id ∈ entry.2)
    (b : Batch) : (loadInto e files b entry).isMemoized entry.1 id = true := by
  rcases loaded_spec hdot files entry.1 entry.2 with ⟨hnone, -⟩ | ⟨t, docs, found, hsome, hload, -⟩
  · rw [hnone] at hc
    cases hc
  · unfold loadInto
    rw [hload]
    have hname := Projection.type?_name e.schema (Store.contents?_eq_some_iff.mp hsome).1
    exact hname ▸ Batch.isMemoized_of_mem hid found

include hi

/-- A load keeps a batch fresh. -/
theorem fresh_loadInto {b : Batch} (hb : b.Fresh e.store files) (entry : String × List String) :
    (loadInto e files b entry).Fresh e.store files := by
  rcases loaded_spec hdot files entry.1 entry.2 with ⟨-, cause, hload⟩ |
    ⟨t, docs, found, hsome, hload, hsub, hall⟩
  · unfold loadInto
    rwa [hload]
  · unfold loadInto
    rw [hload]
    have hname := Projection.type?_name e.schema (Store.contents?_eq_some_iff.mp hsome).1
    intro type id known hknown
    rcases Batch.known?_of_rememberAll hknown with hknown | ⟨rfl, ⟨doc, hdoc, hid, rfl⟩ |
      ⟨hid, hmissed, rfl⟩⟩
    · exact hb type id known hknown
    · rw [hname]
      exact ⟨by rw [hsome]; rfl, (Store.finder_eq_some hi hsome (hsub hdoc) hid).symm⟩
    · rw [hname]
      refine ⟨by rw [hsome]; rfl, (Store.finder_eq_none hsome fun doc hdoc heq => ?_).symm⟩
      exact hmissed doc (hall doc hdoc id hid heq) heq

end

theorem loads_isMemoized {b : Batch} {type id : String} (h : b.isMemoized type id = true)
    (entries : Keyed (List String)) :
    (entries.foldl (loadInto e files) b).isMemoized type id = true := by
  induction entries generalizing b with
  | nil => exact h
  | cons entry entries ih => exact ih (loadInto_isMemoized h entry)

theorem loads_pending (entries : Keyed (List String)) (b : Batch) :
    (entries.foldl (loadInto e files) b).pending = b.pending := by
  induction entries generalizing b with
  | nil => rfl
  | cons entry entries ih => rw [List.foldl_cons, ih, loadInto_pending]

theorem loads_isMemoized_of_mem (hdot : e.schema.PlainIdentifiers)
    {entries : Keyed (List String)} {type : String} {ids : List String}
    (hentry : (type, ids) ∈ entries) (hc : (e.store.contents? files type).isSome = true)
    {id : String} (hid : id ∈ ids) (b : Batch) :
    (entries.foldl (loadInto e files) b).isMemoized type id = true := by
  induction entries generalizing b with
  | nil => cases hentry
  | cons entry entries ih =>
    rw [List.foldl_cons]
    rcases List.mem_cons.mp hentry with rfl | hentry
    · exact loads_isMemoized (loadInto_isMemoized_of_mem hdot hc hid b) entries
    · exact ih hentry _

variable (e files) in
/-- A document that passes a fetch by ids passes a fetch by the id that it holds. -/
def PassesAlone (refusal : Refusal) : Prop :=
  ∀ type ids t docs, e.presented refusal files type ids = .ok (t, docs) → ∀ doc ∈ docs, ∀ id,
    t.idOf? doc = some id → (e.presented refusal files type [id]).isOk = true

variable (e files) in
/-- A fresh batch that knows no id whose fetch has an error for callers. -/
structure Admitted (refusal : Refusal) (b : Batch) : Prop where
  fresh : b.Fresh e.store files
  passes : ∀ type id, b.isMemoized type id = true →
    (e.presented refusal files type [id]).isOk = true

variable (e files) in
/-- Whether a round fails the slots of a type: it asks for an id of the type whose fetch has an
error for callers. -/
def stalls (refusal : Refusal) (round : List Slot) (type : String) : Bool :=
  round.any fun slot => slot.type == type && slot.pointer.ids.any fun id =>
    !(e.presented refusal files type [id]).isOk

variable (e files) in
/-- The filling of a slot of a round with stored documents, if the round does not fail it. -/
def fillingAmong (refusal : Refusal) (round : List Slot) (slot : Slot) : Projected :=
  if e.stalls files refusal round slot.type then ⟨.null, [], []⟩
  else slot.filling e.schema (e.store.finder files)

section

variable {refusal : Refusal} (hdot : e.schema.PlainIdentifiers)

theorem admitted_of_memo_nil (refusal : Refusal) {b : Batch} (h : b.memo = []) :
    Admitted e files refusal b where
  fresh := Batch.fresh_of_memo_nil _ _ h
  passes type id hknown := by
    rw [Batch.isMemoized, Batch.known?, h] at hknown
    cases hknown

theorem stalls_eq_true_iff {round : List Slot} {type : String} :
    e.stalls files refusal round type = true ↔ ∃ slot ∈ round, slot.type = type ∧
      ∃ id ∈ slot.pointer.ids, (e.presented refusal files type [id]).isOk = false := by
  simp [stalls, List.any_eq_true]

theorem passes_of_not_stalls {round : List Slot} {type : String}
    (h : e.stalls files refusal round type = false) {slot : Slot} (hslot : slot ∈ round)
    (htype : slot.type = type) {id : String} (hid : id ∈ slot.pointer.ids) :
    (e.presented refusal files type [id]).isOk = true := by
  by_contra hfails
  have hstalls := stalls_eq_true_iff.mpr ⟨slot, hslot, htype, id, hid, by simpa using hfails⟩
  rw [h] at hstalls
  cases hstalls

/-- With a batch that knows the ids of a slot the slot is filled with stored documents. -/
theorem fillInto_fresh {failures : Keyed EngineError} {round : List Slot} {slot : Slot}
    (hfails : (failures.get? slot.type).isSome = e.stalls files refusal round slot.type)
    {c : Batch} (hc : c.Fresh e.store files)
    (hknown : e.stalls files refusal round slot.type = false → ∀ id ∈ slot.pointer.ids,
      c.isMemoized slot.type id = true) (data : Json) :
    fillInto e failures (data, c) slot =
      (data.setAt (e.fillingAmong files refusal round slot).value slot.path,
        { c with pending := c.pending ++ (e.fillingAmong files refusal round slot).slots }) := by
  unfold fillInto fillingAmong
  cases hstalls : e.stalls files refusal round slot.type with
  | true =>
    obtain ⟨cause, hcause⟩ := Option.isSome_iff_exists.mp (hfails.trans hstalls)
    rw [hcause, if_pos rfl, List.append_nil]
  | false =>
    have hnone := Option.isSome_eq_false_iff.mp (hfails.trans hstalls)
    rw [Option.isNone_iff_eq_none.mp hnone, if_neg Bool.false_ne_true,
      Batch.fill_of_fresh hc (hknown hstalls)]
    dsimp only
    rw [Batch.foldl_defer]

include hdot

theorem isSome_contents_of_isOk {type : String} {ids : List String}
    (h : (e.presented refusal files type ids).isOk = true) :
    (e.store.contents? files type).isSome = true := by
  obtain ⟨t, docs, hc, -⟩ := (isOk_presented_iff hdot).mp h
  rw [hc]
  rfl

/-- The loads of a round keep a batch fresh, and make known nothing whose fetch has an error for
callers. -/
theorem admitted_loads (hi : e.store.Identified files) (halone : PassesAlone e files refusal)
    {b : Batch} (hb : Admitted e files refusal b) {entries : Keyed (List String)}
    (hids : ∀ entry ∈ entries, entry.2 ≠ []) :
    Admitted e files refusal (admittedLoads e files refusal b entries) := by
  induction entries generalizing b with
  | nil => exact hb
  | cons entry entries ih =>
    rw [admittedLoads_cons]
    refine ih ?_ fun other hother => hids other (List.mem_cons_of_mem _ hother)
    unfold admittedLoads
    rw [List.filter_singleton]
    cases hpasses : (e.presented refusal files entry.1 entry.2).isOk with
    | false => exact hb
    | true =>
      refine ⟨fresh_loadInto hdot hi hb.fresh entry, fun type id hknown => ?_⟩
      change (loadInto e files b entry).isMemoized type id = true at hknown
      cases hpresented : e.presented refusal files entry.1 entry.2 with
      | error cause =>
        rw [hpresented] at hpasses
        cases hpasses
      | ok found =>
        obtain ⟨t, docs⟩ := found
        have hload := loaded_of_presented hpresented
        have hname := loaded_name hload
        unfold loadInto at hknown
        rw [hload] at hknown
        obtain ⟨known, hknown⟩ := Option.isSome_iff_exists.mp hknown
        rcases Batch.known?_of_rememberAll hknown with hknown | ⟨rfl, ⟨doc, hdoc, hid, -⟩ |
          ⟨hid, -⟩⟩
        · exact hb.passes type id (by rw [Batch.isMemoized, hknown]; rfl)
        · rw [hname]
          exact halone entry.1 entry.2 t docs hpresented doc hdoc id hid
        · rw [hname]
          exact (isOk_presented_iff_forall hdot (hids entry List.mem_cons_self)).mp hpasses id hid

/-- Fetches of a round have errors for the types that it fails. -/
theorem isSome_roundFailures {b : Batch} (hb : Admitted e files refusal b) (type : String) :
    ((roundFailures e files refusal b).get? type).isSome =
      e.stalls files refusal b.pending type := by
  rw [Bool.eq_iff_iff, stalls_eq_true_iff]
  constructor
  · intro h
    obtain ⟨cause, hcause⟩ := Option.isSome_iff_exists.mp h
    obtain ⟨entry, hentry, hfailure⟩ := List.mem_filterMap.mp (Keyed.mem_of_get? hcause)
    obtain rfl : type = entry.1 := refusedLoad?_type hfailure
    obtain ⟨hids, hslots⟩ := @Batch.exists_slot_of_mem_missing b.take.2 _ entry.1 entry.2 hentry
    have hsome : ¬ (e.presented refusal files entry.1 entry.2).isOk = true := fun hok => by
      rw [(refusedLoad?_eq_none_iff entry).mpr hok] at hfailure
      cases hfailure
    rw [isOk_presented_iff_forall hdot hids] at hsome
    push Not at hsome
    obtain ⟨id, hid, halone⟩ := hsome
    obtain ⟨slot, hslot, htype, hmem⟩ := hslots id hid
    exact ⟨slot, hslot, htype, id, hmem, by simpa using halone⟩
  · rintro ⟨slot, hslot, rfl, id, hid, halone⟩
    rcases Batch.isMemoized_or_mem_missing b.take.2 hslot hid with hknown | ⟨ids, hentry, hmem⟩
    · have hpasses := hb.passes slot.type id hknown
      rw [halone] at hpasses
      cases hpasses
    · have hsome : refusedLoad? e files refusal (slot.type, ids) ≠ none := fun hnone => by
        have hok := (refusedLoad?_eq_none_iff _).mp hnone
        have hpasses := (isOk_presented_iff_forall hdot (List.ne_nil_of_mem hmem)).mp hok id hmem
        rw [halone] at hpasses
        cases hpasses
      obtain ⟨failure, hfailure⟩ := Option.ne_none_iff_exists'.mp hsome
      have hmem := List.mem_filterMap.mpr ⟨_, hentry, hfailure⟩
      have hsame : (slot.type, failure.2) = failure := Prod.ext (refusedLoad?_type hfailure).symm rfl
      exact Keyed.get?_isSome_of_mem (hsame ▸ hmem)

/-- After the loads of a round every id of a slot that the round does not fail is known. -/
theorem isMemoized_roundLoads (b : Batch) {slot : Slot} (hslot : slot ∈ b.pending)
    (hstalls : e.stalls files refusal b.pending slot.type = false) {id : String}
    (hid : id ∈ slot.pointer.ids) :
    (roundLoads e files refusal b).isMemoized slot.type id = true := by
  rcases Batch.isMemoized_or_mem_missing b.take.2 hslot hid with hknown | ⟨ids, hentry, hmem⟩
  · exact loads_isMemoized hknown _
  · have hpasses : (e.presented refusal files slot.type ids).isOk = true := by
      rw [isOk_presented_iff_forall hdot (List.ne_nil_of_mem hmem)]
      intro other hother
      obtain ⟨asking, hasking, htype, hids⟩ :=
        (Batch.exists_slot_of_mem_missing b.take.2 hentry).2 other hother
      exact passes_of_not_stalls hstalls hasking htype hids
    refine loads_isMemoized_of_mem hdot (List.mem_filter.mpr ⟨hentry, hpasses⟩) ?_ hmem _
    exact isSome_contents_of_isOk hdot hpasses

theorem admitted_roundLoads (hi : e.store.Identified files) (halone : PassesAlone e files refusal)
    {b : Batch} (hb : Admitted e files refusal b) :
    Admitted e files refusal (roundLoads e files refusal b) :=
  admitted_loads hdot hi halone (b := b.take.2) ⟨hb.fresh, hb.passes⟩ fun _ hentry =>
    (Batch.exists_slot_of_mem_missing b.take.2 hentry).1

/-- A round fills its slots with stored documents, but for those that it fails. -/
theorem refusedRound_admitted (hi : e.store.Identified files)
    (halone : PassesAlone e files refusal) (data : Json) {b : Batch}
    (hb : Admitted e files refusal b) :
    (refusedRound e files refusal data b).1 =
        Direct.fillAll (e.fillingAmong files refusal b.pending) data b.pending ∧
      (refusedRound e files refusal data b).2.pending =
        b.pending.flatMap (fun slot => (e.fillingAmong files refusal b.pending slot).slots) ∧
      Admitted e files refusal (refusedRound e files refusal data b).2 := by
  have hfails := isSome_roundFailures hdot hb
  have hloaded := admitted_roundLoads hdot hi halone hb
  have hpending : (roundLoads e files refusal b).pending = [] := loads_pending _ _
  have hknown := fun slot (hslot : slot ∈ b.pending) hstalls id hid =>
    @isMemoized_roundLoads e files refusal hdot b slot hslot hstalls id hid
  unfold refusedRound
  generalize roundLoads e files refusal b = loaded at hloaded hpending hknown
  generalize roundFailures e files refusal b = failures at hfails
  -- Filling adds slots to the batch and changes nothing that it knows.
  have hfill : ∀ rest ⊆ b.pending, ∀ (data : Json) (waiting : List Slot),
      rest.foldl (fillInto e failures) (data, { loaded with pending := waiting }) =
        (Direct.fillAll (e.fillingAmong files refusal b.pending) data rest,
          { loaded with
            pending := waiting ++ rest.flatMap fun slot =>
              (e.fillingAmong files refusal b.pending slot).slots }) := by
    intro rest
    induction rest with
    | nil =>
      intro _ data waiting
      rw [List.flatMap_nil, List.append_nil]
      rfl
    | cons slot rest ih =>
      intro hsub data waiting
      rw [List.foldl_cons, @fillInto_fresh e files refusal failures b.pending slot
        (hfails slot.type) { loaded with pending := waiting } hloaded.fresh
        (hknown slot (hsub List.mem_cons_self))]
      refine (ih (fun x hx => hsub (List.mem_cons_of_mem _ hx)) _ _).trans ?_
      rw [List.flatMap_cons, ← List.append_assoc]
      rfl
  have hfilled := hfill b.pending (List.Subset.refl _) data loaded.pending
  change (b.pending.foldl (fillInto e failures) (data, loaded)).1 = _ ∧
    (b.pending.foldl (fillInto e failures) (data, loaded)).2.pending = _ ∧
    Admitted e files refusal (b.pending.foldl (fillInto e failures) (data, loaded)).2
  rw [hfilled, hpending]
  exact ⟨rfl, rfl, hloaded.fresh, hloaded.passes⟩

theorem passesAlone_never : PassesAlone e files .never := by
  intro type ids t docs h doc _ id _
  have hc := @isSome_contents_of_isOk e files .never hdot type ids (by rw [h]; rfl)
  obtain ⟨⟨u, all⟩, hc⟩ := Option.isSome_iff_exists.mp hc
  exact (isOk_presented_iff hdot).mpr ⟨u, all, hc, fun _ _ _ => rfl⟩

theorem admitted_never {b : Batch} (hb : b.Fresh e.store files) : Admitted e files .never b where
  fresh := hb
  passes type id hknown := by
    obtain ⟨found, hfound⟩ := Option.isSome_iff_exists.mp hknown
    obtain ⟨⟨u, all⟩, hc⟩ := Option.isSome_iff_exists.mp (hb type id found hfound).1
    exact (isOk_presented_iff hdot).mpr ⟨u, all, hc, fun _ _ _ => rfl⟩

theorem stalls_never (round : List Slot) (type : String) :
    e.stalls files .never round type = e.store.blocks files round type := by
  have hpasses : ∀ id, (e.presented .never files type [id]).isOk =
      (e.store.contents? files type).isSome := by
    intro id
    rw [Bool.eq_iff_iff, isOk_presented_iff hdot]
    constructor
    · rintro ⟨t, docs, hc, -⟩
      rw [hc]
      rfl
    · intro hc
      obtain ⟨⟨t, docs⟩, hc⟩ := Option.isSome_iff_exists.mp hc
      exact ⟨t, docs, hc, fun _ _ _ => rfl⟩
  unfold stalls Store.blocks
  simp only [hpasses, Option.not_isSome]
  cases (e.store.contents? files type).isNone with
  | true =>
    rw [Bool.true_and]
    congr 1
    funext slot
    cases slot.pointer.ids <;> simp
  | false => simp

theorem fillingAmong_never (round : List Slot) :
    e.fillingAmong files .never round = e.store.filling files round := by
  funext slot
  rw [fillingAmong, stalls_never hdot]
  rfl

end

/-- A round with a fresh batch fills its slots with stored documents. -/
theorem roundOf_fresh (hdot : e.schema.PlainIdentifiers) (hi : e.store.Identified files)
    (data : Json) {b : Batch} (hb : b.Fresh e.store files) :
    (roundOf e files data b).1 =
        Direct.fillAll (e.store.filling files b.pending) data b.pending ∧
      (roundOf e files data b).2.pending =
        b.pending.flatMap (fun slot => (e.store.filling files b.pending slot).slots) ∧
      (roundOf e files data b).2.Fresh e.store files := by
  have hround := refusedRound_admitted hdot hi (passesAlone_never hdot) data
    (admitted_never hdot hb)
  rw [refusedRound_never, fillingAmong_never hdot] at hround
  exact ⟨hround.1, hround.2.1, hround.2.2.fresh⟩

/-- Rounds with a fresh batch go as rounds with stored documents. -/
theorem roundsOf_fresh (hdot : e.schema.PlainIdentifiers) (hi : e.store.Identified files)
    (fuel : Nat) (data : Json) {b : Batch} (hb : b.Fresh e.store files) :
    (roundsOf e files fuel data b).1 = (e.store.settleRounds files fuel data b.pending).1 ∧
      (roundsOf e files fuel data b).2.pending =
        (e.store.settleRounds files fuel data b.pending).2 ∧
      (roundsOf e files fuel data b).2.Fresh e.store files := by
  induction fuel generalizing data b with
  | zero => exact ⟨rfl, rfl, hb⟩
  | succ fuel ih =>
    obtain ⟨hdata, hpending, hfresh⟩ := roundOf_fresh hdot hi data hb
    unfold roundsOf Store.settleRounds Batch.hasPending
    cases hempty : b.pending.isEmpty with
    | true => exact ⟨rfl, rfl, hb⟩
    | false =>
      have hrest := ih (roundOf e files data b).1 hfresh
      rw [hdata, hpending] at hrest
      simpa only [hdata, Bool.not_false, if_true, Bool.false_eq_true, if_false] using hrest

end Engine

namespace Store

variable {s : Store} {files : FileTree}

/-- Where every type can be read a slot is filled alike in every round. -/
theorem filling_eq
    (hread : ∀ type, (s.schema.type? type).isSome → (s.contents? files type).isSome)
    (round : List Slot) (slot : Slot) :
    s.filling files round slot = slot.filling s.schema (s.finder files) := by
  unfold filling
  split
  · rename_i hblocks
    have hnone : s.schema.type? slot.type = none := by
      by_contra hsome
      have hsome := hread slot.type (Option.isSome_iff_ne_none.mpr hsome)
      rw [blocks, Bool.and_eq_true] at hblocks
      rw [Option.isNone_iff_eq_none.mp hblocks.1] at hsome
      cases hsome
    rw [Slot.filling, hnone]
  · rfl

/-- Rounds that have the fuel for the largest of their slots settle them all. -/
theorem settleRounds_eq
    (hread : ∀ type, (s.schema.type? type).isSome → (s.contents? files type).isSome)
    {fuel : Nat} (data : Json) {pending : List Slot}
    (hsize : ∀ slot ∈ pending, slot.size ≤ fuel)
    (hdistinct : ∀ slot ∈ pending, slot.selection.Distinct)
    (hapart : pending.Pairwise fun a b => a.path.Diverge b.path) :
    s.settleRounds files fuel data pending =
      (Direct.settle s.schema (s.finder files) data pending, []) := by
  induction fuel generalizing data pending with
  | zero =>
    cases pending with
    | nil => rfl
    | cons slot pending =>
      have hsmall := hsize slot List.mem_cons_self
      rw [Slot.size, slot.selection.height_eq] at hsmall
      omega
  | succ fuel ih =>
    unfold settleRounds
    cases hempty : pending.isEmpty with
    | true =>
      rw [List.isEmpty_iff.mp hempty]
      rfl
    | false =>
      have hfilling : ∀ slot ∈ pending, (s.filling files pending slot).Resolves s.schema
          (s.finder files) slot.path (slot.size - 1)
            (Direct.slot s.schema (s.finder files) slot) := by
        intro slot hslot
        rw [filling_eq hread]
        exact Slot.filling_resolves s.schema _ (hdistinct slot hslot)
      rw [if_neg Bool.false_ne_true, ih, Direct.settle_round _ _ data hfilling hapart]
      · rfl
      · exact Direct.small_round _ _ hfilling hsize
      · exact Direct.distinct_round _ _ hfilling
      · exact Direct.apart_round _ _ hfilling hapart

end Store

end DocumentEngine
