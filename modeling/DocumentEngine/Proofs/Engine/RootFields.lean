import DocumentEngine.Proofs.Engine.Query

/-!
Root fields of a query. They share one list of slots and one tree of data, and a slot changes only
what stands under the key that its path starts with; so the value under a response key comes from
the root fields of that key alone. Of several root fields of one key the last gives the value, but
slots that the others left open are filled in it.
-/

namespace DocumentEngine

open Direct (fillAll)

/-- Whether filling a slot can change what stands under a key of the data. -/
def Slot.reaches (key : String) (slot : Slot) : Bool := slot.path.head?.all (· == .key key)

namespace Slot

variable {key : String} {slot : Slot}

theorem reaches_of_isPrefix {path : ResponsePath} {step : PathSegment}
    (h : step :: path <+: slot.path) : slot.reaches key = (step == .key key) := by
  obtain ⟨rest, hrest⟩ := h
  rw [reaches, ← hrest]
  rfl

/-- What is left open below a slot that does not reach a key does not reach it either. -/
theorem reaches_below {inner : Slot} (h : slot.reaches key = false)
    (hbelow : slot.path <+: inner.path) : inner.reaches key = false := by
  cases hpath : slot.path with
  | nil =>
    rw [reaches, hpath] at h
    cases h
  | cons step path =>
    rw [hpath] at hbelow
    rw [reaches_of_isPrefix hbelow, ← h, reaches, hpath]
    rfl

end Slot

namespace Json

variable {v w : Json} {key : String}

theorem get?_setAt_key (v new : Json) (name : String) (rest : ResponsePath) (key : String) :
    (v.setAt new (.key name :: rest)).get? key =
      if name = key then (v.get? key).map (·.setAt new rest) else v.get? key := by
  cases v with
  | obj members =>
    cases hname : Keyed.get? members name with
    | none =>
      simp only [setAt, hname, get?]
      split
      · rename_i heq
        rw [← heq, hname]
        rfl
      · rfl
    | some child =>
      rw [setAt_key hname, get?, Keyed.get?_insert]
      split
      · rename_i heq
        rw [← heq, get?, hname]
        rfl
      · rfl
  | _ =>
    simp only [setAt, get?]
    split <;> rfl

theorem get?_setAt_index (v new : Json) (i : Nat) (rest : ResponsePath) (key : String) :
    (v.setAt new (.index i :: rest)).get? key = v.get? key := by
  cases v with
  | arr items =>
    unfold setAt
    dsimp only
    split <;> rfl
  | _ => rfl

/-- What stands under a key after a value was put at a path depends on what stood there. -/
theorem get?_setAt_congr (h : v.get? key = w.get? key) (new : Json) (path : ResponsePath) :
    (v.setAt new path).get? key = (w.setAt new path).get? key := by
  match path with
  | [] => rfl
  | .key name :: rest => rw [get?_setAt_key, get?_setAt_key, h]
  | .index i :: rest => rw [get?_setAt_index, get?_setAt_index, h]

/-- A value put where the path does not lead below a key changes nothing under it. -/
theorem get?_setAt_of_reaches {slot : Slot} (h : slot.reaches key = false) (v new : Json) :
    (v.setAt new slot.path).get? key = v.get? key := by
  unfold Slot.reaches at h
  match hpath : slot.path with
  | [] =>
    rw [hpath] at h
    cases h
  | .key name :: rest =>
    rw [hpath] at h
    have hne : name ≠ key := by
      rintro rfl
      simp at h
    rw [get?_setAt_key, if_neg hne]
  | .index i :: rest => rw [get?_setAt_index]

end Json

namespace Direct

variable {filling : Slot → Projected} {key : String}

/-- What stands under a key after a round depends on what stood there and on the slots of the round
that reach it. -/
theorem get?_fillAll_congr {data data' : Json} {round round' : List Slot}
    (hdata : data.get? key = data'.get? key)
    (hround : round.filter (Slot.reaches key) = round'.filter (Slot.reaches key)) :
    (fillAll filling data round).get? key = (fillAll filling data' round').get? key := by
  have hskip : ∀ (round : List Slot) (data data' : Json), data.get? key = data'.get? key →
      (fillAll filling data round).get? key =
        (fillAll filling data' (round.filter (Slot.reaches key))).get? key := by
    intro round
    induction round with
    | nil => exact fun _ _ h => h
    | cons slot round ih =>
      intro data data' h
      cases hreach : slot.reaches key with
      | true =>
        rw [List.filter_cons_of_pos hreach]
        exact ih _ _ (Json.get?_setAt_congr h _ slot.path)
      | false =>
        rw [List.filter_cons_of_neg (Bool.eq_false_iff.mp hreach)]
        exact ih _ _ ((Json.get?_setAt_of_reaches hreach data _).trans h)
  rw [hskip round data data' hdata, hround, ← hskip round' data' data' rfl]

/-- The slots that reach a key after a round are left by slots that reached it. -/
theorem filter_slots_congr
    (hbelow : ∀ slot, ∀ inner ∈ (filling slot).slots, slot.path <+: inner.path)
    {round round' : List Slot}
    (hround : round.filter (Slot.reaches key) = round'.filter (Slot.reaches key)) :
    (round.flatMap fun slot => (filling slot).slots).filter (Slot.reaches key) =
      (round'.flatMap fun slot => (filling slot).slots).filter (Slot.reaches key) := by
  have hskip : ∀ round : List Slot,
      (round.flatMap fun slot => (filling slot).slots).filter (Slot.reaches key) =
        ((round.filter (Slot.reaches key)).flatMap fun slot => (filling slot).slots).filter
          (Slot.reaches key) := by
    intro round
    induction round with
    | nil => rfl
    | cons slot round ih =>
      cases hreach : slot.reaches key with
      | true =>
        rw [List.filter_cons_of_pos hreach, List.flatMap_cons, List.flatMap_cons,
          List.filter_append, List.filter_append, ih]
      | false =>
        have hnone : (filling slot).slots.filter (Slot.reaches key) = [] :=
          List.filter_eq_nil_iff.mpr fun inner hinner =>
            Bool.eq_false_iff.mp (Slot.reaches_below hreach (hbelow slot inner hinner))
        rw [List.filter_cons_of_neg (Bool.eq_false_iff.mp hreach), List.flatMap_cons,
          List.filter_append, hnone, List.nil_append, ih]
  rw [hskip round, hround, ← hskip round']

end Direct

namespace Store

variable {s : Store} {files : FileTree}

theorem settleRounds_nil (fuel : Nat) (data : Json) :
    s.settleRounds files fuel data [] = (data, []) := by
  cases fuel <;> rfl

/-- Fuel for more rounds than the largest slot needs changes nothing. -/
theorem settleRounds_of_le {fuel fuel' : Nat} (hfuel : fuel ≤ fuel') (data : Json)
    {pending : List Slot} (hsize : ∀ slot ∈ pending, slot.size ≤ fuel) :
    s.settleRounds files fuel' data pending = s.settleRounds files fuel data pending := by
  induction fuel generalizing fuel' data pending with
  | zero =>
    have hnone : pending = [] := List.eq_nil_iff_forall_not_mem.mpr fun slot hslot => by
      have hsmall := hsize slot hslot
      have hlarge := slot.two_le_size
      omega
    rw [hnone, settleRounds_nil, settleRounds_nil]
  | succ fuel ih =>
    obtain ⟨fuel', rfl⟩ : ∃ n, fuel' = n + 1 := ⟨fuel' - 1, by omega⟩
    unfold settleRounds
    refine if_congr Iff.rfl rfl (ih (by omega) _ fun inner hinner => ?_)
    obtain ⟨slot, hslot, hmem⟩ := List.mem_flatMap.mp hinner
    have hsmall := hsize slot hslot
    unfold filling at hmem
    split at hmem
    · cases hmem
    · have hless := (slot.filling_bounded s.schema (s.finder files)).small inner hmem
      omega

section

variable (hread : ∀ type, (s.schema.type? type).isSome → (s.contents? files type).isSome)

include hread

theorem settleRounds_succ (fuel : Nat) (data : Json) (pending : List Slot) :
    s.settleRounds files (fuel + 1) data pending =
      s.settleRounds files fuel
        (fillAll (fun slot => slot.filling s.schema (s.finder files)) data pending)
        (pending.flatMap fun slot => (slot.filling s.schema (s.finder files)).slots) := by
  rw [← funext (filling_eq hread pending), settleRounds]
  split
  · rename_i hempty
    rw [List.isEmpty_iff.mp hempty, List.flatMap_nil, settleRounds_nil]
    rfl
  · rfl

/-- What stands under a key after rounds depends on what stood there and on the slots that reach
it. -/
theorem get?_settleRounds_congr {key : String} {fuel : Nat} {data data' : Json}
    {pending pending' : List Slot} (hdata : data.get? key = data'.get? key)
    (hpending : pending.filter (Slot.reaches key) = pending'.filter (Slot.reaches key)) :
    (s.settleRounds files fuel data pending).1.get? key =
      (s.settleRounds files fuel data' pending').1.get? key := by
  induction fuel generalizing data data' pending pending' with
  | zero => exact hdata
  | succ fuel ih =>
    rw [settleRounds_succ hread, settleRounds_succ hread]
    refine ih (Direct.get?_fillAll_congr hdata hpending) (Direct.filter_slots_congr ?_ hpending)
    exact fun slot => (slot.filling_bounded s.schema (s.finder files)).within

end

end Store

namespace Engine

variable {e : Engine} {files : FileTree}

theorem projectRoot_bounded (e : Engine) (files : FileTree) (selection : Selection) :
    (e.projectRoot files selection).Bounded [.key selection.responseKey]
      (Projection.slotBound (Selection.heightBelow selection.selections) .stored) := by
  unfold projectRoot
  rcases e.rootDocuments files selection with cause | ⟨t, plural, docs⟩
  · exact .closed .null []
  · cases plural with
    | true => exact Projection.projectList_bounded _ t docs _ _
    | false =>
      cases docs with
      | nil => exact .closed .null []
      | cons doc docs => exact Projection.project_bounded _ t doc _ _ .stored

/-- The slots that reach a key are those of the root fields of the key. -/
theorem filter_waiting (e : Engine) (files : FileTree) (selections : List Selection)
    (key : String) :
    (e.waiting files selections).filter (Slot.reaches key) =
      e.waiting files (selections.filter (·.responseKey = key)) := by
  unfold waiting
  induction selections with
  | nil => rfl
  | cons selection selections ih =>
    have hreach : ∀ slot ∈ (e.projectRoot files selection).slots,
        slot.reaches key = (PathSegment.key selection.responseKey == .key key) := fun slot hslot =>
      Slot.reaches_of_isPrefix ((projectRoot_bounded e files selection).within slot hslot)
    rw [List.flatMap_cons, List.filter_append, ih]
    by_cases hkey : selection.responseKey = key
    · rw [List.filter_cons_of_pos (by simpa using hkey), List.flatMap_cons,
        List.filter_eq_self.mpr fun slot hslot => by simp [hreach slot hslot, hkey]]
    · rw [List.filter_cons_of_neg (by simpa using hkey),
        List.filter_eq_nil_iff.mpr fun slot hslot => by simp [hreach slot hslot, hkey],
        List.nil_append]

/-- The value that is placed under a key is that of the last root field of the key. -/
theorem get?_placed {before after : List Selection} {selection : Selection}
    (hlast : selection.responseKey ∉ after.map Selection.responseKey) :
    (e.placed files (before ++ selection :: after)).get? selection.responseKey =
      some (e.projectRoot files selection).value := by
  have hafter : selection.responseKey ∉ (after.map fun selection =>
      (selection.responseKey, (e.projectRoot files selection).value)).map Prod.fst := by
    rwa [List.map_map]
  rw [placed, Json.get?, List.map_append, List.map_cons, Keyed.ofList, List.foldl_append,
    List.foldl_cons]
  exact (Keyed.get?_union_of_notMem _ hafter).trans (Keyed.get?_insert_self ..)

theorem get?_placed_filter (e : Engine) (files : FileTree) (selections : List Selection)
    (key : String) :
    (e.placed files selections).get? key =
      (e.placed files (selections.filter (·.responseKey = key))).get? key := by
  have hkeys : (selections.map fun selection =>
      (selection.responseKey, (e.projectRoot files selection).value)).filter (·.1 = key) =
        (selections.filter (·.responseKey = key)).map fun selection =>
          (selection.responseKey, (e.projectRoot files selection).value) := by
    rw [List.filter_map]
    rfl
  have hfilter := @Keyed.get?_union_filter Json [] [] key rfl
    (selections.map fun selection =>
      (selection.responseKey, (e.projectRoot files selection).value))
  rwa [hkeys] at hfilter

/-- Queries give the same under a key where they place the same there and leave the same slots that
reach it. -/
theorem query_get?_congr (e : Engine) (requestId requestId' : String) {request request' : Request}
    (state : State) (he : e.ReadsPlainly) (hdot : e.schema.PlainIdentifiers)
    (hid : e.store.Identified state.files)
    (hread : ∀ type, (e.schema.type? type).isSome → (e.store.contents? state.files type).isSome)
    (hkind : request.kind = .query) (hkind' : request'.kind = .query) {key : String}
    (hplaced : (e.placed state.files request.selections).get? key =
      (e.placed state.files request'.selections).get? key)
    (hwaiting : (e.waiting state.files request.selections).filter (Slot.reaches key) =
      (e.waiting state.files request'.selections).filter (Slot.reaches key)) :
    ((e.executeRequest requestId request).run state).1.data.get? key =
      ((e.executeRequest requestId' request').run state).1.data.get? key := by
  rw [(query_settleRounds e requestId request state he hdot hid hkind).1,
    (query_settleRounds e requestId' request' state he hdot hid hkind').1]
  -- Both run with fuel for all their slots, so both may be given the fuel of both.
  rw [← Store.settleRounds_of_le (le_max_left _ (Batch.rounds
      ⟨e.waiting state.files request'.selections, []⟩)) _ fun slot hslot =>
        size_le_rounds (b := ⟨e.waiting state.files request.selections, []⟩) hslot,
    ← Store.settleRounds_of_le (le_max_right (Batch.rounds
      ⟨e.waiting state.files request.selections, []⟩) _) _ fun slot hslot =>
        size_le_rounds (b := ⟨e.waiting state.files request'.selections, []⟩) hslot]
  exact Store.get?_settleRounds_congr hread hplaced hwaiting

/-- The value of a query under a response key comes from the root fields of that key alone. It is
the value of the last of them executed alone, unless one that it overwrites left slots open. -/
theorem query_root_apart (e : Engine) (requestId requestId' : String) (request : Request)
    (state : State) (he : e.ReadsPlainly) (hdot : e.schema.PlainIdentifiers)
    (hid : e.store.Identified state.files)
    (hread : ∀ type, (e.schema.type? type).isSome → (e.store.contents? state.files type).isSome)
    (hkind : request.kind = .query) (key : String) :
    let data := ((e.executeRequest requestId request).run state).1.data
    let dataOf (selections : List Selection) :=
      ((e.executeRequest requestId' { request with selections := selections }).run state).1.data
    data.get? key = (dataOf (request.selections.filter (·.responseKey = key))).get? key ∧
      ∀ before selection after, request.selections = before ++ selection :: after →
        selection.responseKey = key → key ∉ after.map Selection.responseKey →
        (∀ other ∈ before, other.responseKey = key →
          (e.projectRoot state.files other).slots = []) →
        data.get? key = (dataOf [selection]).get? key := by
  intro data dataOf
  have hcongr := fun selections => @query_get?_congr e requestId requestId' request
    { request with selections := selections } state he hdot hid hread hkind hkind key
  constructor
  · refine hcongr _ (get?_placed_filter e state.files request.selections key) ?_
    rw [filter_waiting, filter_waiting, List.filter_filter]
    simp only [Bool.and_self]
  · rintro before selection after hsplit rfl hlast hclosed
    refine hcongr _ ?_ ?_
    · have halone := @get?_placed e state.files [] [] selection List.not_mem_nil
      rw [hsplit, get?_placed hlast]
      exact halone.symm
    · have hnone : after.filter (·.responseKey = selection.responseKey) = [] :=
        List.filter_eq_nil_iff.mpr fun other hother => by
          have hne : other.responseKey ≠ selection.responseKey := fun h =>
            hlast (h ▸ List.mem_map_of_mem hother)
          simpa using hne
      have hbefore : e.waiting state.files
          (before.filter (·.responseKey = selection.responseKey)) = [] :=
        List.flatMap_eq_nil_iff.mpr fun other hother => by
          obtain ⟨hmem, hkey⟩ := List.mem_filter.mp hother
          exact hclosed other hmem (by simpa using hkey)
      rw [filter_waiting, filter_waiting, hsplit, List.filter_append,
        List.filter_cons_of_pos (by simp), List.filter_cons_of_pos (by simp), hnone]
      unfold waiting at hbefore ⊢
      rw [List.flatMap_append, hbefore, List.nil_append, List.filter_nil]

section

/-- Employees of provinces. -/
private def assigned : Schema where
  types := [
    { name := "Empleado"
      fields := [.ofIdentifier "id", .ofReference "provincia" "Provincia"] },
    { name := "Provincia"
      fields := [.ofIdentifier "id", .ofScalar "nombre" .string] }]

/-- An employee of a province. -/
private def post : FileTree :=
  ⟨[(["data"], .directory), (["data", "Empleado"], .directory), (["data", "Provincia"], .directory),
    (["data", "Empleado", "e1"],
      .file (some "\x7b\"id\": \"e1\", \"provincia_id\": \"p1\"\x7d")),
    (["data", "Provincia", "p1"],
      .file (some "\x7b\"id\": \"p1\", \"nombre\": \"Salta\"\x7d"))]⟩

/-- All employees under a key. -/
private def employees (selections : List Selection) : Selection :=
  .field (some "x") "empleados" [] selections

/-- The provinces of employees with their names. -/
private def named : Selection := .field none "provincia" [] [.field none "nombre" [] []]

/-- A field whose value is overwritten before its slot is filled gets the slot filled in the value
that overwrote its own. -/
theorem exists_query_root_disturbed :
    ∃ (e : Engine) (request : Request) (state : State) (before : List Selection)
        (selection : Selection), e.schema.check.isOk = true ∧ e.Bare ∧ e.store.Named state.files ∧
      request.kind = .query ∧ request.selections = before ++ [selection] ∧
      ((e.executeRequest "r" request).run state).1.data.get? selection.responseKey ≠
        ((e.executeRequest "r" { request with selections := [selection] }).run state).1.data.get?
          selection.responseKey := by
  refine ⟨bare ⟨"/data"⟩ assigned ⟨"default", []⟩,
    ⟨.query, none, [employees [named],
      employees [.field none "id" [] [], .field none "provincia" [] []]]⟩,
    { files := post }, [employees [named]], _, by decide +kernel, bare_bare _ _ _,
    Store.named_of_isTypeNamed (by decide +kernel), rfl, rfl, ?_⟩
  intro h
  have htexts := congrArg (Option.map Json.compact) h
  revert htexts
  decide +kernel

theorem query_root_apart_employees :
    ((((bare ⟨"/data"⟩ assigned ⟨"default", []⟩).executeRequest "r"
        ⟨.query, none, [employees [.field none "id" [] []], employees [named]]⟩).run
          { files := post }).1.data.get? "x") =
      (((bare ⟨"/data"⟩ assigned ⟨"default", []⟩).executeRequest "s"
        ⟨.query, none, [employees [named]]⟩).run { files := post }).1.data.get? "x" := by
  have hnamed : (bare ⟨"/data"⟩ assigned ⟨"default", []⟩).store.Named post :=
    Store.named_of_isTypeNamed (by decide +kernel)
  refine (query_root_apart (bare ⟨"/data"⟩ assigned ⟨"default", []⟩) "r" "s"
    ⟨.query, none, [employees [.field none "id" [] []], employees [named]]⟩ { files := post }
    (bare_bare _ _ _).readsPlainly (by unfold Schema.PlainIdentifiers; decide) hnamed.identified
    (fun _ => hnamed.readable) rfl "x").2 [employees [.field none "id" [] []]] (employees [named]) []
    rfl rfl List.not_mem_nil fun other hother _ => ?_
  rw [List.mem_singleton.mp hother]
  decide +kernel

end

end Engine

end DocumentEngine
