import DocumentEngine.Proofs.Engine.Agreement
import DocumentEngine.Proofs.Engine.Query

/-!
Mutations of one request against the same mutations in requests of their own. The store ends the
same in any case. A field has the value that it has by itself where the batch that the fields before
it leave is fresh once the field has changed the store; and only a fresh batch leaves what a flush
gives as it is.
-/

namespace DocumentEngine

open Action

theorem Json.setAt_insert (members : Document) (key : String) (v w : Json) (rest : ResponsePath) :
    (Json.obj (members.insert key v)).setAt w (.key key :: rest) =
      .obj (members.insert key (v.setAt w rest)) := by
  rw [Json.setAt_key (Keyed.get?_insert_self members key v), Keyed.insert_insert]

namespace Engine

variable {e : Engine} {requestId : String} {files : FileTree}

theorem fillInto_pending {failures : Keyed EngineError} {found : Json × Batch} {outer slot : Slot}
    (h : slot ∈ (fillInto e failures found outer).2.pending) :
    slot ∈ found.2.pending ∨ outer.path <+: slot.path ∧ slot.size < outer.size := by
  unfold fillInto at h
  split at h
  · exact .inl h
  · dsimp only at h
    rw [Batch.foldl_defer, List.mem_append] at h
    refine h.imp_right fun h => ?_
    have hbounded := found.2.fill_bounded e.schema outer
    have hsmall := hbounded.small slot h
    have hsize := outer.two_le_size
    exact ⟨hbounded.within slot h, by omega⟩

/-- The slots that a round leaves are below slots of the round and smaller. -/
theorem roundOf_pending {data : Json} {b : Batch} {slot : Slot}
    (h : slot ∈ (roundOf e files data b).2.pending) :
    ∃ outer ∈ b.pending, outer.path <+: slot.path ∧ slot.size < outer.size := by
  have hfold : ∀ (failures : Keyed EngineError) (round : List Slot) (found : Json × Batch),
      slot ∈ (round.foldl (fillInto e failures) found).2.pending → slot ∈ found.2.pending ∨
        ∃ outer ∈ round, outer.path <+: slot.path ∧ slot.size < outer.size := by
    intro failures round
    induction round with
    | nil => exact fun found h => .inl h
    | cons outer round ih =>
      intro found h
      rcases ih _ h with h | ⟨outer', houter', hrest⟩
      · exact (fillInto_pending h).imp_right fun h => ⟨outer, List.mem_cons_self, h⟩
      · exact .inr ⟨outer', List.mem_cons_of_mem _ houter', hrest⟩
  rcases hfold _ _ _ h with h | h
  · rw [loads_pending] at h
    cases h
  · exact h

/-- A round under a root key changes nothing but the value there, in the same way whatever stands
beside it. -/
theorem roundOf_insert (e : Engine) (files : FileTree) {key : String} (v : Json) {b : Batch}
    (hb : ∀ slot ∈ b.pending, [.key key] <+: slot.path) :
    ∃ v' c, ∀ members : Document, roundOf e files (.obj (members.insert key v)) b =
      (.obj (members.insert key v'), c) := by
  have hfold : ∀ (failures : Keyed EngineError) (round : List Slot),
      (∀ slot ∈ round, [.key key] <+: slot.path) → ∀ (v : Json) (c : Batch),
        ∃ v' c', ∀ members : Document,
          round.foldl (fillInto e failures) (.obj (members.insert key v), c) =
            (.obj (members.insert key v'), c') := by
    intro failures round
    induction round with
    | nil => exact fun _ v c => ⟨v, c, fun _ => rfl⟩
    | cons slot round ih =>
      intro hround v c
      obtain ⟨rest, hrest⟩ := hround slot List.mem_cons_self
      have hone : ∃ w c', ∀ members : Document,
          fillInto e failures (.obj (members.insert key v), c) slot =
            (.obj (members.insert key w), c') := by
        unfold fillInto
        rw [← hrest, List.singleton_append]
        cases failures.get? slot.type with
        | some cause => exact ⟨v.setAt .null rest, c, fun members => by rw [Json.setAt_insert]⟩
        | none =>
          refine ⟨v.setAt (c.fill e.schema slot).value rest,
            (c.fill e.schema slot).slots.foldl Batch.defer c, fun members => ?_⟩
          dsimp only
          rw [Json.setAt_insert]
      obtain ⟨w, c', hw⟩ := hone
      obtain ⟨v', c'', hv'⟩ := ih (fun other hother => hround other (List.mem_cons_of_mem _ hother))
        w c'
      refine ⟨v', c'', fun members => ?_⟩
      rw [List.foldl_cons, hw, hv']
  obtain ⟨v', c, hv'⟩ := hfold ((b.take.2.missing b.take.1).filterMap (loadFailure? e files))
    b.take.1 hb v ((b.take.2.missing b.take.1).foldl (loadInto e files) b.take.2)
  exact ⟨v', c, hv'⟩

/-- Rounds under a root key change nothing but the value there, and with the fuel for the largest
slot none is left. -/
theorem roundsOf_insert (e : Engine) (files : FileTree) {key : String} (fuel : Nat) (v : Json)
    {b : Batch} (hb : ∀ slot ∈ b.pending, [.key key] <+: slot.path)
    (hsize : ∀ slot ∈ b.pending, slot.size ≤ fuel) :
    ∃ v' c, c.pending = [] ∧ ∀ members : Document,
      roundsOf e files fuel (.obj (members.insert key v)) b = (.obj (members.insert key v'), c) := by
  induction fuel generalizing v b with
  | zero =>
    refine ⟨v, b, List.eq_nil_iff_forall_not_mem.mpr fun slot hslot => ?_, fun _ => rfl⟩
    have hsmall := hsize slot hslot
    have hlarge := slot.two_le_size
    omega
  | succ fuel ih =>
    unfold roundsOf
    by_cases hpending : b.hasPending = true
    · obtain ⟨w, c, hw⟩ := roundOf_insert e files v hb
      have hinner : ∀ slot ∈ c.pending, ∃ outer ∈ b.pending,
          outer.path <+: slot.path ∧ slot.size < outer.size := by
        intro slot hslot
        have hround := hw []
        exact @roundOf_pending e files _ b _ (by rw [hround]; exact hslot)
      obtain ⟨v', c', hdone, hv'⟩ := ih w (b := c)
        (fun slot hslot => by
          obtain ⟨outer, houter, hpre, -⟩ := hinner slot hslot
          exact (hb outer houter).trans hpre)
        (fun slot hslot => by
          obtain ⟨outer, houter, -, hless⟩ := hinner slot hslot
          have hbound := hsize outer houter
          omega)
      refine ⟨v', c', hdone, fun members => ?_⟩
      rw [if_pos hpending, hw, hv']
    · refine ⟨v, b, ?_, fun _ => by rw [if_neg hpending]⟩
      simpa [Batch.hasPending] using hpending

/-- The value under a root key after the slots of a projection are settled with what a batch knows,
and the batch that this leaves. -/
def settleRoot (e : Engine) (files : FileTree) (key : String) (p : Projected)
    (memo : Keyed (Keyed (Option Document))) : Json × Batch :=
  let b : Batch := ⟨p.slots, memo⟩
  let found := roundsOf e files b.rounds (.obj [(key, p.value)]) b
  ((found.1.get? key).getD .null, found.2)

theorem settleRoot_spec (e : Engine) (files : FileTree) {key : String} {p : Projected} {size : Nat}
    (hp : p.Bounded [.key key] size) (memo : Keyed (Keyed (Option Document)))
    (members : Document) :
    roundsOf e files (Batch.rounds ⟨p.slots, memo⟩) (.obj (members.insert key p.value))
        ⟨p.slots, memo⟩ =
      (.obj (members.insert key (settleRoot e files key p memo).1),
        (settleRoot e files key p memo).2) ∧
      (settleRoot e files key p memo).2.pending = [] := by
  obtain ⟨v, c, hdone, hv⟩ := roundsOf_insert e files (Batch.rounds ⟨p.slots, memo⟩) p.value
    (b := ⟨p.slots, memo⟩) hp.within (fun slot hslot => size_le_rounds (b := ⟨p.slots, memo⟩) hslot)
  have halone : settleRoot e files key p memo = (v, c) := by
    have hempty : roundsOf e files (Batch.rounds ⟨p.slots, memo⟩) (.obj [(key, p.value)])
        ⟨p.slots, memo⟩ = (.obj (Keyed.insert [] key v), c) := hv []
    have hthere : (Json.obj (Keyed.insert [] key v)).get? key = some v :=
      Keyed.get?_insert_self [] key v
    unfold settleRoot
    dsimp only
    rw [hempty, hthere]
    rfl
  rw [halone]
  exact ⟨hv members, hdone⟩

/-- What a root field of a mutation gives, null where it fails, and the state that it leaves. -/
def mutated (e : Engine) (requestId : String) (selection : Selection) (state : State) :
    Projected × State :=
  let found := exec (e.resolveMutation requestId selection [.key selection.responseKey]) state
  (found.1.toOption.getD ⟨.null, [], []⟩, found.2)

theorem mutated_agree (he : e.Bare) (requestId requestId' : String) (selection : Selection)
    {a b : State} (h : a.Alike b) :
    (mutated e requestId selection a).1 = (mutated e requestId' selection b).1 ∧
      (mutated e requestId selection a).2.Alike (mutated e requestId' selection b).2 := by
  obtain ⟨hvalue, hstate⟩ := @resolveMutation_agree e requestId requestId'
    he selection [.key selection.responseKey] a b h
  unfold mutated
  dsimp only
  rw [hvalue]
  exact ⟨rfl, hstate⟩

theorem runMutation_bounded {t : DocumentType} {op : Operation} {selection : Selection}
    {path : ResponsePath} {state state' : State} {p : Projected}
    (h : exec (e.runMutation requestId t op selection path) state = (.ok p, state')) :
    p.Bounded path (2 * selection.height) := by
  have hwrite : ∀ {state' : State}, exec (do
      let doc ← e.write requestId t op selection.arguments
      return Projection.project e.schema t doc selection.selections path .stored) state =
        (.ok p, state') → p.Bounded path (2 * selection.height) := by
    intro state' h
    obtain ⟨doc, between, -, hdoc⟩ := exec_bind_eq_ok h
    cases hdoc
    refine (Projection.project_bounded e.schema t doc _ path .stored).mono ?_
    simp only [Projection.slotBound, selection.height_eq, reduceCtorEq, if_false]
    omega
  unfold runMutation at h
  cases hop : op.context with
  | delete =>
    rw [hop] at h
    obtain ⟨-, between, -, hdone⟩ := exec_bind_eq_ok h
    cases hdone
    exact .closed _ []
  | create =>
    rw [hop] at h
    exact hwrite h
  | modify =>
    rw [hop] at h
    exact hwrite h

theorem mutated_bounded (e : Engine) (requestId : String) (selection : Selection) (state : State) :
    (mutated e requestId selection state).1.Bounded [.key selection.responseKey]
      (2 * selection.height) := by
  unfold mutated
  dsimp only
  rcases hfound : exec (e.resolveMutation requestId selection [.key selection.responseKey]) state
    with ⟨result, state'⟩
  cases result with
  | error cause => exact .closed .null []
  | ok p =>
    unfold resolveMutation at hfound
    cases hentry : e.mutations.get? selection.name with
    | none =>
      rw [hentry] at hfound
      cases hfound
    | some entry =>
      rw [hentry] at hfound
      obtain ⟨t, between, -, hrest⟩ := exec_bind_eq_ok hfound
      obtain ⟨outcome, after, houtcome, hdone⟩ := exec_bind_eq_ok hrest
      cases outcome with
      | error cause =>
        obtain ⟨-, reported, -, hthrown⟩ := exec_bind_eq_ok hdone
        cases hthrown
      | ok p' =>
        cases hdone
        rw [exec_outcome] at houtcome
        simp only [Prod.mk.injEq, Except.ok.injEq] at houtcome
        exact runMutation_bounded (Prod.ext houtcome.1 houtcome.2)

/-- A root field of a mutation changes the store, then puts the settled value of its projection
under its key. -/
theorem after_addRoot (he : e.Bare) (members : Document) (selection : Selection)
    {r : Resolution} {state : State} (hr : r.batch.pending = []) :
    let m := mutated e requestId selection state
    let settled := settleRoot e m.2.files selection.responseKey m.1 r.batch.memo
    (after (e.addRoot requestId .mutation members selection) r state).1.1 =
        members.insert selection.responseKey settled.1 ∧
      (after (e.addRoot requestId .mutation members selection) r state).1.2.batch = settled.2 ∧
      settled.2.pending = [] ∧
      (after (e.addRoot requestId .mutation members selection) r state).2.Alike m.2 := by
  intro m settled
  have hsettled := settleRoot_spec e m.2.files (mutated_bounded e requestId selection state)
    r.batch.memo members
  -- What follows the mutation changes nothing more of the store.
  let finish (result : Except EngineError Projected) : ResolutionM Document := do
    let value ← takeOver requestId [.key selection.responseKey] result
    return (← e.flush requestId (.obj (members.insert selection.responseKey value))).obj?.getD []
  have hfinish : Yields (finish (exec (e.resolveMutation requestId selection
      [.key selection.responseKey]) state).1) r m.2
        (members.insert selection.responseKey settled.1) settled.2 := by
    have htaken := (@Reports.of_takeOver r m.2 requestId
      [.key selection.responseKey] (exec (e.resolveMutation requestId selection
        [.key selection.responseKey]) state).1).toYields
    rw [hr, List.nil_append] at htaken
    refine .of_bind htaken fun r' state' hr' halike => ?_
    have hflush := @yields_flush e requestId r' state'
      he.readsPlainly (.obj (members.insert selection.responseKey m.1.value))
    rw [hr', halike.files] at hflush
    obtain ⟨hdata, hbatch⟩ := Prod.ext_iff.mp hsettled.1
    have hthen : Yields (e.flush requestId
        (.obj (members.insert selection.responseKey m.1.value))) r' state'
          (.obj (members.insert selection.responseKey settled.1)) settled.2 :=
      ⟨hflush.value_eq.trans hdata, hflush.batch_eq.trans hbatch, hflush.alike⟩
    refine .of_bind hthen fun r'' state'' hr'' _ => ?_
    rw [← hr'']
    exact .of_pure _
  have hafter : after (e.addRoot requestId .mutation members selection) r state =
      after (finish (exec (e.resolveMutation requestId selection
        [.key selection.responseKey]) state).1) r m.2 := by
    unfold addRoot
    rw [resolveRoot_eq]
    rfl
  rw [hafter]
  exact ⟨hfinish.value_eq, hfinish.batch_eq, hsettled.2, hfinish.alike⟩

/-- Root fields of mutations in requests of their own, one after the other. -/
def separately (e : Engine) (fields : List (String × Selection)) (state : State) :
    List Response × State :=
  (fields.mapM fun field => e.executeRequest field.1 ⟨.mutation, none, [field.2]⟩).run state

/-- The data and the batch after root fields of one mutation request, and the state. -/
def together (e : Engine) (requestId : String) (selections : List Selection)
    (members : Document) (r : Resolution) (state : State) : (Document × Resolution) × State :=
  after (selections.foldlM (e.addRoot requestId .mutation) members) r state

theorem separately_cons (e : Engine) (field : String × Selection)
    (fields : List (String × Selection)) (state : State) :
    separately e (field :: fields) state =
      let first := (e.executeRequest field.1 ⟨.mutation, none, [field.2]⟩).run state
      let rest := separately e fields first.2
      (first.1 :: rest.1, rest.2) := by
  unfold separately
  rw [List.mapM_cons]
  rfl

theorem separately_append (e : Engine) (fields others : List (String × Selection))
    (state : State) :
    separately e (fields ++ others) state =
      let first := separately e fields state
      let rest := separately e others first.2
      (first.1 ++ rest.1, rest.2) := by
  induction fields generalizing state with
  | nil => rfl
  | cons field fields ih =>
    rw [List.cons_append, separately_cons, separately_cons]
    dsimp only
    rw [ih]
    rfl

theorem length_separately (e : Engine) (fields : List (String × Selection)) (state : State) :
    (separately e fields state).1.length = fields.length := by
  induction fields generalizing state with
  | nil => rfl
  | cons field fields ih =>
    rw [separately_cons, List.length_cons, List.length_cons, ih]

theorem together_cons (e : Engine) (requestId : String) (selection : Selection)
    (selections : List Selection) (members : Document) (r : Resolution) (state : State) :
    together e requestId (selection :: selections) members r state =
      let first := after (e.addRoot requestId .mutation members selection) r state
      together e requestId selections first.1.1 first.1.2 first.2 := by
  unfold together
  rw [List.foldlM_cons]
  rfl

theorem together_append (e : Engine) (requestId : String) (selections others : List Selection)
    (members : Document) (r : Resolution) (state : State) :
    together e requestId (selections ++ others) members r state =
      let first := together e requestId selections members r state
      together e requestId others first.1.1 first.1.2 first.2 := by
  unfold together
  rw [List.foldlM_append]
  rfl

theorem rounds_of_pending {b : Batch} (h : b.pending = []) : b.rounds = 0 := by
  rw [Batch.rounds, h]
  rfl

/-- The root fields of a mutation request leave no slot to the end of it. -/
theorem executeRequest_mutation (he : e.Bare) (name : Option String)
    (selections : List Selection) (state : State)
    (hpending : (together e requestId selections [] {} state).1.2.batch.pending = []) :
    ((e.executeRequest requestId ⟨.mutation, name, selections⟩).run state).1.data =
        .obj (together e requestId selections [] {} state).1.1 ∧
      ((e.executeRequest requestId ⟨.mutation, name, selections⟩).run state).2.Alike
        (together e requestId selections [] {} state).2 := by
  generalize hfields : together e requestId selections [] {} state = fields at hpending
  have hflush := @yields_flush e requestId fields.1.2 fields.2
    he.readsPlainly (.obj fields.1.1)
  rw [rounds_of_pending hpending] at hflush
  have hall : after (e.resolveAll requestId ⟨.mutation, name, selections⟩) {} state =
      after (e.flush requestId (.obj fields.1.1)) fields.1.2 fields.2 := by
    rw [← hfields]
    rfl
  have hrun : ((e.executeRequest requestId ⟨.mutation, name, selections⟩).run state).1.data =
      (after (e.resolveAll requestId ⟨.mutation, name, selections⟩) {} state).1.1 := rfl
  have hlogged : ((e.executeRequest requestId ⟨.mutation, name, selections⟩).run state).2.Alike
      (after (e.resolveAll requestId ⟨.mutation, name, selections⟩) {} state).2 := ⟨rfl, rfl⟩
  rw [hall] at hrun hlogged
  rw [hrun, hflush.value_eq]
  exact ⟨rfl, hlogged.trans hflush.alike⟩

/-- A root field of a mutation in a request of its own. -/
theorem executeRequest_field (he : e.Bare) (field : String × Selection) (state : State) :
    let m := mutated e field.1 field.2 state
    ((e.executeRequest field.1 ⟨.mutation, none, [field.2]⟩).run state).1.data =
        .obj [(field.2.responseKey, (settleRoot e m.2.files field.2.responseKey m.1 []).1)] ∧
      ((e.executeRequest field.1 ⟨.mutation, none, [field.2]⟩).run state).2.Alike m.2 := by
  intro m
  obtain ⟨hdata, hbatch, hpending, halike⟩ :=
    @after_addRoot e field.1 he [] field.2 {} state rfl
  have htogether : together e field.1 [field.2] [] {} state =
      after (e.addRoot field.1 .mutation [] field.2) {} state := by
    rw [together_cons]
    rfl
  rw [← htogether] at hdata hbatch halike
  obtain ⟨hvalue, hstate⟩ := executeRequest_mutation he none [field.2] state
    (by rw [hbatch]; exact hpending)
  rw [hvalue, hdata]
  exact ⟨rfl, hstate.trans halike⟩

/-- The root fields of one request leave the store as they do in requests of their own, leave no
slot open, and change no value under another key. -/
theorem together_spec (he : e.Bare) (fields : List (String × Selection)) (members : Document)
    {r : Resolution} {a b : State} (hr : r.batch.pending = []) (h : a.Alike b) :
    let joint := together e requestId (fields.map Prod.snd) members r a
    joint.1.2.batch.pending = [] ∧ joint.2.Alike (separately e fields b).2 ∧
      ∀ key ∉ fields.map fun field => field.2.responseKey, joint.1.1.get? key = members.get? key := by
  induction fields generalizing members r a b with
  | nil => exact ⟨hr, h, fun _ _ => rfl⟩
  | cons field fields ih =>
    intro joint
    obtain ⟨hdata, hbatch, hpending, halike⟩ :=
      @after_addRoot e requestId he members field.2 _ a hr
    have hown := (executeRequest_field he field b).2
    have hboth := (mutated_agree he requestId field.1 field.2 h).2
    obtain ⟨hrest, hstate, hkeys⟩ := ih
      (after (e.addRoot requestId .mutation members field.2) r a).1.1
      (hbatch ▸ hpending) ((halike.trans hboth).trans hown.symm)
    have hjoint : joint = together e requestId (fields.map Prod.snd)
        (after (e.addRoot requestId .mutation members field.2) r a).1.1
        (after (e.addRoot requestId .mutation members field.2) r a).1.2
        (after (e.addRoot requestId .mutation members field.2) r a).2 := together_cons ..
    rw [hjoint, separately_cons]
    refine ⟨hrest, hstate, fun key hkey => ?_⟩
    rw [List.map_cons, List.mem_cons, not_or] at hkey
    rw [hkeys key hkey.2, hdata, Keyed.get?_insert_of_ne _ _ (Ne.symm hkey.1)]

/-- With a fresh batch a projection settles as with an empty one. -/
theorem settleRoot_fresh (hdot : e.schema.PlainIdentifiers) (hi : e.store.Identified files)
    (key : String) (p : Projected) {memo : Keyed (Keyed (Option Document))}
    (hfresh : Batch.Fresh e.store files ⟨[], memo⟩) :
    (settleRoot e files key p memo).1 = (settleRoot e files key p []).1 := by
  have hmemo := (roundsOf_fresh hdot hi (Batch.rounds ⟨p.slots, memo⟩) (.obj [(key, p.value)])
    (b := ⟨p.slots, memo⟩) hfresh).1
  have hnone := (roundsOf_fresh hdot hi (Batch.rounds ⟨p.slots, []⟩) (.obj [(key, p.value)])
    (b := ⟨p.slots, []⟩) (Batch.fresh_of_memo_nil _ _ rfl)).1
  have hrounds : Batch.rounds ⟨p.slots, memo⟩ = Batch.rounds ⟨p.slots, []⟩ := rfl
  unfold settleRoot
  dsimp only
  rw [hmemo, hnone, hrounds]

/-- A root field has the value in a request that it has in a request of its own, if the batch that
the fields before it leave knows nothing, or is fresh once the field has changed the store. -/
theorem field_value (he : e.Bare) {before after : List (String × Selection)} {field : String × Selection} (state : State)
    (hkeys : ((before ++ field :: after).map fun field => field.2.responseKey).Nodup)
    (hkept : (together e requestId (before.map Prod.snd) [] {} state).1.2.batch.memo = [] ∨
      e.schema.PlainIdentifiers ∧
        e.store.Identified (separately e (before ++ [field]) state).2.files ∧
        Batch.Fresh e.store (separately e (before ++ [field]) state).2.files
          (together e requestId (before.map Prod.snd) [] {} state).1.2.batch) :
    ∃ response v, (separately e (before ++ field :: after) state).1[before.length]? = some response ∧
      response.data.get? field.2.responseKey = some v ∧
      (together e requestId ((before ++ field :: after).map Prod.snd) [] {} state).1.1.get?
        field.2.responseKey = some v := by
  obtain ⟨hpending, hstate, -⟩ := @together_spec e requestId he before []
    {} state _ rfl (.refl state)
  have hlength := length_separately e before state
  rw [separately_append] at hkept ⊢
  rw [List.map_append, List.map_cons, together_append]
  dsimp only at hkept ⊢
  generalize together e requestId (before.map Prod.snd) [] {} state = earlier at *
  generalize separately e before state = alone at *
  obtain ⟨hdata, hbatch, hdone, halike⟩ :=
    @after_addRoot e requestId he earlier.1.1 field.2 _ earlier.2 hpending
  obtain ⟨hvalue, hown⟩ := executeRequest_field he field alone.2
  obtain ⟨hsame, hboth⟩ := mutated_agree he requestId field.1 field.2 hstate
  have hafter : field.2.responseKey ∉ after.map fun field => field.2.responseKey := by
    rw [List.map_append, List.map_cons] at hkeys
    exact (List.nodup_cons.mp (List.nodup_append.mp hkeys).2.1).1
  have hlater := (@together_spec e requestId he after
    (Engine.after (e.addRoot requestId .mutation earlier.1.1 field.2) earlier.1.2 earlier.2).1.1
    _ _ _ (hbatch ▸ hdone) halike).2.2 _ hafter
  have hfiles : (separately e [field] alone.2).2.files =
      (mutated e requestId field.2 earlier.2).2.files := by
    rw [separately_cons]
    exact (hown.trans hboth.symm).files
  rw [hfiles] at hkept
  have hsettled : (settleRoot e (mutated e requestId field.2 earlier.2).2.files field.2.responseKey
      (mutated e requestId field.2 earlier.2).1 earlier.1.2.batch.memo).1 =
    (settleRoot e (mutated e requestId field.2 earlier.2).2.files field.2.responseKey
      (mutated e requestId field.2 earlier.2).1 []).1 := by
    rcases hkept with hempty | ⟨hdot, hi, hfresh⟩
    · rw [hempty]
    · exact settleRoot_fresh hdot hi _ _ hfresh
  refine ⟨((e.executeRequest field.1 ⟨.mutation, none, [field.2]⟩).run alone.2).1,
    (settleRoot e (mutated e field.1 field.2 alone.2).2.files field.2.responseKey
      (mutated e field.1 field.2 alone.2).1 []).1, ?_, ?_, ?_⟩
  · rw [separately_cons, List.getElem?_append_right (by rw [hlength]), hlength, Nat.sub_self]
    rfl
  · rw [hvalue]
    exact if_pos rfl
  · rw [together_cons, hlater, hdata, Keyed.get?_insert_self, hsettled, hsame, hboth.files]

/-- A slot for the documents of one id, as they are stored. -/
def wholeSlot (type id : String) : Slot :=
  ⟨[.key "whole"], type, .many [id], .field none "whole" [] [], .relation⟩

theorem filling_wholeSlot {s : Schema} {type : String} {t : DocumentType}
    (ht : s.type? type = some t) (find : Finder) (id : String) :
    (wholeSlot type id).filling s find = ⟨.arr ((find type id).toList.map .obj), [], []⟩ := by
  have hname := Projection.type?_name s ht
  unfold Slot.filling wholeSlot
  dsimp only
  rw [ht]
  dsimp only
  rw [hname, List.filterMap_cons]
  cases find type id <;> rfl

/-- A flush with a batch that knows an id shows what the batch knows. -/
theorem roundsOf_wholeSlot {type id : String} {t : DocumentType}
    (ht : e.schema.type? type = some t) {memo : Keyed (Keyed (Option Document))}
    (hknown : Batch.isMemoized ⟨[], memo⟩ type id = true) :
    (roundsOf e files 2 (.obj [("whole", .null)]) ⟨[wholeSlot type id], memo⟩).1 =
      .obj [("whole", .arr ((Batch.lookup ⟨[], memo⟩ type id).toList.map .obj))] := by
  have hmissing : Batch.missing ⟨[], memo⟩ [wholeSlot type id] = [] := by
    have hnone : ([id].filter fun id => !Batch.isMemoized ⟨[], memo⟩ type id) = [] := by
      rw [List.filter_cons, hknown]
      rfl
    unfold Batch.missing Batch.addMissing wholeSlot
    simp only [List.foldl_cons, List.foldl_nil, Pointer.ids, hnone]
    rfl
  have hround : roundOf e files (.obj [("whole", .null)]) ⟨[wholeSlot type id], memo⟩ =
      (.obj [("whole", .arr ((Batch.lookup ⟨[], memo⟩ type id).toList.map .obj))], ⟨[], memo⟩) := by
    have hfill : Batch.fill ⟨[], memo⟩ e.schema (wholeSlot type id) =
        ⟨.arr ((Batch.lookup ⟨[], memo⟩ type id).toList.map .obj), [], []⟩ := by
      rw [@Batch.fill_eq _ (Batch.lookup ⟨[], memo⟩) _ _ fun _ _ => rfl, filling_wholeSlot ht]
    unfold roundOf Batch.take
    dsimp only
    rw [hmissing, List.filterMap_nil, List.foldl_nil, List.foldl_cons, List.foldl_nil, fillInto]
    dsimp only [Keyed.get?]
    rw [hfill]
    rfl
  have hpending : Batch.hasPending ⟨[wholeSlot type id], memo⟩ = true := rfl
  unfold roundsOf
  rw [if_pos hpending, hround]
  rfl

/-- Rounds with stored documents show the documents of an id, or null where they cannot be read. -/
theorem settleRounds_wholeSlot {s : Store} {type : String} {t : DocumentType}
    (ht : s.schema.type? type = some t) (files : FileTree) (id : String) :
    (s.settleRounds files 2 (.obj [("whole", .null)]) [wholeSlot type id]).1 =
      .obj [("whole", if (s.contents? files type).isSome then
        .arr ((s.finder files type id).toList.map .obj) else .null)] := by
  have hfilling : s.filling files [wholeSlot type id] (wholeSlot type id) =
      ⟨if (s.contents? files type).isSome then .arr ((s.finder files type id).toList.map .obj)
        else .null, [], []⟩ := by
    unfold Store.filling
    rw [filling_wholeSlot ht]
    have hblocks : s.blocks files [wholeSlot type id] type = (s.contents? files type).isNone := by
      simp [Store.blocks, wholeSlot, Pointer.ids]
    have htype : (wholeSlot type id).type = type := rfl
    rw [htype, hblocks]
    cases s.contents? files type <;> rfl
  unfold Store.settleRounds
  rw [if_neg (by simp), List.flatMap_cons, List.flatMap_nil, hfilling]
  unfold Direct.fillAll
  rw [List.foldl_cons, List.foldl_nil, hfilling]
  rfl

/-- A flush gives with a batch what it gives without, for all slots, exactly where the batch is
fresh. -/
theorem flush_eq_iff_fresh (he : e.ReadsPlainly) (hdot : e.schema.PlainIdentifiers)
    {state : State} (hi : e.store.Identified state.files)
    {memo : Keyed (Keyed (Option Document))}
    (hknown : ∀ type id, Batch.isMemoized ⟨[], memo⟩ type id = true →
      (e.schema.type? type).isSome = true) :
    (∀ (data : Json) (pending : List Slot),
      (after (e.flush requestId data) ⟨⟨pending, memo⟩, []⟩ state).1.1 =
        (after (e.flush requestId data) ⟨⟨pending, []⟩, []⟩ state).1.1) ↔
      Batch.Fresh e.store state.files ⟨[], memo⟩ := by
  constructor
  · intro hall type id found hfound
    have hmemo : Batch.isMemoized ⟨[], memo⟩ type id = true := by
      rw [Batch.isMemoized, hfound]
      rfl
    obtain ⟨t, ht⟩ := Option.isSome_iff_exists.mp (hknown type id hmemo)
    have hsame := hall (.obj [("whole", .null)]) [wholeSlot type id]
    rw [(yields_flush he _).value_eq, (yields_flush he _).value_eq] at hsame
    have hfresh := (roundsOf_fresh hdot hi 2 (.obj [("whole", .null)])
      (b := ⟨[wholeSlot type id], []⟩) (Batch.fresh_of_memo_nil _ _ rfl)).1
    have hshown := (@roundsOf_wholeSlot e state.files _ _ _ ht _ hmemo).symm.trans
      ((hsame.trans hfresh).trans (settleRounds_wholeSlot ht state.files id))
    rw [Batch.lookup, hfound] at hshown
    cases hc : e.store.contents? state.files type with
    | none => simp [hc] at hshown
    | some contents =>
      refine ⟨rfl, ?_⟩
      rw [hc] at hshown
      cases found <;> cases hfinder : e.store.finder state.files type id <;>
        simp_all
  · intro hfresh data pending
    have hmemo := (roundsOf_fresh hdot hi (Batch.rounds ⟨pending, memo⟩) data
      (b := ⟨pending, memo⟩) hfresh).1
    have hnone := (roundsOf_fresh hdot hi (Batch.rounds ⟨pending, []⟩) data
      (b := ⟨pending, []⟩) (Batch.fresh_of_memo_nil _ _ rfl)).1
    rw [(yields_flush he data).value_eq, (yields_flush he data).value_eq, hmemo, hnone]
    rfl

/-- The root fields of a mutation request leave the files as they do in requests of their own. A
field has the value that it has by itself if the batch that the fields before it leave knows
nothing, or is fresh once the field has changed the store; and a batch that is not fresh changes
what some flush gives. -/
theorem mutations_separately (e : Engine) (requestId : String) (name : Option String)
    (fields : List (String × Selection)) (state : State) (he : e.Bare)
    (hkeys : (fields.map fun field => field.2.responseKey).Nodup) :
    ((e.executeRequest requestId ⟨.mutation, name, fields.map Prod.snd⟩).run state).2.files =
        (separately e fields state).2.files ∧
      (∀ before field after, fields = before ++ field :: after →
        (together e requestId (before.map Prod.snd) [] {} state).1.2.batch.memo = [] ∨
          e.schema.PlainIdentifiers ∧
            e.store.Identified (separately e (before ++ [field]) state).2.files ∧
            Batch.Fresh e.store (separately e (before ++ [field]) state).2.files
              (together e requestId (before.map Prod.snd) [] {} state).1.2.batch →
        ∃ response v, (separately e fields state).1[before.length]? = some response ∧
          response.data.get? field.2.responseKey = some v ∧
          ((e.executeRequest requestId
            ⟨.mutation, name, fields.map Prod.snd⟩).run state).1.data.get?
              field.2.responseKey = some v) ∧
      (e.schema.PlainIdentifiers → ∀ (later : State) (memo : Keyed (Keyed (Option Document))),
        e.store.Identified later.files →
        (∀ type id, Batch.isMemoized ⟨[], memo⟩ type id = true →
          (e.schema.type? type).isSome = true) →
        ((∀ (data : Json) (pending : List Slot),
          (after (e.flush requestId data) ⟨⟨pending, memo⟩, []⟩ later).1.1 =
            (after (e.flush requestId data) ⟨⟨pending, []⟩, []⟩ later).1.1) ↔
          Batch.Fresh e.store later.files ⟨[], memo⟩)) := by
  obtain ⟨hpending, hstate, -⟩ := @together_spec e requestId he fields []
    {} state _ rfl (.refl state)
  obtain ⟨hdata, hfinal⟩ := executeRequest_mutation he name (fields.map Prod.snd) state hpending
  refine ⟨(hfinal.trans hstate).files, ?_, ?_⟩
  · rintro before field after rfl hkept
    rw [hdata]
    exact field_value he state hkeys hkept
  · exact fun hdot later memo hi hknown => flush_eq_iff_fresh he.readsPlainly hdot hi hknown

section

/-- Employees of provinces, which have a chief each. -/
private def registry : Schema where
  types := [
    { name := "Empleado"
      fields := [.ofIdentifier "id", .ofReference "provincia" "Provincia"] },
    { name := "Provincia"
      fields := [.ofIdentifier "id", .ofReference "jefe" "Jefe"] },
    { name := "Jefe"
      fields := [.ofIdentifier "id"] }]

/-- An engine over the registry with all its mutations. -/
private def clerk : Engine :=
  bare ⟨"/data"⟩ registry ((Catalog.ofSchema "default" registry).toOption.getD ⟨"default", []⟩)

/-- A registry of one province, whose chief is not there yet. -/
private def vacancy : State where
  files := ⟨[(["data"], .directory), (["data", "Empleado"], .directory),
    (["data", "Jefe"], .directory), (["data", "Provincia"], .directory),
    (["data", "Provincia", "p1"],
      .file (some "\x7b\"id\": \"p1\", \"jefe_id\": \"j1\"\x7d"))]⟩

/-- Hires an employee and shows the chief, hires the chief, and does the first again. -/
private def hirings : List (String × Selection) :=
  let chief : List Selection :=
    [.field none "provincia" [] [.field none "jefe" [] [.field none "id" [] []]]]
  [("r1", .field (some "a") "empleadoCreate" [("id", .str "e1"), ("provincia", .str "p1")] chief),
    ("r2", .field (some "b") "jefeCreate" [("id", .str "j1")] []),
    ("r3", .field (some "c") "empleadoCreate" [("id", .str "e2"), ("provincia", .str "p1")] chief)]

theorem mutations_separately_hirings :
    ((clerk.executeRequest "r" ⟨.mutation, none, hirings.map Prod.snd⟩).run vacancy).2.files =
      (separately clerk hirings vacancy).2.files :=
  (mutations_separately clerk "r" none hirings vacancy (bare_bare _ _ _) (by decide)).1

/-- A field of a request may still miss a document that an earlier field has created. -/
theorem exists_field_ne_separately :
    ∃ (e : Engine) (fields : List (String × Selection)) (state : State), e.Bare ∧
      (fields.map fun field => field.2.responseKey).Nodup ∧
      ∃ (i : Nat) (key : String), (fields[i]?).map (fun field => field.2.responseKey) = some key ∧
        ((e.executeRequest "r" ⟨.mutation, none, fields.map Prod.snd⟩).run state).1.data.get? key ≠
          ((separately e fields state).1[i]?).bind fun response => response.data.get? key := by
  refine ⟨clerk, hirings, vacancy, bare_bare _ _ _, by decide, 2, "c", rfl, fun h => ?_⟩
  have htexts := congrArg (Option.map Json.compact) h
  revert htexts
  decide +kernel

end

end Engine

end DocumentEngine
