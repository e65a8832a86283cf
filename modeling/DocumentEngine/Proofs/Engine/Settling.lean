import DocumentEngine.Proofs.Engine.Course

/-!
How long rounds go on. A round replaces the slots that wait by smaller ones, and no slot is smaller
than a field that a copy lacks. So the number of rounds is bounded by the height of what is
selected, whatever is stored and whatever handlers do: documents that point at each other in a ring,
and copies that lack fields, cost no more rounds than others.
-/

namespace DocumentEngine.Engine

/-- Rounds one after the other until no slot waits: how many run, from data, a request and a state
to others. -/
inductive Settles (e : Engine) (requestId : String) :
    Nat → (Json × Resolution) × State → (Json × Resolution) × State → Prop
  | settled {data : Json} {r : Resolution} {state : State} : r.batch.hasPending = false →
      Settles e requestId 0 ((data, r), state) ((data, r), state)
  | round {n : Nat} {data : Json} {r : Resolution} {state : State}
      {last : (Json × Resolution) × State} : r.batch.hasPending = true →
      Settles e requestId n (after (e.resolveRound requestId data) r state) last →
      Settles e requestId (n + 1) ((data, r), state) last

variable (e : Engine) (requestId : String)

/-- What a slot leaves behind those that wait when it is filled is smaller than the slot. -/
theorem exists_smaller_of_fillSlot (failures : Keyed EngineError) (data : Json) (slot : Slot)
    (r : Resolution) (state : State) :
    ∃ left : List Slot,
      (after (e.fillSlot requestId failures data slot) r state).1.2.batch.pending =
        r.batch.pending ++ left ∧ ∀ inner ∈ left, inner.size < slot.size := by
  refine ⟨(e.filled failures r.batch slot).slots, ?_, fun inner hinner => ?_⟩
  · obtain ⟨_, hfilled⟩ := e.exists_fillSlots requestId failures [slot] data r state
    have hpending := congrArg (fun w => w.1.2.batch.pending) hfilled
    dsimp only at hpending
    rwa [List.flatMap_singleton] at hpending
  · have hsmall := (e.filled_bounded failures r.batch slot).small inner hinner
    have hsize := slot.two_le_size
    omega

/-- Where slots wait a round runs, and then the rounds that the rest of the fuel allows. -/
theorem after_resolveRounds_succ {data : Json} {r : Resolution} {state : State}
    (h : r.batch.hasPending = true) (fuel : Nat) :
    let round := after (e.resolveRound requestId data) r state
    after (e.resolveRounds requestId (fuel + 1) data) r state =
      after (e.resolveRounds requestId fuel round.1.1) round.1.2 round.2 := by
  intro round
  change after (if r.batch.hasPending then _ else _) r state = _
  rw [h]
  rfl

theorem after_resolveRounds_of_settled {data : Json} {r : Resolution} {state : State}
    (h : r.batch.hasPending = false) (fuel : Nat) :
    after (e.resolveRounds requestId fuel data) r state = ((data, r), state) := by
  cases fuel with
  | zero => rfl
  | succ fuel =>
    change after (if r.batch.hasPending then _ else _) r state = _
    rw [h]
    rfl

/-- What waits after a round is smaller than a slot that waited before, and of a size of at least
three. -/
theorem exists_larger_of_round {data : Json} {r : Resolution} {state : State} {slot : Slot}
    (h : slot ∈ (after (e.resolveRound requestId data) r state).1.2.batch.pending) :
    3 ≤ slot.size ∧ ∃ outer ∈ r.batch.pending, slot.size < outer.size := by
  obtain ⟨failures, loaded, left, hround⟩ := e.exists_round requestId data r state
  rw [hround] at h
  obtain ⟨outer, houter, hslot⟩ := List.mem_flatMap.mp h
  have hsmall := (e.filled_bounded failures loaded outer).small slot hslot
  have hsize := outer.two_le_size
  exact ⟨(e.filled_answers failures loaded outer).three_le_size slot hslot, outer, houter, by omega⟩

/-- Rounds settle slots that are larger than some floor in as many rounds as they are larger at
most. -/
theorem exists_settles {floor : Nat} (hfloor : floor ≤ 2) {bound fuel : Nat} (hfuel : bound ≤ fuel)
    (data : Json) (r : Resolution) (state : State)
    (hslots : ∀ slot ∈ r.batch.pending, floor < slot.size ∧ slot.size ≤ floor + bound) :
    ∃ n ≤ bound, Settles e requestId n ((data, r), state)
      (after (e.resolveRounds requestId fuel data) r state) := by
  induction fuel generalizing bound data r state with
  | zero =>
    have hnone : r.batch.pending = [] := by
      refine List.eq_nil_iff_forall_not_mem.mpr fun slot hslot => ?_
      have hsizes := hslots slot hslot
      omega
    refine ⟨0, Nat.zero_le _, .settled ?_⟩
    rw [Batch.hasPending, hnone]
    rfl
  | succ fuel ih =>
    cases hpending : r.batch.hasPending with
    | false =>
      rw [after_resolveRounds_of_settled e requestId hpending]
      exact ⟨0, Nat.zero_le _, .settled hpending⟩
    | true =>
      have hsome : 0 < bound := by
        obtain ⟨slot, rest, hslot⟩ := List.exists_cons_of_ne_nil (l := r.batch.pending) fun hnil => by
          rw [Batch.hasPending, hnil] at hpending
          cases hpending
        have hsizes := hslots slot (hslot ▸ List.mem_cons_self)
        omega
      obtain ⟨n, hn, hsettles⟩ := ih (by omega : bound - 1 ≤ fuel) _ _ _ fun slot hslot => by
        obtain ⟨hleast, outer, houter, hsmaller⟩ := exists_larger_of_round e requestId hslot
        have hsizes := hslots outer houter
        omega
      rw [after_resolveRounds_succ e requestId hpending]
      exact ⟨n + 1, by omega, .round hpending hsettles⟩

/-- A flush runs rounds until no slot waits. -/
theorem exists_settles_flush (data : Json) (r : Resolution) (state : State) :
    ∃ n, Settles e requestId n ((data, r), state) (after (e.flush requestId data) r state) := by
  obtain ⟨n, -, hsettles⟩ := exists_settles e requestId (Nat.zero_le 2) (le_refl r.batch.rounds) data
    r state fun slot hslot => by
      have hleast := slot.two_le_size
      have hmost := size_le_rounds hslot
      omega
  exact ⟨n, hsettles⟩

/-- However the stored documents point at each other, whatever their copies hold and whatever
handlers do: the flush that follows projections of documents onto selections runs its rounds until no
slot waits, which takes at most twice as many rounds as the selections are high above their leaves.
Each slot that is recorded where a slot is filled is smaller than that one. -/
theorem flush_settles_within (height : Nat) (data : Json) (r : Resolution) (state : State)
    (hslots : ∀ slot ∈ r.batch.pending, ∃ t doc selections path,
      Selection.heightBelow selections ≤ height ∧
        slot ∈ (Projection.project e.schema t doc selections path .stored).slots) :
    (∃ n ≤ 2 * height - 2, Settles e requestId n ((data, r), state)
      (after (e.flush requestId data) r state)) ∧
    ∀ failures data slot r state, ∃ left : List Slot,
      (after (e.fillSlot requestId failures data slot) r state).1.2.batch.pending =
        r.batch.pending ++ left ∧ ∀ inner ∈ left, inner.size < slot.size := by
  have hsizes : ∀ slot ∈ r.batch.pending, 3 ≤ slot.size ∧ slot.size ≤ 2 * height := by
    intro slot hslot
    obtain ⟨t, doc, selections, path, hheight, hmem⟩ := hslots slot hslot
    have hleast := (Projection.project_answers e.schema t doc (.field none "" [] selections) path
      .stored).three_le_size slot hmem
    have hmost := (Projection.project_bounded e.schema t doc selections path .stored).small slot hmem
    rw [Projection.slotBound, if_neg (by decide)] at hmost
    omega
  have hrounds : r.batch.rounds ≤ 2 * height := rounds_le fun slot hslot => (hsizes slot hslot).2
  obtain ⟨n, hn, hsettles⟩ := exists_settles e requestId (le_refl 2)
    (Nat.sub_le r.batch.rounds 2) data r state fun slot hslot => by
      have hleast := hsizes slot hslot
      have hmost := size_le_rounds hslot
      omega
  exact ⟨⟨n, by omega, hsettles⟩, exists_smaller_of_fillSlot e requestId⟩

section

/-- Workers with workers over them. -/
private def worker : DocumentType :=
  { name := "Obrero", fields := [.ofIdentifier "id", .ofReference "jefe" "Obrero"] }

/-- A worker over itself, projected onto who is over it and who is over that one. -/
private def ownForeman : Projected :=
  Projection.project ⟨[worker]⟩ worker [("id", .str "o1"), ("jefe_id", .str "o1")]
    [.field none "jefe" [] [.field none "jefe" [] [.field none "id" [] []]]] [.key "obrero"] .stored

theorem flush_settles_within_own_foreman :
    let e := bare ⟨"/data"⟩ ⟨[worker]⟩ ⟨"default", []⟩
    let data := Json.obj [("obrero", ownForeman.value)]
    let r : Resolution := ⟨⟨ownForeman.slots, []⟩, []⟩
    let state : State := { files := ⟨[(["data"], .directory), (["data", "Obrero"], .directory),
      (["data", "Obrero", "o1"],
        .file (some "\x7b\"id\": \"o1\", \"jefe_id\": \"o1\"\x7d"))]⟩ }
    r.batch.pending.map Slot.size = [6] ∧
      ∃ n ≤ 4, Settles e "r" n ((data, r), state) (after (e.flush "r" data) r state) :=
  ⟨by decide, (flush_settles_within _ "r" 3 _ _ _ fun _ hslot =>
    ⟨worker, _, _, _, by decide, hslot⟩).1⟩

end

end DocumentEngine.Engine
