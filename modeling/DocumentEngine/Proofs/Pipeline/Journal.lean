import DocumentEngine.Proofs.Pipeline.Additions
import DocumentEngine.Proofs.Pipeline.Conduct
import Mathlib

/-!
The effects of a run of handlers around an action, in their order. A run is recorded in a journal:
each invocation of a handler changes the state in stretches, one up to each call of the rest and one
up to its return, and the action changes it in one. Every change belongs to one invocation, and an
invocation inside another one was called by it. So the stages of a type run one inside the other as
their handlers do, also in their effects; the action takes effect once where every handler calls the
rest once, and nothing inside an invocation takes effect where its handler calls nothing.
-/

namespace DocumentEngine

open Action

variable {α : Type}

/-- Where an invocation stands in a run: the numbers of the calls that lead to it, the last of them
first. The outermost handler stands at the empty address, and an address is as long as there are
handlers around. -/
abbrev Address := List Nat

/-- A change of the state by one invocation, from where it gets it to where it returns or passes a
value to the rest of the pipeline. -/
structure Deed (α : Type) where
  address : Address
  before : State
  after : State
  passed : Option α

namespace Deed

/-- Whether a deed ends with a call of the rest by the invocation at an address. -/
def callsAt (address : Address) (deed : Deed α) : Bool :=
  deed.address == address && deed.passed.isSome

/-- Whether a deed ends with the return of the invocation at an address. -/
def returnsAt (address : Address) (deed : Deed α) : Bool :=
  deed.address == address && deed.passed.isNone

/-- Deeds that lead from one state to another, each from where the one before it ends. -/
def Lead : State → List (Deed α) → State → Prop
  | first, [], last => first = last
  | first, deed :: deeds, last => deed.before = first ∧ Lead deed.after deeds last

theorem lead_append {first between last : State} {deeds others : List (Deed α)}
    (h : Lead first deeds between) (h' : Lead between others last) :
    Lead first (deeds ++ others) last := by
  induction deeds generalizing first with
  | nil =>
    cases h
    exact h'
  | cons deed deeds ih => exact ⟨h.1, ih h.2⟩

/-- What tells of one address finds nothing among deeds at others. -/
theorem countP_eq_zero {address : Address} {p : Deed α → Bool} {deeds : List (Deed α)}
    (hp : ∀ deed, p deed = true → deed.address = address)
    (h : ∀ deed ∈ deeds, deed.address ≠ address) : deeds.countP p = 0 :=
  List.countP_eq_zero.mpr fun deed hdeed hpositive => h deed hdeed (hp deed hpositive)

theorem address_of_callsAt {address : Address} {deed : Deed α}
    (h : deed.callsAt address = true) : deed.address = address :=
  eq_of_beq (Bool.and_eq_true_iff.mp h).1

theorem address_of_returnsAt {address : Address} {deed : Deed α}
    (h : deed.returnsAt address = true) : deed.address = address :=
  eq_of_beq (Bool.and_eq_true_iff.mp h).1

end Deed

/-- An address goes on in one way. -/
theorem Address.cons_suffix_inj {number other : Nat} {address long : Address}
    (h : number :: address <:+ long) (h' : other :: address <:+ long) : number = other := by
  have hsame : number :: address = other :: address :=
    (List.suffix_of_suffix_length_le h h' (by simp)).eq_of_length (by simp)
  exact (List.cons.inj hsame).1

theorem Address.ne_of_cons_suffix {number : Nat} {address long : Address}
    (h : number :: address <:+ long) : long ≠ address := by
  rintro rfl
  exact absurd h.length_le (by simp)

/-- What a run gives and leaves, and the deeds in it in their order. -/
structure Journal (α : Type) where
  outcome : Except EngineError α
  state : State
  deeds : List (Deed α)

namespace Journal

/-- How often the invocation at an address calls the rest. -/
def calls (journal : Journal α) (address : Address) : Nat :=
  journal.deeds.countP (Deed.callsAt address)

/-- How often the invocation at an address returns. -/
def returns (journal : Journal α) (address : Address) : Nat :=
  journal.deeds.countP (Deed.returnsAt address)

/-- How many deeds there are inside a number of handlers. -/
def deedsAt (journal : Journal α) (depth : Nat) : Nat :=
  journal.deeds.countP fun deed => deed.address.length == depth

/-- What makes a journal a full account of a run at an address, with a number of handlers around an
action. The deeds lead from the first state to the last one; each belongs to an invocation, which
returns once and, if it is not the outermost, was called by the invocation around it; the innermost
deeds are those of the action. -/
structure Accounts (action : α → EngineM α) (depth : Nat) (address : Address) (before : State)
    (journal : Journal α) : Prop where
  leads : Deed.Lead before journal.deeds journal.state
  returned : ∀ deed ∈ journal.deeds, journal.returns deed.address = 1
  called : ∀ deed ∈ journal.deeds, deed.address = address ∨ ∃ caller ∈ journal.deeds,
    caller.passed.isSome = true ∧ ∃ number, deed.address = number :: caller.address
  inside : ∀ deed ∈ journal.deeds, address <:+ deed.address
  within : ∀ deed ∈ journal.deeds, deed.address.length ≤ address.length + depth
  innermost : ∀ deed ∈ journal.deeds, deed.address.length = address.length + depth →
    ∃ value, deed.after = (exec (action value) deed.before).2

/-- A journal that has one deed before those of another and one behind them, both at an address. -/
def Wraps (address : Address) (inner journal : Journal α) : Prop :=
  ∃ first last : Deed α, first.address = address ∧ last.address = address ∧
    journal.deeds = first :: (inner.deeds ++ [last])

namespace Wraps

variable {address : Address} {inner journal : Journal α}

theorem address_eq_or_mem (h : Wraps address inner journal) {deed : Deed α}
    (hdeed : deed ∈ journal.deeds) : deed.address = address ∨ deed ∈ inner.deeds := by
  obtain ⟨first, last, hfirst, hlast, hdeeds⟩ := h
  rw [hdeeds] at hdeed
  rcases List.mem_cons.mp hdeed with rfl | hdeed
  · exact .inl hfirst
  rcases List.mem_append.mp hdeed with hinner | hend
  · exact .inr hinner
  · cases List.mem_singleton.mp hend
    exact .inl hlast

theorem mem_of_mem (h : Wraps address inner journal) {deed : Deed α} (hdeed : deed ∈ inner.deeds) :
    deed ∈ journal.deeds := by
  obtain ⟨first, last, -, -, hdeeds⟩ := h
  rw [hdeeds]
  exact List.mem_cons_of_mem _ (List.mem_append_left _ hdeed)

/-- What tells of other addresses finds the same in both journals. -/
theorem countP_eq (h : Wraps address inner journal) {p : Deed α → Bool}
    (hp : ∀ deed, p deed = true → deed.address ≠ address) :
    journal.deeds.countP p = inner.deeds.countP p := by
  obtain ⟨first, last, hfirst, hlast, hdeeds⟩ := h
  rw [hdeeds, List.countP_cons_of_neg fun hpositive => hp first hpositive hfirst,
    List.countP_append, List.countP_singleton,
    if_neg fun hpositive => hp last hpositive hlast, Nat.add_zero]

theorem calls_eq (h : Wraps address inner journal) {other : Address} (hne : other ≠ address) :
    journal.calls other = inner.calls other :=
  h.countP_eq fun _ hcalls => (Deed.address_of_callsAt hcalls).trans_ne hne

theorem deedsAt_eq (h : Wraps address inner journal) {depth : Nat} (hne : depth ≠ address.length) :
    journal.deedsAt depth = inner.deedsAt depth :=
  h.countP_eq fun _ hdepth heq => hne ((eq_of_beq hdepth).symm.trans (congrArg List.length heq))

end Wraps

end Journal

/-- An action with its journal, for the address at which it runs. -/
abbrev Recording (α : Type) := Address → α → State → Journal α

namespace Recording

/-- An action whose deed is all that it changes. -/
def ofAction (action : α → EngineM α) : Recording α := fun address value state =>
  let ran := exec (action value) state
  ⟨ran.1, ran.2, [⟨address, state, ran.2, none⟩]⟩

/-- A recording gives and leaves what an action does. -/
def Records (recording : Recording α) (action : α → EngineM α) : Prop :=
  ∀ address value state, exec (action value) state =
    ((recording address value state).outcome, (recording address value state).state)

/-- Every journal of a recording is a full account. -/
def Accounts (action : α → EngineM α) (depth : Nat) (recording : Recording α) : Prop :=
  ∀ address value state, (recording address value state).Accounts action depth address state

theorem accounts_ofAction (action : α → EngineM α) :
    (ofAction action).Accounts action 0 := by
  intro address value state
  have honly : ∀ deed ∈ (ofAction action address value state).deeds,
      deed = ⟨address, state, (exec (action value) state).2, none⟩ :=
    fun deed hdeed => List.mem_singleton.mp hdeed
  exact {
    leads := ⟨rfl, rfl⟩
    returned := fun deed hdeed => by
      rw [honly deed hdeed]
      simp [Journal.returns, ofAction, Deed.returnsAt]
    called := fun deed hdeed => .inl (by rw [honly deed hdeed])
    inside := fun deed hdeed => honly deed hdeed ▸ List.suffix_refl _
    within := fun deed hdeed => by rw [honly deed hdeed]; exact le_rfl
    innermost := fun deed hdeed _ => ⟨value, by rw [honly deed hdeed]⟩ }

end Recording

/-- The journal of a conduct at an address, from a state on and after a number of calls. -/
def Conduct.record (next : Recording α) (address : Address) :
    Nat → State → Conduct α → Journal α
  | _, before, .returns outcome state => ⟨outcome, state, [⟨address, before, state, none⟩]⟩
  | number, before, .calls value state resume =>
    let inner := next (number :: address) value state
    let rest := record next address (number + 1) inner.state (resume inner.outcome inner.state)
    ⟨rest.outcome, rest.state, ⟨address, before, state, some value⟩ :: (inner.deeds ++ rest.deeds)⟩

/-- Handlers around an action, with a journal. -/
def Pipeline.record (context : StageContext) (innermost : Recording α) :
    List (Plan α) → Recording α
  | [] => innermost
  | plan :: rest => fun address value state =>
    (plan value context state).record (record context innermost rest) address 0 state

namespace Conduct

variable {next : Recording α} {address : Address} {action : α → EngineM α} {depth : Nat}

/-- A journal leaves out nothing of what a conduct gives and leaves. -/
theorem run_eq_record (hnext : next.Records action) (address : Address) (c : Conduct α)
    (number : Nat) (before : State) : c.run action =
      ((c.record next address number before).outcome,
        (c.record next address number before).state) := by
  induction c generalizing number before with
  | returns outcome state => rfl
  | calls value state resume ih =>
    simp only [run, record]
    rw [hnext (number :: address) value state]
    exact ih _ _ _ _

/-- A deed of a conduct is one of the handler itself or one inside one of its calls. -/
theorem mem_record (c : Conduct α) (number : Nat) (before : State) :
    ∀ deed ∈ (c.record next address number before).deeds, deed.address = address ∨
      ∃ later, number ≤ later ∧ ∃ value state,
        deed ∈ (next (later :: address) value state).deeds := by
  induction c generalizing number before with
  | returns outcome state =>
    intro deed hdeed
    cases List.mem_singleton.mp hdeed
    exact .inl rfl
  | calls value state resume ih =>
    intro deed hdeed
    rcases List.mem_cons.mp hdeed with rfl | hdeed
    · exact .inl rfl
    rcases List.mem_append.mp hdeed with hinner | hrest
    · exact .inr ⟨number, le_rfl, value, state, hinner⟩
    · rcases ih _ _ _ _ deed hrest with hown | ⟨later, hlater, hinner⟩
      · exact .inl hown
      · exact .inr ⟨later, Nat.le_of_succ_le hlater, hinner⟩

/-- The deeds of the handler itself are at its address, all others below that of the call. -/
theorem mem_record_address (hnext : next.Accounts action depth) {c : Conduct α} {number : Nat}
    {before : State} {deed : Deed α} (h : deed ∈ (c.record next address number before).deeds) :
    deed.address = address ∨ ∃ later, number ≤ later ∧ later :: address <:+ deed.address := by
  rcases mem_record c number before deed h with hown | ⟨later, hlater, value, state, hinner⟩
  · exact .inl hown
  · exact .inr ⟨later, hlater, (hnext _ _ _).inside deed hinner⟩

/-- What is inside a call is neither the handler's own nor inside a later call. -/
theorem address_ne_of_mem_record (hnext : next.Accounts action depth) {c : Conduct α} {number : Nat}
    {value : α} {before state : State} {inner other : Deed α}
    (hinner : inner ∈ (next (number :: address) value state).deeds)
    (hother : other ∈ (c.record next address (number + 1) before).deeds) :
    inner.address ≠ other.address := by
  have hinside := (hnext _ _ _).inside inner hinner
  rcases mem_record_address hnext hother with hown | ⟨later, hlater, hlate⟩
  · rw [hown]
    exact Address.ne_of_cons_suffix hinside
  · intro heq
    rw [← heq] at hlate
    exact absurd (Address.cons_suffix_inj hinside hlate) (by omega)

/-- What tells of the address of a handler finds nothing inside its calls. -/
theorem countP_inner_eq_zero (hnext : next.Accounts action depth) {p : Deed α → Bool}
    (hp : ∀ deed, p deed = true → deed.address = address) (number : Nat) (value : α)
    (state : State) : (next (number :: address) value state).deeds.countP p = 0 :=
  Deed.countP_eq_zero hp fun deed hdeed =>
    Address.ne_of_cons_suffix ((hnext _ _ _).inside deed hdeed)

/-- A conduct returns once. -/
theorem returns_record (hnext : next.Accounts action depth) (c : Conduct α) (number : Nat)
    (before : State) : (c.record next address number before).returns address = 1 := by
  induction c generalizing number before with
  | returns outcome state => simp [Journal.returns, record, Deed.returnsAt]
  | calls value state resume ih =>
    rw [Journal.returns, record, List.countP_cons_of_neg (by simp [Deed.returnsAt]),
      List.countP_append, countP_inner_eq_zero hnext fun _ => Deed.address_of_returnsAt,
      Nat.zero_add]
    exact ih _ _ _ _

/-- Each invocation in a conduct returns once, since each call has a number of its own. -/
theorem returns_eq_one_of_mem_record (hnext : next.Accounts action depth) (c : Conduct α)
    (number : Nat) (before : State) : ∀ deed ∈ (c.record next address number before).deeds,
      (c.record next address number before).returns deed.address = 1 := by
  induction c generalizing number before with
  | returns outcome state =>
    intro deed hdeed
    cases List.mem_singleton.mp hdeed
    exact returns_record hnext _ _ _
  | calls value state resume ih =>
    intro deed hdeed
    rcases List.mem_cons.mp hdeed with rfl | hdeed
    · exact returns_record hnext _ _ _
    rw [Journal.returns, record, List.countP_cons_of_neg (by simp [Deed.returnsAt]),
      List.countP_append]
    rcases List.mem_append.mp hdeed with hinner | hrest
    · rw [Deed.countP_eq_zero (fun _ => Deed.address_of_returnsAt) fun other hother =>
        (address_ne_of_mem_record hnext hinner hother).symm, Nat.add_zero]
      exact (hnext _ _ _).returned deed hinner
    · rw [Deed.countP_eq_zero (fun _ => Deed.address_of_returnsAt) fun other hother =>
        address_ne_of_mem_record hnext hother hrest, Nat.zero_add]
      exact ih _ _ _ _ deed hrest

theorem leads_record (hnext : next.Accounts action depth) (c : Conduct α) (number : Nat)
    (before : State) : Deed.Lead before (c.record next address number before).deeds
      (c.record next address number before).state := by
  induction c generalizing number before with
  | returns outcome state => exact ⟨rfl, rfl⟩
  | calls value state resume ih =>
    exact ⟨rfl, Deed.lead_append (hnext _ _ _).leads (ih _ _ _ _)⟩

/-- Whatever is inside a call was called, by the handler itself or inside the call. -/
theorem called_of_mem_record (hnext : next.Accounts action depth) (c : Conduct α) (number : Nat)
    (before : State) : ∀ deed ∈ (c.record next address number before).deeds,
      deed.address = address ∨ ∃ caller ∈ (c.record next address number before).deeds,
        caller.passed.isSome = true ∧ ∃ last, deed.address = last :: caller.address := by
  induction c generalizing number before with
  | returns outcome state =>
    intro deed hdeed
    cases List.mem_singleton.mp hdeed
    exact .inl rfl
  | calls value state resume ih =>
    intro deed hdeed
    rcases List.mem_cons.mp hdeed with rfl | hdeed
    · exact .inl rfl
    rcases List.mem_append.mp hdeed with hinner | hrest
    · rcases (hnext _ _ _).called deed hinner with hfirst | ⟨caller, hcaller, hcalled⟩
      · exact .inr ⟨_, List.mem_cons_self, rfl, number, hfirst⟩
      · exact .inr ⟨caller, List.mem_cons_of_mem _ (List.mem_append_left _ hcaller), hcalled⟩
    · rcases ih _ _ _ _ deed hrest with hown | ⟨caller, hcaller, hcalled⟩
      · exact .inl hown
      · exact .inr ⟨caller, List.mem_cons_of_mem _ (List.mem_append_right _ hcaller), hcalled⟩

/-- One handler more around an action with full accounts has full accounts. -/
theorem accounts_record (hnext : next.Accounts action depth) (c : Conduct α) (number : Nat)
    (before : State) :
    (c.record next address number before).Accounts action (depth + 1) address before where
  leads := leads_record hnext c number before
  returned := returns_eq_one_of_mem_record hnext c number before
  called := called_of_mem_record hnext c number before
  inside deed hdeed := by
    rcases mem_record_address hnext hdeed with hown | ⟨later, -, hsuffix⟩
    · exact hown ▸ List.suffix_refl _
    · exact (List.suffix_cons later address).trans hsuffix
  within deed hdeed := by
    rcases mem_record c number before deed hdeed with hown | ⟨later, -, value, state, hinner⟩
    · rw [hown]
      omega
    · have hwithin := (hnext _ _ _).within deed hinner
      rw [List.length_cons] at hwithin
      omega
  innermost deed hdeed hlength := by
    rcases mem_record c number before deed hdeed with hown | ⟨later, -, value, state, hinner⟩
    · rw [hown] at hlength
      omega
    · refine (hnext _ _ _).innermost deed hinner ?_
      rw [hlength, List.length_cons]
      omega

theorem calls_record_calls (hnext : next.Accounts action depth) (number : Nat) (before : State)
    (value : α) (state : State) (resume : Except EngineError α → State → Conduct α) :
    ((Conduct.calls value state resume).record next address number before).calls address =
      ((resume (next (number :: address) value state).outcome
        (next (number :: address) value state).state).record next address (number + 1)
          (next (number :: address) value state).state).calls address + 1 := by
  rw [Journal.calls, record, List.countP_cons_of_pos (by simp [Deed.callsAt]), List.countP_append,
    countP_inner_eq_zero hnext fun _ => Deed.address_of_callsAt, Nat.zero_add]
  rfl

theorem calls_record_returns (number : Nat) (before : State) (outcome : Except EngineError α)
    (state : State) :
    ((Conduct.returns outcome state).record next address number before).calls address = 0 := by
  simp [Journal.calls, record, Deed.callsAt]

theorem calls_of_callsOnce (hnext : next.Accounts action depth) {c : Conduct α} (h : c.CallsOnce)
    (number : Nat) (before : State) :
    (c.record next address number before).calls address = 1 := by
  cases c with
  | returns outcome state => exact h.elim
  | calls value state resume =>
    obtain ⟨result, last, hlast⟩ := h (next (number :: address) value state).outcome
      (next (number :: address) value state).state
    rw [calls_record_calls hnext, hlast, calls_record_returns]

/-- A conduct with a single call is one stretch up to the call, what happens inside it, and one
stretch up to the return. -/
theorem exists_wraps_of_calls_eq_one (hnext : next.Accounts action depth) {c : Conduct α}
    {number : Nat} {before : State} (h : (c.record next address number before).calls address = 1) :
    ∃ value between, Journal.Wraps address (next (number :: address) value between)
      (c.record next address number before) := by
  cases c with
  | returns outcome state =>
    rw [calls_record_returns] at h
    exact absurd h (by decide)
  | calls value state resume =>
    rw [calls_record_calls hnext] at h
    cases hrest : resume (next (number :: address) value state).outcome
        (next (number :: address) value state).state with
    | returns outcome last =>
      refine ⟨value, state, ⟨address, before, state, some value⟩,
        ⟨address, (next (number :: address) value state).state, last, none⟩, rfl, rfl, ?_⟩
      rw [record, hrest]
      rfl
    | calls again after resume =>
      rw [hrest, calls_record_calls hnext] at h
      exact absurd h (by omega)

theorem exists_mem_record (next : Recording α) (address : Address) (number : Nat) (before : State)
    (c : Conduct α) :
    ∃ deed ∈ (c.record next address number before).deeds, deed.address = address := by
  cases c <;> exact ⟨_, List.mem_cons_self, rfl⟩

end Conduct

namespace Journal

variable {action : α → EngineM α} {depth : Nat} {before : State} {journal : Journal α}
  {address : Address}

/-- Inside an invocation that calls nothing there are no deeds of others. -/
theorem Accounts.address_eq_of_calls_eq_zero (h : journal.Accounts action depth [] before)
    (hcalls : journal.calls address = 0) :
    ∀ deed ∈ journal.deeds, address <:+ deed.address → deed.address = address := by
  intro deed hdeed hsuffix
  -- by induction along the calls that lead to the deed, the last of which is made at the address
  induction hlong : deed.address generalizing deed with
  | nil =>
    rw [hlong] at hsuffix
    exact (List.suffix_nil.mp hsuffix).symm
  | cons number around ih =>
    by_contra hne
    rw [hlong] at hsuffix
    have haround := (List.suffix_cons_iff.mp hsuffix).resolve_left (Ne.symm hne)
    rcases h.called deed hdeed with hroot | ⟨caller, hcaller, hpassed, last, hlast⟩
    · exact absurd (hlong.symm.trans hroot) (List.cons_ne_nil _ _)
    obtain ⟨rfl, rfl⟩ := List.cons.inj (hlong.symm.trans hlast)
    have hcaller' : caller.callsAt address = true :=
      Bool.and_eq_true_iff.mpr ⟨beq_iff_eq.mpr (ih caller hcaller haround rfl), hpassed⟩
    exact absurd hcaller' (List.countP_eq_zero.mp hcalls caller hcaller)

end Journal

namespace Pipeline

/-- The journal of handlers around an action is a full account. -/
theorem accounts_record (context : StageContext) (action : α → EngineM α) (plans : List (Plan α)) :
    (record context (.ofAction action) plans).Accounts action plans.length := by
  induction plans with
  | nil => exact Recording.accounts_ofAction action
  | cons plan plans ih => exact fun _ _ _ => Conduct.accounts_record ih _ _ _

/-- The journal of handlers around an action gives and leaves what the pipeline does. -/
theorem records_record (context : StageContext) (action : α → EngineM α) (plans : List (Plan α)) :
    (record context (.ofAction action) plans).Records
      (runWith context action (plans.map Plan.handler)) := by
  induction plans with
  | nil => exact fun _ _ _ => rfl
  | cons plan plans ih =>
    intro address value state
    rw [List.map_cons, runWith, Plan.exec_handler]
    exact Conduct.run_eq_record ih address _ _ _

/-- In a run in which each invocation of a handler calls the rest once there is one deed of the
action. -/
theorem deedsAt_innermost (context : StageContext) (action : α → EngineM α)
    (plans : List (Plan α)) (address : Address) (value : α) (state : State)
    (h : ∀ deed ∈ (record context (.ofAction action) plans address value state).deeds,
      deed.address.length < address.length + plans.length →
        (record context (.ofAction action) plans address value state).calls deed.address = 1) :
    (record context (.ofAction action) plans address value state).deedsAt
      (address.length + plans.length) = 1 := by
  induction plans generalizing address value state with
  | nil => simp [Journal.deedsAt, record, Recording.ofAction]
  | cons plan plans ih =>
    have hnext := accounts_record context action plans
    rw [List.length_cons] at h ⊢
    -- the outermost handler calls once, so that all deeds of the action are inside this one call
    obtain ⟨own, hmem, hown⟩ := Conduct.exists_mem_record
      (record context (.ofAction action) plans) address 0 state (plan value context state)
    have hcalls := h own hmem (by rw [hown]; omega)
    rw [hown] at hcalls
    obtain ⟨passed, between, hwraps⟩ := Conduct.exists_wraps_of_calls_eq_one hnext hcalls
    have hinner := ih (0 :: address) passed between fun deed hdeed hwithin => by
      have hinside := (hnext _ _ _).inside deed hdeed
      rw [← hwraps.calls_eq (Address.ne_of_cons_suffix hinside)]
      rw [List.length_cons] at hwithin
      exact h deed (hwraps.mem_of_mem hdeed) (by omega)
    rw [List.length_cons, Nat.add_right_comm] at hinner
    exact (hwraps.deedsAt_eq (by omega)).trans hinner

/-- Handlers that all call the rest once do so in each run. -/
theorem calls_eq_one (context : StageContext) (action : α → EngineM α)
    {plans : List (Plan α)} (hplans : ∀ plan ∈ plans, plan.CallsOnce context)
    (address : Address) (value : α) (state : State) :
    ∀ deed ∈ (record context (.ofAction action) plans address value state).deeds,
      deed.address.length < address.length + plans.length →
        (record context (.ofAction action) plans address value state).calls deed.address = 1 := by
  induction plans generalizing address value state with
  | nil =>
    intro deed hdeed hwithin
    have hinside := (Recording.accounts_ofAction action address value state).inside deed hdeed
    exact absurd hinside.length_le (by simpa using hwithin)
  | cons plan plans ih =>
    have hnext := accounts_record context action plans
    have hown : (record context (.ofAction action) (plan :: plans) address value state).calls
        address = 1 :=
      Conduct.calls_of_callsOnce hnext (hplans plan List.mem_cons_self value state) 0 state
    obtain ⟨passed, between, hwraps⟩ := Conduct.exists_wraps_of_calls_eq_one hnext hown
    intro deed hdeed hwithin
    rcases hwraps.address_eq_or_mem hdeed with hsame | hinner
    · rw [hsame]
      exact hown
    · have hinside := (hnext _ _ _).inside deed hinner
      refine (hwraps.calls_eq (Address.ne_of_cons_suffix hinside)).trans
        (ih (fun other hother => hplans other (List.mem_cons_of_mem _ hother)) (0 :: address) passed
          between deed hinner ?_)
      rw [List.length_cons] at hwithin ⊢
      omega

theorem runWith_eq_foldr (context : StageContext) (action : α → EngineM α)
    (handlers : List (Handler α)) : runWith context action handlers =
      handlers.foldr (fun handler next value => handler value context next) action := by
  induction handlers with
  | nil => rfl
  | cons handler handlers ih => rw [runWith, ih, List.foldr_cons]

theorem record_eq_foldr (context : StageContext) (innermost : Recording α)
    (plans : List (Plan α)) : record context innermost plans =
      plans.foldr (fun plan next address value state =>
        (plan value context state).record next address 0 state) innermost := by
  induction plans with
  | nil => rfl
  | cons plan plans ih => rw [record, ih, List.foldr_cons]

/-- Lists of handlers in a row run one inside the other. -/
theorem runWith_flatMap {ι : Type} (context : StageContext) (action : α → EngineM α)
    (handlers : ι → List (Handler α)) (stages : List ι) :
    runWith context action (stages.flatMap handlers) =
      stages.foldr (fun stage rest => runWith context rest (handlers stage)) action := by
  simp only [runWith_eq_foldr, List.foldr_flatMap]

theorem record_flatMap {ι : Type} (context : StageContext) (innermost : Recording α)
    (plans : ι → List (Plan α)) (stages : List ι) :
    record context innermost (stages.flatMap plans) =
      stages.foldr (fun stage rest => record context rest (plans stage)) innermost := by
  simp only [record_eq_foldr, List.foldr_flatMap]

end Pipeline

namespace Registry

/-- Rules are registered as what their plans make of them. -/
theorem map_handler_map_plan (rules : List (Addition (Rule α))) :
    (rules.map (Addition.map Rule.plan)).map (Addition.map Plan.handler) =
      rules.map (Addition.map Rule.handler) := by
  rw [List.map_map]
  refine List.map_congr_left fun rule _ => ?_
  rw [Function.comp_apply, Addition.map_map]
  exact congrArg (Addition.map · rule) (funext Rule.handler_plan)

/-- The handlers of some stages of a type run like the stages one inside the other, each of which
runs the handlers under its tag in their order and then the hook of the type, whatever was added to
the registry and in what order. They give and leave the same, and with the same deeds in the same
order. The action has one deed where every handler calls the rest once, be it always or in this run
only; and inside an invocation that calls nothing neither the action nor a handler further in has a
deed. -/
theorem chain_nests_stages (space type : String) (stages : List String) (context : StageContext) :
    (∀ (additions : List (Addition (Handler α))) (action : α → EngineM α),
      Pipeline.runWith context action ((ofList additions).chain space type stages) =
        stages.foldr (fun stage rest =>
          Pipeline.runWith context rest (Addition.stage additions space type stage)) action) ∧
    ∀ (additions : List (Addition (Plan α))) (action : α → EngineM α) (value : α) (state : State),
      let registry := ofList (additions.map (Addition.map Plan.handler))
      let plans := stages.flatMap (Addition.stage additions space type)
      let journal := Pipeline.record context (.ofAction action) plans [] value state
      exec (Pipeline.runWith context action (registry.chain space type stages) value) state =
          (journal.outcome, journal.state) ∧
        journal.Accounts action plans.length [] state ∧
        journal = stages.foldr (fun stage rest =>
          Pipeline.record context rest (Addition.stage additions space type stage))
            (.ofAction action) [] value state ∧
        ((∀ plan ∈ plans, plan.CallsOnce context) → journal.deedsAt plans.length = 1) ∧
        ((∀ deed ∈ journal.deeds, deed.address.length < plans.length →
            journal.calls deed.address = 1) → journal.deedsAt plans.length = 1) ∧
        ∀ address, journal.calls address = 0 →
          ∀ deed ∈ journal.deeds, address <:+ deed.address → deed.address = address := by
  refine ⟨fun additions action => ?_, fun additions action value state => ?_⟩
  · rw [chain_ofList, Pipeline.runWith_flatMap]
  intro registry plans journal
  have haccounts : journal.Accounts action plans.length [] state :=
    Pipeline.accounts_record context action plans [] value state
  have honce : (∀ deed ∈ journal.deeds, deed.address.length < plans.length →
      journal.calls deed.address = 1) → journal.deedsAt plans.length = 1 := by
    simpa using Pipeline.deedsAt_innermost context action plans [] value state
  refine ⟨?_, haccounts, ?_, fun hplans => honce ?_, honce,
    fun address hcalls => haccounts.address_eq_of_calls_eq_zero hcalls⟩
  · have hchain : registry.chain space type stages = plans.map Plan.handler := by
      rw [chain_ofList, List.map_flatMap]
      exact congrArg (stages.flatMap ·) (funext fun stage =>
        Addition.stage_map Plan.handler additions space type stage)
    rw [hchain]
    exact Pipeline.records_record context action plans [] value state
  · exact congrFun (congrFun (congrFun (Pipeline.record_flatMap context _ _ stages) []) value) state
  · simpa using Pipeline.calls_eq_one context action hplans [] value state

section

/-- A rule that leaves a note before the rest of the pipeline and one behind it. -/
private def recorder (label : String) : Rule Document :=
  { label := some label, failure := .authorization label, before := fun _ doc => some doc
    combine := fun first _ => first, after := id }

/-- A rule that refuses documents with fields. -/
private def emptyOnly : Rule Document :=
  { recorder "create" with before := fun _ doc => if doc.isEmpty then some doc else none }

/-- A rule that leaves the rest of the pipeline out. -/
private def closed : Rule Document := { recorder "create" with stop := true }

/-- Rules for creations, with one for another type in between. -/
private def rulesWith (inner : Rule Document) : List (Addition (Rule Document)) :=
  [.tagged "default::EmpleadoCreate" inner, .tagged "default::AutorWrite" (recorder "autor"),
    .typed "Empleado" fun name => if name = "create" then some (recorder "hook") else none,
    .tagged "default::EmpleadoWrite" (recorder "write")]

private def plansWith (inner : Rule Document) : List (Plan Document) :=
  ["Write", "Create"].flatMap
    (Addition.stage ((rulesWith inner).map (Addition.map Rule.plan)) "default" "Empleado")

private theorem plansWith_eq (inner : Rule Document) : plansWith inner =
    [(recorder "write").plan, inner.plan, (recorder "hook").plan] := by
  unfold plansWith
  cbv

private def creation : StageContext := ⟨"r1", "default", "Empleado", some "create"⟩

private def keep (doc : Document) : EngineM Document := do
  EngineM.note "kept"
  return doc

private def journalWith (inner : Rule Document) : Journal Document :=
  Pipeline.record creation (.ofAction keep) (plansWith inner) [] [] {}

private theorem callsOnce_recorder (label : String) : (recorder label).plan.CallsOnce creation :=
  Rule.plan_callsOnce rfl (fun _ => rfl) rfl rfl

private theorem callsOnce_plansWith (label : String) :
    ∀ plan ∈ plansWith (recorder label), plan.CallsOnce creation := by
  rw [plansWith_eq]
  simp [callsOnce_recorder]

private theorem calls_emptyOnly : ∀ deed ∈ (journalWith emptyOnly).deeds,
    deed.address.length < (plansWith emptyOnly).length →
      (journalWith emptyOnly).calls deed.address = 1 := by
  rw [journalWith, plansWith_eq]
  decide +kernel

private theorem calls_closed : (journalWith closed).calls [0] = 0 := by
  rw [journalWith, plansWith_eq]
  decide +kernel

/-- Where all handlers run the rest once a document is kept once, also where one of them refuses
other documents, and the notes are in the order of the stages. Inside a handler that leaves the rest
out there is nothing but its own deed. -/
theorem chain_nests_stages_creation :
    ((∀ plan ∈ plansWith (recorder "create"), plan.CallsOnce creation) ∧
      (journalWith (recorder "create")).deedsAt 3 = 1 ∧
      (exec (Pipeline.runWith creation keep
        ((ofList ((rulesWith (recorder "create")).map (Addition.map Rule.handler))).chain
          "default" "Empleado" ["Write", "Create"]) []) {}).2.notes =
        ["write:before", "create:before", "hook:before", "kept", "hook:after", "create:after",
          "write:after"]) ∧
    ((∀ deed ∈ (journalWith emptyOnly).deeds, deed.address.length < (plansWith emptyOnly).length →
        (journalWith emptyOnly).calls deed.address = 1) ∧ (journalWith emptyOnly).deedsAt 3 = 1) ∧
    (journalWith closed).calls [0] = 0 ∧
      ∀ deed ∈ (journalWith closed).deeds, [0] <:+ deed.address → deed.address = [0] := by
  have hnests (inner : Rule Document) := (chain_nests_stages (α := Document) "default" "Empleado"
    ["Write", "Create"] creation).2 ((rulesWith inner).map (Addition.map Rule.plan)) keep [] {}
  have hlength (inner : Rule Document) : (plansWith inner).length = 3 := by
    rw [plansWith_eq]
    rfl
  refine ⟨⟨callsOnce_plansWith "create", ?_, ?_⟩, ⟨calls_emptyOnly, ?_⟩, calls_closed, ?_⟩
  · rw [← hlength (recorder "create")]
    exact (hnests (recorder "create")).2.2.2.1 (callsOnce_plansWith "create")
  · have hrun := (hnests (recorder "create")).1
    rw [map_handler_map_plan] at hrun
    rw [hrun]
    change (journalWith (recorder "create")).state.notes = _
    rw [journalWith, plansWith_eq]
    decide +kernel
  · rw [← hlength emptyOnly]
    exact (hnests emptyOnly).2.2.2.2.1 calls_emptyOnly
  · exact (hnests closed).2.2.2.2.2 [0] calls_closed

end

end Registry

end DocumentEngine
