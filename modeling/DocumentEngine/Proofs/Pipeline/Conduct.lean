import DocumentEngine.Pipeline.Rule
import DocumentEngine.Proofs.State

/-!
What a handler does with the rest of a pipeline, step by step. All that it can do with the rest is
run it on a value and go on with what comes back, none or several times; so a handler follows a
plan, and the plan shows how often the rest is run. Every handler that a rule describes has one.
-/

namespace DocumentEngine

open Action

variable {α : Type}

/-- What a handler does from a point on: it returns, or it calls the rest of the pipeline with a
value and resumes with the outcome and the state that the rest leaves. Either comes with the state
that the handler itself has made by then. -/
inductive Conduct (α : Type) where
  | returns (outcome : Except EngineError α) (state : State)
  | calls (value : α) (state : State) (resume : Except EngineError α → State → Conduct α)

namespace Conduct

/-- The outcome and the state at the end, where the rest of the pipeline is an action. -/
def run (next : α → EngineM α) : Conduct α → Except EngineError α × State
  | .returns outcome state => (outcome, state)
  | .calls value state resume =>
    let (outcome, after) := exec (next value) state
    (resume outcome after).run next

/-- The rest of the pipeline is called exactly once, whatever comes back. -/
def CallsOnce : Conduct α → Prop
  | .returns _ _ => False
  | .calls _ _ resume => ∀ outcome after, ∃ result last, resume outcome after = .returns result last

end Conduct

/-- What a handler does with a value, in a context and from a state on. -/
abbrev Plan (α : Type) := α → StageContext → State → Conduct α

namespace Plan

/-- In a context, whatever its value, the handler of a plan calls the rest exactly once. -/
def CallsOnce (plan : Plan α) (context : StageContext) : Prop :=
  ∀ value state, (plan value context state).CallsOnce

/-- The handler that follows a plan. -/
def handler (plan : Plan α) : Handler α := fun value context next =>
  ExceptT.mk fun state => (plan value context state).run next

theorem exec_handler (plan : Plan α) (value : α) (context : StageContext) (next : α → EngineM α)
    (state : State) :
    exec (plan.handler value context next) state = (plan value context state).run next := rfl

/-- A handler that does what a plan says is the handler of that plan. -/
theorem handler_eq {plan : Plan α} {handler : Handler α}
    (h : ∀ value context next state,
      exec (handler value context next) state = (plan value context state).run next) :
    plan.handler = handler := by
  funext value context next
  exact funext fun state => (h value context next state).symm

end Plan

namespace Rule

/-- The state with the note of a rule. -/
def traced (r : Rule α) (point : String) (state : State) : State :=
  match r.label with
  | some label => state.note s!"{label}:{point}"
  | none => state

theorem exec_trace_eq (r : Rule α) (point : String) (state : State) :
    exec (r.trace point) state = (.ok ⟨⟩, r.traced point state) := by
  unfold trace traced
  cases r.label <;> rfl

/-- What a rule does behind the rest of the pipeline. -/
def finish (r : Rule α) (state : State) : Except EngineError α → Conduct α
  | .error cause => .returns (.error cause) state
  | .ok result =>
    if r.denyAfter then .returns (.error r.failure) state
    else .returns (.ok (r.after result)) (r.traced "after" state)

/-- What a rule that runs the rest once takes for the outcome of the rest. -/
def settled (r : Rule α) (value : α) : Except EngineError α → Except EngineError α
  | .error cause => if r.recover then .ok value else .error cause
  | .ok result => .ok result

/-- What a rule does with the first outcome of the rest of the pipeline. -/
def resume (r : Rule α) (value : α) (outcome : Except EngineError α) (state : State) : Conduct α :=
  if r.twice then
    match outcome with
    | .error cause => .returns (.error cause) state
    | .ok first =>
      .calls value state fun second after => r.finish after (second.map (r.combine first))
  else r.finish state (r.settled value outcome)

/-- The plan of a rule. -/
def plan (r : Rule α) : Plan α := fun value context state =>
  let traced := r.traced "before" state
  if r.deny then .returns (.error r.failure) traced
  else
    match r.before context value with
    | none => .returns (.error r.failure) traced
    | some passed =>
      if r.stop then .returns (.ok passed) traced else .calls passed traced (r.resume passed)

/-- What a handler does with the outcome of the rest, as an action. -/
theorem run_finish (r : Rule α) (next : α → EngineM α) {x : EngineM α}
    {outcome : Except EngineError α} {state after : State}
    (h : exec x state = (outcome, after)) :
    (r.finish after outcome).run next =
      exec (do
        let result ← x
        if r.denyAfter then throw r.failure
        r.trace "after"
        return r.after result : EngineM α) state := by
  cases outcome with
  | error cause => exact (exec_bind_error h).symm
  | ok result =>
    rw [exec_bind_ok h, finish]
    cases r.denyAfter with
    | true => rfl
    | false =>
      simp only [Bool.false_eq_true, if_false]
      rw [exec_bind_ok (exec_trace_eq r "after" after)]
      rfl

theorem run_resume (r : Rule α) (value : α) (next : α → EngineM α) (state : State) :
    (Conduct.calls value state (r.resume value)).run next =
      exec (do
        let result ← r.proceed value next
        if r.denyAfter then throw r.failure
        r.trace "after"
        return r.after result : EngineM α) state := by
  rcases hfirst : exec (next value) state with ⟨outcome, after⟩
  simp only [Conduct.run, hfirst, resume]
  cases htwice : r.twice with
  | false =>
    refine r.run_finish next ?_
    rw [proceed, htwice, if_neg Bool.false_ne_true, exec_bind_ok (exec_outcome _ _), hfirst]
    cases outcome with
    | ok result => rfl
    | error cause =>
      dsimp only [settled]
      split <;> rfl
  | true =>
    cases outcome with
    | error cause =>
      refine (exec_bind_error ?_).symm
      rw [proceed, htwice, if_pos rfl, exec_bind_error hfirst]
    | ok first =>
      rcases hsecond : exec (next value) after with ⟨second, last⟩
      simp only [if_true, Conduct.run, hsecond]
      refine r.run_finish next ?_
      rw [proceed, htwice, if_pos rfl, exec_bind_ok hfirst, exec_bind, hsecond]
      cases second <;> rfl

/-- The handler that a rule describes follows the plan of the rule. -/
theorem handler_plan (r : Rule α) : r.plan.handler = r.handler := by
  refine Plan.handler_eq fun value context next state => ?_
  rw [handler, exec_bind_ok (exec_trace_eq r "before" state), plan]
  cases r.deny with
  | true => rfl
  | false =>
    simp only [Bool.false_eq_true, if_false]
    cases r.before context value with
    | none => rfl
    | some passed =>
      cases r.stop with
      | true => rfl
      | false => exact (r.run_resume passed next (r.traced "before" state)).symm

theorem exists_finish_eq_returns (r : Rule α) (outcome : Except EngineError α) (state : State) :
    ∃ result last, r.finish state outcome = .returns result last := by
  cases outcome with
  | error cause => exact ⟨_, _, rfl⟩
  | ok result =>
    rw [finish]
    split
    · exact ⟨_, _, rfl⟩
    · exact ⟨_, _, rfl⟩

/-- A rule that refuses no value, leaves the rest in and runs it not twice runs it once. -/
theorem plan_callsOnce {r : Rule α} {context : StageContext} (hdeny : r.deny = false)
    (hbefore : ∀ value, (r.before context value).isSome = true) (hstop : r.stop = false)
    (htwice : r.twice = false) : r.plan.CallsOnce context := by
  intro value state
  obtain ⟨passed, hpassed⟩ := Option.isSome_iff_exists.mp (hbefore value)
  simp only [plan, hdeny, hpassed, hstop, Bool.false_eq_true, if_false]
  intro outcome after
  simp only [resume, htwice, Bool.false_eq_true, if_false]
  exact r.exists_finish_eq_returns _ after

end Rule

end DocumentEngine
