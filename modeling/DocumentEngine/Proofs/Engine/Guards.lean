import DocumentEngine.Proofs.Engine.Quiet
import Mathlib.Data.List.Forall2

/-!
Guards behind reads. A guard is a handler that refuses some documents and passes on all others as
they are; guards one inside the other refuse what one of them refuses, with the error of the
outermost. Rules that change nothing are guards.
-/

namespace DocumentEngine

open Action

/-- A handler that refuses some documents, and for all others gives what the rest of the pipeline
gives for them. -/
def Handler.Guards (handler : Handler Document) (context : StageContext)
    (refusal : Document → Option EngineError) : Prop :=
  ∀ doc next state, ∃ between : State, between.Alike state ∧
    match refusal doc with
    | some cause => exec (handler doc context next) state = (.error cause, between)
    | none =>
      (exec (handler doc context next) state).1 = (exec (next doc) between).1 ∧
        (exec (handler doc context next) state).2.Alike (exec (next doc) between).2

/-- Guards give the document back, unless one of them refuses it. -/
theorem Pipeline.exec_run_guards {context : StageContext} {handlers : List (Handler Document)}
    {refusals : List (Document → Option EngineError)}
    (h : List.Forall₂ (fun handler refusal => handler.Guards context refusal) handlers refusals)
    (doc : Document) (state : State) :
    ∃ after, exec (run context handlers doc) state =
      ((refusals.findSome? fun refusal => refusal doc).elim (.ok doc) .error, after) ∧
        after.Alike state := by
  induction h generalizing state with
  | nil => exact ⟨state, rfl, .refl state⟩
  | @cons handler refusal rest refusals hhead _ ih =>
    obtain ⟨between, hbetween, hguards⟩ := hhead doc (runWith context pure rest) state
    rw [List.findSome?_cons]
    cases hrefused : refusal doc with
    | some cause =>
      rw [hrefused] at hguards
      exact ⟨between, hguards, hbetween⟩
    | none =>
      rw [hrefused] at hguards
      obtain ⟨hvalue, hleft⟩ := hguards
      obtain ⟨after, hrest, hafter⟩ := ih between
      change exec (runWith context pure rest doc) between = _ at hrest
      rw [hrest] at hvalue hleft
      exact ⟨(exec (handler doc context (runWith context pure rest)) state).2,
        Prod.ext hvalue rfl, hleft.trans (hafter.trans hbetween)⟩

/-- A rule that changes nothing, runs the rest once and lets its errors through is a guard. -/
theorem Rule.guards {r : Rule Document} {context : StageContext} {refuses : Document → Bool}
    (hdeny : r.deny = false)
    (hbefore : ∀ doc, r.before context doc = if refuses doc then none else some doc)
    (hstop : r.stop = false) (htwice : r.twice = false) (hrecover : r.recover = false)
    (hafter : r.after = id) (hdenyAfter : r.denyAfter = false) :
    r.handler.Guards context fun doc => if refuses doc then some r.failure else none := by
  intro doc next state
  obtain ⟨traced, htraced, halike⟩ := r.exec_trace "before" state
  refine ⟨traced, halike, ?_⟩
  have hpassed := hbefore doc
  dsimp only
  unfold handler
  rw [exec_bind_ok htraced]
  cases hrefuses : refuses doc with
  | true =>
    rw [hrefuses, if_pos rfl] at hpassed
    simp only [hdeny, hpassed, Bool.false_eq_true, if_false, if_true]
    rfl
  | false =>
    rw [hrefuses, if_neg Bool.false_ne_true] at hpassed
    simp only [hdeny, hpassed, hstop, hdenyAfter, hafter, id_eq, Bool.false_eq_true, if_false]
    rw [exec_bind, exec_proceed htwice hrecover]
    rcases exec (next doc) traced with ⟨cause | result, left⟩
    · exact ⟨rfl, .refl left⟩
    · obtain ⟨last, hlast, hlate⟩ := r.exec_trace "after" left
      dsimp only
      rw [exec_bind_ok hlast]
      exact ⟨rfl, hlate⟩

/-- An engine with guards behind its reads refuses what one of them refuses. -/
theorem Engine.refuses_of_guards {e : Engine} {requestId : String}
    (hunrestricted : ∀ type,
      e.restrictions.handlersFor e.space type Registry.restrictionStage = [])
    (hunredacted : ∀ type doc, e.collaborators.redact e.space type doc = doc)
    {refusals : String → List (Document → Option EngineError)}
    (h : ∀ type, List.Forall₂
      (fun handler refusal => handler.Guards (e.contextOf requestId type) refusal)
      (e.hooks.handlersFor e.space type Registry.readStage) (refusals type)) :
    e.Refuses requestId fun type doc => (refusals type).findSome? fun refusal => refusal doc where
  unrestricted := hunrestricted
  unredacted := hunredacted
  handles type doc state := Pipeline.exec_run_guards (h type) doc state

end DocumentEngine
