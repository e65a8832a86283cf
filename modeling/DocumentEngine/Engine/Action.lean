import DocumentEngine.Engine.Error
import DocumentEngine.State

/-!
What the engine does: actions that fail with an error or change the state. What an action changed
before it failed stays changed.
-/

namespace DocumentEngine

/-- Actions of the engine. -/
abbrev EngineM := ExceptT EngineError (StateM State)

namespace EngineM

variable {α : Type}

/-- An action of the store. -/
def ofStore (x : ExceptT StoreError (StateM State) α) : EngineM α :=
  ExceptT.mk do
    match ← x.run with
    | .ok a => return .ok a
    | .error e => return .error (.ofStore e)

/-- An outcome as an action that changes nothing. -/
def lift (x : Except EngineError α) : EngineM α := MonadExcept.ofExcept x

/-- A compiled filter or query. -/
def ofFilter (x : Except FilterError α) : EngineM α := lift (x.mapError .compile)

/-- Writes the log line of an event. -/
def report (event : Event) (fields : List (String × String)) : EngineM Unit :=
  modify fun state => state.report event fields

/-- Changes the counters. -/
def count (f : Metrics → Metrics) : EngineM Unit := modify fun state => state.count f

/-- Leaves a note. -/
def note (text : String) : EngineM Unit := modify fun state => state.note text

/-- The outcome of an action, which does not fail itself. -/
def outcome (x : EngineM α) : EngineM (Except EngineError α) := ExceptT.mk do
  return .ok (← x.run)

end EngineM

end DocumentEngine
