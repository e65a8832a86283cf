import DocumentEngine.Engine.Action
import DocumentEngine.Text.Case

/-!
Pipelines: handlers one inside the other around an action. A handler gets a value and the rest of
the pipeline; it may change the value, run the rest, change what comes back, or leave the rest out.
Handlers are registered under a tag of the namespace, the type and the name of the stage; a type may
have one hook more for a stage, which runs inside the tagged handlers.
-/

namespace DocumentEngine

/-- What handlers know of the request they run in. -/
structure StageContext where
  requestId : String
  space : String
  type : String
  operation : Option String := none
  deriving DecidableEq

/-- A stage around the rest of a pipeline. -/
abbrev Handler (α : Type) := α → StageContext → (α → EngineM α) → EngineM α

namespace Pipeline

variable {α : Type}

/-- Runs handlers around an action, the first of them outermost. -/
def runWith (context : StageContext) (innermost : α → EngineM α) :
    List (Handler α) → α → EngineM α
  | [] => innermost
  | handler :: rest => fun value => handler value context (runWith context innermost rest)

/-- Runs handlers around the action that gives back its value. -/
def run (context : StageContext) (handlers : List (Handler α)) (value : α) : EngineM α :=
  runWith context pure handlers value

end Pipeline

/-- Handlers under tags in the order of their registration, and the hooks of types under the name
of a stage in lower case. -/
structure Registry (α : Type) where
  handlers : Keyed (List (Handler α)) := []
  typeHooks : Keyed (String → Option (Handler α)) := []

namespace Registry

variable {α : Type}

/-- The tag of a stage. -/
def tag (space type stage : String) : String := s!"{space}::{type}{stage}"

/-- The stage that narrows filters. -/
def restrictionStage : String := "Restriction"

/-- The stage behind reads. -/
def readStage : String := "Read"

/-- Registers a handler behind those under the same tag. -/
def register (r : Registry α) (tag : String) (handler : Handler α) : Registry α :=
  { r with handlers := r.handlers.update tag [] (· ++ [handler]) }

/-- Registers the hooks of a type, in place of those it had. -/
def registerTypeHooks (r : Registry α) (type : String) (hooks : String → Option (Handler α)) :
    Registry α :=
  { r with typeHooks := r.typeHooks.insert type hooks }

/-- The handlers under a tag. -/
def get (r : Registry α) (tag : String) : List (Handler α) := (r.handlers.get? tag).getD []

/-- Whether there are handlers under a tag. -/
def has (r : Registry α) (tag : String) : Bool := !(r.get tag).isEmpty

/-- The hook of a type for a stage. -/
def hook? (r : Registry α) (type stage : String) : Option (Handler α) := do
  (← r.typeHooks.get? type) (Text.lower stage)

/-- The handlers of a stage: those under its tag, then the hook of the type. -/
def handlersFor (r : Registry α) (space type stage : String) : List (Handler α) :=
  r.get (tag space type stage) ++ (r.hook? type stage).toList

/-- The handlers of stages one inside the other, the first stage outermost. -/
def chain (r : Registry α) (space type : String) (stages : List String) : List (Handler α) :=
  stages.flatMap fun stage => r.handlersFor space type stage

end Registry

end DocumentEngine
