import DocumentEngine.Json.Printer

/-!
What is worth a log line: severities, and the events of the engine with theirs. Log lines are JSON:
event, severity and time first, then the fields in key order. Lines below the threshold are not
written; errors go to a stream of their own.
-/

namespace DocumentEngine

/-- How severe a log line is. -/
inductive Severity where
  | trace
  | info
  | warn
  | error
  | fatal
  deriving DecidableEq

namespace Severity

/-- The written name of a severity. -/
def name : Severity → String
  | .trace => "TRACE"
  | .info => "INFO"
  | .warn => "WARN"
  | .error => "ERROR"
  | .fatal => "FATAL"

/-- The place of a severity, the mildest first. -/
def rank : Severity → Nat
  | .trace => 0
  | .info => 1
  | .warn => 2
  | .error => 3
  | .fatal => 4

/-- The severity of a configured name, the case of ASCII letters aside. -/
def ofName? (name : String) : Option Severity :=
  match String.ofList (name.toList.map Char.toUpper) with
  | "TRACE" => some .trace
  | "INFO" => some .info
  | "WARN" => some .warn
  | "WARNING" => some .warn
  | "ERROR" => some .error
  | "FATAL" => some .fatal
  | _ => none

end Severity

/-- What the engine reports. -/
inductive Event where
  | bootStart
  | bootComplete
  | configLoaded
  | schemaLoaded
  | documentsFetched
  | documentWritten
  | documentDeleted
  | tempFileSwept
  | requestExecuted
  | batchLoaded
  | mutationRejected
  | fieldFailed
  deriving DecidableEq

namespace Event

/-- The name of the event in a log line. -/
def name : Event → String
  | .bootStart => "ENGINE_STARTUP_BEGIN"
  | .bootComplete => "ENGINE_STARTUP_COMPLETE"
  | .configLoaded => "CONFIG_LOADED"
  | .schemaLoaded => "SCHEMA_LOADED"
  | .documentsFetched => "STORE_FETCH"
  | .documentWritten => "STORE_WRITE"
  | .documentDeleted => "STORE_DELETE"
  | .tempFileSwept => "STORE_TEMP_SWEPT"
  | .requestExecuted => "REQUEST_COMPLETE"
  | .batchLoaded => "BATCH_LOADED"
  | .mutationRejected => "MUTATION_REJECTED"
  | .fieldFailed => "FIELD_FAILED"

/-- Every event. -/
def all : List Event :=
  [.bootStart, .bootComplete, .configLoaded, .schemaLoaded, .documentsFetched, .documentWritten,
   .documentDeleted, .tempFileSwept, .requestExecuted, .batchLoaded, .mutationRejected,
   .fieldFailed]

/-- The event of a name. -/
def ofName? (name : String) : Option Event := all.find? fun e => e.name == name

/-- Whether the event is a failure. -/
def isFailure : Event → Bool
  | .mutationRejected => true
  | .fieldFailed => true
  | _ => false

/-- Failures are warnings and the routine traffic of the store is traced; the rest informs. -/
def severity : Event → Severity
  | .mutationRejected => .warn
  | .fieldFailed => .warn
  | .documentsFetched => .trace
  | .batchLoaded => .trace
  | _ => .info

end Event

/-- The lines written so far, the least severity that is written, and the time on the clock. -/
structure Log where
  threshold : Severity := .info
  clock : String := "1970-01-01T00:00:00.000Z"
  out : List String := []
  err : List String := []

namespace Log

/-- Whether lines of a severity are written. -/
def enabled (log : Log) (severity : Severity) : Bool := log.threshold.rank ≤ severity.rank

/-- A line of a log. Of two fields with one key the last counts. -/
def line (clock : String) (severity : Severity) (event : String)
    (fields : List (String × String)) : String :=
  let shown := (Keyed.ofList fields).map fun (k, v) => s!",{Json.quoted k}:{Json.quoted v}"
  "\x7b\"event\":" ++ Json.quoted event ++ ",\"severity\":\"" ++ severity.name ++
    "\",\"ts\":\"" ++ clock ++ "\"" ++ String.join shown ++ "\x7d"

/-- The log with a line more, if its severity is enabled. -/
def write (log : Log) (severity : Severity) (event : String) (fields : List (String × String)) :
    Log :=
  if !log.enabled severity then log
  else
    let entry := line log.clock severity event fields
    if Severity.error.rank ≤ severity.rank then { log with err := log.err ++ [entry] }
    else { log with out := log.out ++ [entry] }

/-- The log with the line of an event. -/
def report (log : Log) (event : Event) (fields : List (String × String)) : Log :=
  log.write event.severity event.name fields

end Log

end DocumentEngine
