import DocumentEngine.FileTree.Basic
import DocumentEngine.Json.Record
import DocumentEngine.Observability.Log

/-!
The configuration of an engine. Only the directory of the data has to be given.
-/

namespace DocumentEngine

/-- Why a configuration is refused. -/
inductive ConfigError where
  | read (path reason : String)
  | malformed
  | invalid (field reason : String)
  deriving DecidableEq

namespace ConfigError

/-- The name of the kind of error. -/
def kind : ConfigError → String
  | .read _ _ => "Read"
  | .malformed => "Parse"
  | .invalid _ _ => "Invalid"

/-- The message of the error. -/
def message : ConfigError → String
  | .read path reason => s!"Failed to read config {path}: {reason}"
  | .malformed => s!"Invalid config JSON: {Json.faultPlace}"
  | .invalid field reason => s!"Invalid config value for '{field}': {reason}"

/-- The field that a value is refused for. -/
def field? : ConfigError → Option String
  | .invalid field _ => some field
  | _ => none

end ConfigError

/-- A configuration. -/
structure Config where
  dataDir : String
  space : String := "default"
  schemaPath : Option String := none
  maxLimit : Nat := 1000
  logLevel : String := "info"
  sweepOnOpen : Bool := true
  deriving DecidableEq

namespace Config

open Json (Written)

/-- A configuration from its record. -/
def ofWritten? (w : Written) : Option Config := do
  let names :=
    ["data_dir", "namespace", "schema_path", "max_limit", "log_level", "sweep_temp_on_open"]
  match ← w.record? names with
  | [dataDir, space, schemaPath, maxLimit, logLevel, sweep] =>
    let dataDir ← Written.required? Written.string? dataDir
    let space ← Written.optional? "default" Written.string? space
    let schemaPath ← Written.optional? none (Written.nullable? Written.string?) schemaPath
    let maxLimit ← Written.optional? 1000 Written.count? maxLimit
    let logLevel ← Written.optional? "info" Written.string? logLevel
    let sweep ← Written.optional? true Written.flag? sweep
    return ⟨dataDir, space, schemaPath, maxLimit, logLevel, sweep⟩
  | _ => none

/-- The record of a configuration. -/
def toJson (c : Config) : Json := Json.object [
  ("data_dir", .str c.dataDir), ("namespace", .str c.space),
  ("schema_path", Json.strOrNull c.schemaPath), ("max_limit", .int c.maxLimit),
  ("log_level", .str c.logLevel), ("sweep_temp_on_open", .bool c.sweepOnOpen)]

/-- The least severity that is logged. -/
def severity (c : Config) : Except ConfigError Severity :=
  match Severity.ofName? c.logLevel with
  | some severity => .ok severity
  | none =>
    .error (.invalid "log_level"
      s!"'{c.logLevel}' is not one of trace, info, warn, error, fatal")

/-- Whether a namespace is the name of one directory. -/
def isPlainName (name : String) : Bool :=
  !name.toList.contains '/' && !name.toList.contains '\\' && name ≠ "." && name ≠ ".."

/-- Checks the values of a configuration, in the order of its fields. -/
def check (c : Config) : Except ConfigError Unit := do
  if c.dataDir = "" then throw (.invalid "data_dir" "must not be empty")
  if Text.trim c.space = "" then throw (.invalid "namespace" "must not be empty")
  if !isPlainName c.space then
    throw (.invalid "namespace" s!"'{c.space}' is not a plain directory name")
  if c.maxLimit = 0 then throw (.invalid "max_limit" "must be > 0")
  discard c.severity

/-- The checked configuration of a text. -/
def ofText (text : String) : Except ConfigError Config := do
  match Written.ofText? text >>= ofWritten? with
  | none => throw .malformed
  | some c =>
    c.check
    return c

/-- The checked configuration in a file. -/
def load (files : FileTree) (path : Path) : Except ConfigError Config :=
  match files.readText path with
  | .error e => .error (.read path.text e.message)
  | .ok text => ofText text

end Config

end DocumentEngine
