import DocumentEngine.Engine.Basic
import DocumentEngine.Schema.Structure
import DocumentEngine.Schema.Json
import DocumentEngine.Store.Write

/-!
Opening an engine: the configuration and the schema are checked, the operations collected and the
store opened, in this order, and the first failure ends it.
-/

namespace DocumentEngine.Engine

/-- Checks a configuration and takes its severity as the least one that is logged. -/
def applyConfig (config : Config) : EngineM Unit := do
  EngineM.lift (config.check.mapError .config)
  let severity ← EngineM.lift (config.severity.mapError .config)
  modify fun state => { state with log := { state.log with threshold := severity } }

/-- The checked configuration in a file. -/
def loadConfig (path : Path) : EngineM Config := do
  let config ← EngineM.lift ((Config.load (← get).files path).mapError .config)
  EngineM.report .configLoaded [("path", path.text), ("namespace", config.space)]
  return config

/-- The schema in a file. -/
def loadSchema (path : Path) : EngineM Schema := do
  match (← get).files.readText path with
  | .error cause =>
    throw (.schema (.malformed path.text s!"Failed to read file: {cause.message}"))
  | .ok text =>
    let s ← EngineM.lift ((Schema.ofText path.text text).mapError .schema)
    EngineM.report .schemaLoaded [("path", path.text), ("types", toString s.types.length)]
    return s

/-- Removes what interrupted writes left behind, if the configuration asks for it. -/
def sweepOnOpen (config : Config) (store : Store) : EngineM Nat :=
  if config.sweepOnOpen then EngineM.ofStore store.sweep else return 0

/-- Opens an engine with a schema. The counters start anew. -/
def ofSchema (config : Config) (s : Schema) : EngineM Engine := do
  applyConfig config
  EngineM.report .bootStart [("data_dir", config.dataDir), ("namespace", config.space)]
  EngineM.lift (s.check.mapError .schema)
  let catalog ← EngineM.lift ((Catalog.ofSchema config.space s).mapError .mutation)
  EngineM.count fun _ => {}
  let store ← EngineM.ofStore (Store.openAt ⟨config.dataDir⟩ config.space s)
  let swept ← sweepOnOpen config store
  let engine : Engine :=
    { config := config, store := store, catalog := catalog
      collaborators := .permissive s }
  EngineM.report .bootComplete
    [("namespace", config.space), ("types", toString s.types.length),
     ("mutations", toString engine.mutations.length), ("temp_files_swept", toString swept)]
  return engine

/-- Opens an engine with the schema file that its configuration names. -/
def ofConfig (config : Config) : EngineM Engine := do
  applyConfig config
  match config.schemaPath with
  | none => throw (.config (.invalid "schema_path" "required when no schema is supplied"))
  | some path => do ofSchema config (← loadSchema ⟨path⟩)

end DocumentEngine.Engine
