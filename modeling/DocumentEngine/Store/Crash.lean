import DocumentEngine.Store.Write
import DocumentEngine.Store.Scan

/-!
Crashes in the middle of an operation. Whatever stands on the disk at the point of the crash is
what is left; an operation that does not come to the point runs to its end.
-/

namespace DocumentEngine.Store

/-- Where an operation may be cut off. -/
inductive CrashPoint where
  | beforeStage
  | afterStage
  | afterRename
  | beforeDelete
  deriving DecidableEq

namespace CrashPoint

/-- The written name of a crash point. -/
def name : CrashPoint → String
  | .beforeStage => "store_before_stage"
  | .afterStage => "store_after_stage"
  | .afterRename => "store_after_rename"
  | .beforeDelete => "store_before_delete"

/-- The crash point of a name. -/
def ofName? (name : String) : Option CrashPoint :=
  [beforeStage, afterStage, afterRename, beforeDelete].find? fun p => p.name == name

end CrashPoint

/-- An operation of the store. -/
inductive Step where
  | create (type id : String) (doc : Document)
  | replace (type id : String) (doc : Document)
  | delete (type id : String)
  | load (type id : String)
  | fetch (type : String) (query : Query)
  | stage (type id : String) (doc : Document)
  | sweep

/-- Stages content up to a crash point, if there is one, and tells whether it was reached. -/
def stageUntil (s : Store) (point : Option CrashPoint) (type id : String) (doc : Document) :
    StoreM Bool := do
  let path ← lift (s.documentPath type id)
  prepare path
  if point = some .beforeStage then return true
  discard (fill path doc)
  return point = some .afterStage

/-- Writes a document up to a crash point and tells whether it was reached. -/
def writeUntil (s : Store) (point : Option CrashPoint) (type id : String) (doc : Document) :
    StoreM Bool := do
  if point = some .beforeStage || point = some .afterStage then s.stageUntil point type id doc
  else
    publish (← s.stage type id doc)
    if point = some .afterRename then return true
    s.reportWrite type id
    return false

/-- Runs an operation up to a crash point and tells whether it was reached. -/
def runUntil (s : Store) (point : Option CrashPoint) : Step → StoreM Bool
  | .create type id doc => do
    s.checkAbsent type id
    s.writeUntil point type id doc
  | .replace type id doc => do
    s.checkPresent type id
    s.writeUntil point type id doc
  | .delete type id => do
    let path ← lift (s.documentPath type id)
    if point = some .beforeDelete && (← get).files.isPresent path then return true
    discard (s.delete type id)
    return false
  | .load type id => do
    discard (s.load type id)
    return false
  | .fetch type query => do
    discard (s.fetch type query)
    return false
  | .stage type id doc => s.stageUntil point type id doc
  | .sweep => do
    discard s.sweep
    return false

end DocumentEngine.Store
