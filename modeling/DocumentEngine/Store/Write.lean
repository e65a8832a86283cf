import DocumentEngine.Json.Printer
import DocumentEngine.Store.Basic

/-!
Writing documents. The new content goes to a file of its own beside the document, and a single
rename puts it in place; until then the document is what it was before. Opening a store sweeps away
what interrupted writes left behind.
-/

namespace DocumentEngine

/-- New content that is written but not yet in place. -/
structure StagedWrite where
  final : Path
  temp : Path
  deriving DecidableEq

namespace Store

/-- Makes the directory that is to hold a file. -/
def prepare (path : Path) : StoreM Unit := do
  let state ← get
  let parent := path.parent
  let (outcome, files) := state.files.makeDirectories parent (parent.names.length + 1)
  set { state with files := files }
  match outcome with
  | .ok () => return ()
  | .error cause => throw (.io parent cause)

/-- A path beside a file that no other write uses. -/
def tempPath (path : Path) : StoreM Path := do
  let (id, state) := (← get).mint
  set state
  let nonce := String.ofList (id.toList.filter (· ≠ '-'))
  return path.withName (path.fileName ++ "." ++ nonce ++ tempSuffix)

/-- Writes the content of a document beside its file. -/
def fill (path : Path) (doc : Document) : StoreM StagedWrite := do
  let temp ← tempPath path
  let state ← get
  match state.files.createFile temp (Json.pretty (.obj doc)) with
  | .error cause => throw (.io temp cause)
  | .ok files =>
    set { state with files := files }
    return ⟨path, temp⟩

/-- Writes the content of a document without putting it in place. -/
def stage (s : Store) (type id : String) (doc : Document) : StoreM StagedWrite := do
  let path ← lift (s.documentPath type id)
  prepare path
  fill path doc

/-- Puts staged content in place. -/
def publish (staged : StagedWrite) : StoreM Unit := do
  let state ← get
  match state.files.rename staged.temp staged.final with
  | .error cause => throw (.io staged.final cause)
  | .ok files => set { state with files := files }

/-- Counts and reports a document that was written. -/
def reportWrite (s : Store) (type id : String) : StoreM Unit :=
  modify fun state => (state.count Metrics.countWrite).report .documentWritten
    [("namespace", s.space), ("type", type), ("id", id)]

/-- Writes a document, new or not. -/
def write (s : Store) (type id : String) (doc : Document) : StoreM Unit := do
  publish (← s.stage type id doc)
  s.reportWrite type id

/-- A new document may be written: nothing stands under its id. -/
def checkAbsent (s : Store) (type id : String) : StoreM Unit := do
  let path ← lift (s.documentPath type id)
  if (← get).files.isPresent path then throw (.alreadyExists type id)

/-- A document may be replaced: something stands under its id. -/
def checkPresent (s : Store) (type id : String) : StoreM Unit := do
  let path ← lift (s.documentPath type id)
  if !(← get).files.isPresent path then throw (.notFound type id)

/-- Writes a new document. -/
def create (s : Store) (type id : String) (doc : Document) : StoreM Unit := do
  s.checkAbsent type id
  s.write type id doc

/-- Replaces a stored document. -/
def replace (s : Store) (type id : String) (doc : Document) : StoreM Unit := do
  s.checkPresent type id
  s.write type id doc

/-- Removes the file of a document and tells whether there was one. -/
def unlink (path : Path) : StoreM Bool := do
  let state ← get
  match state.files.removeFile path with
  | .ok files =>
    set { state with files := files }
    return true
  | .error .missing => return false
  | .error cause => throw (.io path cause)

/-- Removes a stored document and tells whether there was one. -/
def delete (s : Store) (type id : String) : StoreM Bool := do
  let path ← lift (s.documentPath type id)
  if !(← get).files.isPresent path then return false
  if ← unlink path then
    modify fun state => (state.count Metrics.countDelete).report .documentDeleted
      [("namespace", s.space), ("type", type), ("id", id)]
    return true
  else return false

end Store

end DocumentEngine

namespace DocumentEngine.Store

/-- Opens the store of a namespace below a directory and makes its directory. -/
def openAt (dataDir : Path) (space : String) (schema : Schema) : StoreM Store := do
  let root := dataDir.join space
  let state ← get
  let (outcome, files) := state.files.makeDirectories root (root.names.length + 1)
  set { state with files := files }
  match outcome with
  | .error cause => throw (.io root cause)
  | .ok () => return ⟨root, space, schema⟩

/-- The names in a directory. -/
def namesIn (dir : Path) : StoreM (List String) := do
  match (← get).files.list dir with
  | .ok names => return names
  | .error cause => throw (.io dir cause)

/-- Removes a file that an interrupted write left behind. -/
def sweepFile (path : Path) : StoreM Unit := do
  let state ← get
  match state.files.removeFile path with
  | .error cause => throw (.io path cause)
  | .ok files =>
    set ({ state with files := files }.report .tempFileSwept [("path", path.text)])

/-- Removes unfinished writes from a directory and counts them. -/
def sweepDirectory (dir : Path) : StoreM Nat := do
  let temps := (← namesIn dir).filter isTempName
  for name in temps do
    sweepFile (dir.join name)
  return temps.length

/-- Removes unfinished writes from the directories of all types and counts them. -/
def sweep (s : Store) : StoreM Nat := do
  match (← get).files.list s.root with
  | .error .missing => return 0
  | .error cause => throw (.io s.root cause)
  | .ok names =>
    names.foldlM (fun total name => do
      let dir := s.root.join name
      if (← get).files.isDirectory dir then return total + (← sweepDirectory dir)
      else return total) 0

end DocumentEngine.Store
