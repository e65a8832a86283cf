import DocumentEngine.Store.Crash

/-!
Sessions of a store, and operations that are cut off. A write makes the directory of its type, makes
a file for the new content, fills it and renames it; a deletion removes one file, and a sweep one
after the other. A crash leaves what was done before it, and of new content the bytes that were
written; content that was staged and not published is lost with the session.
-/

namespace DocumentEngine.Store

/-- What a file with the first bytes of a text holds: bytes that end inside a character are no
text. -/
def firstBytes (text : String) (count : Nat) : Option String :=
  String.fromUTF8? (text.toUTF8.extract 0 count)

/-- How far an operation has come. -/
inductive Progress where
  | started
  | directory
  | content (count : Nat)
  | renamed
  | removed (count : Nat)

/-- Makes the file for new content and writes the first bytes into it. -/
def fillPart (path : Path) (doc : Document) (count : Nat) : StoreM Unit := do
  let temp ← tempPath path
  let state ← get
  match state.files.createFile temp "" with
  | .error cause => throw (.io temp cause)
  | .ok files =>
    match files.writeFile temp (firstBytes (Json.pretty (.obj doc)) count) with
    | .error cause => throw (.io temp cause)
    | .ok files => set { state with files := files }

/-- Stages content as far as a progress says. -/
def stagePart (s : Store) (progress : Progress) (type id : String) (doc : Document) :
    StoreM Unit := do
  match progress with
  | .started => return ()
  | .directory => prepare (← lift (s.documentPath type id))
  | .content count =>
    let path ← lift (s.documentPath type id)
    prepare path
    fillPart path doc count
  | _ => discard (s.stage type id doc)

/-- Writes a document as far as a progress says. -/
def writePart (s : Store) (progress : Progress) (type id : String) (doc : Document) :
    StoreM Unit := do
  match progress with
  | .renamed => publish (← s.stage type id doc)
  | progress => s.stagePart progress type id doc

/-- The names of the unfinished writes in the directory of a type. -/
def staleNames (s : Store) (files : FileTree) (type : String) : List String :=
  if files.isDirectory (s.typeDir type) then
    match files.list (s.typeDir type) with
    | .ok names => names.filter isTempName
    | .error _ => []
  else []

/-- The types and the names of the unfinished writes in the directories of types. -/
def staleIn (s : Store) (files : FileTree) (types : List String) : List (String × String) :=
  types.flatMap fun type => (s.staleNames files type).map fun name => (type, name)

/-- The unfinished writes that a sweep removes, in its order. -/
def staleFiles (s : Store) (files : FileTree) : List (String × String) :=
  match files.list s.root with
  | .ok types => s.staleIn files types
  | .error _ => []

/-- Removes unfinished writes, given by their types and names. -/
def sweepFiles (s : Store) (stale : List (String × String)) : StoreM Unit := do
  for (type, name) in stale do
    sweepFile ((s.typeDir type).join name)

/-- Removes the first unfinished writes. -/
def sweepPart (s : Store) (count : Nat) : StoreM Unit := do
  s.sweepFiles ((s.staleFiles (← get).files).take count)

/-- An operation that changes files. Content that is staged is published by its place among what is
staged at the time. -/
inductive Operation where
  | create (type id : String) (doc : Document)
  | replace (type id : String) (doc : Document)
  | delete (type id : String)
  | stage (type id : String) (doc : Document)
  | publish (index : Nat)
  | sweep

/-- The type that an operation is about, if it is about one. -/
def Operation.type? : Operation → Option String
  | .create type _ _ => some type
  | .replace type _ _ => some type
  | .delete type _ => some type
  | .stage type _ _ => some type
  | .publish _ => none
  | .sweep => none

/-- A document that is staged for a type and an id. -/
structure Staged where
  type : String
  id : String
  doc : Document
  write : StagedWrite

/-- The state around a store, and what is staged and not published. -/
structure Session where
  state : State
  staged : List Staged := []

/-- Runs an operation, which may fail. -/
def perform (s : Store) (op : Operation) (w : Session) : Session :=
  match op with
  | .create type id doc => { w with state := ((s.create type id doc).run.run w.state).2 }
  | .replace type id doc => { w with state := ((s.replace type id doc).run.run w.state).2 }
  | .delete type id => { w with state := ((s.delete type id).run.run w.state).2 }
  | .stage type id doc =>
    match (s.stage type id doc).run.run w.state with
    | (.ok write, state) => ⟨state, w.staged ++ [⟨type, id, doc, write⟩]⟩
    | (.error _, state) => { w with state := state }
  | .publish index =>
    match w.staged[index]? with
    | some staged => ⟨((publish staged.write).run.run w.state).2, w.staged.eraseIdx index⟩
    | none => w
  | .sweep => { w with state := (s.sweep.run.run w.state).2 }

/-- Runs operations one after the other. -/
def performAll (s : Store) (ops : List Operation) (w : Session) : Session :=
  ops.foldl (fun w op => s.perform op w) w

/-- The state that an operation leaves when it is cut off. -/
def interrupt (s : Store) (op : Operation) (progress : Progress) (w : Session) : State :=
  match op, progress with
  | .create type id doc, _ =>
    ((do s.checkAbsent type id; s.writePart progress type id doc : StoreM Unit).run.run w.state).2
  | .replace type id doc, _ =>
    ((do s.checkPresent type id; s.writePart progress type id doc : StoreM Unit).run.run w.state).2
  | .stage type id doc, _ => ((s.stagePart progress type id doc).run.run w.state).2
  | .delete _ _, .removed _ | .publish _, .renamed => (s.perform op w).state
  | .sweep, .removed count => ((s.sweepPart count).run.run w.state).2
  | _, _ => w.state

/-- Opens the store of a namespace again after a crash and sweeps away what is unfinished. -/
def reopen (dataDir : Path) (space : String) (schema : Schema) : StoreM Nat := do
  (← openAt dataDir space schema).sweep

end DocumentEngine.Store
