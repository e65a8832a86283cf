import DocumentEngine.Text.Split

/-!
A tree of directories and files, and the operations of a file system on it. Each operation fails
as a system call does, and one that fails leaves the tree as it was. In the text of a path, names are
separated by slashes; a path that begins with one starts at the root. The name `.` stands for the
place itself and `..` for the one above it.
-/

namespace DocumentEngine

/-- A path of a file or a directory. -/
structure Path where
  text : String
  deriving DecidableEq

namespace Path

/-- The path of `part` below this one. A part that starts at the root stands alone. -/
def join (p : Path) (part : String) : Path :=
  match part.toList with
  | '/' :: _ => ⟨part⟩
  | _ =>
    if p.text.isEmpty || p.text.toList.getLast? = some '/' then ⟨p.text ++ part⟩
    else ⟨p.text ++ "/" ++ part⟩

/-- The parts of a path between slashes, without empty ones. -/
def steps (p : Path) : List String := (Text.splitAt '/' p.text).filter (· ≠ "")

/-- The names on a path, without those for the place itself. -/
def names (p : Path) : List String := p.steps.filter (· ≠ ".")

/-- The last name on a path. -/
def fileName (p : Path) : String := p.names.getLast?.getD ""

/-- Whether a path ends in a slash, and so can only be that of a directory. -/
def endsInSlash (p : Path) : Bool := p.text.toList.getLast? = some '/'

/-- The characters of a path, the last one first, without what leads nowhere at its end: slashes,
and names for the place itself. -/
def trimEnd : List Char → List Char
  | '/' :: cs => trimEnd cs
  | '.' :: '/' :: cs => trimEnd cs
  | cs => cs

/-- The path of the directory that holds this one. -/
def parent (p : Path) : Path :=
  let before := (trimEnd p.text.toList.reverse).dropWhile (· ≠ '/')
  let trimmed := trimEnd before
  if trimmed.isEmpty && !before.isEmpty then ⟨"/"⟩ else ⟨String.ofList trimmed.reverse⟩

/-- The path with another last name. -/
def withName (p : Path) (name : String) : Path := p.parent.join name

end Path

/-- Why an operation on files fails. -/
inductive FileError where
  | missing
  | exists
  | notDirectory
  | isDirectory
  | nameTooLong
  | badName
  | notText
  deriving DecidableEq

/-- The error in the words of the system. -/
def FileError.message : FileError → String
  | .missing => "No such file or directory (os error 2)"
  | .exists => "File exists (os error 17)"
  | .notDirectory => "Not a directory (os error 20)"
  | .isDirectory => "Is a directory (os error 21)"
  | .nameTooLong => "File name too long (os error 36)"
  | .badName => "file name contained an unexpected NUL byte"
  | .notText => "stream did not contain valid UTF-8"

/-- What stands at a place of the tree. A file holds text, or bytes that are no text. -/
inductive Entry where
  | directory
  | file (text : Option String)
  deriving DecidableEq

/-- The entries of a tree at their places below the root, which is itself a directory. An entry that
is new to its place comes behind the others. -/
structure FileTree where
  entries : List (List String × Entry) := []

namespace FileTree

/-- The entry at a place. -/
def get? (t : FileTree) : List String → Option Entry
  | [] => some .directory
  | place => t.entries.lookup place

/-- The tree with an entry at a place, instead of the one there. -/
def put (t : FileTree) (place : List String) (entry : Entry) : FileTree :=
  if (t.entries.lookup place).isSome then
    ⟨t.entries.map fun e => if e.1 = place then (place, entry) else e⟩
  else ⟨t.entries ++ [(place, entry)]⟩

/-- The tree without the entry at a place. -/
def drop (t : FileTree) (place : List String) : FileTree :=
  ⟨t.entries.filter fun e => e.1 != place⟩

/-- The longest name that a directory takes, in bytes. -/
def maxName : Nat := 255

/-- The longest path that the system takes, in bytes. -/
def maxPath : Nat := 4095

/-- Walks from a place along the steps of a path; all that is left behind on the way has to be a
directory. -/
def walk (t : FileTree) (place : List String) : List String → Except FileError (List String)
  | [] => .ok place
  | step :: steps =>
    match t.get? place with
    | none => .error .missing
    | some (.file _) => .error .notDirectory
    | some .directory =>
      if step = "." then walk t place steps
      else if step = ".." then walk t place.dropLast steps
      else if maxName < step.utf8ByteSize then .error .nameTooLong
      else walk t (place ++ [step]) steps

/-- Whether steps are plain names, all but the last of which lead to a directory of the tree. Such
steps are themselves a place, and no way there has to be walked. -/
def holds (t : FileTree) (steps : List String) : Bool :=
  t.get? steps.dropLast = some .directory && steps.all fun step =>
    step ≠ "." && step ≠ ".." && step.utf8ByteSize ≤ maxName

/-- The place that a path leads to; nothing need stand there. -/
def locate (t : FileTree) (p : Path) : Except FileError (List String) := do
  if p.text.toList.contains '\x00' then throw .badName
  if maxPath < p.text.utf8ByteSize then throw .nameTooLong
  let place ← if t.holds p.steps then pure p.steps else t.walk [] p.steps
  match t.get? place with
  | some (.file _) => if p.endsInSlash then throw .notDirectory else return place
  | _ => return place

/-- The entry that a path leads to. -/
def entry? (t : FileTree) (p : Path) : Option Entry :=
  match t.locate p with
  | .ok place => t.get? place
  | .error _ => none

/-- Whether a path leads to something. -/
def isPresent (t : FileTree) (p : Path) : Bool := (t.entry? p).isSome

/-- Whether a path leads to a directory. -/
def isDirectory (t : FileTree) (p : Path) : Bool := t.entry? p = some .directory

/-- Whether a path leads to a file. -/
def isFile (t : FileTree) (p : Path) : Bool :=
  match t.entry? p with
  | some (.file _) => true
  | _ => false

/-- The text of a file. -/
def readText (t : FileTree) (p : Path) : Except FileError String := do
  match t.get? (← t.locate p) with
  | none => throw .missing
  | some .directory => throw .isDirectory
  | some (.file none) => throw .notText
  | some (.file (some text)) => return text

/-- The names in a directory, the newest first. -/
def list (t : FileTree) (p : Path) : Except FileError (List String) := do
  let place ← t.locate p
  match t.get? place with
  | none => throw .missing
  | some (.file _) => throw .notDirectory
  | some .directory =>
    let inside := t.entries.filterMap fun (q, _) =>
      if q.length = place.length + 1 && place.isPrefixOf q then q.getLast? else none
    return inside.reverse

/-- Whether a new entry can stand at a place: its directory exists. -/
def checkParent (t : FileTree) (place : List String) : Except FileError Unit :=
  match t.get? place.dropLast with
  | none => .error .missing
  | some (.file _) => .error .notDirectory
  | some .directory => .ok ()

/-- Makes a directory where nothing stands yet. -/
def makeDirectory (t : FileTree) (p : Path) : Except FileError FileTree := do
  let place ← t.locate p
  if (t.get? place).isSome then throw .exists
  t.checkParent place
  return t.put place .directory

/-- Makes a directory, or finds it made. -/
def ensureDirectory (t : FileTree) (p : Path) : Except FileError FileTree :=
  match t.makeDirectory p with
  | .ok t => .ok t
  | .error e => if t.isDirectory p then .ok t else .error e

/-- Makes a directory and those above it as far as they are missing, at most `depth` of them.
What was made before a failure stays. -/
def makeDirectories (t : FileTree) (p : Path) : Nat → Except FileError Unit × FileTree
  | 0 => (.ok (), t)
  | depth + 1 =>
    match t.ensureDirectory p with
    | .ok t => (.ok (), t)
    | .error .missing =>
      match makeDirectories t p.parent depth with
      | (.error e, t) => (.error e, t)
      | (.ok (), t) =>
        match t.ensureDirectory p with
        | .ok t => (.ok (), t)
        | .error e => (.error e, t)
    | .error e => (.error e, t)

/-- Writes a new file; nothing may stand there yet. -/
def createFile (t : FileTree) (p : Path) (text : String) : Except FileError FileTree := do
  let place ← t.locate p
  if (t.get? place).isSome then throw .exists
  t.checkParent place
  return t.put place (.file (some text))

/-- Writes a file, in place of the one there. -/
def writeFile (t : FileTree) (p : Path) (text : Option String) : Except FileError FileTree := do
  let place ← t.locate p
  if p.endsInSlash || t.get? place = some .directory then throw .isDirectory
  t.checkParent place
  return t.put place (.file text)

/-- Moves a file to another path, in place of the file there. -/
def rename (t : FileTree) (source target : Path) : Except FileError FileTree := do
  let start ← t.locate source
  let place ← t.locate target
  match t.get? start with
  | none => throw .missing
  | some entry =>
    if t.get? place = some .directory then throw .isDirectory
    t.checkParent place
    return ((t.drop start).drop place).put place entry

/-- Removes a file. -/
def removeFile (t : FileTree) (p : Path) : Except FileError FileTree := do
  let place ← t.locate p
  match t.get? place with
  | none => throw .missing
  | some .directory => throw .isDirectory
  | some (.file _) => return t.drop place

/-- The paths of everything below a place, relative to it, those of directories with a slash
behind. -/
def listing (t : FileTree) (place : List String) : List String :=
  (t.entries.filterMap fun (q, entry) =>
    if place.length < q.length && place.isPrefixOf q then
      let shown := "/".intercalate (q.drop place.length)
      some (if entry = .directory then shown ++ "/" else shown)
    else none).mergeSort fun a b => compare a b != .gt

end FileTree

end DocumentEngine
