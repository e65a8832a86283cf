import DocumentEngine.Filter.Basic
import DocumentEngine.Pipeline.Basic

/-!
Handlers as data. A rule says what a handler does to the value before and after the rest of the
pipeline, whether it refuses or leaves the rest out, and with what error it refuses.
-/

namespace DocumentEngine

/-- A handler as data. `before` gives no value where it refuses one. -/
structure Rule (α : Type) where
  label : Option String := none
  failure : EngineError
  deny : Bool := false
  before : StageContext → α → Option α
  stop : Bool := false
  twice : Bool := false
  combine : α → α → α
  recover : Bool := false
  after : α → α
  denyAfter : Bool := false

namespace Rule

variable {α : Type}

/-- Leaves a note with the label of the rule, if it has one. -/
def trace (r : Rule α) (point : String) : EngineM Unit :=
  match r.label with
  | some label => EngineM.note s!"{label}:{point}"
  | none => return ()

/-- Runs the rest of the pipeline: once, or twice with the same value. A rule that recovers takes
the value itself where the rest fails once. -/
def proceed (r : Rule α) (value : α) (next : α → EngineM α) : EngineM α := do
  if r.twice then
    let first ← next value
    let second ← next value
    return r.combine first second
  else
    match ← EngineM.outcome (next value) with
    | .ok result => return result
    | .error e => if r.recover then return value else throw e

/-- The handler that a rule describes. -/
def handler (r : Rule α) : Handler α := fun value context next => do
  r.trace "before"
  if r.deny then throw r.failure
  match r.before context value with
  | none => throw r.failure
  | some value =>
    if r.stop then return value
    let result := r.after (← r.proceed value next)
    if r.denyAfter then throw r.failure
    r.trace "after"
    return result

end Rule

/-- What a rule does to the filter of a fetch. -/
inductive FilterEdit where
  | keep
  | replace (filter : Option Filter)
  | require (filter : Filter)

/-- The filter after an edit. -/
def FilterEdit.apply (filter : Option Filter) : FilterEdit → Option Filter
  | .keep => filter
  | .replace other => other
  | .require other =>
    match filter with
    | some f => some (.all [f, other])
    | none => some other

/-- What a rule does to a document before the rest of the pipeline, step by step: it puts fields,
takes fields out, puts a stamp of the stage into a field, and puts the text of a field into capital
letters. A document with all of the refused fields is refused. -/
structure DocumentEdit where
  set : Document := []
  remove : List String := []
  stamp : Option String := none
  upper : Option String := none
  refused : Option Document := none

namespace DocumentEdit

/-- Puts fields and takes others out. -/
def change (doc set : Document) (remove : List String) : Document :=
  remove.foldl Keyed.erase (doc.union set)

/-- What is known of a stage, as a value. -/
def stampOf (context : StageContext) : Json := Json.object [
  ("namespace", .str context.space), ("operation", Json.strOrNull context.operation),
  ("type", .str context.type)]

/-- Puts the text of a field into capital letters, as far as they are ASCII. -/
def capitalize (doc : Document) (field : String) : Document :=
  match doc.get? field with
  | some (.str s) => doc.insert field (.str (String.ofList (s.toList.map Char.toUpper)))
  | _ => doc

/-- Whether a document has all of some fields with the same values. -/
def hasAll (doc fields : Document) : Bool :=
  fields.all fun (key, v) =>
    match doc.get? key with
    | some w => v.same w
    | none => false

/-- The document after an edit; none where it is refused. -/
def apply (e : DocumentEdit) (context : StageContext) (doc : Document) : Option Document :=
  let doc := change doc e.set e.remove
  let doc := match e.stamp with
    | some field => doc.insert field (stampOf context)
    | none => doc
  let doc := match e.upper with
    | some field => capitalize doc field
    | none => doc
  match e.refused with
  | some fields => if hasAll doc fields then none else some doc
  | none => some doc

end DocumentEdit

end DocumentEngine
