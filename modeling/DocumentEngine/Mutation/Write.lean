import DocumentEngine.Engine.Read
import DocumentEngine.Mutation.Merge

/-!
Creating and modifying documents. The input is taken, checked and cleaned, the stored document
looked up, the guard asked, references checked, the input validated and merged; then the handlers
of the operation run around the change of the store. Until then nothing is stored.
-/

namespace DocumentEngine.Engine

open Mutation

/-- The id of a document of a type. -/
def idOf? (t : DocumentType) (doc : Document) : Option String :=
  doc.get? t.identifierName >>= Json.idText?

/-- Asks the guard. -/
def authorize (e : Engine) (t : DocumentType) (op : Operation) (incoming : Document)
    (existing : List Document) : EngineM Unit := do
  let attempt : Attempt := ⟨op.name, e.space, t.name, incoming, existing⟩
  if !(← decided (e.collaborators.guard attempt)) then
    throw (.authorization s!"operation '{op.name}' on {t.name} is not allowed")

/-- The stored document of an id, which has to be there. -/
def requireDocument (e : Engine) (requestId : String) (t : DocumentType) (id : Json) :
    EngineM Document := do
  match ← e.lookup requestId t id with
  | some doc => return doc
  | none => throw (.notFound s!"{t.name} '{shownId id}'")

/-- The stored document that the input of a modification names. -/
def findExisting (e : Engine) (requestId : String) (t : DocumentType) (input : Document) :
    EngineM Document :=
  match input.get? t.identifierName with
  | none => throw (.constraint [.missing t.identifierName])
  | some .null => throw (.constraint [.missing t.identifierName])
  | some id => e.requireDocument requestId t id

/-- Checks that no document is stored under the id of the input of a creation, if it has one. -/
def checkUnused (e : Engine) (t : DocumentType) (input : Document) : EngineM Unit :=
  match idOf? t input with
  | none => return ()
  | some id => do
    if (← EngineM.ofStore (e.store.load t.name id)).isSome then
      throw (.ofStore (.alreadyExists t.name id))

/-- The documents of ids that a field refers to, which have to be stored. -/
def loadReferenced (e : Engine) (f : Field) (target : String) :
    List String → EngineM (List Json)
  | [] => return []
  | id :: ids => do
    match ← EngineM.ofStore (e.store.load target id) with
    | some doc => return .obj doc :: (← e.loadReferenced f target ids)
    | none =>
      throw (.reference s!"{target} '{id}' referenced by field '{f.name}' does not exist")

/-- Adds the documents that a key of the input refers to under the name of the field. -/
def addReferenced (e : Engine) (t : DocumentType) (related : Keyed Json) (key : String)
    (v : Json) : EngineM (Keyed Json) :=
  match referenceField? t key with
  | none => return related
  | some f =>
    match f.target? with
    | none => return related
    | some target => do
      let docs ← e.loadReferenced f target (referencedIds v)
      return related.insert f.name (if f.list then .arr docs else docs.head?.getD .null)

/-- The documents that input refers to, by the name of the field. -/
def checkReferences (e : Engine) (t : DocumentType) (input : Document) : EngineM (Keyed Json) :=
  input.foldlM (fun related (key, v) => e.addReferenced t related key v) []

/-- Checks input against the validator. -/
def checkValid (e : Engine) (t : DocumentType) (input : Document) (mode : ValidationMode) :
    EngineM Unit := do
  let violations ← decided (e.collaborators.validate e.space t.name input mode)
  if !violations.isEmpty then throw (.constraint violations)

/-- The id of a document, made up and put into the document where it has none. -/
def identified (t : DocumentType) (doc : Document) : EngineM (String × Document) := do
  match idOf? t doc with
  | some id => return (id, doc)
  | none =>
    let (id, state) := (← get).mint
    set state
    return (id, doc.insert t.identifierName (.str id))

/-- The document that a creation or a modification is to store. -/
def prepareDocument (e : Engine) (requestId : String) (t : DocumentType) (op : Operation)
    (arguments : Document) : EngineM Document := do
  let input ← EngineM.lift (inputOf arguments)
  EngineM.lift (checkAssignable t op input)
  let input := e.collaborators.sanitize e.space t.name input
  let existing ←
    if op.context = .create then do
      e.checkUnused t input
      pure none
    else some <$> e.findExisting requestId t input
  e.authorize t op input existing.toList
  let related ← e.checkReferences t input
  let candidate := input.union op.set
  e.checkValid t candidate (if op.context = .create then .full else .partialUpdate)
  return merge t related (existing.getD []) candidate

/-- Runs the handlers of an operation around a change of the store. -/
def runStages (e : Engine) (requestId : String) (t : DocumentType) (op : Operation)
    (change : Document → StoreM Unit) (doc : Document) : EngineM Document :=
  let context := { e.contextOf requestId t.name with operation := some op.name }
  Pipeline.runWith context
    (fun doc => do
      EngineM.ofStore (change doc)
      return doc)
    (e.hooks.chain e.space t.name op.hookSuffixes) doc

/-- Runs a creation or a modification and gives the stored document as callers get it. -/
def write (e : Engine) (requestId : String) (t : DocumentType) (op : Operation)
    (arguments : Document) : EngineM Document := do
  let doc ← e.prepareDocument requestId t op arguments
  let (id, doc) ← identified t doc
  let change (doc : Document) : StoreM Unit :=
    if op.context = .create then e.store.create t.name id doc
    else e.store.replace t.name id doc
  let stored ← e.runStages requestId t op change doc
  return e.collaborators.redact e.space t.name stored

/-- Runs a deletion. -/
def delete (e : Engine) (requestId : String) (t : DocumentType) (op : Operation)
    (arguments : Document) : EngineM Unit := do
  match deleteTarget? t.identifierName arguments with
  | none => throw (.constraint [.missing t.identifierName])
  | some id =>
    let existing ← e.requireDocument requestId t id
    e.authorize t op arguments [existing]
    match idOf? t existing with
    | none => throw (.internal s!"{t.name} document without '{t.identifierName}'")
    | some id =>
      discard (e.runStages requestId t op (fun _ => discard (e.store.delete t.name id)) existing)

end DocumentEngine.Engine
