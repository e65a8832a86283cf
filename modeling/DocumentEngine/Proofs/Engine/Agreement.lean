import DocumentEngine.Engine.Execute
import DocumentEngine.Proofs.Engine.Reading

/-!
Mutations from states alike. The operations of the store look at nothing but the files and the
count of identifiers made up, and without handlers neither do mutations; so from states alike a
mutation gives the same and leaves states alike, whatever the request is called.
-/

namespace DocumentEngine

open Action

namespace Store

variable (s : Store)

theorem prepare_agree (path : Path) : Agree (prepare path) (prepare path) := by
  unfold prepare
  refine .of_get_bind fun a b h => ?_
  dsimp only
  rw [h.files]
  rcases b.files.makeDirectories path.parent (path.parent.names.length + 1) with ⟨outcome, files⟩
  refine .of_bind (.of_set ⟨rfl, h.minted⟩) fun _ => ?_
  cases outcome with
  | ok _ => exact .of_pure _
  | error cause => exact .of_throw _

theorem tempPath_agree (path : Path) : Agree (tempPath path) (tempPath path) := by
  unfold tempPath
  refine .of_get_bind fun a b h => ?_
  unfold State.mint
  rw [h.minted]
  exact .of_bind (.of_set ⟨h.files, rfl⟩) fun _ => .of_pure _

theorem fill_agree (path : Path) (doc : Document) : Agree (fill path doc) (fill path doc) := by
  unfold fill
  refine .of_bind (tempPath_agree path) fun temp => .of_get_bind fun a b h => ?_
  rw [h.files]
  cases b.files.createFile temp (Json.pretty (.obj doc)) with
  | error cause => exact .of_throw _
  | ok files => exact .of_bind (.of_set ⟨rfl, h.minted⟩) fun _ => .of_pure _

theorem publish_agree (staged : StagedWrite) : Agree (publish staged) (publish staged) := by
  unfold publish
  refine .of_get_bind fun a b h => ?_
  rw [h.files]
  cases b.files.rename staged.temp staged.final with
  | error cause => exact .of_throw _
  | ok files => exact .of_set ⟨rfl, h.minted⟩

theorem write_agree (type id : String) (doc : Document) :
    Agree (s.write type id doc) (s.write type id doc) := by
  unfold write stage reportWrite
  refine .of_bind (.of_bind (.of_lift _) fun path => ?_) fun staged => ?_
  · exact .of_bind (prepare_agree path) fun _ => fill_agree path doc
  · refine .of_bind (publish_agree staged) fun _ => .of_modify ?_ ?_ <;> exact fun _ => ⟨rfl, rfl⟩

theorem create_agree (type id : String) (doc : Document) :
    Agree (s.create type id doc) (s.create type id doc) := by
  unfold create checkAbsent
  refine .of_bind (.of_bind (.of_lift _) fun path => .of_get_bind fun a b h => ?_) fun _ =>
    s.write_agree type id doc
  rw [h.files]
  exact .of_ite (.of_throw _) (.of_pure _)

theorem replace_agree (type id : String) (doc : Document) :
    Agree (s.replace type id doc) (s.replace type id doc) := by
  unfold replace checkPresent
  refine .of_bind (.of_bind (.of_lift _) fun path => .of_get_bind fun a b h => ?_) fun _ =>
    s.write_agree type id doc
  rw [h.files]
  exact .of_ite (.of_throw _) (.of_pure _)

theorem unlink_agree (path : Path) : Agree (unlink path) (unlink path) := by
  unfold unlink
  refine .of_get_bind fun a b h => ?_
  rw [h.files]
  cases b.files.removeFile path with
  | ok files => exact .of_bind (.of_set ⟨rfl, h.minted⟩) fun _ => .of_pure _
  | error cause => cases cause <;> first | exact .of_pure _ | exact .of_throw _

theorem delete_agree (type id : String) : Agree (s.delete type id) (s.delete type id) := by
  unfold delete
  refine .of_bind (.of_lift _) fun path => .of_get_bind fun a b h => ?_
  rw [h.files]
  refine .of_ite (.of_pure _) (.of_bind (unlink_agree path) fun removed => ?_)
  refine .of_ite (.of_bind (.of_modify ?_ ?_) fun _ => .of_pure _) (.of_pure _) <;>
    exact fun _ => ⟨rfl, rfl⟩

theorem load_agree (type id : String) : Agree (s.load type id) (s.load type id) := by
  unfold load
  refine .of_get_bind fun a b h => ?_
  rw [h.files]
  exact .of_lift _

theorem fetch_agree (type : String) (query : Query) :
    Agree (s.fetch type query) (s.fetch type query) := by
  intro a b h
  obtain ⟨a', ha, halike⟩ := s.exec_fetch type query a
  obtain ⟨b', hb, hblike⟩ := s.exec_fetch type query b
  rw [ha, hb, h.files]
  exact ⟨rfl, (halike.trans h).trans hblike.symm⟩

end Store

namespace Engine

variable {e : Engine} {requestId requestId' : String} {t : DocumentType} {op : Operation}

theorem decided_agree {α : Type} (decision : Noted α) :
    Agree (decided decision) (decided decision) := by
  unfold decided
  refine .of_bind ?_ fun _ => .of_pure _
  induction decision.notes with
  | nil => exact .of_pure _
  | cons note notes ih =>
    refine .of_bind (.of_modify ?_ ?_) fun _ => ih <;> exact fun _ => ⟨rfl, rfl⟩

theorem lookup_agree (he : e.Bare) (id : Json) :
    Agree (e.lookup requestId t id) (e.lookup requestId' t id) := by
  have hplain := he.readsPlainly
  unfold lookup fetchRestricted restrict
  refine .of_bind (.of_engineLift _) fun query => .of_bind ?_ fun docs => .of_pure _
  rw [hplain.unrestricted]
  exact .of_bind (.of_pure _) fun query => .of_ofStore (e.store.fetch_agree t.name query)

theorem requireDocument_agree (he : e.Bare) (id : Json) :
    Agree (e.requireDocument requestId t id) (e.requireDocument requestId' t id) := by
  unfold requireDocument
  refine .of_bind (lookup_agree he id) fun found => ?_
  cases found with
  | some doc => exact .of_pure _
  | none => exact .of_throw _

theorem findExisting_agree (he : e.Bare) (input : Document) :
    Agree (e.findExisting requestId t input) (e.findExisting requestId' t input) := by
  unfold findExisting
  cases input.get? t.identifierName with
  | none => exact .of_throw _
  | some id =>
    cases id <;> first | exact .of_throw _ | exact requireDocument_agree he _

theorem authorize_agree (incoming : Document) (existing : List Document) :
    Agree (e.authorize t op incoming existing) (e.authorize t op incoming existing) := by
  unfold authorize
  exact .of_bind (decided_agree _) fun allowed => .of_ite (.of_throw _) (.of_pure _)

theorem checkUnused_agree (input : Document) :
    Agree (e.checkUnused t input) (e.checkUnused t input) := by
  unfold checkUnused
  cases idOf? t input with
  | none => exact .of_pure _
  | some id =>
    exact .of_bind (.of_ofStore (e.store.load_agree t.name id)) fun found =>
      .of_ite (.of_throw _) (.of_pure _)

theorem loadReferenced_agree (f : Field) (target : String) (ids : List String) :
    Agree (e.loadReferenced f target ids) (e.loadReferenced f target ids) := by
  induction ids with
  | nil => exact .of_pure _
  | cons id ids ih =>
    unfold loadReferenced
    refine .of_bind (.of_ofStore (e.store.load_agree target id)) fun found => ?_
    cases found with
    | some doc => exact .of_bind ih fun _ => .of_pure _
    | none => exact .of_throw _

theorem addReferenced_agree (related : Keyed Json) (key : String) (v : Json) :
    Agree (e.addReferenced t related key v) (e.addReferenced t related key v) := by
  unfold addReferenced
  cases Mutation.referenceField? t key with
  | none => exact .of_pure _
  | some f =>
    dsimp only
    cases f.target? with
    | none => exact .of_pure _
    | some target => exact .of_bind (loadReferenced_agree f target _) fun _ => .of_pure _

theorem checkReferences_agree (input : Document) :
    Agree (e.checkReferences t input) (e.checkReferences t input) := by
  unfold checkReferences
  generalize ([] : Keyed Json) = related
  induction input generalizing related with
  | nil => exact .of_pure _
  | cons entry input ih =>
    rw [List.foldlM_cons]
    exact .of_bind (addReferenced_agree related entry.1 entry.2) fun related => ih related

theorem checkValid_agree (input : Document) (mode : ValidationMode) :
    Agree (e.checkValid t input mode) (e.checkValid t input mode) := by
  unfold checkValid
  exact .of_bind (decided_agree _) fun violations => .of_ite (.of_throw _) (.of_pure _)

theorem identified_agree (doc : Document) : Agree (identified t doc) (identified t doc) := by
  unfold identified
  cases idOf? t doc with
  | some id => exact .of_pure _
  | none =>
    refine .of_get_bind fun a b h => ?_
    unfold State.mint
    rw [h.minted]
    exact .of_bind (.of_set ⟨h.files, rfl⟩) fun _ => .of_pure _

theorem prepareDocument_agree (he : e.Bare) (arguments : Document) :
    Agree (e.prepareDocument requestId t op arguments)
      (e.prepareDocument requestId' t op arguments) := by
  unfold prepareDocument
  refine .of_bind (.of_engineLift _) fun input => .of_bind (.of_engineLift _) fun _ => ?_
  dsimp only
  refine .of_ite (.of_bind (checkUnused_agree _) fun _ => .of_bind (.of_pure none) fun existing => ?_)
    (.of_bind (.of_map some (findExisting_agree he _)) fun existing => ?_)
  all_goals
    refine .of_bind (authorize_agree _ _) fun _ => ?_
    refine .of_bind (checkReferences_agree _) fun related => ?_
    exact .of_bind (checkValid_agree _ _) fun _ => .of_pure _

theorem runStages_agree (he : e.Bare) {change : Document → StoreM Unit}
    (hchange : ∀ doc, Agree (change doc) (change doc)) (doc : Document) :
    Agree (e.runStages requestId t op change doc) (e.runStages requestId' t op change doc) := by
  have hnone : e.hooks.chain e.space t.name op.hookSuffixes = [] := by
    rw [he.hooks]
    exact List.flatMap_eq_nil_iff.mpr fun _ _ => rfl
  unfold runStages
  rw [hnone]
  exact .of_bind (.of_ofStore (hchange doc)) fun _ => .of_pure _

theorem write_agree (he : e.Bare) (arguments : Document) :
    Agree (e.write requestId t op arguments) (e.write requestId' t op arguments) := by
  unfold write
  refine .of_bind (prepareDocument_agree he arguments) fun doc => ?_
  refine .of_bind (identified_agree doc) fun named => .of_bind ?_ fun _ => .of_pure _
  refine runStages_agree he (fun doc => ?_) _
  exact .of_ite (e.store.create_agree _ _ doc) (e.store.replace_agree _ _ doc)

theorem delete_agree (he : e.Bare) (arguments : Document) :
    Agree (e.delete requestId t op arguments) (e.delete requestId' t op arguments) := by
  unfold delete
  cases Mutation.deleteTarget? t.identifierName arguments with
  | none => exact .of_throw _
  | some id =>
    refine .of_bind (requireDocument_agree he id) fun existing => ?_
    refine .of_bind (authorize_agree _ _) fun _ => ?_
    cases idOf? t existing with
    | none => exact .of_throw _
    | some id =>
      refine .of_bind (runStages_agree he (fun _ => ?_) existing) fun _ => .of_pure _
      exact .of_bind (e.store.delete_agree t.name id) fun _ => .of_pure _

theorem runMutation_agree (he : e.Bare) (selection : Selection) (path : ResponsePath) :
    Agree (e.runMutation requestId t op selection path)
      (e.runMutation requestId' t op selection path) := by
  unfold runMutation
  cases op.context with
  | delete => exact .of_bind (delete_agree he _) fun _ => .of_pure _
  | create => exact .of_bind (write_agree he _) fun _ => .of_pure _
  | modify => exact .of_bind (write_agree he _) fun _ => .of_pure _

theorem reportRejection_agree (cause : EngineError) :
    Agree (reportRejection requestId t op cause) (reportRejection requestId' t op cause) := by
  unfold reportRejection
  refine .of_ite (.of_bind (.of_modify ?_ ?_) fun _ => .of_modify ?_ ?_) (.of_pure _) <;>
    exact fun _ => ⟨rfl, rfl⟩

/-- A root field of a mutation gives the same and leaves states alike in every request. -/
theorem resolveMutation_agree (he : e.Bare) (selection : Selection) (path : ResponsePath) :
    Agree (e.resolveMutation requestId selection path)
      (e.resolveMutation requestId' selection path) := by
  unfold resolveMutation
  cases e.mutations.get? selection.name with
  | none => exact .of_throw _
  | some entry =>
    refine .of_bind ?_ fun t => .of_bind (.of_outcome (runMutation_agree he selection path))
      fun result => ?_
    · unfold requireType
      cases e.schema.type? entry.type with
      | none => exact .of_throw _
      | some t => exact .of_pure t
    · cases result with
      | ok projected => exact .of_pure _
      | error cause => exact .of_bind (reportRejection_agree cause) fun _ => .of_throw _

end Engine

end DocumentEngine
