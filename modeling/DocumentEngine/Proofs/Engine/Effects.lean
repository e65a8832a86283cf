import DocumentEngine.Proofs.Engine.Mutations
import DocumentEngine.Proofs.Engine.References
import DocumentEngine.Proofs.Store.Clear
import DocumentEngine.Proofs.Store.Files

/-!
What a root field of a mutation leaves of the files. A deletion leaves none but those that there
were, and so does every field that fails before it writes; any other field leaves what the write of
one document leaves. A modification that nothing stands against succeeds.
-/

namespace DocumentEngine

open Action Mutation
open Path (IsStep)

namespace Engine

variable {e : Engine} {requestId : String} {t : DocumentType} {op : Operation} {state : State}

theorem written_of_change {id : String} {doc : Document} {after : State}
    {result : Except StoreError Unit} (h : exec (e.change t op id doc) state = (result, after)) :
    e.store.Written t.name id doc state.files after.files result := by
  obtain ⟨habsent, hpresent⟩ := Store.exec_check_alike e.store t.name id state
  unfold change at h
  split at h
  · exact Store.written_of_checked habsent h
  · exact Store.written_of_checked hpresent h

/-- A write without handlers ends before its change of the store, with the files as they were, or
with that change. -/
theorem exec_write_cases (he : e.Bare) (requestId : String) (t : DocumentType) (op : Operation)
    (arguments : Document) (state : State) :
    ((exec (e.write requestId t op arguments) state).2.files = state.files) ∨
      ∃ id doc before result after, before.files = state.files ∧
        exec (e.change t op id doc) before = (result, after) ∧
        exec (e.write requestId t op arguments) state =
          ((result.mapError EngineError.ofStore).map fun _ => doc, after) := by
  unfold write
  have hprepared := @prepareDocument_quiet e requestId t op he.restrictsQuietly arguments state
  rcases hprepare : exec (e.prepareDocument requestId t op arguments) state with ⟨cause | doc, prepared⟩
  · rw [hprepare] at hprepared
    rw [exec_bind_error hprepare]
    exact .inl hprepared
  rw [hprepare] at hprepared
  rw [exec_bind_ok hprepare]
  have hnamed := @identified_quiet t doc prepared
  rcases hidentified : exec (identified t doc) prepared with ⟨cause | ⟨id, named⟩, between⟩
  · rw [hidentified] at hnamed
    rw [exec_bind_error hidentified]
    exact .inl (hnamed.trans hprepared)
  rw [hidentified] at hnamed
  rw [exec_bind_ok hidentified]
  have hredact : ∀ stored, e.collaborators.redact e.space t.name stored = stored := by
    intro stored
    rw [he.collaborators]
    rfl
  refine .inr ⟨id, named, between, _, _, hnamed.trans hprepared, rfl, ?_⟩
  simp only [hredact, bind_pure]
  exact exec_runStages (he.unhooked t.name op.hookSuffixes) _ named between

/-- A deletion, however it ends, leaves nothing but files that there were. -/
theorem lessened_of_delete (he : e.Bare) (requestId : String) (t : DocumentType) (op : Operation)
    (arguments : Document) (state : State) :
    Store.Lessened state.files (exec (e.delete requestId t op arguments) state).2.files := by
  unfold delete
  cases deleteTarget? t.identifierName arguments with
  | none => exact .refl _
  | some id =>
    dsimp only
    have hfound := @requireDocument_quiet e requestId t he.restrictsQuietly id state
    rcases hrequire : exec (e.requireDocument requestId t id) state with ⟨cause | existing, looked⟩
    · rw [hrequire] at hfound
      rw [exec_bind_error hrequire, hfound]
      exact .refl _
    rw [hrequire] at hfound
    rw [exec_bind_ok hrequire]
    have hguard := @authorize_quiet e t op arguments [existing] looked
    rcases hallow : exec (e.authorize t op arguments [existing]) looked with ⟨cause | ⟨⟩, allowed⟩
    · rw [hallow] at hguard
      rw [exec_bind_error hallow, hguard.trans hfound]
      exact .refl _
    rw [hallow] at hguard
    rw [exec_bind_ok hallow, ← hguard.trans hfound]
    cases idOf? t existing with
    | none => exact .refl _
    | some own =>
      rcases hdelete : exec (e.store.delete t.name own) allowed with ⟨removed, after⟩
      have hchange : (exec (discard (e.runStages requestId t op
          (fun _ => discard (e.store.delete t.name own)) existing)) allowed).2 =
            (exec (e.store.delete t.name own) allowed).2 := by
        rw [exec_discard, exec_runStages (he.unhooked t.name op.hookSuffixes)]
        exact exec_discard _ _
      dsimp only
      rw [hchange, hdelete]
      exact Store.lessened_of_delete hdelete

/-- The handlers around the change that a mutation makes. -/
def mutationHooks (e : Engine) (name : String) : List (Handler Document) :=
  match e.mutations.get? name with
  | some entry => e.hooks.chain e.space entry.type entry.operation.hookSuffixes
  | none => []

/-- A root field of a mutation leaves what its run leaves, and a report where that fails. -/
theorem mutated_eq {selection : Selection} {entry : MutationEntry}
    (hentry : e.mutations.get? selection.name = some entry)
    (ht : e.schema.type? entry.type = some t) (requestId : String) (state : State) :
    mutated e requestId selection state =
      match exec (e.runMutation requestId t entry.operation selection
        [.key selection.responseKey]) state with
      | (.ok projected, after) => (projected, after)
      | (.error cause, after) => (⟨.null, [], []⟩,
          (exec (reportRejection requestId t entry.operation cause) after).2) := by
  unfold mutated resolveMutation requireType
  dsimp only
  rw [hentry]
  dsimp only
  rw [ht]
  dsimp only
  rw [exec_bind_ok (exec_pure t state), exec_bind_ok (exec_outcome _ state)]
  rcases exec (e.runMutation requestId t entry.operation selection
    [.key selection.responseKey]) state with ⟨cause | projected, after⟩
  · dsimp only
    rw [exec_bind]
    rcases exec (reportRejection requestId t entry.operation cause) after with ⟨_ | _, reported⟩ <;>
      rfl
  · rfl

/-- What follows the run of a mutation, be it a projection or a report, changes no file. -/
theorem mutated_files_eq {selection : Selection} {entry : MutationEntry}
    (hentry : e.mutations.get? selection.name = some entry)
    (ht : e.schema.type? entry.type = some t) (requestId : String) (state : State) :
    (mutated e requestId selection state).2.files =
      (exec (e.runMutation requestId t entry.operation selection
        [.key selection.responseKey]) state).2.files := by
  rw [mutated_eq hentry ht]
  rcases exec (e.runMutation requestId t entry.operation selection
    [.key selection.responseKey]) state with ⟨cause | projected, after⟩
  · exact reportRejection_quiet requestId t entry.operation cause after
  · rfl

/-- The run of a mutation leaves what its deletion or its write leaves. -/
theorem exec_runMutation_files (requestId : String) (t : DocumentType) (op : Operation)
    (selection : Selection) (path : ResponsePath) (state : State) :
    (exec (e.runMutation requestId t op selection path) state).2 =
      if op.context = .delete then (exec (e.delete requestId t op selection.arguments) state).2
      else (exec (e.write requestId t op selection.arguments) state).2 := by
  unfold runMutation
  cases op.context with
  | delete => exact exec_bind_pure _ _ state
  | create => exact exec_bind_pure _ _ state
  | modify => exact exec_bind_pure _ _ state

/-- A root field of a mutation leaves nothing but files that there were, or what the write of a
document leaves; where that write succeeds, the document is the result of the operation. -/
theorem mutated_files (he : e.Bare) (requestId : String) (selection : Selection) (state : State) :
    Store.Lessened state.files (mutated e requestId selection state).2.files ∨
      ∃ entry t id doc result, e.mutations.get? selection.name = some entry ∧
        e.schema.type? entry.type = some t ∧ entry.operation.context ≠ .delete ∧
        e.store.Written t.name id doc state.files (mutated e requestId selection state).2.files
          result ∧
        (result = .ok () → ∃ after,
          exec (e.write requestId t entry.operation selection.arguments) state =
            (.ok doc, after)) := by
  cases hentry : e.mutations.get? selection.name with
  | none =>
    left
    unfold mutated resolveMutation
    rw [hentry]
    exact .refl _
  | some entry =>
    cases ht : e.schema.type? entry.type with
    | none =>
      left
      unfold mutated resolveMutation requireType
      rw [hentry]
      dsimp only
      rw [ht]
      exact .refl _
    | some t =>
      rw [mutated_files_eq hentry ht, exec_runMutation_files]
      by_cases hop : entry.operation.context = .delete
      · rw [if_pos hop]
        exact .inl (lessened_of_delete he requestId t _ _ state)
      · rw [if_neg hop]
        rcases exec_write_cases he requestId t entry.operation selection.arguments state with
          hquiet | ⟨id, doc, before, result, after, hbefore, hchange, hwrite⟩
        · rw [hquiet]
          exact .inl (.refl _)
        · have hwritten := written_of_change hchange
          rw [hbefore] at hwritten
          refine .inr ⟨entry, t, id, doc, result, rfl, ht, hop, ?_, ?_⟩
          · rw [hwrite]
            exact hwritten
          · rintro rfl
            exact ⟨after, hwrite⟩

/-- The root fields of a mutation leave the files that they leave in requests of their own. -/
theorem executeRequest_mutation_files (he : e.Bare) (requestId : String) (name : Option String)
    (fields : List (String × Selection)) (state : State) :
    ((e.executeRequest requestId ⟨.mutation, name, fields.map Prod.snd⟩).run state).2.files =
      (separately e fields state).2.files := by
  obtain ⟨hpending, hstate, -⟩ := @together_spec e requestId he fields [] {} state _ rfl (.refl state)
  exact ((executeRequest_mutation he name (fields.map Prod.snd) state hpending).2.trans hstate).files

/-- Where nothing restricts it, a look-up leaves files and identifiers as they are. -/
theorem exec_lookup_alike (he : e.Bare) (v : Json) (state : State) :
    (exec (e.lookup requestId t v) state).2.Alike state := by
  have hplain := he.readsPlainly
  unfold lookup fetchRestricted restrict EngineM.ofFilter
  rw [hplain.unrestricted]
  cases hquery : (Query.compile e.schema t e.config.maxLimit [("id", v)]).mapError
      EngineError.compile with
  | error cause =>
    rw [exec_bind_error (exec_engineLift _ state)]
    exact .refl state
  | ok query =>
    rw [exec_bind_ok (exec_engineLift _ state), exec_bind_pure,
      exec_bind_ok (exec_pure query state), exec_ofStore]
    obtain ⟨fetched, hfetch, halike⟩ := e.store.exec_fetch t.name query state
    rw [hfetch]
    exact halike

/-- Where nothing restricts it, the stored document that answers to a text is found by it. -/
theorem exec_requireDocument_stored (he : e.Bare) (requestId : String)
    (ht : e.schema.type? t.name = some t) (hask : t.AsksById e.schema)
    (hdot : '.' ∉ t.identifierName.toList) {id : String}
    (hasked : Filter.idTarget? (.str id) = some (.str id)) {docs : List Document}
    {existing : Document} (hstored : e.store.stored state.files t.name = .ok docs)
    (hfound : docs.find? (t.answersTo (.str id)) = some existing) :
    ∃ looked, exec (e.requireDocument requestId t (.str id)) state = (.ok existing, looked) ∧
      looked.Alike state := by
  have hfree : e.restrictions.handlersFor e.space t.name Registry.restrictionStage =
      ([] : List Filter).map fun g => (demand (.internal "") g).handler :=
    he.readsPlainly.unrestricted t.name
  have hvisible : e.visible requestId t state = .ok docs := by
    unfold visible
    rw [fetchRestricted_demands hfree ht requestId state none, hstored]
    exact congrArg Except.ok (List.filter_eq_self.mpr fun _ _ => rfl)
  have hlookup := (exec_lookup hask (narrows_of_demands hfree ht hdot requestId state)
    (.str id)).1 (.str id) hasked
  rw [hvisible, Except.map, hfound] at hlookup
  refine ⟨(exec (e.lookup requestId t (.str id)) state).2, ?_, exec_lookup_alike he _ state⟩
  unfold requireDocument
  rw [exec_bind_ok (Prod.ext hlookup rfl)]
  rfl

/-- A modification that nothing stands against: the operation takes its input, which names a stored
document by an id that is asked for as it is, refers to stored documents and is valid; and the
document keeps its id. -/
structure Modifies (e : Engine) (t : DocumentType) (op : Operation) (state : State)
    (arguments input existing : Document) (related : Keyed Json) (id : String) : Prop where
  context : op.context = .modify
  taken : inputOf arguments = .ok input
  assigned : checkAssignable t op input = .ok ()
  names : input.get? t.identifierName = some (.str id)
  asked : Filter.idTarget? (.str id) = some (.str id)
  stored : ∃ docs, e.store.stored state.files t.name = .ok docs ∧
    docs.find? (t.answersTo (.str id)) = some existing
  refers : exec (e.checkReferences t input) state = (.ok related, state)
  valid : e.schema.validate t.name (input.union op.set) .partialUpdate = []
  keeps : idOf? t (merge t related existing (input.union op.set)) = some id

namespace Modifies

variable {arguments input existing : Document} {related : Keyed Json} {id : String}
  (h : e.Modifies t op state arguments input existing related id)
  (he : e.Bare) (ht : e.schema.type? t.name = some t) (hask : t.AsksById e.schema)
  (hdot : '.' ∉ t.identifierName.toList)

include h he ht hask hdot

/-- The document is prepared. -/
theorem exec_prepareDocument (requestId : String) :
    ∃ ready, exec (e.prepareDocument requestId t op arguments) state =
      (.ok (merge t related existing (input.union op.set)), ready) ∧ ready.Alike state := by
  obtain ⟨docs, hstored, hfound⟩ := h.stored
  obtain ⟨looked, hrequire, hlooked⟩ :=
    exec_requireDocument_stored he requestId ht hask hdot h.asked hstored hfound
  obtain ⟨hvalue, hleft⟩ := checkReferences_agree (e := e) (t := t) input looked state hlooked
  rw [h.refers] at hvalue hleft
  have hreferences : exec (e.checkReferences t input) looked =
      (.ok related, (exec (e.checkReferences t input) looked).2) := Prod.ext hvalue rfl
  have hexisting : exec (some <$> e.findExisting requestId t input) state =
      (.ok (some existing), looked) := by
    unfold findExisting
    rw [h.names, map_eq_pure_bind]
    exact exec_bind_ok hrequire
  refine ⟨(exec (e.checkReferences t input) looked).2, ?_, hleft⟩
  have hmodify : ¬ op.context = .create := by
    rw [h.context]
    decide
  have hsanitize : e.collaborators.sanitize e.space t.name input = input := by
    rw [he.collaborators]
    rfl
  have hvalid : ∀ checked, exec (e.checkValid t (input.union op.set) .partialUpdate) checked =
      (.ok (), checked) := fun checked => by rw [exec_checkValid he, h.valid]
  unfold prepareDocument
  rw [exec_bind_ok (by rw [exec_engineLift, h.taken]),
    exec_bind_ok (by rw [exec_engineLift, h.assigned])]
  dsimp only
  rw [hsanitize, if_neg hmodify, if_neg hmodify, exec_bind_ok hexisting,
    exec_bind_ok (exec_authorize he _ _ looked), exec_bind_ok hreferences,
    exec_bind_ok (hvalid _)]
  rfl

variable {base : List String} {m : Shelf}

/-- The modification succeeds where nothing is in the way of its write, and nothing is in the way of
the next one. -/
theorem exec_write_clear (hrep : e.store.Represents base state.files m)
    (hthere : (m.get? t.name id).isSome = true) (hclear : Store.Clear base t.name state)
    (htype : IsStep t.name) (hid : Store.idFault? id = none) (hroom : e.store.Roomy t.name id)
    (hcount : state.minted < 16 ^ 12) (requestId : String) :
    ∃ after, exec (e.write requestId t op arguments) state =
        (.ok (merge t related existing (input.union op.set)), after) ∧
      e.store.Represents base after.files
        (m.put t.name id (merge t related existing (input.union op.set))) ∧
      Store.Clear base t.name after ∧ after.minted = state.minted + 1 := by
  obtain ⟨ready, hprepare, hready⟩ := h.exec_prepareDocument he ht hask hdot requestId
  rw [← hready.minted] at hcount ⊢
  rw [← hready.files] at hrep
  obtain ⟨after, hreplace, hafter⟩ := hrep.exec_replace_clear htype hid hthere
    (hclear.of_alike hready) hroom hcount (merge t related existing (input.union op.set))
  have hidentified : exec (identified t (merge t related existing (input.union op.set))) ready =
      (.ok (id, merge t related existing (input.union op.set)), ready) := by
    unfold identified
    rw [h.keeps]
    rfl
  have hmodify : ¬ op.context = .create := by
    rw [h.context]
    decide
  have hstages : exec (e.runStages requestId t op (fun doc => if op.context = .create then
      e.store.create t.name id doc else e.store.replace t.name id doc)
        (merge t related existing (input.union op.set))) ready =
      (.ok (merge t related existing (input.union op.set)), after) := by
    rw [exec_runStages (he.unhooked t.name op.hookSuffixes), if_neg hmodify, hreplace]
    rfl
  refine ⟨after, ?_, hafter⟩
  unfold write
  rw [exec_bind_ok hprepare, exec_bind_ok hidentified]
  dsimp only
  rw [exec_bind_ok hstages, he.readsPlainly.unredacted]
  rfl

end Modifies

/-- A root field of a mutation leaves what a write that succeeds leaves. -/
theorem mutated_of_write (selection : Selection) {entry : MutationEntry} {stored : Document}
    {after : State} (hentry : e.mutations.get? selection.name = some entry)
    (ht : e.schema.type? entry.type = some t) (hop : entry.operation.context = .modify)
    (h : exec (e.write requestId t entry.operation selection.arguments) state =
      (.ok stored, after)) :
    (mutated e requestId selection state).2 = after := by
  have hrun : exec (e.runMutation requestId t entry.operation selection
      [.key selection.responseKey]) state =
        (.ok (Projection.project e.schema t stored selection.selections
          [.key selection.responseKey] .stored), after) := by
    unfold runMutation
    rw [hop]
    exact exec_bind_ok h
  rw [mutated_eq hentry ht, hrun]

end Engine

end DocumentEngine
