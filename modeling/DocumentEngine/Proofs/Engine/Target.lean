import DocumentEngine.Proofs.Engine.Quiet
import DocumentEngine.Proofs.Engine.Restriction
import DocumentEngine.Proofs.Mutation.Merge
import DocumentEngine.Proofs.Schema.Structure
import DocumentEngine.Proofs.Store.Named
import DocumentEngine.Proofs.Store.Write

/-!
The document that a mutation changes. A modification or a deletion looks its document up by the
value of the identifier, under the restrictions of the type, and then changes the file of an id. The
file is that of the visible document with the id, and no other is touched, where the look-up finds
that document; a look-up that finds another one leads the mutation astray.
-/

namespace DocumentEngine

open Action

namespace Engine

variable {e : Engine} {requestId : String} {t : DocumentType} {op : Operation} {state : State}

/-- Without handlers the stages of an operation are the change of the store. -/
theorem exec_runStages (hhooks : e.hooks.chain e.space t.name op.hookSuffixes = [])
    (change : Document → StoreM Unit) (doc : Document) (state : State) :
    exec (e.runStages requestId t op change doc) state =
      (((exec (change doc) state).1.mapError .ofStore).map fun _ => doc,
        (exec (change doc) state).2) := by
  have hchange : exec (e.runStages requestId t op change doc) state =
      exec (EngineM.ofStore (change doc) >>= fun _ => pure doc) state := by
    unfold runStages
    rw [hhooks]
    rfl
  rw [hchange, exec_bind, exec_ofStore]
  rcases exec (change doc) state with ⟨_ | done, after⟩ <;> rfl

/-- A document that is looked up and has to be there is a stored one, whatever the restrictions
ask for. -/
theorem mem_stored_of_requireDocument (he : e.RestrictsQuietly) {id : Json} {doc : Document}
    {after : State} (h : exec (e.requireDocument requestId t id) state = (.ok doc, after)) :
    ∃ all, e.store.stored state.files t.name = .ok all ∧ doc ∈ all := by
  unfold requireDocument at h
  obtain ⟨found, looked, hlookup, hdone⟩ := exec_bind_eq_ok h
  unfold lookup at hlookup
  obtain ⟨query, compiled, hcompile, hfetch⟩ := exec_bind_eq_ok hlookup
  have hcompiled : compiled = state := by
    unfold EngineM.ofFilter at hcompile
    rw [exec_engineLift] at hcompile
    exact (Prod.mk.inj hcompile).2.symm
  obtain ⟨docs, fetched, hdocs, hhead⟩ := exec_bind_eq_ok hfetch
  unfold fetchRestricted at hdocs
  obtain ⟨narrowed, restricted, hrestrict, hdocs⟩ := exec_bind_eq_ok hdocs
  have hfiles : restricted.files = state.files := by
    have hquiet := @restrict_quiet e requestId he t.name query compiled
    rw [hrestrict] at hquiet
    exact hquiet.trans (congrArg State.files hcompiled)
  obtain ⟨fetched', hfound, -⟩ := e.store.exec_fetch t.name narrowed restricted
  rw [exec_ofStore, hfound, hfiles] at hdocs
  cases hhead
  cases hlist : docs with
  | nil =>
    rw [hlist] at hdone
    cases hdone
  | cons first rest =>
    rw [hlist] at hdone hdocs
    cases hdone
    cases hok : e.store.found state.files t.name narrowed with
    | error cause =>
      rw [hok] at hdocs
      cases hdocs
    | ok all =>
      rw [hok] at hdocs
      cases hdocs
      exact Store.mem_stored_of_found hok List.mem_cons_self

/-- The document that a modification finds is a stored one. -/
theorem mem_stored_of_findExisting (he : e.RestrictsQuietly) {input doc : Document} {after : State}
    (h : exec (e.findExisting requestId t input) state = (.ok doc, after)) :
    ∃ all, e.store.stored state.files t.name = .ok all ∧ doc ∈ all := by
  unfold findExisting at h
  split at h
  · cases h
  · cases h
  · exact mem_stored_of_requireDocument he h

/-- The look-up of a value finds the visible document of an id, and nothing where there is none. -/
def FindsById (e : Engine) (requestId : String) (t : DocumentType) (state : State) (v : Json)
    (id : String) (docs : List Document) : Prop :=
  (exec (e.lookup requestId t v) state).1 = .ok (docs.find? (t.hasId id))

/-- A mutation changes the file of an id. Where it succeeds, that file held the visible document of
the id and is left as it should be, and no other file is touched; where no such document is visible
the mutation fails, and no file is touched. -/
structure Targets (e : Engine) (t : DocumentType) (state : State) (id : String)
    (docs : List Document) (leaves : Document → Option Entry → Prop) (refusal : EngineError)
    (outcome : Except EngineError Projected × State) : Prop where
  changes : ∀ p, outcome.1 = .ok p → ∃ doc ∈ docs, ∃ place, t.idOf? doc = some id ∧
    e.store.HoldsAt state.files t.name id place doc ∧
      leaves doc (outcome.2.files.get? place) ∧ state.files.SameBut outcome.2.files place
  missing : (∀ doc ∈ docs, t.idOf? doc ≠ some id) →
    outcome.1 = .error refusal ∧ outcome.2.files = state.files

section

variable {v : Json} {id : String} {docs : List Document}

/-- What the look-up of a mutation gives: the visible document of the id, or a refusal. -/
theorem exec_requireDocument (hfinds : e.FindsById requestId t state v id docs)
    (hquiet : (exec (e.lookup requestId t v) state).2.files = state.files) :
    (exec (e.requireDocument requestId t v) state).2.files = state.files ∧
    (∀ doc, (exec (e.requireDocument requestId t v) state).1 = .ok doc →
      doc ∈ docs ∧ t.idOf? doc = some id) ∧
    ((∀ doc ∈ docs, t.idOf? doc ≠ some id) → (exec (e.requireDocument requestId t v) state).1 =
      .error (.notFound s!"{t.name} '{Mutation.shownId v}'")) := by
  unfold FindsById at hfinds
  unfold requireDocument
  rw [exec_bind]
  rcases hlookup : exec (e.lookup requestId t v) state with ⟨result, looked⟩
  rw [hlookup] at hfinds hquiet
  dsimp only at hfinds hquiet
  subst hfinds
  cases hfind : docs.find? (t.hasId id) with
  | none =>
    refine ⟨hquiet, fun doc hdoc => ?_, fun _ => rfl⟩
    cases hdoc
  | some found =>
    have hid : t.idOf? found = some id := by
      simpa [DocumentType.hasId] using List.find?_some hfind
    have hmem := List.mem_of_find?_eq_some hfind
    refine ⟨hquiet, fun doc hdoc => ?_, fun hnone => absurd hid (hnone found hmem)⟩
    cases hdoc
    exact ⟨hmem, hid⟩

/-- A deletion that succeeds has found a document and has deleted the file of its id. -/
theorem exec_delete_eq_ok (hhooks : e.hooks.chain e.space t.name op.hookSuffixes = [])
    {arguments : Document} {after : State}
    (hv : Mutation.deleteTarget? t.identifierName arguments = some v)
    (h : exec (e.delete requestId t op arguments) state = (.ok (), after)) :
    ∃ doc looked allowed id removed,
      exec (e.requireDocument requestId t v) state = (.ok doc, looked) ∧
      allowed.files = looked.files ∧ t.idOf? doc = some id ∧
      exec (e.store.delete t.name id) allowed = (.ok removed, after) := by
  unfold delete at h
  rw [hv] at h
  obtain ⟨doc, looked, hrequire, h⟩ := exec_bind_eq_ok h
  obtain ⟨⟨⟩, allowed, hguard, h⟩ := exec_bind_eq_ok h
  have hallowed : allowed.files = looked.files := by
    have hkept := @authorize_quiet e t op arguments [doc] looked
    rwa [hguard] at hkept
  cases hid : idOf? t doc with
  | none =>
    rw [hid] at h
    cases h
  | some id =>
    rw [hid] at h
    obtain ⟨stored, ran, hrun, hdone⟩ := exec_bind_eq_ok h
    cases hdone
    rw [exec_runStages hhooks] at hrun
    have hchange : exec (discard (e.store.delete t.name id)) allowed =
        (((exec (e.store.delete t.name id) allowed).1).map fun _ => ⟨⟩,
          (exec (e.store.delete t.name id) allowed).2) := by
      have hbind : exec (discard (e.store.delete t.name id)) allowed =
          exec (e.store.delete t.name id >>= fun _ => pure ⟨⟩) allowed := rfl
      rw [hbind, exec_bind]
      rcases exec (e.store.delete t.name id) allowed with ⟨_ | removed, ran⟩ <;> rfl
    rw [hchange] at hrun
    rcases hdelete : exec (e.store.delete t.name id) allowed with ⟨_ | removed, ran⟩
    · rw [hdelete] at hrun
      cases hrun
    · rw [hdelete] at hrun
      cases hrun
      exact ⟨doc, looked, allowed, id, removed, hrequire, hallowed, hid, hdelete⟩

/-- A deletion by a value whose look-up finds the document of an id removes the file of the id. -/
theorem targets_of_delete (hnamed : e.store.TypeNamed state.files t)
    {stored : List Document} (hstored : e.store.stored state.files t.name = .ok stored)
    (hsub : docs ⊆ stored) (hfinds : e.FindsById requestId t state v id docs)
    (hquiet : (exec (e.lookup requestId t v) state).2.files = state.files)
    (hhooks : e.hooks.chain e.space t.name op.hookSuffixes = []) (hop : op.context = .delete)
    (selection : Selection) (path : ResponsePath)
    (hv : Mutation.deleteTarget? t.identifierName selection.arguments = some v) :
    e.Targets t state id docs (fun _ left => left = none)
      (.notFound s!"{t.name} '{Mutation.shownId v}'")
      (exec (e.runMutation requestId t op selection path) state) := by
  obtain ⟨hfiles, hfound, hmissing⟩ := exec_requireDocument hfinds hquiet
  have hrun : exec (e.runMutation requestId t op selection path) state =
      exec (e.delete requestId t op selection.arguments >>=
        fun _ => pure (⟨.bool true, [], []⟩ : Projected)) state := by
    unfold runMutation
    rw [hop]
  constructor
  · intro p hp
    rcases hall : exec (e.runMutation requestId t op selection path) state with ⟨result, final⟩
    rw [hall] at hp
    dsimp only at hp ⊢
    rw [hrun, hp] at hall
    obtain ⟨⟨⟩, after, hdelete, hdone⟩ := exec_bind_eq_ok hall
    cases hdone
    obtain ⟨doc, looked, allowed, id', removed, hrequire, hallowed, hid', hremoved⟩ :=
      exec_delete_eq_ok hhooks hv hdelete
    rw [hrequire] at hfiles hfound
    obtain ⟨hmem, hid⟩ := hfound doc rfl
    rw [hid] at hid'
    cases hid'
    cases hpath : e.store.documentPath t.name id with
    | error cause =>
      unfold Store.delete at hremoved
      rw [exec_bind_error (by rw [exec_lift, hpath])] at hremoved
      cases hremoved
    | ok file =>
      obtain ⟨place, text, hplace, hentry, hheld⟩ :=
        hnamed.exists_holdsAt hstored (hsub hmem) hid hpath
      rw [← hfiles, ← hallowed] at hplace hentry
      obtain ⟨after', hexec, hdropped⟩ := Store.exec_delete hpath hplace hentry
      rw [hremoved] at hexec
      cases hexec
      have htop : place ≠ [] := by
        rintro rfl
        cases hentry
      rw [hdropped, hallowed, hfiles]
      exact ⟨doc, hmem, place, hid, hheld, FileTree.get?_drop_self _ htop,
        FileTree.sameBut_drop _ place⟩
  · intro hnone
    have hrefused : exec (e.requireDocument requestId t v) state =
        (.error (.notFound s!"{t.name} '{Mutation.shownId v}'"),
          (exec (e.requireDocument requestId t v) state).2) := Prod.ext (hmissing hnone) rfl
    have hdelete : exec (e.delete requestId t op selection.arguments) state =
        (.error (.notFound s!"{t.name} '{Mutation.shownId v}'"),
          (exec (e.requireDocument requestId t v) state).2) := by
      unfold delete
      rw [hv]
      exact exec_bind_error hrefused
    rw [hrun, exec_bind_error hdelete]
    exact ⟨rfl, hfiles⟩

/-- The input of a modification, cleaned. -/
def cleaned (e : Engine) (t : DocumentType) (input : Document) : Document :=
  e.collaborators.sanitize e.space t.name input

/-- What a modification stores: the input and the values of the operation over the document. -/
def mergedOver (e : Engine) (t : DocumentType) (op : Operation) (input : Document)
    (related : Keyed Json) (doc : Document) : Document :=
  Mutation.merge t related doc ((e.cleaned t input).union op.set)

/-- What preparing a document has done where it succeeds: the operation takes the input, which is
cleaned and whose references are loaded, and which with the values of the operation passes the
validator and is merged over nothing or over the stored document that it names. -/
theorem prepared_of_exec {arguments prepared : Document} {after : State}
    (h : exec (e.prepareDocument requestId t op arguments) state = (.ok prepared, after)) :
    ∃ (input existing : Document) (related : Keyed Json) (looked allowed checked : State),
      Mutation.inputOf arguments = .ok input ∧ Mutation.checkAssignable t op input = .ok () ∧
      (op.context = .create → existing = [] ∧ looked.files = state.files) ∧
      (op.context ≠ .create →
        exec (e.findExisting requestId t (e.cleaned t input)) state = (.ok existing, looked)) ∧
      allowed.files = looked.files ∧
      exec (e.checkReferences t (e.cleaned t input)) allowed = (.ok related, checked) ∧
      exec (e.checkValid t ((e.cleaned t input).union op.set)
        (if op.context = .create then .full else .partialUpdate)) checked = (.ok (), after) ∧
      prepared = e.mergedOver t op input related existing ∧ after.files = looked.files := by
  unfold prepareDocument at h
  obtain ⟨input, taken, htaken, h⟩ := exec_bind_eq_ok h
  rw [exec_engineLift] at htaken
  obtain ⟨hinput, rfl⟩ := Prod.mk.inj htaken
  obtain ⟨⟨⟩, assigned, htaken, h⟩ := exec_bind_eq_ok h
  rw [exec_engineLift] at htaken
  obtain ⟨hassign, rfl⟩ := Prod.mk.inj htaken
  have hcleaned : e.collaborators.sanitize e.space t.name input = e.cleaned t input := rfl
  rw [hcleaned] at h
  -- Whichever way the stored document is looked for, the rest is the same.
  obtain ⟨existing, looked, hnew, hold, h⟩ : ∃ (existing : Option Document) (looked : State),
      (op.context = .create → existing.getD [] = [] ∧ looked.files = state.files) ∧
      (op.context ≠ .create → exec (e.findExisting requestId t (e.cleaned t input)) state =
        (.ok (existing.getD []), looked)) ∧
      exec (e.authorize t op (e.cleaned t input) existing.toList >>= fun _ =>
        e.checkReferences t (e.cleaned t input) >>= fun related =>
          e.checkValid t ((e.cleaned t input).union op.set)
            (if op.context = .create then .full else .partialUpdate) >>= fun _ =>
              pure (e.mergedOver t op input related (existing.getD []))) looked =
        (.ok prepared, after) := by
    by_cases hcreate : op.context = .create
    · rw [if_pos hcreate] at h
      obtain ⟨⟨⟩, looked, hunused, h⟩ := exec_bind_eq_ok h
      have hquiet := @checkUnused_quiet e t (e.cleaned t input) state
      rw [hunused] at hquiet
      exact ⟨none, looked, fun _ => ⟨rfl, hquiet⟩, fun hmodify => absurd hcreate hmodify, h⟩
    · rw [if_neg hcreate, map_eq_pure_bind] at h
      obtain ⟨existing, looked, hfound, h⟩ := exec_bind_eq_ok h
      obtain ⟨found, looked, hfound, hsome⟩ := exec_bind_eq_ok hfound
      cases hsome
      exact ⟨some found, looked, fun hnew => absurd hnew hcreate, fun _ => hfound, h⟩
  obtain ⟨⟨⟩, allowed, hguard, h⟩ := exec_bind_eq_ok h
  obtain ⟨related, checked, hreferences, h⟩ := exec_bind_eq_ok h
  obtain ⟨⟨⟩, valid, hvalid, hdone⟩ := exec_bind_eq_ok h
  cases hdone
  have hallowed := @authorize_quiet e t op (e.cleaned t input) existing.toList looked
  rw [hguard] at hallowed
  have hchecked := @checkReferences_quiet e t (e.cleaned t input) allowed
  rw [hreferences] at hchecked
  have hkept := @checkValid_quiet e t ((e.cleaned t input).union op.set)
    (if op.context = .create then .full else .partialUpdate) checked
  rw [hvalid] at hkept
  exact ⟨input, existing.getD [], related, looked, allowed, checked, hinput, hassign, hnew, hold,
    hallowed, hreferences, hvalid, rfl, hkept.trans (hchecked.trans hallowed)⟩

/-- Preparing a modification checks the input, then looks the document up. -/
theorem prepareDocument_modify (hop : op.context = .modify) {arguments input : Document}
    (hinput : Mutation.inputOf arguments = .ok input)
    (hv : (e.cleaned t input).get? t.identifierName = some v) (hid : v.idText? = some id) :
    (∀ cause, Mutation.checkAssignable t op input = .error cause →
      exec (e.prepareDocument requestId t op arguments) state = (.error cause, state)) ∧
    (Mutation.checkAssignable t op input = .ok () →
      (∀ cause looked, exec (e.requireDocument requestId t v) state = (.error cause, looked) →
        exec (e.prepareDocument requestId t op arguments) state = (.error cause, looked)) ∧
      ∀ prepared after,
        exec (e.prepareDocument requestId t op arguments) state = (.ok prepared, after) →
          ∃ doc looked related,
            exec (e.requireDocument requestId t v) state = (.ok doc, looked) ∧
            after.files = looked.files ∧ prepared = e.mergedOver t op input related doc) := by
  have hcreate : ¬ op.context = .create := by
    rw [hop]
    decide
  have hexisting : e.findExisting requestId t (e.cleaned t input) =
      e.requireDocument requestId t v := by
    unfold findExisting
    rw [hv]
    cases v <;> first | rfl | cases hid
  have hlift : exec (EngineM.lift (Mutation.inputOf arguments)) state = (.ok input, state) := by
    rw [exec_engineLift, hinput]
  refine ⟨fun cause hcause => ?_, fun hok => ⟨fun cause looked h => ?_, fun prepared after h => ?_⟩⟩
  · unfold prepareDocument
    rw [exec_bind_ok hlift]
    exact exec_bind_error (by rw [exec_engineLift, hcause])
  · have hfailed : exec (some <$> e.findExisting requestId t (e.cleaned t input)) state =
        (.error cause, looked) := by
      rw [hexisting, map_eq_pure_bind]
      exact exec_bind_error h
    unfold prepareDocument
    rw [exec_bind_ok hlift, exec_bind_ok (by rw [exec_engineLift, hok])]
    dsimp only
    rw [if_neg hcreate]
    exact exec_bind_error hfailed
  · obtain ⟨input', doc, related, looked, allowed, checked, hinput', -, -, hfound, -, -, -, hdoc,
      hkept⟩ := prepared_of_exec h
    cases hinput.symm.trans hinput'
    have hrequire := hfound hcreate
    rw [hexisting] at hrequire
    exact ⟨doc, looked, related, hrequire, hkept, hdoc⟩

/-- A modification that succeeds has found a document, and has put what the input is merged to over
it in place of the file of its id. -/
theorem exec_modify_eq_ok {f : Field} (hf : t.field? t.identifierName = some f)
    (hkind : f.kind = .scalar .id)
    (hhooks : e.hooks.chain e.space t.name op.hookSuffixes = []) (hop : op.context = .modify)
    (hset : t.identifierName ∉ op.set.keys) {arguments input : Document}
    (hinput : Mutation.inputOf arguments = .ok input)
    (hassign : Mutation.checkAssignable t op input = .ok ())
    (hordered : (e.cleaned t input).Ascending)
    (hv : (e.cleaned t input).get? t.identifierName = some v) (hid : v.idText? = some id)
    {written : Document} {after : State}
    (h : exec (e.write requestId t op arguments) state = (.ok written, after)) :
    ∃ doc looked related ready,
      exec (e.requireDocument requestId t v) state = (.ok doc, looked) ∧
      ready.files = looked.files ∧
      exec (e.store.replace t.name id (e.mergedOver t op input related doc)) ready =
        (.ok (), after) := by
  unfold write at h
  obtain ⟨prepared, ready, hready, h⟩ := exec_bind_eq_ok h
  obtain ⟨-, hprepared⟩ :=
    (@prepareDocument_modify e requestId t op state v id hop _ _ hinput hv hid).2 hassign
  obtain ⟨doc, looked, related, hrequire, hkept, rfl⟩ := hprepared _ _ hready
  have hcandidate : ((e.cleaned t input).union op.set).get? t.identifierName = some v := by
    rw [Keyed.get?_union_of_notMem _ hset, hv]
  have hmerged : idOf? t (e.mergedOver t op input related doc) = some id := by
    unfold mergedOver idOf?
    rw [Mutation.get?_merge_identifier hf hkind related doc
      (Keyed.ascending_union hordered op.set) hcandidate hid]
    rfl
  have hidentified : exec (identified t (e.mergedOver t op input related doc)) ready =
      (.ok (id, e.mergedOver t op input related doc), ready) := by
    unfold identified
    rw [hmerged]
    rfl
  rw [exec_bind_ok hidentified] at h
  dsimp only at h
  obtain ⟨stored, ran, hstages, hredact⟩ := exec_bind_eq_ok h
  cases hredact
  have hcreate : ¬ op.context = .create := by
    rw [hop]
    decide
  rw [exec_runStages hhooks, if_neg hcreate] at hstages
  rcases hreplace : exec (e.store.replace t.name id (e.mergedOver t op input related doc)) ready
    with ⟨_ | ⟨⟩, ran⟩
  · rw [hreplace] at hstages
    cases hstages
  · rw [hreplace] at hstages
    cases hstages
    exact ⟨doc, looked, related, ready, hrequire, hkept, hreplace⟩

/-- A modification by a value whose look-up finds the document of an id merges the input over that
document and changes its file. -/
theorem targets_of_modify {f : Field} (hf : t.field? t.identifierName = some f)
    (hkind : f.kind = .scalar .id) (hnamed : e.store.TypeNamed state.files t)
    {stored : List Document} (hstored : e.store.stored state.files t.name = .ok stored)
    (hsub : docs ⊆ stored) (hfinds : e.FindsById requestId t state v id docs)
    (hquiet : (exec (e.lookup requestId t v) state).2.files = state.files)
    (hhooks : e.hooks.chain e.space t.name op.hookSuffixes = []) (hop : op.context = .modify)
    (hset : t.identifierName ∉ op.set.keys) (selection : Selection) (path : ResponsePath)
    {input : Document} (hinput : Mutation.inputOf selection.arguments = .ok input)
    (hordered : (e.cleaned t input).Ascending)
    (hv : (e.cleaned t input).get? t.identifierName = some v) (hid : v.idText? = some id) :
    e.Targets t state id docs
      (fun doc left => ∃ related, left = some (.file (some (Json.pretty (.obj
        (e.mergedOver t op input related doc))))))
      (match Mutation.checkAssignable t op input with
        | .ok () => .notFound s!"{t.name} '{Mutation.shownId v}'"
        | .error cause => cause)
      (exec (e.runMutation requestId t op selection path) state) := by
  obtain ⟨hfiles, hfound, hmissing⟩ := exec_requireDocument hfinds hquiet
  obtain ⟨hunassignable, hprepare⟩ := @prepareDocument_modify e requestId t op state v id
    hop _ _ hinput hv hid
  have hrun : exec (e.runMutation requestId t op selection path) state =
      exec (e.write requestId t op selection.arguments >>= fun doc =>
        pure (Projection.project e.schema t doc selection.selections path .stored)) state := by
    unfold runMutation
    rw [hop]
  have hfailed : ∀ cause looked,
      exec (e.prepareDocument requestId t op selection.arguments) state =
        (.error cause, looked) →
      exec (e.runMutation requestId t op selection path) state = (.error cause, looked) := by
    intro cause looked h
    rw [hrun]
    unfold write
    exact exec_bind_error (exec_bind_error h)
  cases hassign : Mutation.checkAssignable t op input with
  | error cause =>
    have hrefused := hfailed cause state (hunassignable cause hassign)
    rw [hrefused]
    refine ⟨fun p hp => ?_, fun _ => ⟨rfl, rfl⟩⟩
    cases hp
  | ok done =>
    obtain ⟨hunfound, -⟩ := hprepare hassign
    constructor
    · intro p hp
      rcases hall : exec (e.runMutation requestId t op selection path) state with ⟨result, final⟩
      rw [hall] at hp
      dsimp only at hp ⊢
      rw [hrun, hp] at hall
      obtain ⟨written, after, hwrite, hdone⟩ := exec_bind_eq_ok hall
      cases hdone
      obtain ⟨doc, looked, related, ready, hrequire, hkept, hreplace⟩ :=
        exec_modify_eq_ok hf hkind hhooks hop hset hinput hassign hordered hv hid hwrite
      rw [hrequire] at hfiles hfound
      obtain ⟨hmem, hheld⟩ := hfound doc rfl
      obtain ⟨file, place, hpath, hplace, hleft, hothers⟩ := Store.exec_replace hreplace
      obtain ⟨place', -, hplace', -, hthere⟩ :=
        hnamed.exists_holdsAt hstored (hsub hmem) hheld hpath
      rw [hkept.trans hfiles] at hplace hothers
      cases hplace.symm.trans hplace'
      exact ⟨doc, hmem, place, hheld, hthere, ⟨related, hleft⟩, hothers⟩
    · intro hnone
      have hrefused : exec (e.requireDocument requestId t v) state =
          (.error (.notFound s!"{t.name} '{Mutation.shownId v}'"),
            (exec (e.requireDocument requestId t v) state).2) := Prod.ext (hmissing hnone) rfl
      rw [hfailed _ _ (hunfound _ _ hrefused)]
      exact ⟨rfl, hfiles⟩

/-- The look-up finds the visible document of an id exactly where its value is one value, and the
first document that answers to this one has the id. -/
theorem findsById_iff (hask : t.AsksById e.schema) (hnarrows : e.Narrows requestId t state)
    (hvisible : e.visible requestId t state = .ok docs) :
    e.FindsById requestId t state v id docs ↔
      ∃ w, Filter.idTarget? v = some w ∧
        docs.find? (t.answersTo w) = docs.find? (t.hasId id) := by
  obtain ⟨hone, hmany, -⟩ := exec_lookup hask hnarrows v
  unfold FindsById
  cases htarget : Filter.idTarget? v with
  | none =>
    obtain ⟨cause, hcause⟩ := hmany htarget
    rw [hcause]
    constructor
    · intro h
      cases h
    · rintro ⟨w, hw, -⟩
      cases hw
  | some w =>
    rw [hone w htarget, hvisible]
    constructor
    · intro h
      exact ⟨w, rfl, Except.ok.inj h⟩
    · rintro ⟨w', hw', h⟩
      cases hw'
      exact congrArg Except.ok h

/-- Among documents whose identifiers are texts, a text that is asked for as it is finds the one
with the text for its id. -/
theorem find?_answersTo (hdocs : ∀ doc ∈ docs, ∃ own, doc.get? t.identifierName = some (.str own))
    (text : String) : docs.find? (t.answersTo (.str text)) = docs.find? (t.hasId text) := by
  induction docs with
  | nil => rfl
  | cons doc docs ih =>
    obtain ⟨own, hown⟩ := hdocs doc List.mem_cons_self
    rw [List.find?_cons, List.find?_cons, DocumentType.answersTo_eq_hasId hown,
      ih fun other hother => hdocs other (List.mem_cons_of_mem _ hother)]

end

/-- The look-up of a mutation finds the visible document of the id that a value spells exactly where
the value is one value, and the first visible document that answers to this one has that id; so it
does for a text that is asked for as it is, among documents whose identifiers are texts. And where
it does, a deletion removes the file of the id, a modification merges its input over the document in
that file, and no other file is touched; where no document with the id is visible, the mutation is
refused. -/
theorem mutation_targets (e : Engine) (requestId : String) (t : DocumentType) (f : Field)
    (state : State) (docs : List Document) (v : Json) (id : String)
    (hschema : e.schema.check = .ok ()) (ht : t ∈ e.schema.types) (hf : t.identifier? = some f)
    (hkind : f.kind = .scalar .id) (hask : t.AsksById e.schema)
    (hnamed : e.store.TypeNamed state.files t) (hnarrows : e.Narrows requestId t state)
    (hvisible : e.visible requestId t state = .ok docs) (hid : v.idText? = some id) :
    (e.FindsById requestId t state v id docs ↔
      ∃ w, Filter.idTarget? v = some w ∧
        docs.find? (t.answersTo w) = docs.find? (t.hasId id)) ∧
    (v = .str id → Filter.idTarget? v = some v →
      (∀ doc ∈ docs, ∃ own, doc.get? t.identifierName = some (.str own)) →
        e.FindsById requestId t state v id docs) ∧
    (e.FindsById requestId t state v id docs →
      ∀ (op : Operation) (selection : Selection) (path : ResponsePath),
        e.hooks.chain e.space t.name op.hookSuffixes = [] → t.identifierName ∉ op.set.keys →
        (op.context = .delete →
          Mutation.deleteTarget? t.identifierName selection.arguments = some v →
            e.Targets t state id docs (fun _ left => left = none)
              (.notFound s!"{t.name} '{Mutation.shownId v}'")
              (exec (e.runMutation requestId t op selection path) state)) ∧
        (op.context = .modify → ∀ input,
          Mutation.inputOf selection.arguments = .ok input → (e.cleaned t input).Ascending →
          (e.cleaned t input).get? t.identifierName = some v →
            e.Targets t state id docs
              (fun doc left => ∃ related, left = some (.file (some (Json.pretty (.obj
                (e.mergedOver t op input related doc))))))
              (match Mutation.checkAssignable t op input with
                | .ok () => .notFound s!"{t.name} '{Mutation.shownId v}'"
                | .error cause => cause)
              (exec (e.runMutation requestId t op selection path) state))) := by
  have hiff := @findsById_iff e requestId t state v id _ hask hnarrows hvisible
  obtain ⟨stored, hstored, hsub⟩ := hnarrows.visible_subset hvisible
  obtain ⟨-, -, hquiet⟩ := exec_lookup hask hnarrows v
  have hfield := Schema.field?_identifierName hschema ht hf
  refine ⟨hiff, ?_, fun hfinds op selection path hhooks hset => ⟨fun hop hv => ?_, ?_⟩⟩
  · rintro rfl htarget htexts
    exact hiff.mpr ⟨.str id, htarget, find?_answersTo htexts id⟩
  · exact targets_of_delete hnamed hstored hsub hfinds hquiet hhooks hop selection path hv
  · intro hop input hinput hordered hv
    exact targets_of_modify hfield hkind hnamed hstored hsub hfinds hquiet hhooks hop hset selection
      path hinput hordered hv hid

section

/-- Provinces in zones. -/
private def zoned : DocumentType where
  name := "Provincia"
  fields := [.ofIdentifier "id", .ofScalar "nombre" .string, .ofScalar "zona" .string]

/-- An engine that keeps the provinces of the south back. -/
private def northern : Engine :=
  { bare ⟨"/data"⟩ ⟨[zoned]⟩ ⟨"default", []⟩ with
    restrictions := ({} : Registry (Option Filter)).register "default::ProvinciaRestriction"
      (demand (.authorization "kept back")
        (.condition ⟨"zona", .ne, .single (.str "sur")⟩)).handler }

/-- One province, of the north. -/
private def oneProvince : State where
  files := ⟨[(["data"], .directory), (["data", "Provincia"], .directory),
    (["data", "Provincia", "01"],
      .file (some "\x7b\"id\": \"01\", \"zona\": \"norte\"\x7d"))]⟩

private theorem zoned_asksById : zoned.AsksById ⟨[zoned]⟩ :=
  Query.asksById_of_isWord (f := .ofIdentifier "id") (by decide)
    (by decide) (by decide) (by decide) (by decide)

private theorem northern_narrows : northern.Narrows "r" zoned oneProvince :=
  @narrows_of_demands northern zoned (.authorization "kept back")
    [.condition ⟨"zona", .ne, .single (.str "sur")⟩] (by rfl) (by decide) (by decide)
    "r" oneProvince

theorem mutation_targets_province :
    ∃ docs, northern.visible "r" zoned oneProvince = .ok docs ∧
      northern.FindsById "r" zoned oneProvince (.str "01") "01" docs := by
  have htexts : ((northern.visible "r" zoned oneProvince).toOption.elim false fun docs =>
      docs.all fun doc => ((doc.get? "id").bind Json.str?).isSome) = true := by decide +kernel
  cases hvisible : northern.visible "r" zoned oneProvince with
  | error cause =>
    rw [hvisible] at htexts
    cases htexts
  | ok docs =>
    rw [hvisible] at htexts
    refine ⟨docs, rfl, ?_⟩
    refine (mutation_targets northern "r" zoned (.ofIdentifier "id") oneProvince docs (.str "01")
      "01" (by rfl) List.mem_cons_self (by rfl) rfl zoned_asksById
      (Store.typeNamed_of_isTypeNamed (by decide +kernel)) northern_narrows hvisible rfl).2.1 rfl
      (Filter.idTarget?_str (by decide) (by decide)) fun doc hdoc => ?_
    have htext := List.all_eq_true.mp htexts doc hdoc
    cases hown : doc.get? "id" with
    | none => simp [hown] at htext
    | some own =>
      cases own with
      | str text => exact ⟨text, hown⟩
      | _ => simp [hown, Json.str?] at htext

/-- A deletion by a number finds the document whose id spells that number, and removes it. -/
theorem exists_deletion_astray :
    ∃ (e : Engine) (t : DocumentType) (op : Operation) (selection : Selection) (state : State),
      e.schema.check.isOk = true ∧ e.store.TypeNamed state.files t ∧ e.Narrows "r" t state ∧
      op.context = .delete ∧
      Mutation.deleteTarget? t.identifierName selection.arguments = some (.int 1) ∧
      (match e.visible "r" t state with
        | .ok docs => docs.all fun doc => !t.hasId "1" doc
        | .error _ => false) = true ∧
      (exec (e.runMutation "r" t op selection []) state).1.isOk = true ∧
      (exec (e.runMutation "r" t op selection []) state).2.files.get? ["data", "Provincia", "01"] ≠
        state.files.get? ["data", "Provincia", "01"] := by
  have hcompile := (Query.compile_asksById (s := northern.schema) zoned_asksById
    northern.config.maxLimit (.int 1)).1 _ (Filter.idTarget?_num (.int 1))
  have hrun : northern.runMutation "r" zoned (.ofImplicit "delete" .delete [])
      (.field none "provinciaDelete" [("id", .int 1)] []) [] =
        (northern.requireDocument "r" zoned (.int 1) >>= _) >>= _ := rfl
  refine ⟨northern, zoned, .ofImplicit "delete" .delete [],
    .field none "provinciaDelete" [("id", .int 1)] [], oneProvince,
    by decide +kernel, Store.typeNamed_of_isTypeNamed (by decide +kernel), northern_narrows, rfl,
    rfl, by decide +kernel, ?_, ?_⟩
  · rw [hrun]
    unfold requireDocument lookup
    rw [hcompile]
    decide +kernel
  · rw [hrun]
    unfold requireDocument lookup
    rw [hcompile]
    decide +kernel

end

end Engine

end DocumentEngine
