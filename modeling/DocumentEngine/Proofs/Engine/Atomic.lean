import DocumentEngine.Proofs.Engine.Effects
import DocumentEngine.Proofs.Store.Atomic

/-!
Atomicity of mutations. Whatever the guard, the sanitizer, the validator, the redactor and the
restrictions decide, they decide it before the change of the store, and handlers around that change
that give back what it gives cannot fail behind it. So a mutation that fails leaves every document
as it was, and one that succeeds alters the file of one document.
-/

namespace DocumentEngine

open Action

variable {α : Type}

/-- A handler that fails by itself, or goes on once, with what value it likes, and gives back what
the rest of the pipeline gives. It changes no file itself. -/
def Handler.Passes (handler : Handler α) : Prop :=
  ∀ value context state, ∃ between : State, between.files = state.files ∧
    ((∃ cause, ∀ next, exec (handler value context next) state = (.error cause, between)) ∨
      ∃ passed, ∀ next,
        (exec (handler value context next) state).1 = (exec (next passed) between).1 ∧
        (exec (handler value context next) state).2.files = (exec (next passed) between).2.files)

/-- Handlers that pass on fail before the innermost action runs, or have its outcome. -/
theorem Pipeline.runWith_passes {context : StageContext} {handlers : List (Handler α)}
    (h : ∀ handler ∈ handlers, handler.Passes) (innermost : α → EngineM α) (value : α)
    (state : State) :
    ∃ between : State, between.files = state.files ∧
      ((∃ cause, exec (runWith context innermost handlers value) state = (.error cause, between)) ∨
        ∃ passed, (exec (runWith context innermost handlers value) state).1 =
            (exec (innermost passed) between).1 ∧
          (exec (runWith context innermost handlers value) state).2.files =
            (exec (innermost passed) between).2.files) := by
  induction handlers generalizing value state with
  | nil => exact ⟨state, rfl, .inr ⟨value, rfl, rfl⟩⟩
  | cons handler rest ih =>
    obtain ⟨between, hfiles, ⟨cause, hfails⟩ | ⟨passed, hpasses⟩⟩ :=
      h handler List.mem_cons_self value context state
    · exact ⟨between, hfiles, .inl ⟨cause, hfails _⟩⟩
    obtain ⟨hvalue, hleft⟩ := hpasses (runWith context innermost rest)
    obtain ⟨inner, hinner, ⟨cause, hfails⟩ | ⟨last, hlast, hchanged⟩⟩ :=
      ih (fun other hother => h other (List.mem_cons_of_mem _ hother)) passed between
    · rw [hfails] at hvalue hleft
      refine ⟨(exec (runWith context innermost (handler :: rest) value) state).2,
        hleft.trans (hinner.trans hfiles), .inl ⟨cause, Prod.ext hvalue rfl⟩⟩
    · exact ⟨inner, hinner.trans hfiles, .inr ⟨last, hvalue.trans hlast, hleft.trans hchanged⟩⟩

/-- A rule that runs the rest once and changes nothing behind it passes on. -/
theorem Rule.passes {r : Rule α} (hstop : r.stop = false) (htwice : r.twice = false)
    (hrecover : r.recover = false) (hafter : r.after = id) (hdeny : r.denyAfter = false) :
    r.handler.Passes := by
  intro value context state
  obtain ⟨traced, htraced, halike⟩ := r.exec_trace "before" state
  refine ⟨traced, halike.files, ?_⟩
  unfold handler
  cases hdenied : r.deny with
  | true => exact .inl ⟨r.failure, fun next => exec_bind_ok htraced⟩
  | false =>
    cases r.before context value with
    | none => exact .inl ⟨r.failure, fun next => exec_bind_ok htraced⟩
    | some passed =>
      refine .inr ⟨passed, fun next => ?_⟩
      rw [exec_bind_ok htraced]
      simp only [Bool.false_eq_true, if_false, hstop, hdeny, hafter, id_eq]
      rw [exec_bind, exec_proceed htwice hrecover]
      rcases exec (next passed) traced with ⟨cause | result, left⟩
      · exact ⟨rfl, rfl⟩
      · obtain ⟨last, hlast, hlate⟩ := r.exec_trace "after" left
        dsimp only
        rw [exec_bind_ok hlast]
        exact ⟨rfl, hlate.files⟩

namespace Engine

variable {e : Engine} {requestId : String} {t : DocumentType} {op : Operation} {state : State}

/-- What a mutation leaves: every document as it was where it fails, one document altered where it
succeeds. -/
def AllOrNothing {β : Type} (e : Engine) (type : String) (context : OperationContext)
    (before : FileTree) (outcome : Except EngineError β × State) : Prop :=
  match outcome.1 with
  | .error _ => Store.SameDocuments before outcome.2.files
  | .ok _ => e.store.AltersOne type context before outcome.2.files

namespace AllOrNothing

variable {β γ : Type} {type : String} {context : OperationContext} {before : FileTree}

theorem of_error {outcome : Except EngineError β × State} {cause : EngineError}
    (hvalue : outcome.1 = .error cause) (hfiles : outcome.2.files = before) :
    e.AllOrNothing type context before outcome := by
  unfold AllOrNothing
  rw [hvalue, hfiles]
  exact .refl _

/-- Only whether an outcome is a failure matters, and the files that it leaves. -/
theorem congr {outcome : Except EngineError β × State} {other : Except EngineError γ × State}
    (hvalue : other.1.isOk = outcome.1.isOk) (hfiles : other.2.files = outcome.2.files)
    (h : e.AllOrNothing type context before outcome) :
    e.AllOrNothing type context before other := by
  obtain ⟨result, after⟩ := outcome
  obtain ⟨result', after'⟩ := other
  unfold AllOrNothing at h ⊢
  dsimp only at hvalue hfiles h ⊢
  rw [hfiles]
  cases result <;> cases result' <;> first | exact h | cases hvalue

/-- What follows an action and changes neither files nor success leaves it all or nothing. -/
theorem bind_pure {x : EngineM β} {f : β → γ} (h : e.AllOrNothing type context before (exec x state)) :
    e.AllOrNothing type context before (exec (x >>= fun b => pure (f b)) state) := by
  refine h.congr ?_ (by rw [exec_bind_pure])
  rw [exec_bind]
  rcases exec x state with ⟨_ | b, after⟩ <;> rfl

/-- What comes before an action and changes no file leaves it all or nothing. -/
theorem of_bind {x : EngineM β} {f : β → EngineM γ} (hx : Quiet x)
    (hf : ∀ b between, exec x state = (.ok b, between) → between.files = state.files →
      e.AllOrNothing type context state.files (exec (f b) between)) :
    e.AllOrNothing type context state.files (exec (x >>= f) state) := by
  have hquiet := hx state
  rcases hrun : exec x state with ⟨cause | b, between⟩
  · rw [hrun] at hquiet
    rw [exec_bind_error hrun]
    exact .of_error rfl hquiet
  · rw [hrun] at hquiet
    rw [exec_bind_ok hrun]
    exact hf b between hrun hquiet

end AllOrNothing

/-- The stages of an operation are as atomic as the change in them. -/
theorem allOrNothing_of_runStages
    (hhooks : ∀ handler ∈ e.hooks.chain e.space t.name op.hookSuffixes, handler.Passes)
    {change : Document → StoreM Unit}
    (hchange : ∀ doc (between : State), between.files = state.files →
      e.AllOrNothing t.name op.context state.files (exec (EngineM.ofStore (change doc)) between))
    (doc : Document) :
    e.AllOrNothing t.name op.context state.files
      (exec (e.runStages requestId t op change doc) state) := by
  obtain ⟨between, hfiles, ⟨cause, hfails⟩ | ⟨passed, hvalue, hleft⟩⟩ :=
    Pipeline.runWith_passes hhooks (fun doc => EngineM.ofStore (change doc) >>= fun _ => pure doc)
      doc state
  · exact .of_error (congrArg Prod.fst hfails) ((congrArg (fun ran => ran.2.files) hfails).trans hfiles)
  · have hdone := (hchange passed between hfiles).bind_pure (f := fun _ => passed)
    exact hdone.congr (congrArg Except.isOk hvalue) hleft

/-- The change of a creation or a modification is made or not. -/
theorem allOrNothing_of_change (hop : op.context ≠ .delete) (id : String) (doc : Document)
    (state : State) :
    e.AllOrNothing t.name op.context state.files
      (exec (EngineM.ofStore (e.change t op id doc)) state) := by
  obtain ⟨habsent, hpresent⟩ := Store.exec_check_alike e.store t.name id state
  rw [exec_ofStore]
  rcases hrun : exec (e.change t op id doc) state with ⟨cause | ⟨⟨⟩⟩, after⟩
  · unfold change at hrun
    split at hrun
    · exact Store.sameDocuments_of_checked habsent hrun
    · exact Store.sameDocuments_of_checked hpresent hrun
  · unfold change at hrun
    change e.store.AltersOne t.name op.context state.files after.files
    cases hcontext : op.context with
    | create =>
      rw [if_pos hcontext] at hrun
      exact Store.altersOne_of_create hrun
    | modify =>
      rw [if_neg (by rw [hcontext]; decide)] at hrun
      exact Store.altersOne_of_replace hrun
    | delete => exact absurd hcontext hop

section

variable (he : e.RestrictsQuietly)
  (hhooks : ∀ handler ∈ e.hooks.chain e.space t.name op.hookSuffixes, handler.Passes)

include he hhooks

theorem allOrNothing_of_write (hop : op.context ≠ .delete) (arguments : Document) (state : State) :
    e.AllOrNothing t.name op.context state.files
      (exec (e.write requestId t op arguments) state) := by
  unfold write
  refine .of_bind (prepareDocument_quiet he arguments) fun doc prepared _ hprepared => ?_
  rw [← hprepared]
  refine .of_bind (identified_quiet doc) fun named between _ hnamed => ?_
  rw [← hnamed]
  refine .bind_pure (allOrNothing_of_runStages hhooks (fun doc inner hinner => ?_) _)
  rw [← hinner]
  exact allOrNothing_of_change hop _ doc inner

theorem allOrNothing_of_delete (hop : op.context = .delete) {state : State}
    (hnamed : e.store.TypeNamed state.files t) (arguments : Document) :
    e.AllOrNothing t.name op.context state.files
      (exec (e.delete requestId t op arguments) state) := by
  unfold delete
  cases Mutation.deleteTarget? t.identifierName arguments with
  | none => exact .of_error rfl rfl
  | some target =>
    refine .of_bind (requireDocument_quiet he target) fun existing looked hrequire hlooked => ?_
    rw [← hlooked]
    refine .of_bind (authorize_quiet arguments [existing]) fun _ allowed _ hallowed => ?_
    rw [← hallowed]
    cases hid : idOf? t existing with
    | none => exact .of_error rfl rfl
    | some id =>
      refine .bind_pure (allOrNothing_of_runStages hhooks (fun doc inner hinner => ?_) existing)
      obtain ⟨stored, hstored, hmem⟩ := mem_stored_of_requireDocument he hrequire
      have hread := hnamed.readDocument?_eq hstored hmem hid
      obtain ⟨place, text, hplace, hheld, -⟩ := Store.readDocument?_eq_some hread
      rw [← hlooked, ← hallowed, ← hinner] at hplace hheld
      rw [← hinner]
      have hdiscard : exec (discard (e.store.delete t.name id)) inner =
          exec (e.store.delete t.name id >>= fun _ => pure ()) inner := rfl
      rw [exec_ofStore, hdiscard, exec_bind]
      rcases hrun : exec (e.store.delete t.name id) inner with ⟨cause | removed, after⟩
      · exact .of_error rfl (Store.files_eq_of_delete hrun)
      · unfold AllOrNothing
        rw [hop]
        exact Store.altersOne_of_delete hplace hheld hrun

/-- The run of a mutation is as atomic as its write or its deletion. -/
theorem allOrNothing_of_runMutation {state : State} (hnamed : e.store.TypeNamed state.files t)
    (selection : Selection) (path : ResponsePath) :
    e.AllOrNothing t.name op.context state.files
      (exec (e.runMutation requestId t op selection path) state) := by
  by_cases hop : op.context = .delete
  · have hrun : e.runMutation requestId t op selection path =
        e.delete requestId t op selection.arguments >>=
          fun _ => pure (⟨.bool true, [], []⟩ : Projected) := by
      unfold runMutation
      rw [hop]
    rw [hrun]
    exact (allOrNothing_of_delete he hhooks hop hnamed selection.arguments).bind_pure
  · have hrun : e.runMutation requestId t op selection path =
        e.write requestId t op selection.arguments >>=
          fun doc => pure (Projection.project e.schema t doc selection.selections path .stored) := by
      unfold runMutation
      cases hcontext : op.context with
      | delete => exact absurd hcontext hop
      | create => rfl
      | modify => rfl
    rw [hrun]
    exact (allOrNothing_of_write he hhooks hop selection.arguments state).bind_pure

end

/-- A mutation that is refused fails with what it was refused for. -/
theorem exec_refuse (requestId : String) (t : DocumentType) (op : Operation) (cause : EngineError)
    (state : State) :
    ∃ reported, exec (reportRejection requestId t op cause >>= fun _ =>
        (throw cause : EngineM Projected)) state = (.error cause, reported) ∧
      reported.files = state.files := by
  unfold reportRejection
  by_cases hrejected : cause.isRejection = true
  · rw [if_pos hrejected]
    exact ⟨_, rfl, rfl⟩
  · rw [if_neg hrejected]
    exact ⟨_, rfl, rfl⟩

/-- A mutation, of whatever field with whatever arguments, that ends in an error leaves every
document as it was, and one that succeeds creates, replaces or removes the file of one document of
its type and touches no other file. The guard, the sanitizer, the validator and the redactor are
arbitrary, and so are the restrictions, which change no file themselves; the handlers around the
change fail by themselves or pass on, with what document they like. -/
theorem mutation_atomic (e : Engine) (requestId : String) (selection : Selection)
    (path : ResponsePath) (state : State) (hnamed : e.store.Named state.files)
    (he : e.RestrictsQuietly)
    (hhooks : ∀ handler ∈ e.mutationHooks selection.name, handler.Passes) :
    let outcome := exec (e.resolveMutation requestId selection path) state
    (∀ cause, outcome.1 = .error cause → Store.SameDocuments state.files outcome.2.files) ∧
      ∀ projected, outcome.1 = .ok projected → ∃ entry t,
        e.mutations.get? selection.name = some entry ∧ e.schema.type? entry.type = some t ∧
          e.store.AltersOne t.name entry.operation.context state.files outcome.2.files := by
  unfold resolveMutation
  unfold mutationHooks at hhooks
  cases hentry : e.mutations.get? selection.name with
  | none =>
    refine ⟨fun _ _ => .refl _, fun projected hok => ?_⟩
    cases hok
  | some entry =>
    rw [hentry] at hhooks
    dsimp only
    unfold requireType
    cases ht : e.schema.type? entry.type with
    | none =>
      refine ⟨fun _ _ => .refl _, fun projected hok => ?_⟩
      cases hok
    | some t =>
      have hname : t.name = entry.type := by simpa using List.find?_some ht
      have hrun := @allOrNothing_of_runMutation e requestId t entry.operation he
        (hname ▸ hhooks) state (hnamed.files_named entry.type t ht) selection path
      dsimp only
      rw [exec_bind_ok (exec_pure t state), exec_bind_ok (exec_outcome _ state)]
      unfold AllOrNothing at hrun
      rcases hresult : exec (e.runMutation requestId t entry.operation selection path) state with
        ⟨cause | projected, after⟩
      · rw [hresult] at hrun
        obtain ⟨reported, hrefused, hfiles⟩ := exec_refuse requestId t entry.operation cause after
        dsimp only
        rw [hrefused, hfiles]
        refine ⟨fun _ _ => hrun, fun projected hok => ?_⟩
        cases hok
      · rw [hresult] at hrun
        refine ⟨fun cause hfailed => ?_, fun _ _ => ⟨entry, t, rfl, ht, hrun⟩⟩
        cases hfailed

section

private def namedProvince : DocumentType where
  name := "Provincia"
  fields := [.ofIdentifier "id", .ofScalar "nombre" .string]

/-- Writes of provinces without a name are refused; others are marked. -/
private def marking : Rule Document where
  failure := .authorization "no name"
  before context doc :=
    DocumentEdit.apply { set := [("marca", .bool true)], refused := some [("nombre", .str "")] }
      context doc
  combine doc _ := doc
  after := id

/-- An engine that marks what it writes, and shows provinces of the north only. -/
private def markingOffice : Engine :=
  { bare ⟨"/data"⟩ ⟨[namedProvince]⟩
      ((Catalog.ofSchema "default" ⟨[namedProvince]⟩).toOption.getD ⟨"default", []⟩) with
    restrictions := ({} : Registry (Option Filter)).register "default::ProvinciaRestriction"
      (demand (.authorization "kept back")
        (.condition ⟨"nombre", .ne, .single (.str "Chubut")⟩)).handler
    hooks := ({} : Registry Document).register "default::ProvinciaWrite" marking.handler }

private def openGround : State where
  files := ⟨[(["data"], .directory)]⟩

/-- A province with a name, and one without. -/
private def naming (name : String) : Selection :=
  .field none "provinciaCreate" [("id", .str "p1"), ("nombre", .str name)] []

/-- A creation that its handlers mark is one new file; one that they refuse is none. -/
theorem mutation_atomic_marking :
    (∃ projected, (exec (markingOffice.resolveMutation "r" (naming "Salta") []) openGround).1 =
        .ok projected ∧ ∃ entry t, markingOffice.mutations.get? "provinciaCreate" = some entry ∧
          markingOffice.schema.type? entry.type = some t ∧
          markingOffice.store.AltersOne t.name entry.operation.context openGround.files
            (exec (markingOffice.resolveMutation "r" (naming "Salta") []) openGround).2.files) ∧
      ∃ cause, (exec (markingOffice.resolveMutation "r" (naming "") []) openGround).1 =
        .error cause ∧ Store.SameDocuments openGround.files
          (exec (markingOffice.resolveMutation "r" (naming "") []) openGround).2.files := by
  have hnamed : markingOffice.store.Named openGround.files := Store.named_of_isTypeNamed rfl
  have hrestricts : markingOffice.RestrictsQuietly := fun type =>
    Registry.forall_handlersFor (fun entry hentry handler hhandler => by
      rw [List.mem_singleton.mp hentry] at hhandler
      rw [List.mem_singleton.mp hhandler]
      exact Rule.keepsFiles _) (fun _ hentry => absurd hentry List.not_mem_nil) _ _ _
  have hhooks : ∀ handler ∈ markingOffice.mutationHooks "provinciaCreate", handler.Passes := by
    unfold mutationHooks
    cases markingOffice.mutations.get? "provinciaCreate" with
    | none => exact fun handler hhandler => nomatch hhandler
    | some entry =>
      exact Registry.forall_chain (fun entry hentry handler hhandler => by
        rw [List.mem_singleton.mp hentry] at hhandler
        rw [List.mem_singleton.mp hhandler]
        exact Rule.passes rfl rfl rfl rfl rfl) (fun _ hentry => absurd hentry List.not_mem_nil) _ _ _
  have hmarked : (exec (markingOffice.resolveMutation "r" (naming "Salta") []) openGround).1.isOk =
      true := by decide +kernel
  have hrefused : (exec (markingOffice.resolveMutation "r" (naming "") []) openGround).1.isOk =
      false := rfl
  constructor
  · obtain ⟨-, hone⟩ :=
      mutation_atomic markingOffice "r" (naming "Salta") [] openGround hnamed hrestricts hhooks
    cases hrun : (exec (markingOffice.resolveMutation "r" (naming "Salta") []) openGround).1 with
    | error cause =>
      rw [hrun] at hmarked
      cases hmarked
    | ok projected => exact ⟨projected, rfl, hone projected hrun⟩
  · obtain ⟨hsame, -⟩ :=
      mutation_atomic markingOffice "r" (naming "") [] openGround hnamed hrestricts hhooks
    cases hrun : (exec (markingOffice.resolveMutation "r" (naming "") []) openGround).1 with
    | error cause => exact ⟨cause, rfl, hsame cause hrun⟩
    | ok projected =>
      rw [hrun] at hrefused
      cases hrefused

end

end Engine

end DocumentEngine
