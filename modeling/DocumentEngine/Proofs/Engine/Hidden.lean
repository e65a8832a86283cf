import DocumentEngine.Engine.Execute
import DocumentEngine.Proofs.Engine.Restriction
import DocumentEngine.Proofs.Engine.Rounds
import DocumentEngine.Proofs.Store.Named
import DocumentEngine.Proofs.Store.Place
import DocumentEngine.Proofs.Store.Shown
import DocumentEngine.Schema.Structure

/-!
Hidden documents. Where the restrictions of one type demand a filter and nothing else stands around
a query, a request cannot tell a document that the filter hides from one that is not there. The
proof runs the request on two stores that differ only in hidden documents: each step gives the same
and leaves two such stores.
-/

namespace DocumentEngine.Engine

open Action

/-- An engine that hides the documents of a type that do not pass a filter on fields of their own,
and has no other restriction, no handler of reads and nothing redacted. -/
structure Hides (e : Engine) (t : DocumentType) (g : Filter) : Prop where
  type_eq : e.schema.type? t.name = some t
  own : g.isOwn t = true
  demands : ∀ requestId query state, ∃ after, exec (e.restrict requestId t.name query) state =
    (.ok { query with filter := (FilterEdit.require g).apply query.filter }, after) ∧
      after.files = state.files
  unrestricted : ∀ u ∈ e.schema.types, u.name ≠ t.name →
    e.restrictions.handlersFor e.space u.name Registry.restrictionStage = []
  unhooked : ∀ type, e.hooks.handlersFor e.space type Registry.readStage = []
  unredacted : ∀ type doc, e.collaborators.redact e.space type doc = doc

/-- No identifier is read through a relation into a type, as that of a dotted name may be. -/
def IdentifiersAvoid (e : Engine) (hidden : String) : Prop :=
  ∀ u ∈ e.schema.types, e.schema.allAvoid hidden u [u.identifierName] = true

instance (e : Engine) (hidden : String) : Decidable (e.IdentifiersAvoid hidden) :=
  inferInstanceAs (Decidable (∀ u ∈ e.schema.types, _ = true))

/-- No argument of the request uses a path that goes through a relation into a type. -/
def ArgumentsAvoid (e : Engine) (hidden : String) (request : Request) : Prop :=
  ∀ selection ∈ request.selections, ∀ root u query,
    e.schema.roots.get? selection.name = some root → e.schema.type? root.type = some u →
      Query.compile e.schema u e.config.maxLimit selection.arguments = .ok query →
        e.schema.allAvoid hidden u query.paths = true

variable {α β : Type} {e : Engine} {t : DocumentType} {g : Filter} {requestId requestId' : String}

/-- The query with what the restrictions of a type demand. -/
def narrowed (t : DocumentType) (g : Filter) (type : String) (query : Query) : Query :=
  if type = t.name then { query with filter := (FilterEdit.require g).apply query.filter }
  else query

namespace Hides

theorem exec_restrict (he : e.Hides t g) {u : DocumentType} (hu : u ∈ e.schema.types)
    (query : Query) (state : State) :
    ∃ after, exec (e.restrict requestId u.name query) state =
      (.ok (narrowed t g u.name query), after) ∧ after.files = state.files := by
  unfold narrowed
  by_cases htype : u.name = t.name
  · rw [if_pos htype, htype]
    exact he.demands requestId query state
  · rw [if_neg htype, restrict, he.unrestricted u hu htype]
    exact ⟨state, rfl, rfl⟩

/-- A read finds what the store finds for the query with the demand. -/
theorem exec_read (he : e.Hides t g) {u : DocumentType} (hu : u ∈ e.schema.types) (query : Query)
    (state : State) :
    ∃ after, exec (e.read requestId u.name query) state =
      ((e.store.found state.files u.name (narrowed t g u.name query)).mapError .ofStore, after) ∧
      after.files = state.files := by
  obtain ⟨between, hrestrict, hbetween⟩ := @exec_restrict e t g requestId he u hu query state
  -- Without its restrictions the engine reads plainly.
  have hplain : ({ e with restrictions := {} } : Engine).ReadsPlainly :=
    ⟨fun _ => rfl, he.unhooked, he.unredacted⟩
  obtain ⟨after, hread, halike⟩ :=
    @Engine.exec_read _ requestId hplain u.name (narrowed t g u.name query) between
  refine ⟨after, ?_, halike.files.trans hbetween⟩
  have hsplit : e.read requestId u.name query = e.restrict requestId u.name query >>=
      fun query => ({ e with restrictions := {} } : Engine).read requestId u.name query := by
    simp only [read, fetchRestricted, bind_assoc]
    rfl
  rw [hsplit, exec_bind_ok hrestrict, hread, hbetween]

end Hides

/-- Two actions that give the same on stores that differ in hidden documents only, and leave two
such stores. -/
def Level (e : Engine) (t : DocumentType) (g : Filter) (x y : EngineM α) : Prop :=
  ∀ a b : State, e.store.SameShown t g a.files b.files →
    (exec x a).1 = (exec y b).1 ∧ e.store.SameShown t g (exec x a).2.files (exec y b).2.files

namespace Level

theorem of_result (result : Except EngineError α) {x y : EngineM α}
    (hx : ∀ state, exec x state = (result, state)) (hy : ∀ state, exec y state = (result, state)) :
    Level e t g x y := by
  intro a b h
  rw [hx, hy]
  exact ⟨rfl, h⟩

theorem of_bind {x y : EngineM α} {f h : α → EngineM β} (hx : Level e t g x y)
    (hf : ∀ v, Level e t g (f v) (h v)) : Level e t g (x >>= f) (y >>= h) := by
  intro a b hab
  obtain ⟨hvalue, hfiles⟩ := hx a b hab
  rw [exec_bind, exec_bind]
  rcases hxa : exec x a with ⟨result, a'⟩
  rcases hyb : exec y b with ⟨result', b'⟩
  rw [hxa, hyb] at hvalue hfiles
  dsimp only at hvalue hfiles
  subst hvalue
  cases result with
  | ok v => exact hf v a' b' hfiles
  | error cause => exact ⟨rfl, hfiles⟩

/-- What follows an outcome that both share has to be level where the outcome is a value. -/
theorem of_lift {result : Except EngineError α} {f h : α → EngineM β}
    (hf : ∀ v, result = .ok v → Level e t g (f v) (h v)) :
    Level e t g (EngineM.lift result >>= f) (EngineM.lift result >>= h) := by
  intro a b hab
  cases result with
  | error cause =>
    rw [exec_bind_error (exec_engineLift (.error cause) a),
      exec_bind_error (exec_engineLift (.error cause) b)]
    exact ⟨rfl, hab⟩
  | ok v =>
    rw [exec_bind_ok (exec_engineLift (.ok v) a), exec_bind_ok (exec_engineLift (.ok v) b)]
    exact hf v rfl a b hab

/-- Changes that leave the files as they are tell nothing. -/
theorem of_modify {f h : State → State} (hf : ∀ state, (f state).files = state.files)
    (hh : ∀ state, (h state).files = state.files) :
    Level e t g (modify f : EngineM PUnit) (modify h) := by
  intro a b hab
  rw [exec_modify, exec_modify]
  exact ⟨rfl, by rw [hf, hh]; exact hab⟩

end Level

/-- A read of which no path goes through a relation into the hidden type tells nothing of it. -/
theorem Hides.level_read (he : e.Hides t g) {u : DocumentType} {type : String}
    (hu : e.schema.type? type = some u) {query : Query}
    (hquery : e.schema.allAvoid t.name u query.paths = true) :
    Level e t g (e.read requestId u.name query) (e.read requestId' u.name query) := by
  intro a b hab
  have hmem := List.mem_of_find?_eq_some hu
  obtain ⟨after, hread, hafter⟩ := @Hides.exec_read e t g requestId he u hmem query a
  obtain ⟨after', hread', hafter'⟩ := @Hides.exec_read e t g requestId' he u hmem query b
  have hname : e.schema.type? u.name = some u := by
    rw [Projection.type?_name e.schema hu]
    exact hu
  have hfound : e.store.found a.files u.name (narrowed t g u.name query) =
      e.store.found b.files u.name (narrowed t g u.name query) := by
    unfold narrowed
    by_cases htype : u.name = t.name
    · have hsame : u = t := by
        rw [htype, he.type_eq] at hname
        exact (Option.some.inj hname).symm
      subst hsame
      rw [if_pos rfl]
      exact hab.found_require hname he.own query hquery
    · rw [if_neg htype]
      exact hab.found_eq hname htype query hquery
  rw [hread, hread', hafter, hafter']
  exact ⟨congrArg (Except.mapError EngineError.ofStore) hfound, hab⟩

theorem Hides.level_loadBatch (he : e.Hides t g) (hid : e.IdentifiersAvoid t.name) {u : DocumentType} {type : String}
    (hu : e.schema.type? type = some u) (ids : List String) :
    Level e t g (e.loadBatch requestId u ids) (e.loadBatch requestId' u ids) := by
  have hpaths : e.schema.allAvoid t.name u
      (Query.paths { filter := some (.inList u.identifierName (ids.map .str)) }) = true :=
    hid u (List.mem_of_find?_eq_some hu)
  refine .of_bind (he.level_read hu hpaths) fun docs => ?_
  refine .of_bind (.of_modify (fun _ => rfl) fun _ => rfl) fun _ => ?_
  exact .of_bind (.of_modify (fun _ => rfl) fun _ => rfl) fun _ =>
    .of_result (.ok docs) (fun _ => rfl) fun _ => rfl

/-- The projection of a root field of a query, none of whose paths goes through a relation into the
hidden type. -/
theorem Hides.level_resolveQuery (he : e.Hides t g) {selection : Selection} (path : ResponsePath)
    (hpaths : ∀ root u query, e.schema.roots.get? selection.name = some root →
      e.schema.type? root.type = some u →
        Query.compile e.schema u e.config.maxLimit selection.arguments = .ok query →
          e.schema.allAvoid t.name u query.paths = true) :
    Level e t g (e.resolveQuery requestId selection path)
      (e.resolveQuery requestId' selection path) := by
  unfold resolveQuery
  cases hroot : e.schema.roots.get? selection.name with
  | none => exact .of_result (.error _) (fun _ => rfl) fun _ => rfl
  | some root =>
    dsimp only
    unfold requireType
    cases hu : e.schema.type? root.type with
    | none => exact .of_result (.error _) (fun _ => rfl) fun _ => rfl
    | some u =>
      rw [pure_bind, pure_bind]
      refine .of_lift fun query hcompile => ?_
      have hquery : Query.compile e.schema u e.config.maxLimit selection.arguments = .ok query := by
        cases hresult : Query.compile e.schema u e.config.maxLimit selection.arguments with
        | error cause =>
          rw [hresult] at hcompile
          cases hcompile
        | ok found =>
          rw [hresult] at hcompile
          cases hcompile
          rfl
      refine .of_bind (he.level_read hu (hpaths root u query hroot hu hquery)) fun docs => ?_
      cases root.plural with
      | true => exact .of_result (.ok _) (fun _ => rfl) fun _ => rfl
      | false => cases docs <;> exact .of_result (.ok _) (fun _ => rfl) fun _ => rfl

/-- Two steps of a request that give the same and leave the same request, errors included, on stores
that differ in hidden documents only, and leave two such stores. -/
def LevelStep (e : Engine) (t : DocumentType) (g : Filter) (x y : ResolutionM α) : Prop :=
  ∀ (r : Resolution) (a b : State), e.store.SameShown t g a.files b.files →
    (after x r a).1 = (after y r b).1 ∧
      e.store.SameShown t g (after x r a).2.files (after y r b).2.files

namespace LevelStep

theorem of_pure (v : α) : LevelStep e t g (pure v) (pure v) := fun _ _ _ hab => ⟨rfl, hab⟩

theorem of_bind {x y : ResolutionM α} {f h : α → ResolutionM β} (hx : LevelStep e t g x y)
    (hf : ∀ v, LevelStep e t g (f v) (h v)) : LevelStep e t g (x >>= f) (y >>= h) := by
  intro r a b hab
  obtain ⟨hvalue, hfiles⟩ := hx r a b hab
  have hbind : ∀ (z : ResolutionM α) (k : α → ResolutionM β) (state : State),
      after (z >>= k) r state =
        after (k (after z r state).1.1) (after z r state).1.2 (after z r state).2 :=
    fun _ _ _ => rfl
  rw [hbind, hbind, ← hvalue]
  exact hf _ _ _ _ hfiles

theorem of_get : LevelStep e t g (get : ResolutionM Resolution) get := fun _ _ _ hab => ⟨rfl, hab⟩

theorem of_modify (f : Resolution → Resolution) :
    LevelStep e t g (modify f : ResolutionM PUnit) (modify f) := fun _ _ _ hab => ⟨rfl, hab⟩

theorem of_attempt {x y : EngineM α} (h : Level e t g x y) :
    LevelStep e t g (attempt x) (attempt y) := by
  intro r a b hab
  obtain ⟨hvalue, hfiles⟩ := h a b hab
  have hafter : ∀ (z : EngineM α) (state : State),
      after (attempt z) r state = (((exec z state).1, r), (exec z state).2) := fun _ _ => rfl
  rw [hafter, hafter, hvalue]
  exact ⟨rfl, hfiles⟩

theorem of_fail (error : ResponseError) :
    LevelStep e t g (fail requestId error) (fail requestId' error) := fun _ _ _ hab => ⟨rfl, hab⟩

theorem of_absorb (p : Projected) :
    LevelStep e t g (absorb requestId p) (absorb requestId' p) := by
  have hfaults : ∀ faults : List ResponseError,
      LevelStep e t g (faults.forM (fail requestId)) (faults.forM (fail requestId')) := by
    intro faults
    induction faults with
    | nil => exact .of_pure _
    | cons fault faults ih => exact .of_bind (.of_fail fault) fun _ => ih
  exact .of_bind (hfaults p.faults) fun _ => .of_bind (.of_modify _) fun _ => .of_pure _

theorem of_foldlM {f h : β → α → ResolutionM β} (values : List α)
    (hf : ∀ v ∈ values, ∀ w, LevelStep e t g (f w v) (h w v)) (w : β) :
    LevelStep e t g (values.foldlM f w) (values.foldlM h w) := by
  induction values generalizing w with
  | nil => exact .of_pure w
  | cons v values ih =>
    rw [List.foldlM_cons, List.foldlM_cons]
    exact .of_bind (hf v List.mem_cons_self w) fun w' =>
      ih (fun v' hv' => hf v' (List.mem_cons_of_mem _ hv')) w'

end LevelStep

namespace Hides

variable (he : e.Hides t g) (hid : e.IdentifiersAvoid t.name)

include he hid

theorem level_loadType (type : String) (ids : List String) :
    LevelStep e t g (e.loadType requestId type ids) (e.loadType requestId' type ids) := by
  unfold loadType
  cases hu : e.schema.type? type with
  | none => exact .of_pure _
  | some u =>
    refine .of_bind (.of_attempt (he.level_loadBatch hid hu ids)) fun loaded => ?_
    cases loaded with
    | error cause => exact .of_pure _
    | ok docs => exact .of_bind (.of_modify _) fun _ => .of_pure _

theorem level_loadMissing (entries : Keyed (List String)) :
    LevelStep e t g (e.loadMissing requestId entries) (e.loadMissing requestId' entries) := by
  induction entries with
  | nil => exact .of_pure _
  | cons entry entries ih =>
    unfold loadMissing
    refine .of_bind (he.level_loadType hid entry.1 entry.2) fun failure => ?_
    exact .of_bind ih fun failures => .of_pure _

omit he hid in
theorem level_fillSlot (failures : Keyed EngineError) (data : Json) (slot : Slot) :
    LevelStep e t g (e.fillSlot requestId failures data slot)
      (e.fillSlot requestId' failures data slot) := by
  unfold fillSlot
  cases failures.get? slot.type with
  | some cause => exact .of_bind (.of_fail _) fun _ => .of_pure _
  | none => exact .of_bind .of_get fun r => .of_bind (.of_absorb _) fun _ => .of_pure _

/-- A round of loading and filling tells nothing of hidden documents. -/
theorem level_resolveRound (data : Json) :
    LevelStep e t g (e.resolveRound requestId data) (e.resolveRound requestId' data) := by
  unfold resolveRound
  refine .of_bind .of_get fun r => ?_
  refine .of_bind (.of_modify _) fun _ => ?_
  refine .of_bind (he.level_loadMissing hid _) fun failures => ?_
  exact .of_foldlM _ (fun slot _ data => level_fillSlot failures data slot) data

theorem level_resolveRounds (fuel : Nat) (data : Json) :
    LevelStep e t g (e.resolveRounds requestId fuel data)
      (e.resolveRounds requestId' fuel data) := by
  induction fuel generalizing data with
  | zero => exact .of_pure _
  | succ fuel ih =>
    unfold resolveRounds
    refine .of_bind .of_get fun r => ?_
    split
    · exact .of_bind (he.level_resolveRound hid data) fun data' => ih data'
    · exact .of_pure _

theorem level_flush (data : Json) :
    LevelStep e t g (e.flush requestId data) (e.flush requestId' data) :=
  .of_bind .of_get fun _ => he.level_resolveRounds hid _ data

theorem level_resolveAll {request : Request} (hkind : request.kind = .query)
    (harguments : e.ArgumentsAvoid t.name request) :
    LevelStep e t g (e.resolveAll requestId request) (e.resolveAll requestId' request) := by
  unfold resolveAll
  rw [hkind]
  refine .of_bind (.of_foldlM _ (fun selection hselection data => ?_) []) fun data =>
    he.level_flush hid _
  unfold addRoot
  refine .of_bind ?_ fun _ => .of_pure _
  unfold resolveRoot
  refine .of_bind (.of_attempt (he.level_resolveQuery _ (harguments selection hselection)))
    fun resolved => ?_
  cases resolved with
  | ok projected => exact .of_absorb projected
  | error cause => exact .of_bind (.of_fail _) fun _ => .of_pure _

end Hides

/-- A query gets the same response, data and errors, from stores that differ only in documents that
the restrictions hide, as long as no argument and no identifier goes through a relation into their
type. -/
theorem response_of_hidden (he : e.Hides t g) (hid : e.IdentifiersAvoid t.name) {request : Request}
    (hkind : request.kind = .query) (harguments : e.ArgumentsAvoid t.name request) {a b : State}
    (hab : e.store.SameShown t g a.files b.files) (requestId requestId' : String) :
    ((e.executeRequest requestId request).run a).1 =
      ((e.executeRequest requestId' request).run b).1 := by
  obtain ⟨hafter, -⟩ := he.level_resolveAll hid hkind harguments {} a b hab
  have hresponse : ∀ (id : String) (state : State),
      ((e.executeRequest id request).run state).1 =
        ⟨(after (e.resolveAll id request) {} state).1.1,
          (after (e.resolveAll id request) {} state).1.2.errors⟩ := fun _ _ => rfl
  rw [hresponse, hresponse, hafter]

/-- An engine whose restrictions are one demand hides what the filter does not show. -/
theorem hides_of_demand {failure : EngineError} (ht : e.schema.type? t.name = some t)
    (hown : g.isOwn t = true)
    (hdemand : e.restrictions.handlersFor e.space t.name Registry.restrictionStage =
      [(demand failure g).handler])
    (hother : ∀ u ∈ e.schema.types, u.name ≠ t.name →
      e.restrictions.handlersFor e.space u.name Registry.restrictionStage = [])
    (hhooks : e.hooks = {}) (hredact : ∀ type doc, e.collaborators.redact e.space type doc = doc) :
    e.Hides t g where
  type_eq := ht
  own := hown
  demands requestId query state :=
    ⟨state, @exec_restrict_demands e t failure [g] hdemand requestId query state, rfl⟩
  unrestricted := hother
  unhooked type := by
    rw [hhooks]
    rfl
  unredacted := hredact

section

/-- Persons, who may hold an office or not. -/
private def persona : DocumentType where
  name := "Persona"
  fields := [.ofIdentifier "id", .ofScalar "nombre" .string, .ofScalar "estado" .string]

/-- Posts with a holder and a superior post, under an identifier of a given name. -/
private def cargo (identifier : String) : DocumentType where
  name := "Cargo"
  fields := [.ofIdentifier identifier, .ofScalar "titulo" .string, .ofReference "jefe" "Persona",
    .ofReference "superior" "Cargo"]

/-- The persons in office. -/
private def inOffice : Filter := .condition ⟨"estado", .ne, .single (.str "oculto")⟩

/-- An engine that hides the persons who are not in office. -/
private def discreet (identifier : String) : Engine :=
  { bare ⟨"/data"⟩ ⟨[persona, cargo identifier]⟩ ⟨"default", []⟩ with
    restrictions := ({} : Registry (Option Filter)).register "default::PersonaRestriction"
      (demand (.authorization "kept back") inOffice).handler }

/-- A post, and perhaps its holder. -/
private def staffed (holder : List (List String × Entry)) : State where
  files := ⟨[(["data"], .directory), (["data", "Persona"], .directory),
    (["data", "Cargo"], .directory), (["data", "Cargo", "x"],
      .file (some ("\x7b\"id\": \"x\", \"jefe.nombre\": \"x\", \"titulo\": \"t\", " ++
        "\"jefe_id\": \"p1\", \"superior_id\": \"x\"\x7d")))] ++ holder⟩

/-- The file of a person who is hidden. -/
private def hiddenHolder : List (List String × Entry) :=
  [(["data", "Persona", "p1"],
    .file (some "\x7b\"id\": \"p1\", \"nombre\": \"x\", \"estado\": \"oculto\"\x7d"))]

/-- A request for the posts with their superiors and holders. -/
private def posts : Request where
  kind := .query
  name := none
  selections := [.field none "cargos" []
    [.field none "titulo" [] [], .field none "superior" [] [.field none "titulo" [] []],
      .field none "jefe" [] [.field none "nombre" [] []]]]

private theorem discreet_hides (identifier : String) :
    (discreet identifier).Hides persona inOffice := by
  refine @hides_of_demand (discreet identifier) persona inOffice (.authorization "kept back")
    (by rfl) (by decide) (by rfl) ?_ rfl fun _ _ => rfl
  intro u hu hne
  rcases List.mem_cons.mp hu with rfl | hu
  · exact absurd rfl hne
  · rw [List.mem_singleton.mp hu]
    rfl

private theorem posts_argumentsAvoid (identifier : String) :
    (discreet identifier).ArgumentsAvoid persona.name posts := by
  intro selection hselection root u query _ _ hquery
  rw [List.mem_singleton.mp hselection] at hquery
  cases hquery
  rfl

private theorem staffed_sameShown (identifier : String) :
    (discreet identifier).store.SameShown persona inOffice (staffed hiddenHolder).files
      (staffed []).files := by
  -- Where documents are does not depend on the name of an identifier.
  have hfiles : ∀ files type, (discreet identifier).store.documentFiles files type =
      (discreet "id").store.documentFiles files type := fun _ _ => rfl
  have hcargo : ∀ u ∈ (discreet identifier).store.schema.types, u.name ≠ persona.name →
      u = cargo identifier := by
    intro u hu hne
    rcases List.mem_cons.mp hu with rfl | hu
    · exact absurd rfl hne
    · exact List.mem_singleton.mp hu
  have hfind : ∀ id, (discreet identifier).store.find? (staffed hiddenHolder).files "Cargo" id =
      (discreet identifier).store.find? (staffed []).files "Cargo" id := by
    intro id
    have hdir : (discreet identifier).store.typeDir "Cargo" = (⟨"/data"⟩ : Path).join "Cargo" := rfl
    have hsteps : ((⟨"/data"⟩ : Path).join "Cargo").steps = ["data", "Cargo"] := by decide +kernel
    rw [← hdir] at hsteps
    refine Store.find?_congr (by rw [hsteps]; decide) fun place hplace => ?_
    have hne : place ≠ ["data", "Persona", "p1"] := by
      rintro rfl
      rw [hsteps] at hplace
      simp at hplace
    by_cases hnil : place = []
    · rw [hnil]
      rfl
    · rw [FileTree.get?_of_ne_nil _ hnil, FileTree.get?_of_ne_nil _ hnil]
      simp [staffed, hiddenHolder, FileTree.lookup_cons, hne]
  refine ⟨?_, ?_, ?_, ?_⟩
  · intro u hu hne
    have hlisted : (discreet "id").store.documentFiles (staffed hiddenHolder).files "Cargo" =
        (discreet "id").store.documentFiles (staffed []).files "Cargo" := by decide +kernel
    rw [hcargo u hu hne, hfiles, hfiles]
    exact hlisted
  · intro u hu hne paths hpaths path hpath
    rw [hcargo u hu hne, hfiles] at hpaths
    have hlisted : (discreet "id").store.documentFiles (staffed hiddenHolder).files "Cargo" =
        .ok [⟨"/data/Cargo/x"⟩] := by decide +kernel
    cases hlisted.symm.trans hpaths
    have htext : (staffed hiddenHolder).files.readText ⟨"/data/Cargo/x"⟩ =
        (staffed []).files.readText ⟨"/data/Cargo/x"⟩ := by decide +kernel
    rw [List.mem_singleton.mp hpath, Store.readDocument?, Store.readDocument?, htext]
  · intro u hu hne id
    rw [hcargo u hu hne]
    exact hfind id
  · refine ⟨[⟨"/data/Persona/p1"⟩], [], ?_, ?_, ?_, ?_, ?_, ?_⟩
    · rw [hfiles]
      decide +kernel
    · intro path hpath
      rw [List.mem_singleton.mp hpath]
      have hread : (Store.readDocument? (staffed hiddenHolder).files
          ⟨"/data/Persona/p1"⟩).toOption.join.isSome = true := by decide +kernel
      rcases hdoc : Store.readDocument? (staffed hiddenHolder).files ⟨"/data/Persona/p1"⟩ with
        cause | _ | doc
      · rw [hdoc] at hread
        cases hread
      · rw [hdoc] at hread
        cases hread
      · exact ⟨doc, rfl⟩
    · rw [hfiles]
      decide +kernel
    · intro path hpath
      cases hpath
    · decide +kernel
    · have hnone : [(⟨"/data/Persona/p1"⟩ : Path)].filter
          (Store.showsAt inOffice (staffed hiddenHolder).files) = [] := by decide +kernel
      rw [hnone]
      intro path hpath
      cases hpath

/-- Whoever asks for the posts cannot tell whether their hidden holder is there. -/
theorem response_of_hidden_holder :
    (discreet "id").Hides persona inOffice ∧ (discreet "id").IdentifiersAvoid persona.name ∧
    (discreet "id").ArgumentsAvoid persona.name posts ∧
    (discreet "id").store.SameShown persona inOffice (staffed hiddenHolder).files
      (staffed []).files ∧
    (((discreet "id").executeRequest "r" posts).run (staffed hiddenHolder)).1 =
      (((discreet "id").executeRequest "r" posts).run (staffed [])).1 :=
  ⟨discreet_hides "id", by decide, posts_argumentsAvoid "id", staffed_sameShown "id",
    response_of_hidden (discreet_hides "id") (by decide) rfl (posts_argumentsAvoid "id")
      (staffed_sameShown "id") "r" "r"⟩

/-- A post under a dotted identifier is loaded by the name of its holder, and so only where the
hidden holder is there. -/
theorem exists_hidden_seen :
    ∃ (e : Engine) (t : DocumentType) (g : Filter) (request : Request) (a b : State),
      e.schema.check.isOk = true ∧ e.Hides t g ∧ request.kind = .query ∧
      e.ArgumentsAvoid t.name request ∧ e.store.Named a.files ∧ e.store.Named b.files ∧
      e.store.SameShown t g a.files b.files ∧
      ((e.executeRequest "r" request).run a).1.data ≠
        ((e.executeRequest "r" request).run b).1.data := by
  refine ⟨discreet "jefe.nombre", persona, inOffice, posts, staffed hiddenHolder, staffed [],
    by decide +kernel, discreet_hides _, rfl, posts_argumentsAvoid _,
    Store.named_of_isTypeNamed (by decide +kernel), Store.named_of_isTypeNamed (by decide +kernel),
    staffed_sameShown _, ?_⟩
  intro h
  have htexts := congrArg Json.compact h
  revert htexts
  decide +kernel

end

end DocumentEngine.Engine
