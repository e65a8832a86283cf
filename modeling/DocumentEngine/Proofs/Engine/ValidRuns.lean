import DocumentEngine.Proofs.Engine.Effects
import DocumentEngine.Proofs.Engine.Valid
import DocumentEngine.Proofs.Json.Equality

/-!
Validity along runs. A store is sound when every file in it is an unfinished write or a valid
document of a type of the schema, and each mutation keeps it so; a run of mutations, whether they
succeed or fail, therefore never stores an invalid document.
-/

namespace DocumentEngine

open Action Mutation

namespace Engine

variable {e : Engine} {requestId : String} {t : DocumentType} {op : Operation} {state : State}

/-- The text of a valid document of a type, which reads back as it was written. -/
structure HoldsValid (e : Engine) (t : DocumentType) (text : String) (doc : Document) : Prop where
  written : text = Json.pretty (.obj doc)
  read : Json.ofText? text = some (.obj doc)
  valid : e.schema.validate t.name doc .full = []

/-- Every file of a store is an unfinished write, or holds a valid document of a type. -/
structure Valid (e : Engine) (files : FileTree) : Prop where
  sound : files.Sound
  files : ∀ place text, files.get? place = some (.file text) →
    place.getLast?.any Store.isTempName = true ∨
      ∃ t ∈ e.schema.types, ∃ id written doc, place = (e.store.typeDir t.name).steps ++ [id] ∧
        text = some written ∧ e.HoldsValid t written doc

/-- A store without files is valid. -/
theorem Valid.of_no_files {files : FileTree} (hsound : files.Sound)
    (h : ∀ place text, files.get? place ≠ some (.file text)) : e.Valid files :=
  ⟨hsound, fun place text hplace => absurd hplace (h place text)⟩

/-- In a valid store every stored document of a type is valid. -/
theorem Valid.storedValid {files : FileTree} (h : e.Valid files) (hlaid : e.store.Laid)
    (ht : t ∈ e.schema.types) : e.StoredValid files t := by
  intro docs hdocs doc hdoc
  obtain ⟨name, text, hstep, htemp, hheld, hread⟩ :=
    Store.exists_of_mem_stored h.sound (hlaid.plainDir ht) hdocs hdoc
  rcases h.files _ _ hheld with hunfinished | ⟨u, hu, id, written, own, hplace, htext, hvalid⟩
  · rw [List.getLast?_append, List.getLast?_singleton, Option.some_or, Option.any_some, htemp]
      at hunfinished
    cases hunfinished
  · cases htext
    have hsame : t.name = u.name := by
      rw [hlaid.steps_typeDir ht, hlaid.steps_typeDir hu] at hplace
      have hdirs := congrArg List.dropLast hplace
      rw [List.dropLast_concat, List.dropLast_concat] at hdirs
      exact List.singleton_inj.mp (List.append_cancel_left hdirs)
    rw [hvalid.read] at hread
    cases hread
    rw [hsame]
    exact hvalid.valid

/-- A change that leaves no file but those that there were keeps a store valid. -/
theorem Valid.of_files {files files' : FileTree} (h : e.Valid files)
    (hsound : files.Sound → files'.Sound) (hfiles : ∀ place text,
      files'.get? place = some (.file text) → files.get? place = some (.file text)) :
    e.Valid files' :=
  ⟨hsound h.sound, fun place text hplace => h.files place text (hfiles place text hplace)⟩

/-- A type whose documents can be kept valid: no field bears the name of a pointer, and an
identifier that is made up is one that its field admits. -/
structure Keepable (t : DocumentType) : Prop where
  apart : t.NamesApart
  identified : ∃ f, t.identifier? = some f ∧ ∀ id, f.Admits (.str id)

/-- Arguments of an operation whose values have stored forms that say as much, with no value of the
operation for a reference that is stored as a copy. -/
structure Sayable (t : DocumentType) (op : Operation) (arguments : Document) : Prop where
  set : ∀ entry ∈ op.set, ∀ f, referenceField? t entry.1 = some f → f.inline = false
  storable : ∀ input, inputOf arguments = .ok input → ∀ entry, entry ∈ input ∨ entry ∈ op.set →
    ∀ f, t.declaredField? entry.1 = some f → f.Storable entry.2

/-- A root field of a mutation whose operation, where it writes, gets arguments that can be kept and
writes a document that reads back as it was written. -/
def FieldFits (e : Engine) (requestId : String) (selection : Selection) (state : State) : Prop :=
  ∀ entry t, e.mutations.get? selection.name = some entry →
    e.schema.type? entry.type = some t → entry.operation.context ≠ .delete →
      Sayable t entry.operation selection.arguments ∧ ∀ stored after,
        exec (e.write requestId t entry.operation selection.arguments) state = (.ok stored, after) →
          Json.ofText? (Json.pretty (.obj stored)) = some (.obj stored)

/-- A root field of a mutation keeps a store valid, whether it succeeds or fails, where a document
that it writes reads back as it was written. -/
theorem valid_after_mutated (he : e.Bare) (hlaid : e.store.Laid)
    (hkeep : ∀ t ∈ e.schema.types, Keepable t) {selection : Selection}
    (hfits : e.FieldFits requestId selection state) (h : e.Valid state.files) :
    e.Valid (mutated e requestId selection state).2.files := by
  rcases mutated_files he requestId selection state with
    hless | ⟨entry, t, id, doc, result, hentry, ht, hop, hwritten, hwrite⟩
  · exact h.of_files hless.sound hless.files
  obtain ⟨hsay, hread⟩ := hfits entry t hentry ht hop
  have hname : t.name = entry.type := by simpa using List.find?_some ht
  have htype : e.schema.type? t.name = some t := hname ▸ ht
  have hmem : t ∈ e.schema.types := List.mem_of_find?_eq_some ht
  obtain ⟨identifier, hidentifier, hid⟩ := (hkeep t hmem).identified
  refine ⟨hwritten.sound h.sound, fun place text hplace => ?_⟩
  rcases hwritten.files place text hplace with hold | hunfinished | ⟨rfl, hleads, htext⟩
  · exact h.files place text hold
  · exact .inl hunfinished
  · obtain ⟨after, hdone⟩ := hwrite rfl
    obtain ⟨hvalid, -⟩ := valid_of_write he htype (hkeep t hmem).apart hidentifier hid
      (h.storedValid hlaid hmem) hsay.set hsay.storable hdone
    exact .inr ⟨t, hmem, id, _, doc, hleads.eq_of_plain (hlaid.plainDir hmem), htext, rfl,
      hread doc after hdone, hvalid⟩

/-- A run of mutations keeps a store valid: each field, in a request of its own, and all of them in
one request. -/
theorem valid_run (he : e.Bare) (hlaid : e.store.Laid) (hkeep : ∀ t ∈ e.schema.types, Keepable t)
    (requestId : String) (name : Option String) (fields : List (String × Selection)) (state : State)
    (hfits : ∀ before field after, fields = before ++ field :: after →
      e.FieldFits field.1 field.2 (separately e before state).2)
    (h : e.Valid state.files) :
    e.Valid (separately e fields state).2.files ∧
      e.Valid ((e.executeRequest requestId
        ⟨.mutation, name, fields.map Prod.snd⟩).run state).2.files := by
  have hrun : e.Valid (separately e fields state).2.files := by
    induction fields generalizing state with
    | nil => exact h
    | cons field fields ih =>
      rw [separately_cons]
      dsimp only
      refine ih _ (fun before next after hsplit => ?_) ?_
      · have hlater := hfits (field :: before) next after (by rw [hsplit, List.cons_append])
        rwa [separately_cons] at hlater
      · rw [(executeRequest_field he field state).2.files]
        exact valid_after_mutated he hlaid hkeep (hfits [] field fields rfl) h
  refine ⟨hrun, ?_⟩
  rw [executeRequest_mutation_files he]
  exact hrun

/-- From a store without files no run of mutations, whichever of them succeed, stores an invalid
document: not where each is in a request of its own, and not where all are in one. The types have
plain names, no field of them bears the name of a pointer, and a made-up identifier is one that its
field admits; the stored forms of the arguments say as much as the arguments, no operation sets a
reference that is stored as a copy, and the documents written read back as they were written. -/
theorem stored_valid_of_run (e : Engine) (requestId : String) (name : Option String)
    (fields : List (String × Selection)) (state : State) (he : e.Bare) (hlaid : e.store.Laid)
    (hkeep : ∀ t ∈ e.schema.types, Keepable t) (hsound : state.files.Sound)
    (hempty : ∀ place text, state.files.get? place ≠ some (.file text))
    (hfits : ∀ before field after, fields = before ++ field :: after →
      e.FieldFits field.1 field.2 (separately e before state).2) :
    ∀ t ∈ e.schema.types, e.StoredValid (separately e fields state).2.files t ∧
      e.StoredValid ((e.executeRequest requestId
        ⟨.mutation, name, fields.map Prod.snd⟩).run state).2.files t := by
  obtain ⟨hown, hjoint⟩ := valid_run he hlaid hkeep requestId name fields state hfits
    (.of_no_files hsound hempty)
  exact fun t ht => ⟨hown.storedValid hlaid ht, hjoint.storedValid hlaid ht⟩

section

/-- Provinces with a name that they have to have. -/
private def chartered : DocumentType where
  name := "Provincia"
  fields := [.ofIdentifier "id", (Field.ofScalar "nombre" .string).required]

private def registrar : Engine :=
  bare ⟨"/data"⟩ ⟨[chartered]⟩
    ((Catalog.ofSchema "default" ⟨[chartered]⟩).toOption.getD ⟨"default", []⟩)

private def bareGround : State where
  files := ⟨[(["data"], .directory)]⟩

private theorem bareGround_sound : bareGround.files.Sound :=
  FileTree.sound_of_entries (by decide) (by decide)

private theorem bareGround_empty (place : List String) (text : Option String) :
    bareGround.files.get? place ≠ some (.file text) :=
  FileTree.get?_ne_file_of_entries (by decide) place text

/-- The creation of a province whose name is given as a number. -/
private def founding : List (String × Selection) :=
  [("r1", .field none "provinciaCreate" [("id", .str "p1"), ("nombre", .num (.int 7))] [])]

private def founder : MutationEntry :=
  (registrar.mutations.get? "provinciaCreate").getD ⟨"", .ofImplicit "" .delete []⟩

private theorem founding_fits : registrar.FieldFits "r1"
    (.field none "provinciaCreate" [("id", .str "p1"), ("nombre", .num (.int 7))] []) bareGround := by
  intro entry t hentry ht hop
  have hfounder : entry = founder := by
    have hname : registrar.mutations.get? "provinciaCreate" = some entry := hentry
    rw [founder, hname]
    rfl
  subst hfounder
  have htype : t = chartered := by
    have hname : founder.type = "Provincia" := rfl
    rw [hname] at ht
    exact (Option.some.inj ht).symm
  subst htype
  have hset : founder.operation.set = [] := rfl
  refine ⟨⟨fun entry hentry => ?_, fun input hinput entry hentry f hf => ?_⟩, ?_⟩
  · rw [hset] at hentry
    cases hentry
  · rcases List.mem_cons.mp (mem_of_declaredField? hf) with rfl | hf
    · exact Field.storable_of_kind (by decide) (by decide) rfl _
    · rw [List.mem_singleton.mp hf]
      exact Field.storable_of_kind (by decide) (by decide) rfl _
  · have hread : (exec (registrar.write "r1" chartered founder.operation
        [("id", .str "p1"), ("nombre", .num (.int 7))]) bareGround).1.toOption.all
        (fun stored => Json.ofText? (Json.pretty (.obj stored)) = some (.obj stored)) = true := by
      decide +kernel
    intro stored after hrun
    have hrun : exec (registrar.write "r1" chartered founder.operation
        [("id", .str "p1"), ("nombre", .num (.int 7))]) bareGround = (.ok stored, after) := hrun
    rw [hrun] at hread
    exact of_decide_eq_true hread

theorem stored_valid_of_run_founding :
    registrar.StoredValid (separately registrar founding bareGround).2.files chartered ∧
      registrar.StoredValid ((registrar.executeRequest "r"
        ⟨.mutation, none, founding.map Prod.snd⟩).run bareGround).2.files chartered := by
  refine stored_valid_of_run registrar "r" none founding bareGround (bare_bare _ _ _)
    ⟨by decide +kernel, ?_⟩ ?_ bareGround_sound bareGround_empty ?_ chartered List.mem_cons_self
  · intro t ht
    rw [List.mem_singleton.mp ht]
    exact ⟨⟨by decide, by decide⟩, by decide, by decide⟩
  · intro t ht
    rw [List.mem_singleton.mp ht]
    exact ⟨by decide +kernel, _, rfl, fun id => ⟨rfl, rfl⟩⟩
  · intro before field after hsplit
    cases before with
    | nil =>
      cases hsplit
      exact founding_fits
    | cons first before =>
      have hlength := congrArg List.length hsplit
      simp [founding] at hlength

private def province : DocumentType where
  name := "Provincia"
  fields := [.ofIdentifier "id", .ofScalar "nombre" .string]

/-- Employees who have to have a province. -/
private def settled : DocumentType where
  name := "Empleado"
  fields := [.ofIdentifier "id", (Field.ofReference "provincia" "Provincia").required]

/-- The creation of an employee with an object for the province that names none. -/
private def settling : List (String × Selection) :=
  [("r1", .field none "empleadoCreate"
    [("id", .str "e1"), ("provincia", .obj [("nombre", .str "Salta")])] [])]

private def settlers : Engine :=
  bare ⟨"/data"⟩ ⟨[settled, province]⟩
    ((Catalog.ofSchema "default" ⟨[settled, province]⟩).toOption.getD ⟨"default", []⟩)

/-- An object without an id is taken for a required reference, and what is stored for it is a null
that the validator does not take. -/
theorem exists_invalid_stored :
    ∃ (e : Engine) (fields : List (String × Selection)) (state : State) (t : DocumentType),
      e.Bare ∧ e.schema.check.isOk = true ∧ Catalog.ofSchema e.space e.schema = .ok e.catalog ∧
      (∀ place text, state.files.get? place ≠ some (.file text)) ∧ t ∈ e.schema.types ∧
      ¬ e.StoredValid (separately e fields state).2.files t := by
  refine ⟨settlers, settling, bareGround, settled, bare_bare _ _ _, rfl, ?_,
    bareGround_empty, List.mem_cons_self, fun hvalid => ?_⟩
  · have hok : (Catalog.ofSchema "default" ⟨[settled, province]⟩).isOk = true := rfl
    exact Except.eq_ok_getD hok ⟨"default", []⟩
  · have hinvalid : (settlers.store.stored (separately settlers settling bareGround).2.files
        settled.name).toOption.elim false (fun docs => docs.any fun doc =>
          !(settlers.schema.validate settled.name doc .full).isEmpty) = true := by decide +kernel
    cases hdocs : settlers.store.stored (separately settlers settling bareGround).2.files
        settled.name with
    | error cause =>
      rw [hdocs] at hinvalid
      cases hinvalid
    | ok docs =>
      rw [hdocs] at hinvalid
      obtain ⟨doc, hdoc, hviolated⟩ := List.any_eq_true.mp hinvalid
      rw [hvalid docs hdocs doc hdoc] at hviolated
      cases hviolated

end

end Engine

end DocumentEngine
