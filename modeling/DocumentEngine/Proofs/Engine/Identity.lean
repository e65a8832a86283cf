import DocumentEngine.Proofs.Engine.Requests
import DocumentEngine.Proofs.Json.Equality
import DocumentEngine.Proofs.Store.Identity

/-!
Documents under their own identifiers. The file of a write is named before the handlers of the
operation run, and holds what these pass on. So runs of requests keep every document in the file
that its identifier names, where the handlers leave the identifier alone; a handler that sets it
puts a document into the file of another.
-/

namespace DocumentEngine

open Action

/-- A handler that passes on documents with the identifier of the one that it gets. -/
def Handler.KeepsIdentifier (t : DocumentType) (handler : Handler Document) : Prop :=
  ∀ id, handler.Keeps fun doc => t.idOf? doc = some id

/-- A rule that changes no identifier keeps it, however often it runs the rest of the pipeline. -/
theorem Rule.keepsIdentifier {r : Rule Document} {t : DocumentType}
    (h : ∀ context doc passed, r.before context doc = some passed → t.idOf? passed = t.idOf? doc) :
    r.handler.KeepsIdentifier t := fun _ =>
  Rule.keeps fun context doc passed hdoc hbefore => (h context doc passed hbefore).trans hdoc

namespace DocumentEdit

variable {edit : DocumentEdit} {key : String}

/-- An edit that does not name a field. -/
structure Spares (edit : DocumentEdit) (key : String) : Prop where
  set : key ∉ edit.set.map Prod.fst
  remove : key ∉ edit.remove
  stamp : edit.stamp ≠ some key
  upper : edit.upper ≠ some key

theorem get?_removed {remove : List String} (hremove : key ∉ remove) (doc : Document) :
    (remove.foldl Keyed.erase doc).get? key = doc.get? key := by
  induction remove generalizing doc with
  | nil => rfl
  | cons other remove ih =>
    rw [List.mem_cons, not_or] at hremove
    rw [List.foldl_cons, ih hremove.2, Keyed.get?_erase_of_ne doc (Ne.symm hremove.1)]

theorem get?_stamped (hstamp : edit.stamp ≠ some key) (context : StageContext) (doc : Document) :
    (match edit.stamp with
      | some field => doc.insert field (stampOf context)
      | none => doc).get? key = doc.get? key := by
  cases hfield : edit.stamp with
  | none => rfl
  | some field => exact Keyed.get?_insert_of_ne doc _ fun heq => hstamp (heq ▸ hfield)

theorem get?_raised (hupper : edit.upper ≠ some key) (doc : Document) :
    (match edit.upper with
      | some field => capitalize doc field
      | none => doc).get? key = doc.get? key := by
  cases hfield : edit.upper with
  | none => rfl
  | some field =>
    dsimp only
    unfold capitalize
    split
    · exact Keyed.get?_insert_of_ne doc _ fun heq => hupper (heq ▸ hfield)
    · rfl

/-- A document that is not refused is passed on as it is. -/
theorem eq_of_not_refused {doc passed : Document}
    (h : (match edit.refused with
      | some fields => if hasAll doc fields then none else some doc
      | none => some doc) = some passed) : passed = doc := by
  cases hrefused : edit.refused with
  | none =>
    rw [hrefused] at h
    exact (Option.some.inj h).symm
  | some fields =>
    rw [hrefused] at h
    dsimp only at h
    split at h
    · cases h
    · exact (Option.some.inj h).symm

/-- An edit leaves the fields alone that it does not name. -/
theorem Spares.get?_apply (hspares : edit.Spares key) {context : StageContext}
    {doc passed : Document} (h : edit.apply context doc = some passed) :
    passed.get? key = doc.get? key := by
  have hchanged :=
    (get?_removed hspares.remove _).trans (Keyed.get?_union_of_notMem doc hspares.set)
  rw [eq_of_not_refused h]
  exact (get?_raised hspares.upper _).trans ((get?_stamped hspares.stamp context _).trans hchanged)

end DocumentEdit

namespace Engine

variable {e : Engine} {requestId : String} {t : DocumentType} {op : Operation} {state : State}

/-- An engine whose handlers around changes of the store keep identifiers. -/
def KeepsIdentifiers (e : Engine) : Prop :=
  ∀ name entry t, e.mutations.get? name = some entry → e.schema.type? entry.type = some t →
    ∀ handler ∈ e.mutationHooks name, handler.KeepsIdentifier t

/-- The document that is written has the identifier that names its file. -/
theorem idOf?_of_identified {doc named : Document} {id : String} {after : State}
    (h : exec (identified t doc) state = (.ok (id, named), after)) : t.idOf? named = some id := by
  unfold identified at h
  cases hid : idOf? t doc with
  | some own =>
    rw [hid] at h
    cases h
    exact hid
  | none =>
    rw [hid] at h
    rw [exec_bind_ok (exec_get state), exec_bind_ok (exec_set _ state)] at h
    cases h
    unfold DocumentType.idOf?
    rw [Keyed.get?_insert_self]
    rfl

/-- The stages of an operation preserve what its change preserves for all documents with the
identifier of the one that they get. -/
theorem runStages_maintains
    (hhooks : ∀ handler ∈ e.hooks.chain e.space t.name op.hookSuffixes, handler.KeepsIdentifier t)
    {inv : FileTree → Prop} {change : Document → StoreM Unit} {id : String}
    (hchange : ∀ doc, t.idOf? doc = some id → Maintains inv (change doc)) {doc : Document}
    (hid : t.idOf? doc = some id) : Maintains inv (e.runStages requestId t op change doc) := by
  unfold runStages
  refine Pipeline.runWith_maintains (fun handler hmem => hhooks handler hmem id)
    (fun doc hdoc => .of_bind ?_ fun _ _ => .of_quiet (.of_pure _)) doc hid
  intro state hinv
  rw [exec_ofStore]
  exact hchange doc hdoc state hinv

section

variable (he : e.RestrictsQuietly)
  (hhooks : ∀ handler ∈ e.hooks.chain e.space t.name op.hookSuffixes, handler.KeepsIdentifier t)

include he hhooks

theorem filed_of_delete (arguments : Document) :
    Maintains e.store.Filed (e.delete requestId t op arguments) := by
  unfold delete
  cases Mutation.deleteTarget? t.identifierName arguments with
  | none => exact .of_quiet (.of_throw _)
  | some target =>
    refine .of_bind (.of_quiet (requireDocument_quiet he target)) fun existing _ =>
      .of_bind (.of_quiet (authorize_quiet arguments [existing])) fun _ _ => ?_
    cases hid : idOf? t existing with
    | none => exact .of_quiet (.of_throw _)
    | some id =>
      refine .of_bind (runStages_maintains hhooks (fun doc _ state hfiled => ?_) hid) fun _ _ =>
        .of_quiet (.of_pure _)
      rcases hrun : exec (e.store.delete t.name id) state with ⟨removed, after⟩
      have hless := Store.lessened_of_delete hrun
      rw [exec_discard, hrun]
      exact hfiled.of_lessened hless

theorem filed_of_write (ht : e.schema.type? t.name = some t) (arguments : Document) :
    Maintains e.store.Filed (e.write requestId t op arguments) := by
  unfold write
  refine .of_bind (.of_quiet (prepareDocument_quiet he arguments)) fun doc _ =>
    .of_bind (.of_quiet (identified_quiet doc)) ?_
  rintro ⟨id, named⟩ ⟨prepared, between, hidentified⟩
  refine .of_bind (runStages_maintains hhooks (fun doc hdoc state hfiled => ?_)
    (idOf?_of_identified hidentified)) fun _ _ => .of_quiet (.of_pure _)
  rcases hrun : exec (e.change t op id doc) state with ⟨result, after⟩
  have hkept := hfiled.of_written ht (written_of_change hrun) hdoc
  rwa [← show (exec (e.change t op id doc) state).2 = after by rw [hrun]] at hkept

end

/-- A root field of a mutation, whether it succeeds or fails, keeps the files filed. -/
theorem filed_after_mutated (he : e.RestrictsQuietly) (hhooks : e.KeepsIdentifiers)
    (requestId : String) (selection : Selection) (h : e.store.Filed state.files) :
    e.store.Filed (mutated e requestId selection state).2.files := by
  cases hentry : e.mutations.get? selection.name with
  | none =>
    unfold mutated resolveMutation
    rw [hentry]
    exact h
  | some entry =>
    cases ht : e.schema.type? entry.type with
    | none =>
      unfold mutated resolveMutation requireType
      rw [hentry]
      dsimp only
      rw [ht]
      exact h
    | some t =>
      have hname : t.name = entry.type := by simpa using List.find?_some ht
      have hchain := hhooks selection.name entry t hentry ht
      unfold mutationHooks at hchain
      rw [hentry] at hchain
      dsimp only at hchain
      rw [← hname] at hchain
      rw [mutated_files_eq hentry ht, exec_runMutation_files]
      split
      · exact filed_of_delete he hchain _ state h
      · exact filed_of_write he hchain (hname ▸ ht) _ state h

/-- From a store without files, runs of requests leave every document in the file that its
identifier names, whatever the collaborators and the restrictions do, where the handlers around
writes and deletions pass on the identifier that they get. Where types stand side by side that is so
for the files of each type, and a document whose identifier is a text is read back with it. -/
theorem stored_under_own_id (e : Engine) (requests : List (String × String)) (state : State)
    (he : e.ReadsQuietly) (hhooks : e.KeepsIdentifiers) (hsound : state.files.Sound)
    (hempty : ∀ place text, state.files.get? place ≠ some (.file text)) :
    let left := (served e requests state).files
    e.store.Filed left ∧
      (e.store.Laid → ∀ t, e.schema.type? t.name = some t → ∀ paths,
        e.store.documentFiles left t.name = .ok paths → ∀ path ∈ paths, ∃ id doc,
          path = (e.store.typeDir t.name).join id ∧ t.idOf? doc = some id ∧
          left.readText path = .ok (Json.pretty (.obj doc)) ∧
          (Json.InRange (.obj doc) → doc.Ascending → doc.get? t.identifierName = some (.str id) →
            ∀ read, Store.readDocument? left path = .ok (some read) → t.idOf? read = some id)) := by
  intro left
  have hfiled : e.store.Filed left :=
    @invariant_of_served e (fun _ => e.store.Filed)
      (fun _ requestId selection state _ h =>
        filed_after_mutated he.restricts hhooks requestId selection h) he requests state 0
      (.of_no_files hsound hempty)
  refine ⟨hfiled, fun hlaid t ht paths hpaths path hpath => ?_⟩
  obtain ⟨id, doc, hname, hid, htext⟩ := hfiled.exists_of_mem hlaid ht hpaths hpath
  refine ⟨id, doc, hname, hid, htext, fun hrange hordered hown read hread => ?_⟩
  obtain ⟨place, text, hplace, hheld, hvalue⟩ := Store.readDocument?_eq_some hread
  obtain rfl : text = Json.pretty (.obj doc) :=
    Except.ok.inj ((FileTree.readText_of_locate hplace hheld).symm.trans htext)
  unfold DocumentType.idOf?
  rw [Json.get?_str_of_ofText? hrange hordered hown hvalue]
  rfl

section

private def markedProvince : DocumentType where
  name := "Provincia"
  fields := [.ofIdentifier "id", .ofScalar "nombre" .string]

/-- A rule that puts a field into every document. -/
private def setting (field : String) (v : Json) : Rule Document where
  failure := .internal ""
  before context doc := DocumentEdit.apply { set := [(field, v)] } context doc
  combine doc _ := doc
  after := id

/-- An engine over provinces with a rule around its writes. -/
private def rewriters (rule : Rule Document) : Engine :=
  { bare ⟨"/data"⟩ ⟨[markedProvince]⟩
      ((Catalog.ofSchema "default" ⟨[markedProvince]⟩).toOption.getD ⟨"default", []⟩) with
    hooks := ({} : Registry Document).register "default::ProvinciaWrite" rule.handler }

private def emptyGround : State where
  files := ⟨[(["data"], .directory)]⟩

/-- The creation of two provinces, the second without an id. -/
private def creations : List (String × String) :=
  [("r1", "mutation \x7b provinciaCreate(id: \"p1\", nombre: \"Salta\") \x7b id \x7d \x7d"),
    ("r2", "mutation \x7b provinciaCreate(nombre: \"Chaco\") \x7b id \x7d \x7d")]

private theorem rewriters_readQuietly (rule : Rule Document) : (rewriters rule).ReadsQuietly where
  restricts _ handler hmem := absurd hmem List.not_mem_nil
  presents _ := Registry.forall_handlersFor (fun entry hentry handler hhandler => by
    rw [List.mem_singleton.mp hentry] at hhandler
    rw [List.mem_singleton.mp hhandler]
    exact Rule.keepsFiles rule) (fun _ hentry => absurd hentry List.not_mem_nil) _ _ _

theorem stored_under_own_id_marked :
    let left := (served (rewriters (setting "marca" (.bool true))) creations emptyGround).files
    (rewriters (setting "marca" (.bool true))).store.Filed left ∧
      left.get? ["data", "Provincia", "p1"] = some (.file (some (Json.pretty
        (.obj [("id", .str "p1"), ("marca", .bool true), ("nombre", .str "Salta")])))) := by
  refine ⟨(stored_under_own_id (rewriters (setting "marca" (.bool true))) creations emptyGround
    (rewriters_readQuietly _) ?_ (FileTree.sound_of_entries (by decide) (by decide))
    (FileTree.get?_ne_file_of_entries (by decide))).1, by decide +kernel⟩
  intro name entry t hentry ht
  obtain rfl : t = markedProvince := by
    have hmem : t ∈ [markedProvince] := List.mem_of_find?_eq_some ht
    exact List.mem_singleton.mp hmem
  unfold mutationHooks
  rw [hentry]
  refine Registry.forall_chain (fun tagged htagged handler hhandler => ?_)
    (fun _ hhook => absurd hhook List.not_mem_nil) _ _ _
  rw [List.mem_singleton.mp htagged] at hhandler
  rw [List.mem_singleton.mp hhandler]
  refine Rule.keepsIdentifier fun context doc passed hpassed => ?_
  unfold DocumentType.idOf?
  have hedit : DocumentEdit.apply { set := [("marca", .bool true)] } context doc = some passed :=
    hpassed
  have hspares : DocumentEdit.Spares { set := [("marca", .bool true)] }
      markedProvince.identifierName := ⟨by decide, by decide, by decide, by decide⟩
  rw [hspares.get?_apply hedit]

/-- A handler that sets the identifier puts a document into the file of another identifier. -/
theorem exists_stored_astray :
    ∃ (e : Engine) (requests : List (String × String)) (state : State) (t : DocumentType),
      e.restrictions = {} ∧ e.collaborators = .permissive e.schema ∧
      e.schema.check.isOk = true ∧ Catalog.ofSchema e.space e.schema = .ok e.catalog ∧
      (∀ place text, state.files.get? place ≠ some (.file text)) ∧ t ∈ e.schema.types ∧
      ∃ path doc, e.store.documentFiles (served e requests state).files t.name = .ok [path] ∧
        Store.readDocument? (served e requests state).files path = .ok (some doc) ∧
        ∀ id, t.idOf? doc = some id → path ≠ (e.store.typeDir t.name).join id := by
  have hcatalog : (Catalog.ofSchema "default" ⟨[markedProvince]⟩).isOk = true := rfl
  refine ⟨rewriters (setting "id" (.str "zzz")), creations.take 1, emptyGround, markedProvince, rfl,
    rfl, rfl, Except.eq_ok_getD hcatalog ⟨"default", []⟩,
    FileTree.get?_ne_file_of_entries (by decide), List.mem_cons_self, ⟨"/data/Provincia/p1"⟩,
    [("id", .str "zzz"), ("nombre", .str "Salta")], by decide +kernel, by decide +kernel, ?_⟩
  intro id hid
  have hzzz : markedProvince.idOf? [("id", .str "zzz"), ("nombre", .str "Salta")] = some "zzz" :=
    rfl
  rw [hid, Option.some.injEq] at hzzz
  subst hzzz
  decide +kernel

end

end Engine

end DocumentEngine
