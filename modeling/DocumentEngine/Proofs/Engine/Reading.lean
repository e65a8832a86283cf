import DocumentEngine.Engine.Resolution
import DocumentEngine.Proofs.Projection.Known
import DocumentEngine.Proofs.Projection.Slots
import DocumentEngine.Proofs.Store.Fetch

/-!
Reading without handlers, or with handlers that refuse some documents and change none. What an
engine reads is then what its store finds, unless a document of it is refused, and loading ids of a
type gives every stored document with one of the ids.
-/

namespace DocumentEngine

open Action Evaluation

/-- An engine whose reads pass no handlers and are not redacted. -/
structure Engine.ReadsPlainly (e : Engine) : Prop where
  unrestricted : ∀ type, e.restrictions.handlersFor e.space type Registry.restrictionStage = []
  unhooked : ∀ type, e.hooks.handlersFor e.space type Registry.readStage = []
  unredacted : ∀ type doc, e.collaborators.redact e.space type doc = doc

/-- The errors that refuse documents of types. -/
abbrev Refusal := String → Document → Option EngineError

/-- The documents of a fetch as callers get them: all, or the error of the first that is refused. -/
def Refusal.pass (refusal : Refusal) (type : String) (docs : List Document) :
    Except EngineError (List Document) :=
  match docs.findSome? (refusal type) with
  | some cause => .error cause
  | none => .ok docs

/-- The refusal of no document. -/
def Refusal.never : Refusal := fun _ _ => none

theorem Refusal.pass_never (type : String) (docs : List Document) :
    Refusal.never.pass type docs = .ok docs := by
  have hnone : docs.findSome? (Refusal.never type) = none :=
    List.findSome?_eq_none_iff.mpr fun _ _ => rfl
  rw [pass, hnone]

/-- An engine whose handlers of reads refuse some documents and pass on all others as they are. -/
structure Engine.Refuses (e : Engine) (requestId : String) (refusal : Refusal) : Prop where
  unrestricted : ∀ type, e.restrictions.handlersFor e.space type Registry.restrictionStage = []
  unredacted : ∀ type doc, e.collaborators.redact e.space type doc = doc
  handles : ∀ type doc state, ∃ after,
    exec (Pipeline.run (e.contextOf requestId type)
      (e.hooks.handlersFor e.space type Registry.readStage) doc) state =
        ((refusal type doc).elim (.ok doc) .error, after) ∧ after.Alike state

theorem Engine.ReadsPlainly.refuses {e : Engine} (h : e.ReadsPlainly) (requestId : String) :
    e.Refuses requestId .never where
  unrestricted := h.unrestricted
  unredacted := h.unredacted
  handles type doc state := by
    rw [h.unhooked]
    exact ⟨state, rfl, .refl state⟩

/-- Without its handlers and hooks an engine that refuses documents reads plainly. -/
theorem Engine.Refuses.readsPlainly {e : Engine} {requestId : String} {refusal : Refusal}
    (h : e.Refuses requestId refusal) : ({ e with hooks := {} } : Engine).ReadsPlainly :=
  ⟨h.unrestricted, fun _ => rfl, h.unredacted⟩

/-- An engine with no handlers and the collaborators that change nothing. -/
structure Engine.Bare (e : Engine) : Prop where
  restrictions : e.restrictions = {}
  hooks : e.hooks = {}
  collaborators : e.collaborators = .permissive e.schema

theorem Engine.Bare.readsPlainly {e : Engine} (h : e.Bare) : e.ReadsPlainly where
  unrestricted type := by
    rw [h.restrictions]
    rfl
  unhooked type := by
    rw [h.hooks]
    rfl
  unredacted type doc := by
    rw [h.collaborators]
    rfl

theorem Engine.Bare.unhooked {e : Engine} (h : e.Bare) (type : String) (suffixes : List String) :
    e.hooks.chain e.space type suffixes = [] := by
  rw [h.hooks, Registry.chain]
  exact List.flatMap_eq_nil_iff.mpr fun _ _ => rfl

/-- A bare engine over a schema, with its store at a path. -/
def Engine.bare (root : Path) (s : Schema) (catalog : Catalog) : Engine where
  config := { dataDir := root.text }
  store := ⟨root, "default", s⟩
  catalog := catalog
  collaborators := .permissive s

theorem Engine.bare_bare (root : Path) (s : Schema) (catalog : Catalog) :
    (Engine.bare root s catalog).Bare := ⟨rfl, rfl, rfl⟩

namespace Store

/-- A type of the schema with its stored documents, where all of them can be read. -/
def contents? (s : Store) (files : FileTree) (type : String) :
    Option (DocumentType × List Document) :=
  match s.schema.type? type, s.stored files type with
  | some t, .ok docs => some (t, docs)
  | _, _ => none

/-- The first stored document of a type that holds an id. -/
def finder (s : Store) (files : FileTree) : Finder := fun type id =>
  (s.contents? files type).bind fun stored => stored.2.find? fun doc =>
    stored.1.idOf? doc == some id

theorem contents?_eq_some_iff {s : Store} {files : FileTree} {type : String} {t : DocumentType}
    {docs : List Document} :
    s.contents? files type = some (t, docs) ↔
      s.schema.type? type = some t ∧ s.stored files type = .ok docs := by
  unfold contents?
  cases s.schema.type? type with
  | none => simp
  | some u => cases s.stored files type <;> simp

end Store

namespace Engine

variable {e : Engine} {requestId : String}

/-- The documents of a type that a fetch by ids finds, with the type. -/
def loaded (e : Engine) (files : FileTree) (type : String) (ids : List String) :
    Except EngineError (DocumentType × List Document) :=
  match e.schema.type? type with
  | none => .error (.schema (.unknownType type))
  | some t =>
    ((e.store.found files t.name
      { filter := some (.inList t.identifierName (ids.map .str)) }).mapError .ofStore).map (t, ·)

/-- The documents of a type that a fetch by ids gives to callers, with the type. -/
def presented (e : Engine) (refusal : Refusal) (files : FileTree) (type : String)
    (ids : List String) : Except EngineError (DocumentType × List Document) :=
  e.loaded files type ids >>= fun (t, docs) => (refusal.pass t.name docs).map (t, ·)

theorem presented_of_no_type {refusal : Refusal} {type : String}
    (htype : e.schema.type? type = none) (files : FileTree) (ids : List String) :
    e.presented refusal files type ids = .error (.schema (.unknownType type)) := by
  rw [presented, loaded, htype]
  rfl

theorem presented_of_type {refusal : Refusal} {type : String} {t : DocumentType}
    (htype : e.schema.type? type = some t) (files : FileTree) (ids : List String) :
    e.presented refusal files type ids = ((e.store.found files t.name
      { filter := some (.inList t.identifierName (ids.map .str)) }).mapError .ofStore >>=
        refusal.pass t.name).map (t, ·) := by
  rw [presented, loaded, htype]
  dsimp only
  cases e.store.found files t.name
      { filter := some (.inList t.identifierName (ids.map .str)) } <;> rfl

theorem presented_never (files : FileTree) (type : String) (ids : List String) :
    e.presented .never files type ids = e.loaded files type ids := by
  unfold presented
  rcases e.loaded files type ids with cause | ⟨t, docs⟩
  · rfl
  · change (Refusal.never.pass t.name docs).map (t, ·) = _
    rw [Refusal.pass_never]
    rfl

namespace Refuses

variable {refusal : Refusal}

theorem exec_present (hr : e.Refuses requestId refusal) (type : String) (doc : Document)
    (state : State) :
    ∃ after, exec (e.present requestId type doc) state =
      ((refusal type doc).elim (.ok doc) .error, after) ∧ after.Alike state := by
  rw [present, hr.unredacted]
  exact hr.handles type doc state

/-- Documents are presented until one is refused. -/
theorem exec_presentAll (hr : e.Refuses requestId refusal) (type : String) (docs : List Document)
    (state : State) :
    ∃ after, exec (docs.mapM (e.present requestId type)) state =
      (refusal.pass type docs, after) ∧ after.Alike state := by
  induction docs generalizing state with
  | nil => exact ⟨state, rfl, .refl state⟩
  | cons doc docs ih =>
    obtain ⟨between, hdoc, hbetween⟩ := hr.exec_present type doc state
    rw [List.mapM_cons]
    unfold Refusal.pass
    rw [List.findSome?_cons]
    cases hrefused : refusal type doc with
    | some cause =>
      rw [hrefused] at hdoc
      exact ⟨between, exec_bind_error hdoc, hbetween⟩
    | none =>
      rw [hrefused] at hdoc
      obtain ⟨after, hdocs, hafter⟩ := ih between
      refine ⟨after, ?_, hafter.trans hbetween⟩
      rw [exec_bind_ok hdoc]
      unfold Refusal.pass at hdocs
      cases hrest : docs.findSome? (refusal type) with
      | some cause =>
        rw [hrest] at hdocs
        exact exec_bind_error hdocs
      | none =>
        rw [hrest] at hdocs
        rw [exec_bind_ok hdocs]
        rfl

/-- A read gives what the store finds, unless a document of it is refused. -/
theorem exec_read (hr : e.Refuses requestId refusal) (type : String) (query : Query)
    (state : State) :
    ∃ after, exec (e.read requestId type query) state =
      ((e.store.found state.files type query).mapError .ofStore >>= refusal.pass type, after) ∧
      after.Alike state := by
  obtain ⟨between, hfetch, hbetween⟩ := e.store.exec_fetch type query state
  have hrestricted : exec (e.fetchRestricted requestId type query) state =
      ((e.store.found state.files type query).mapError .ofStore, between) := by
    have hrestrict : e.restrict requestId type query = pure query := by
      rw [restrict, hr.unrestricted]
    rw [fetchRestricted, hrestrict, exec_bind_ok (exec_pure query state), exec_ofStore, hfetch]
  rw [read, exec_bind, hrestricted]
  cases e.store.found state.files type query with
  | error cause => exact ⟨between, rfl, hbetween⟩
  | ok docs =>
    obtain ⟨after, hpresent, hafter⟩ := hr.exec_presentAll type docs between
    exact ⟨after, hpresent, hafter.trans hbetween⟩

/-- Loading ids of a type gives what a fetch by the ids finds, unless a document of it is
refused. -/
theorem exec_loadBatch (hr : e.Refuses requestId refusal) (t : DocumentType) (ids : List String)
    (state : State) :
    ∃ after, exec (e.loadBatch requestId t ids) state =
      ((e.store.found state.files t.name
        { filter := some (.inList t.identifierName (ids.map .str)) }).mapError .ofStore >>=
          refusal.pass t.name, after) ∧
      after.Alike state := by
  obtain ⟨between, hread, hbetween⟩ := hr.exec_read t.name
    { filter := some (.inList t.identifierName (ids.map .str)) } state
  rw [loadBatch]
  generalize (e.store.found state.files t.name
    { filter := some (.inList t.identifierName (ids.map .str)) }).mapError .ofStore >>=
      refusal.pass t.name = result at hread ⊢
  cases result with
  | error cause => exact ⟨between, exec_bind_error hread, hbetween⟩
  | ok docs =>
    rw [exec_bind_ok hread]
    exact ⟨_, rfl, ⟨hbetween.files, hbetween.minted⟩⟩

end Refuses

/-- A read finds what the store finds. -/
theorem exec_read (he : e.ReadsPlainly) (type : String) (query : Query) (state : State) :
    ∃ state', exec (e.read requestId type query) state =
      ((e.store.found state.files type query).mapError .ofStore, state') ∧ state'.Alike state := by
  obtain ⟨after, hread, hafter⟩ := (he.refuses requestId).exec_read type query state
  refine ⟨after, hread.trans ?_, hafter⟩
  cases e.store.found state.files type query with
  | error cause => rfl
  | ok docs => exact congrArg (·, after) (Refusal.pass_never type docs)

theorem loaded_name {files : FileTree} {type : String} {ids : List String} {t : DocumentType}
    {docs : List Document} (h : e.loaded files type ids = .ok (t, docs)) : t.name = type := by
  unfold loaded at h
  split at h
  · cases h
  · rename_i u htype
    cases hfound : e.store.found files u.name
        { filter := some (.inList u.identifierName (ids.map .str)) } with
    | error cause =>
      rw [hfound] at h
      cases h
    | ok found =>
      rw [hfound] at h
      cases h
      exact Projection.type?_name e.schema htype

/-- A fetch by ids finds the stored documents whose identifier passes as one of the ids. -/
theorem loaded_of_contents (hdot : ∀ t ∈ e.schema.types, '.' ∉ t.identifierName.toList)
    {files : FileTree} {type : String} {t : DocumentType} {docs : List Document}
    (hc : e.store.contents? files type = some (t, docs)) (ids : List String) :
    e.loaded files type ids = .ok (t, docs.filter fun doc =>
      satisfies .isIn (fieldValue t doc t.identifierName) (ids.map .str)) := by
  obtain ⟨ht, hdocs⟩ := Store.contents?_eq_some_iff.mp hc
  have hname : t.name = type := Projection.type?_name e.schema ht
  have hfound := e.store.found_of_condition files (hname.symm ▸ ht)
    ⟨t.identifierName, .isIn, .list (ids.map .str)⟩ (hdot t (List.mem_of_find?_eq_some ht))
  have htype : e.schema.type? type = some t := ht
  unfold loaded
  rw [htype]
  dsimp only
  rw [Filter.inList, hfound, hname, hdocs]
  rfl

/-- A fetch by ids fails where the documents of the type cannot be read. -/
theorem loaded_of_no_contents (hdot : ∀ t ∈ e.schema.types, '.' ∉ t.identifierName.toList)
    {files : FileTree} {type : String} (hc : e.store.contents? files type = none)
    (ids : List String) : ∃ cause, e.loaded files type ids = .error cause := by
  unfold loaded
  cases htype : e.schema.type? type with
  | none => exact ⟨_, rfl⟩
  | some t =>
    have ht : e.store.schema.type? type = some t := htype
    have hname : t.name = type := Projection.type?_name e.schema htype
    have hfound := e.store.found_of_condition files (hname.symm ▸ ht)
      ⟨t.identifierName, .isIn, .list (ids.map .str)⟩ (hdot t (List.mem_of_find?_eq_some htype))
    dsimp only
    rw [Filter.inList, hfound, hname]
    cases hdocs : e.store.stored files type with
    | error cause => exact ⟨_, rfl⟩
    | ok docs =>
      rw [Store.contents?_eq_some_iff.mpr ⟨ht, hdocs⟩] at hc
      cases hc

/-- A fetch by ids succeeds where all documents of the type can be read, and then it finds stored
documents only and every one with one of the ids. -/
theorem loaded_spec (hdot : ∀ t ∈ e.schema.types, '.' ∉ t.identifierName.toList)
    (files : FileTree) (type : String) (ids : List String) :
    (e.store.contents? files type = none ∧ ∃ cause, e.loaded files type ids = .error cause) ∨
      ∃ t docs found, e.store.contents? files type = some (t, docs) ∧
        e.loaded files type ids = .ok (t, found) ∧ found ⊆ docs ∧
          ∀ doc ∈ docs, ∀ id ∈ ids, t.idOf? doc = some id → doc ∈ found := by
  cases hc : e.store.contents? files type with
  | none => exact .inl ⟨rfl, loaded_of_no_contents hdot hc ids⟩
  | some contents =>
    obtain ⟨t, docs⟩ := contents
    refine .inr ⟨t, docs, _, rfl, loaded_of_contents hdot hc ids, List.filter_subset_self _, ?_⟩
    intro doc hdoc id hid hheld
    refine List.mem_filter.mpr ⟨hdoc, ?_⟩
    obtain ⟨v, hv, hvid⟩ := Option.bind_eq_some_iff.mp hheld
    have hvalue : fieldValue t doc t.identifierName = some v := by
      rw [fieldValue, hv]
    rw [hvalue]
    refine Store.satisfies_isIn_of_id hvid (fun n hn => ?_) hid
    exact Store.inRange_of_stored (Store.contents?_eq_some_iff.mp hc).2 hdoc (hn ▸ hv)

section

variable {refusal : Refusal} {files : FileTree} {type : String} {ids : List String}
  {t : DocumentType} {docs : List Document}

theorem isOk_pass_iff (type : String) (docs : List Document) :
    (refusal.pass type docs).isOk = true ↔ ∀ doc ∈ docs, refusal type doc = none := by
  rw [← List.findSome?_eq_none_iff, Refusal.pass]
  cases docs.findSome? (refusal type) with
  | some cause => simp [Except.isOk, Except.toBool]
  | none => simp [Except.isOk, Except.toBool]

/-- What a fetch by ids gives to callers is what it finds. -/
theorem loaded_of_presented {found : DocumentType × List Document}
    (h : e.presented refusal files type ids = .ok found) : e.loaded files type ids = .ok found := by
  obtain ⟨⟨t, docs⟩, hload, hpass⟩ := Except.exists_of_bind_eq_ok h
  rw [hload]
  dsimp only [Refusal.pass] at hpass
  cases hrefused : docs.findSome? (refusal t.name) with
  | some cause =>
    rw [hrefused] at hpass
    cases hpass
  | none =>
    rw [hrefused] at hpass
    exact hpass

variable (hdot : ∀ t ∈ e.schema.types, '.' ∉ t.identifierName.toList)

include hdot

/-- A fetch by ids has no error for callers where the documents of the type can be read and none
that it finds is refused. -/
theorem isOk_presented_iff :
    (e.presented refusal files type ids).isOk = true ↔
      ∃ t docs, e.store.contents? files type = some (t, docs) ∧ ∀ doc ∈ docs,
        satisfies .isIn (fieldValue t doc t.identifierName) (ids.map .str) = true →
          refusal t.name doc = none := by
  cases hc : e.store.contents? files type with
  | none =>
    obtain ⟨cause, hload⟩ := loaded_of_no_contents hdot hc ids
    have hfails : e.presented refusal files type ids = .error cause := by
      rw [presented, hload]
      rfl
    simp [hfails, Except.isOk, Except.toBool]
  | some contents =>
    obtain ⟨t, docs⟩ := contents
    have hpresented : e.presented refusal files type ids =
        (refusal.pass t.name (docs.filter fun doc =>
          satisfies .isIn (fieldValue t doc t.identifierName) (ids.map .str))).map (t, ·) := by
      rw [presented, loaded_of_contents hdot hc]
      rfl
    have hmap : ∀ x : Except EngineError (List Document), (x.map (t, ·)).isOk = x.isOk := by
      rintro (_ | _) <;> rfl
    rw [hpresented, hmap, isOk_pass_iff]
    simp

/-- A fetch by ids has no error for callers where none of the ids has one alone. -/
theorem isOk_presented_iff_forall (hids : ids ≠ []) :
    (e.presented refusal files type ids).isOk = true ↔
      ∀ id ∈ ids, (e.presented refusal files type [id]).isOk = true := by
  simp only [isOk_presented_iff hdot, Store.satisfies_isIn_iff _ ids, List.map_singleton]
  constructor
  · rintro ⟨t, docs, hc, hall⟩ id hid
    exact ⟨t, docs, hc, fun doc hdoc hpass => hall doc hdoc ⟨id, hid, hpass⟩⟩
  · intro h
    obtain ⟨first, hfirst⟩ := List.exists_mem_of_ne_nil _ hids
    obtain ⟨t, docs, hc, -⟩ := h first hfirst
    refine ⟨t, docs, hc, fun doc hdoc ⟨id, hid, hpass⟩ => ?_⟩
    obtain ⟨t', docs', hc', hall⟩ := h id hid
    cases hc.symm.trans hc'
    exact hall doc hdoc hpass

end

end Engine

end DocumentEngine
