import DocumentEngine.Proofs.Engine.Target
import DocumentEngine.Proofs.Mutation.References

/-!
References in written documents. A mutation that succeeds has found a stored document for every id
that its input names, and the document that it writes holds one entry for each of them in order. An
object without an `id` names none, and the values that an operation sets are not looked up.
-/

namespace DocumentEngine

open Action Mutation

namespace Field

/-- The entries of a reference as it stores them: a list, or the only one. -/
def entries (f : Field) (vs : List Json) : Json := if f.list then .arr vs else vs.head?.getD .null

/-- A value that is valid for a reference is a list where the reference is one, and its items may
name ids. -/
theorem shape_of_violations {f : Field} (htarget : f.target?.isSome = true) {path : String} {v : Json}
    (h : f.violations path v = []) (hv : v.isNull = false) :
    f.list = false → items v = [v] := by
  intro hlist
  unfold violations at h
  cases v with
  | arr vs =>
    rw [hlist, if_neg Bool.false_ne_true] at h
    unfold itemViolations at h
    unfold target? at htarget
    cases hkind : f.kind with
    | reference target =>
      rw [hkind] at h
      cases h
    | _ =>
      rw [hkind] at htarget
      cases htarget
  | null => cases hv
  | _ => rfl

end Field

namespace Engine

variable {e : Engine} {requestId : String} {t : DocumentType} {op : Operation} {state : State}
  {f : Field} {target : String}

/-- Documents are stored under ids, one for each. -/
def StoredUnder (e : Engine) (files : FileTree) (type : String) (ids : List String)
    (docs : List Document) : Prop :=
  List.Forall₂ (fun id doc => e.store.find? files type id = .ok (some doc)) ids docs

/-- A document holds one entry for each item of a value, in order: the id of a stored document in a
pointer, the document itself in a copy. -/
structure HoldsReference (e : Engine) (files : FileTree) (f : Field) (target : String) (v : Json)
    (doc : Document) : Prop where
  single : f.list = false → items v = [v]
  entries : ∃ ids docs, (items v).map itemId? = ids.map some ∧ e.StoredUnder files target ids docs ∧
    (f.inline = false → doc.get? f.name = none ∧
      doc.get? f.pointerKey = some (f.entries (ids.map .str))) ∧
    (f.inline = true → doc.get? f.name = some (f.entries (docs.map .obj)) ∧
      doc.get? f.pointerKey = none)

theorem exec_load (s : Store) (type id : String) (state : State) :
    exec (s.load type id) state = (s.find? state.files type id, state) := by
  unfold Store.load
  rw [exec_bind_ok (exec_get state), exec_ofExcept]

/-- Documents that a field refers to are loaded from the store, one for each id. -/
theorem exec_loadReferenced {ids : List String} {docs : List Json} {done : State}
    (h : exec (e.loadReferenced f target ids) state = (.ok docs, done)) :
    done = state ∧ ∃ stored, docs = stored.map .obj ∧
      e.StoredUnder state.files target ids stored := by
  induction ids generalizing docs done with
  | nil =>
    cases h
    exact ⟨rfl, [], rfl, .nil⟩
  | cons id ids ih =>
    unfold loadReferenced at h
    obtain ⟨found, loaded, hload, h⟩ := exec_bind_eq_ok h
    rw [exec_ofStore, exec_load] at hload
    cases hfind : e.store.find? state.files target id with
    | error cause =>
      rw [hfind] at hload
      cases hload
    | ok looked =>
      rw [hfind] at hload
      obtain ⟨hfound, rfl⟩ := Prod.mk.inj hload
      cases hfound
      cases found with
      | none => cases h
      | some doc =>
        obtain ⟨rest, rested, hrest, hdone⟩ := exec_bind_eq_ok h
        cases hdone
        obtain ⟨rfl, stored, rfl, hstored⟩ := ih hrest
        exact ⟨rfl, doc :: stored, rfl, .cons hfind hstored⟩

/-- Documents that are stored are loaded. -/
theorem exec_loadReferenced_of_storedUnder {ids : List String} {docs : List Document}
    (h : e.StoredUnder state.files target ids docs) :
    exec (e.loadReferenced f target ids) state = (.ok (docs.map .obj), state) := by
  induction h with
  | nil => rfl
  | @cons id doc ids docs hfirst _ ih =>
    have hload := exec_ofStore (e.store.load target id) state
    rw [exec_load, hfirst] at hload
    unfold loadReferenced
    rw [exec_bind_ok hload]
    dsimp only
    rw [exec_bind_ok ih]
    rfl

theorem exec_addReferenced_of_storedUnder {key : String} {v : Json} {docs : List Document}
    (hkey : referenceField? t key = some f) (htarget : f.target? = some target)
    (h : e.StoredUnder state.files target (referencedIds v) docs) (related : Keyed Json) :
    exec (e.addReferenced t related key v) state =
      (.ok (related.insert f.name (f.entries (docs.map .obj))), state) := by
  unfold addReferenced
  rw [hkey]
  dsimp only
  rw [htarget]
  dsimp only
  rw [exec_bind_ok (exec_loadReferenced_of_storedUnder h)]
  rfl

section

variable (hapart : t.PointersApart) (hf : t.field? f.name = some f) (htarget : f.target? = some target)

include hapart hf htarget

/-- A key that names another field leaves what was loaded for a reference as it is. -/
theorem exec_addReferenced_of_ne {related related' : Keyed Json} {key : String} {v : Json}
    {done : State} (hkey : referenceField? t key ≠ some f)
    (h : exec (e.addReferenced t related key v) state = (.ok related', done)) :
    related'.get? f.name = related.get? f.name ∧ done = state := by
  unfold addReferenced at h
  cases href : referenceField? t key with
  | none =>
    rw [href] at h
    cases h
    exact ⟨rfl, rfl⟩
  | some g =>
    rw [href] at h
    dsimp only at h
    cases hg : g.target? with
    | none =>
      rw [hg] at h
      cases h
      exact ⟨rfl, rfl⟩
    | some other =>
      rw [hg] at h
      obtain ⟨docs, loaded, hload, hdone⟩ := exec_bind_eq_ok h
      cases hdone
      have hne : g ≠ f := by
        rintro rfl
        exact hkey href
      have hname := (references_apart hapart hf (by rw [htarget]; rfl) href hne).1
      exact ⟨Keyed.get?_insert_of_ne _ _ hname, (exec_loadReferenced hload).1⟩

theorem exec_addReferenced_all_of_ne {related related' : Keyed Json} {input : Document}
    {done : State} (hinput : ∀ entry ∈ input, referenceField? t entry.1 ≠ some f)
    (h : exec (input.foldlM (fun related (key, v) => e.addReferenced t related key v) related)
      state = (.ok related', done)) :
    related'.get? f.name = related.get? f.name ∧ done.files = state.files := by
  induction input generalizing related state with
  | nil =>
    cases h
    exact ⟨rfl, rfl⟩
  | cons entry input ih =>
    rw [List.foldlM_cons] at h
    obtain ⟨added, between, hadd, hrest⟩ := exec_bind_eq_ok h
    obtain ⟨hkept, rfl⟩ := exec_addReferenced_of_ne hapart hf htarget
      (hinput entry List.mem_cons_self) hadd
    obtain ⟨hsame, hfiles⟩ := ih (fun other hother => hinput other (List.mem_cons_of_mem _ hother))
      hrest
    exact ⟨hsame.trans hkept, hfiles⟩

/-- The last key that names a reference says which documents are loaded for it. -/
theorem exec_checkReferences {before after : Document} {key : String} {v : Json}
    {related : Keyed Json} {done : State} (hkey : referenceField? t key = some f)
    (hafter : ∀ entry ∈ after, referenceField? t entry.1 ≠ some f)
    (h : exec (e.checkReferences t (before ++ (key, v) :: after)) state = (.ok related, done)) :
    ∃ docs, e.StoredUnder state.files target (referencedIds v) docs ∧
      related.get? f.name = some (f.entries (docs.map .obj)) := by
  unfold checkReferences at h
  rw [List.foldlM_append] at h
  obtain ⟨earlier, between, hbefore, h⟩ := exec_bind_eq_ok h
  have hbetween : between.files = state.files := by
    have hquiet := checkReferences_quiet (e := e) (t := t) before state
    unfold checkReferences at hquiet
    rwa [hbefore] at hquiet
  rw [List.foldlM_cons] at h
  obtain ⟨added, loaded, hadd, hrest⟩ := exec_bind_eq_ok h
  obtain ⟨hsame, -⟩ := exec_addReferenced_all_of_ne hapart hf htarget hafter hrest
  dsimp only at hadd
  unfold addReferenced at hadd
  rw [hkey] at hadd
  dsimp only at hadd
  rw [htarget] at hadd
  obtain ⟨docs, looked, hload, hdone⟩ := exec_bind_eq_ok hadd
  cases hdone
  obtain ⟨rfl, stored, rfl, hstored⟩ := exec_loadReferenced hload
  rw [hbetween] at hstored
  refine ⟨stored, hstored, ?_⟩
  rw [hsame, Keyed.get?_insert_self]
  rfl

end

/-- Without collaborators of its own an engine checks input against its schema. -/
theorem exec_checkValid (he : e.Bare) (input : Document) (mode : ValidationMode) (state : State) :
    exec (e.checkValid t input mode) state =
      (match e.schema.validate t.name input mode with
        | [] => .ok ()
        | violations => .error (.constraint violations), state) := by
  unfold checkValid
  rw [he.collaborators]
  dsimp only [Collaborators.permissive]
  cases e.schema.validate t.name input mode <;> rfl

/-- An input that passes the check is valid. -/
theorem validate_of_checkValid (he : e.Bare) {input : Document} {mode : ValidationMode}
    {after : State} (h : exec (e.checkValid t input mode) state = (.ok (), after)) :
    e.schema.validate t.name input mode = [] := by
  rw [exec_checkValid he] at h
  cases hviolations : e.schema.validate t.name input mode with
  | nil => rfl
  | cons violation violations =>
    rw [hviolations] at h
    cases h

/-- Without collaborators of its own an engine allows everything. -/
theorem exec_authorize (he : e.Bare) (incoming : Document) (existing : List Document)
    (state : State) : exec (e.authorize t op incoming existing) state = (.ok (), state) := by
  unfold authorize
  rw [he.collaborators]
  rfl

/-- What preparing a document has done where it succeeds: the input was taken as it is, its
references were loaded, and with the values of the operation it is valid and merged over nothing or
over the stored document that it names. -/
theorem exec_prepareDocument_eq_ok (he : e.Bare) {arguments doc : Document} {prepared : State}
    (h : exec (e.prepareDocument requestId t op arguments) state = (.ok doc, prepared)) :
    ∃ input existing related allowed checked, inputOf arguments = .ok input ∧
      (op.context = .create → existing = []) ∧
      (op.context ≠ .create → ∃ looked,
        exec (e.findExisting requestId t input) state = (.ok existing, looked)) ∧
      allowed.files = state.files ∧
      exec (e.checkReferences t input) allowed = (.ok related, checked) ∧
      e.schema.validate t.name (input.union op.set)
        (if op.context = .create then .full else .partialUpdate) = [] ∧
      doc = merge t related existing (input.union op.set) ∧ prepared.files = state.files := by
  obtain ⟨input, existing, related, looked, allowed, checked, hinput, -, hnew, hold, hallowed,
    hreferences, hvalid, rfl, hkept⟩ := prepared_of_exec h
  have hcleaned : e.cleaned t input = input := by
    rw [cleaned, he.collaborators]
    rfl
  rw [mergedOver, hcleaned]
  rw [hcleaned] at hold hreferences hvalid
  have hlooked : looked.files = state.files := by
    by_cases hcreate : op.context = .create
    · exact (hnew hcreate).2
    · have hquiet := @findExisting_quiet e requestId t he.restrictsQuietly input state
      rwa [hold hcreate] at hquiet
  exact ⟨input, existing, related, allowed, checked, hinput, fun hcreate => (hnew hcreate).1,
    fun hmodify => ⟨looked, hold hmodify⟩, hallowed.trans hlooked, hreferences,
    validate_of_checkValid he hvalid, rfl, hkept.trans hlooked⟩

section

variable (hapart : t.PointersApart) (hf : t.field? f.name = some f) (htarget : f.target? = some target)

include hapart hf htarget

/-- The document that a mutation is about to write holds a reference as the last key of the input
that names it says. -/
theorem holdsReference_of_prepareDocument (he : e.Bare) (ht : e.schema.type? t.name = some t)
    {arguments input doc : Document} {prepared : State}
    (hinput : inputOf arguments = .ok input) (hordered : input.Ascending) {key : String} {v : Json}
    (hv : input.get? key = some v) (hkey : referenceField? t key = some f)
    (hlast : f.pointerKey ∈ input.keys → key = f.pointerKey) (hnull : v.isNull = false)
    (hids : Identifies v) (hset : ∀ other ∈ op.set.keys, referenceField? t other ≠ some f)
    (h : exec (e.prepareDocument requestId t op arguments) state = (.ok doc, prepared)) :
    e.HoldsReference state.files f target v doc ∧ prepared.files = state.files := by
  obtain ⟨input', existing, related, allowed, checked, hinput', -, -, hallowed, hreferences, hvalid,
    hdoc, hprepared⟩ := exec_prepareDocument_eq_ok he h
  cases hinput.symm.trans hinput'
  have hreference : f.target?.isSome = true := by
    rw [htarget]
    rfl
  have hnames := referenceField?_eq_some_iff hapart hf hreference
  -- The values of the operation leave what the input gives the reference as it is.
  have hgiven := givenValue?_eq_some hv ((hnames key).mp hkey) hlast
  have hkept : ∀ other, other = f.name ∨ other = f.pointerKey →
      Keyed.get? (input.union op.set) other = input.get? other := fun other hother =>
    Keyed.get?_union_of_notMem input fun hmem => hset other hmem ((hnames other).mpr hother)
  have hcandidate : Keyed.get? (input.union op.set) key = some v :=
    (hkept key ((hnames key).mp hkey)).trans hv
  have hgivencandidate : givenValue? f (input.union op.set) = some v := by
    rw [← hgiven, givenValue?, hkept _ (.inl rfl), hkept _ (.inr rfl), givenValue?]
  obtain ⟨before, last, after, hsplit, hnamed, hafter⟩ :=
    exists_last_of_given hapart hf hreference hordered hgiven
  rw [hsplit] at hreferences
  obtain ⟨docs, hdocs, hcopy⟩ := exec_checkReferences hapart hf htarget hnamed hafter hreferences
  rw [hallowed] at hdocs
  obtain ⟨merged, hmerged⟩ := get?_merge_given hapart hf hreference related existing
    (Keyed.ascending_union hordered op.set) hgivencandidate
  rw [← hdoc] at hmerged
  obtain ⟨hstands, hcopied⟩ := @get?_mergeReference f related merged v hnull
  rw [← hmerged _ (.inl rfl), ← hmerged _ (.inr rfl)] at hstands hcopied
  have hshape : f.violations key v = [] := by
    unfold Schema.validate at hvalid
    rw [ht] at hvalid
    have hentries := (List.append_eq_nil_iff.mp hvalid).2
    have hentry := List.flatMap_eq_nil_iff.mp hentries (key, v) (Keyed.mem_of_get? hcandidate)
    have hdeclared : t.declaredField? key = some f := by
      unfold DocumentType.declaredField?
      rcases (referenceField?_eq_some_iff hapart hf hreference key).mp hkey with rfl | rfl
      · rw [hf]
        rfl
      · have hbase : Text.dropEnding? "_id" f.pointerKey = some f.name :=
          Text.dropEnding?_append f.name "_id"
        simp [hapart f (field?_mem hf).1 hreference, hbase, hf, hreference]
    dsimp only at hentry
    rwa [hdeclared] at hentry
  refine ⟨⟨Field.shape_of_violations hreference hshape hnull, referencedIds v, docs,
    (map_some_referencedIds hids).symm, hdocs, hstands, fun hinline => ?_⟩, hprepared⟩
  obtain ⟨hname, hpointer⟩ := hcopied hinline
  exact ⟨hname.trans hcopy, hpointer⟩

end

/-- A document is as it was, or gets an identifier, and no file changes. -/
theorem exec_identified {doc named : Document} {id : String} {after : State}
    (h : exec (identified t doc) state = (.ok (id, named), after)) :
    after.files = state.files ∧ (named = doc ∨ named = doc.insert t.identifierName (.str id)) := by
  unfold identified at h
  cases hid : idOf? t doc with
  | some own =>
    rw [hid] at h
    cases h
    exact ⟨rfl, .inl rfl⟩
  | none =>
    rw [hid] at h
    rw [exec_bind_ok (exec_get state)] at h
    rw [exec_bind_ok (exec_set _ state)] at h
    cases h
    exact ⟨rfl, .inr rfl⟩

/-- The change of the store that a creation or a modification makes. -/
def change (e : Engine) (t : DocumentType) (op : Operation) (id : String) (doc : Document) :
    StoreM Unit :=
  if op.context = .create then e.store.create t.name id doc else e.store.replace t.name id doc

/-- A write without handlers that succeeds has prepared a document, given it an identifier and
stored it as it is; callers get it redacted. -/
theorem written_of_exec (hhooks : e.hooks.chain e.space t.name op.hookSuffixes = [])
    {arguments result : Document} {after : State}
    (h : exec (e.write requestId t op arguments) state = (.ok result, after)) :
    ∃ doc prepared id stored named, exec (e.prepareDocument requestId t op arguments) state =
        (.ok doc, prepared) ∧
      exec (identified t doc) prepared = (.ok (id, stored), named) ∧
      exec (e.change t op id stored) named = (.ok (), after) ∧
      result = e.collaborators.redact e.space t.name stored := by
  unfold write at h
  obtain ⟨doc, prepared, hprepare, h⟩ := exec_bind_eq_ok h
  obtain ⟨⟨id, stored⟩, named, hidentified, h⟩ := exec_bind_eq_ok h
  obtain ⟨ran, done, hrun, hredact⟩ := exec_bind_eq_ok h
  cases hredact
  rw [exec_runStages hhooks] at hrun
  have hchange : (if op.context = .create then e.store.create t.name id stored
      else e.store.replace t.name id stored) = e.change t op id stored := rfl
  rw [hchange] at hrun
  rcases hdone : exec (e.change t op id stored) named with ⟨_ | ⟨⟩, final⟩
  · rw [hdone] at hrun
    cases hrun
  · rw [hdone] at hrun
    cases hrun
    exact ⟨doc, prepared, id, stored, named, hprepare, hidentified, hdone, rfl⟩

theorem exec_write_eq_ok (he : e.Bare) {arguments stored : Document} {after : State}
    (h : exec (e.write requestId t op arguments) state = (.ok stored, after)) :
    ∃ doc prepared id named, exec (e.prepareDocument requestId t op arguments) state =
        (.ok doc, prepared) ∧
      exec (identified t doc) prepared = (.ok (id, stored), named) ∧
      exec (e.change t op id stored) named = (.ok (), after) := by
  obtain ⟨doc, prepared, id, named, between, hprepare, hidentified, hchange, hredacted⟩ :=
    written_of_exec (he.unhooked t.name op.hookSuffixes) h
  rw [he.collaborators] at hredacted
  cases hredacted
  exact ⟨doc, prepared, id, between, hprepare, hidentified, hchange⟩

/-- A creation or a modification that succeeds has stored, for the last key of its input that names
a reference, one entry for each item in order, of documents that were stored before. -/
theorem references_written (he : e.Bare) (ht : e.schema.type? t.name = some t)
    (hapart : t.PointersApart) {identifier : Field}
    (hidentifier : t.field? t.identifierName = some identifier) (hown : identifier.target? = none)
    (hf : t.field? f.name = some f) (htarget : f.target? = some target)
    {arguments input stored : Document} {after : State} (hinput : inputOf arguments = .ok input)
    (hordered : input.Ascending) {key : String} {v : Json} (hv : input.get? key = some v)
    (hkey : referenceField? t key = some f)
    (hlast : f.pointerKey ∈ input.keys → key = f.pointerKey) (hnull : v.isNull = false)
    (hids : Identifies v) (hset : ∀ other ∈ op.set.keys, referenceField? t other ≠ some f)
    (h : exec (e.write requestId t op arguments) state = (.ok stored, after)) :
    e.HoldsReference state.files f target v stored ∧
      ∃ id before, before.files = state.files ∧
        exec (e.change t op id stored) before = (.ok (), after) := by
  obtain ⟨doc, prepared, id, named, hprepare, hidentified, hchange⟩ := exec_write_eq_ok he h
  obtain ⟨⟨hsingle, ids, docs, hitems, hdocs, hpointer, hcopy⟩, hprepared⟩ :=
    holdsReference_of_prepareDocument hapart hf htarget he ht hinput hordered hv hkey hlast hnull
      hids hset hprepare
  obtain ⟨hnamed, hstored⟩ := exec_identified hidentified
  have hkept : ∀ key ≠ t.identifierName, stored.get? key = doc.get? key := by
    intro key hkey
    rcases hstored with rfl | rfl
    · rfl
    · exact Keyed.get?_insert_of_ne _ _ hkey.symm
  have hname : f.name ≠ t.identifierName := by
    intro heq
    rw [heq, hidentifier] at hf
    cases hf
    rw [htarget] at hown
    cases hown
  have hpointerKey : f.pointerKey ≠ t.identifierName := by
    intro heq
    have hfree := hapart f (field?_mem hf).1 (by rw [htarget]; rfl)
    rw [heq, hidentifier] at hfree
    cases hfree
  refine ⟨⟨hsingle, ids, docs, hitems, hdocs, ?_, ?_⟩, id, named, hnamed.trans hprepared, hchange⟩
  · rw [hkept _ hname, hkept _ hpointerKey]
    exact hpointer
  · rw [hkept _ hname, hkept _ hpointerKey]
    exact hcopy

section

/-- The provinces that an employee has worked in. -/
private def posting : Field := (Field.ofReference "provincias" "Provincia").ofList

private def staffMember : DocumentType where
  name := "Empleado"
  fields := [.ofIdentifier "id", posting]

private def staff : Schema where
  types := [staffMember, { name := "Provincia", fields := [.ofIdentifier "id"] }]

/-- Two provinces and no employee. -/
private def twoProvinces : State where
  files := ⟨[(["data"], .directory), (["data", "Empleado"], .directory),
    (["data", "Provincia"], .directory),
    (["data", "Provincia", "p1"], .file (some "\x7b\"id\": \"p1\"\x7d")),
    (["data", "Provincia", "p2"], .file (some "\x7b\"id\": \"p2\"\x7d"))]⟩

/-- Names one province by its id and the other by an object. -/
private def postings : Document :=
  [("id", .str "e1"), ("provincias", .arr [.obj [("id", .str "p2")], .str "p1"])]

theorem references_written_postings :
    ∃ stored after, exec ((bare ⟨"/data"⟩ staff ⟨"default", []⟩).write "r" staffMember
        (.ofImplicit "create" .create ["provincias"]) postings) twoProvinces = (.ok stored, after) ∧
      (bare ⟨"/data"⟩ staff ⟨"default", []⟩).HoldsReference twoProvinces.files posting "Provincia"
        (.arr [.obj [("id", .str "p2")], .str "p1"]) stored := by
  have hok : (exec ((bare ⟨"/data"⟩ staff ⟨"default", []⟩).write "r" staffMember
      (.ofImplicit "create" .create ["provincias"]) postings) twoProvinces).1.isOk = true := by
    decide +kernel
  rcases hrun : exec ((bare ⟨"/data"⟩ staff ⟨"default", []⟩).write "r" staffMember
      (.ofImplicit "create" .create ["provincias"]) postings) twoProvinces with ⟨_ | stored, after⟩
  · rw [hrun] at hok
    cases hok
  · exact ⟨stored, after, rfl, (@references_written _ "r" staffMember
      (.ofImplicit "create" .create ["provincias"]) twoProvinces posting "Provincia"
      (bare_bare _ _ _) rfl (by decide) (.ofIdentifier "id") rfl rfl rfl rfl postings postings stored
      after rfl (by unfold Keyed.Ascending; decide) "provincias" _ rfl rfl (by decide) rfl (by decide) (by decide) hrun).1⟩

/-- Provinces under a code. -/
private def coded : DocumentType where
  name := "Provincia"
  fields := [.ofIdentifier "codigo"]

private def origin : Field := .ofReference "origen" "Provincia"

private def native : DocumentType where
  name := "Empleado"
  fields := [.ofIdentifier "id", origin]

private def noDocuments : State where
  files := ⟨[(["data"], .directory), (["data", "Empleado"], .directory),
    (["data", "Provincia"], .directory)]⟩

/-- Names a province that is not stored by its code. -/
private def nowhere : Document := [("id", .str "e1"), ("origen", .obj [("codigo", .str "nope")])]

/-- An object that names a document by the identifier of its type, where that is not `id`, refers to
nothing: the mutation succeeds and stores a null for it. -/
theorem exists_reference_dropped :
    ∃ (e : Engine) (t : DocumentType) (op : Operation) (f : Field) (target : DocumentType)
      (arguments stored : Document) (v : Json) (state after : State), e.Bare ∧
      e.schema.check.isOk = true ∧ t.PointersApart ∧ t.field? f.name = some f ∧
      f.target? = some target.name ∧ e.schema.type? target.name = some target ∧
      inputOf arguments = .ok arguments ∧ arguments.get? f.name = some v ∧
      v.get? target.identifierName = some (.str "nope") ∧
      e.store.find? state.files target.name "nope" = .ok none ∧
      exec (e.write "r" t op arguments) state = (.ok stored, after) ∧
      stored.get? f.pointerKey = some .null := by
  have hnull : (exec ((bare ⟨"/data"⟩ ⟨[native, coded]⟩ ⟨"default", []⟩).write "r" native
      (.ofImplicit "create" .create ["origen"]) nowhere) noDocuments).1.toOption.elim
        false (fun stored => (stored.get? origin.pointerKey).elim false Json.isNull) = true := by
    decide +kernel
  rcases hrun : exec ((bare ⟨"/data"⟩ ⟨[native, coded]⟩ ⟨"default", []⟩).write "r" native
      (.ofImplicit "create" .create ["origen"]) nowhere) noDocuments
    with ⟨_ | stored, after⟩
  · rw [hrun] at hnull
    cases hnull
  · refine ⟨_, native, _, origin, coded, nowhere, stored, _, _, after, bare_bare _ _ _,
      by decide +kernel, by decide, rfl, rfl, rfl, rfl, rfl, rfl, by rfl, hrun, ?_⟩
    rw [hrun] at hnull
    cases hpointer : stored.get? origin.pointerKey with
    | none =>
      rw [Except.toOption, Option.elim_some, hpointer] at hnull
      cases hnull
    | some v =>
      rw [Except.toOption, Option.elim_some, hpointer] at hnull
      cases v with
      | null => rfl
      | _ => cases hnull

end

end Engine

end DocumentEngine
