import DocumentEngine.Proofs.Engine.Frame
import DocumentEngine.Proofs.Mutation.Stored

/-!
What becomes of the values that an operation sets. They take the place of what the caller supplies
under the same key, so that a field of scalars or of an enumeration holds them whatever the input is.
A reference is written by the last key that names it, though, which may be one of the caller's; and a
copy is made of what the input of the caller names, never of what the operation sets.
-/

namespace DocumentEngine

open Action Mutation

/-- A flag, a number or a text. -/
inductive Json.Plain : Json → Prop
  | bool (b : Bool) : Plain (.bool b)
  | num (n : Number) : Plain (.num n)
  | str (s : String) : Plain (.str s)

namespace Descriptor

theorem plain_valueOf (cs : List Char) : (valueOf cs).Plain := by
  unfold valueOf
  split
  · exact .bool true
  · split
    · exact .bool false
    · split
      · exact .num _
      · split
        · exact .num _
        · exact .str _

theorem plain_of_entry {cs : List Char} {found : String × Json} (h : entry cs = .ok found) :
    found.2.Plain := by
  unfold entry at h
  split at h
  · cases h
  · dsimp only at h
    split at h
    · cases h
    · cases h
      exact plain_valueOf _

/-- The values of a map stand in the order of their keys, and none of them is null, a list or an
object. -/
theorem plain_of_entries {raw : List Char} {set : Keyed Json} (h : entries raw = .ok set) :
    set.Ascending ∧ ∀ entry ∈ set, entry.2.Plain := by
  unfold entries at h
  split at h
  · cases h
  · obtain ⟨found, hfound, h⟩ := Except.exists_of_bind_eq_ok h
    cases h
    refine ⟨Keyed.ascending_union .nil found, fun entry hentry => ?_⟩
    have hmem := (Keyed.mem_union hentry).resolve_left List.not_mem_nil
    exact Except.forall_of_mapM_eq_ok (fun _ _ => plain_of_entry) hfound entry hmem

end Descriptor

namespace Field

variable {f : Field} {v : Json}

theorem Admits.item (h : f.Admits v) (hv : v.Plain) : f.list = false ∧ f.AdmitsItem v := by
  cases hv <;> exact h

theorem AdmitsItem.idText (htarget : f.target?.isSome = true) (h : f.AdmitsItem v) (hv : v.Plain) :
    ∃ id, v.idText? = some id ∧ referencedIds v = [id] := by
  rw [admitsItem_iff_of_reference htarget] at h
  cases hv with
  | bool b => simp [Json.idText?, Json.obj?] at h
  | num n => exact ⟨_, rfl, by rw [referencedIds]; rfl; all_goals simp⟩
  | str s => exact ⟨s, rfl, by rw [referencedIds]; rfl; all_goals simp⟩

end Field

namespace Engine

variable {e : Engine} {requestId : String} {t : DocumentType} {op : Operation} {state : State}
  {f : Field} {target : String}

/-- The copies that there are for a reference: those of the documents that a value names, and none
without a value. -/
def CopiesOf (e : Engine) (files : FileTree) (f : Field) (target : String) (copy : Option Json) :
    Option Json → Prop
  | none => copy = none
  | some v => ∃ docs, e.StoredUnder files target (referencedIds v) docs ∧
      copy = some (f.entries (docs.map .obj))

/-- The documents at hand for a reference are those that the input gives it. -/
theorem copiesOf_checkReferences (hapart : t.PointersApart) (hf : t.field? f.name = some f)
    (htarget : f.target? = some target) {input : Document} (hordered : input.Ascending)
    {related : Keyed Json} {done : State}
    (h : exec (e.checkReferences t input) state = (.ok related, done)) :
    e.CopiesOf state.files f target (related.get? f.name) (givenValue? f input) := by
  have hreference : f.target?.isSome = true := by
    rw [htarget]
    rfl
  cases hgiven : givenValue? f input with
  | none =>
    have hnames := referenceField?_ne_of_not_given hapart hf hreference hgiven
    exact (exec_addReferenced_all_of_ne hapart hf htarget hnames h).1
  | some v =>
    obtain ⟨before, key, after, rfl, hkey, hafter⟩ :=
      exists_last_of_given hapart hf hreference hordered hgiven
    exact exec_checkReferences hapart hf htarget hkey hafter h

/-- The pointer or the copy that a merged reference stands as. -/
theorem reference_of_merge (hapart : t.PointersApart) (hf : t.field? f.name = some f)
    (htarget : f.target?.isSome = true) (related : Keyed Json) (doc : Document) {input : Document}
    (hordered : input.Ascending) {given : Json} (h : givenValue? f input = some given) :
    (f.inline = false → (merge t related doc input).get? f.pointerKey =
      if given.isNull then none else some (pointerValue f given)) ∧
    (f.inline = true → (merge t related doc input).get? f.name =
      if given.isNull then none else related.get? f.name) := by
  obtain ⟨before, hmerged⟩ := get?_merge_given hapart hf htarget related doc hordered h
  rw [hmerged _ (.inl rfl), hmerged _ (.inr rfl)]
  cases hnull : given.isNull with
  | true =>
    obtain rfl : given = .null := by
      cases given <;> first | rfl | cases hnull
    exact ⟨fun _ => get?_mergeReference_null before (.inr rfl),
      fun _ => get?_mergeReference_null before (.inl rfl)⟩
  | false =>
    obtain ⟨hstands, hcopied⟩ := @get?_mergeReference f related before given hnull
    exact ⟨fun hinline => (hstands hinline).2, fun hinline => (hcopied hinline).1⟩

section

variable {related : Keyed Json} {doc input : Document} {key : String} {v : Json}

/-- A document is merged to hold a value for a field of scalars as it is coerced. -/
theorem scalar_of_merge {kind : ScalarKind} (hf : t.field? key = some f)
    (hkind : f.kind = .scalar kind) (hitem : f.AdmitsItem v) (hplain : v.Plain)
    (related : Keyed Json) (doc : Document) (hordered : input.Ascending)
    (hv : input.get? key = some v) :
    ∃ w, kind.coerce v = .ok w ∧ (merge t related doc input).get? key = some w := by
  have htarget : f.target? = none := by
    rw [Field.target?, hkind]
  have hcoerce := coerce_eq_coerced ((Field.admitsItem_iff_of_scalar hkind v).mp hitem)
  refine ⟨_, hcoerce, ?_⟩
  rw [get?_merge_field hf htarget related doc hordered hv,
    storedValue_item hf hkind (by rintro vs rfl; cases hplain)]

/-- A document is merged to hold a value for a field of an enumeration, which is a text. -/
theorem enumeration_of_merge {name : String} {values : List String} (hf : t.field? key = some f)
    (hkind : f.kind = .enumeration name values) (hitem : f.AdmitsItem v)
    (related : Keyed Json) (doc : Document) (hordered : input.Ascending)
    (hv : input.get? key = some v) :
    (merge t related doc input).get? key = some v ∧ v.idText?.isSome = true := by
  have htarget : f.target? = none := by
    rw [Field.target?, hkind]
  rw [Field.AdmitsItem, hkind] at hitem
  obtain ⟨s, -, rfl⟩ := hitem
  rw [get?_merge_field hf htarget related doc hordered hv,
    storedValue_of_not_scalar hf (by simp [hkind])]
  exact ⟨rfl, rfl⟩

/-- What a document is merged to hold it still holds when it gets its identifier. -/
theorem get?_of_merged {stored : Document} {id : String} {after : State}
    (h : exec (identified t doc) state = (.ok (id, stored), after)) (hv : doc.get? key = some v)
    (hid : key = t.identifierName → v.idText?.isSome = true) : stored.get? key = some v := by
  refine (get?_of_identified h fun hown => ?_).trans hv
  rw [idOf?, ← hown, hv]
  exact hid hown

/-- The pointer or the copies that a document has for a reference when it was merged and has got its
identifier. -/
theorem reference_of_identified {operations : List Operation} (hapart : t.PointersApart)
    (hoperations : t.operations = .ok operations) (hf : t.field? f.name = some f)
    (hsome : f.target? = some target) (hordered : input.Ascending) {done : State}
    (hreferences : exec (e.checkReferences t input) state = (.ok related, done)) {set : Keyed Json}
    {given : Json} (hgiven : givenValue? f (input.union set) = some given) {stored : Document}
    {id : String} {named after : State}
    (h : exec (identified t (merge t related doc (input.union set))) named =
      (.ok (id, stored), after)) :
    (f.inline = false → stored.get? f.pointerKey =
      if given.isNull then none else some (pointerValue f given)) ∧
    (f.inline = true → f.name ≠ t.identifierName →
      if given.isNull then stored.get? f.name = none
      else e.CopiesOf state.files f target (stored.get? f.name) (givenValue? f input)) := by
  have htarget : f.target?.isSome = true := by
    rw [hsome]
    rfl
  obtain ⟨hpointer, hcopy⟩ := reference_of_merge hapart hf htarget related doc
    (Keyed.ascending_union hordered set) hgiven
  refine ⟨fun hinline => ?_, fun hinline hother => ?_⟩
  · rw [← hpointer hinline]
    -- A pointer apart from the fields is not the identifier, which is one.
    refine get?_of_identified h fun hidentifier => ?_
    have hfree := hapart f (field?_mem hf).1 htarget
    rw [hidentifier] at hfree
    have hthere := DocumentType.isSome_field?_identifierName hoperations
    rw [hfree] at hthere
    cases hthere
  · have hcopies := copiesOf_checkReferences hapart hf hsome hordered hreferences
    rw [get?_of_identified h fun hidentifier => absurd hidentifier hother, hcopy hinline]
    split
    · rfl
    · exact hcopies

end

/-- What a creation or a modification that succeeds stores for a value that its operation sets. A
field of scalars holds the value coerced, unless it is the identifier and the value no id; a field
of an enumeration holds the value. A reference holds what the last key of the input and the set
values gives it, which is the value set unless the caller supplies the key of the pointer and the
operation sets the name; and for copies, those of the documents that the input gives it alone. -/
theorem set_values_written (e : Engine) (requestId : String) (t : DocumentType) (op : Operation)
    (operations : List Operation) (state : State) (he : e.Bare)
    (ht : e.schema.type? t.name = some t) (hoperations : t.operations = .ok operations)
    (hop : op ∈ operations) {arguments input stored : Document} {after : State}
    (hinput : inputOf arguments = .ok input) (hordered : input.Ascending)
    (h : exec (e.write requestId t op arguments) state = (.ok stored, after)) {key : String}
    {v : Json} (hv : op.set.get? key = some v) :
    (∃ id before, before.files = state.files ∧
      exec (e.change t op id stored) before = (.ok (), after)) ∧
    (∀ f kind, t.field? key = some f → f.kind = .scalar kind → ∃ w, kind.coerce v = .ok w ∧
      ((key = t.identifierName → w.idText?.isSome = true) → stored.get? key = some w)) ∧
    (∀ f name values, t.field? key = some f → f.kind = .enumeration name values →
      stored.get? key = some v) ∧
    (t.PointersApart → ∀ f target, referenceField? t key = some f → f.target? = some target →
      ∃ id given, v.idText? = some id ∧ pointerValue f v = .str id ∧
        givenValue? f (input.union op.set) = some given ∧
        ((f.pointerKey ∈ input.keys ∨ f.pointerKey ∈ op.set.keys → key = f.pointerKey) →
          given = v) ∧
        (f.inline = false → stored.get? f.pointerKey =
          if given.isNull then none else some (pointerValue f given)) ∧
        (f.inline = true → f.name ≠ t.identifierName →
          if given.isNull then stored.get? f.name = none
          else e.CopiesOf state.files f target (stored.get? f.name) (givenValue? f input))) := by
  obtain ⟨doc, prepared, id, named, hprepare, hidentified, hchange⟩ := exec_write_eq_ok he h
  obtain ⟨input', existing, related, allowed, checked, hinput', -, -, hallowed, hreferences, hvalid,
    rfl, hprepared⟩ := exec_prepareDocument_eq_ok he hprepare
  cases hinput.symm.trans hinput'
  obtain ⟨hset, hplain⟩ := DocumentType.set_of_operations
    (p := fun set => set.Ascending ∧ ∀ entry ∈ set, entry.2.Plain)
    ⟨.nil, fun _ hmem => absurd hmem List.not_mem_nil⟩ (fun _ => Descriptor.plain_of_entries)
    hoperations op hop
  have hplain := hplain _ (Keyed.mem_of_get? hv)
  have hcandidate : Keyed.get? (input.union op.set) key = some v :=
    Keyed.get?_union_of_mem input hset.nodup_keys (Keyed.mem_of_get? hv)
  have hcandidateordered := Keyed.ascending_union hordered op.set
  obtain ⟨f, hdeclared, hadmits⟩ :=
    ((Schema.validate_eq_nil_iff ht _ _).mp hvalid).2 _ (Keyed.mem_of_get? hcandidate)
  obtain ⟨hlist, hitem⟩ := hadmits.item hplain
  have hdeclares : ∀ {g}, t.field? key = some g → f = g := fun hg =>
    Option.some.inj (hdeclared.symm.trans (declaredField?_of_field? hg))
  refine ⟨⟨id, named, (exec_identified hidentified).1.trans hprepared, hchange⟩, ?_, ?_, ?_⟩
  · intro g kind hg hkind
    obtain rfl := hdeclares hg
    obtain ⟨w, hcoerce, hmerged⟩ := scalar_of_merge hg hkind hitem hplain related existing
      hcandidateordered hcandidate
    exact ⟨w, hcoerce, get?_of_merged hidentified hmerged⟩
  · intro g name values hg hkind
    obtain rfl := hdeclares hg
    obtain ⟨hmerged, hid⟩ := enumeration_of_merge hg hkind hitem related existing
      hcandidateordered hcandidate
    exact get?_of_merged hidentified hmerged fun _ => hid
  · intro hapart g target hg hsome
    obtain ⟨htarget, hfield, hkey⟩ := name_of_referenceField? hg
    obtain rfl := eq_of_referenceField? hdeclared hg
    obtain ⟨own, hown, hids⟩ := hitem.idText htarget hplain
    have hpointed : pointerValue g v = .str own := by
      rw [pointerValue, hids, hlist]
      rfl
    obtain ⟨given, hgiven⟩ := exists_givenValue? hcandidate hkey
    obtain ⟨hpointer, hcopy⟩ := reference_of_identified hapart hoperations hfield hsome hordered
      hreferences hgiven hidentified
    refine ⟨own, given, hown, hpointed, hgiven, fun hlast => ?_, hpointer, hallowed ▸ hcopy⟩
    have hwritten : givenValue? g (input.union op.set) = some v :=
      givenValue?_eq_some hcandidate hkey fun hmem => hlast (Keyed.mem_keys_union hmem)
    exact Option.some.inj (hgiven.symm.trans hwritten)

section

/-- Files of an office. One is opened as urgent, for a province and an office that are set. -/
private def openedFile : DocumentType where
  name := "Legajo"
  fields := [.ofIdentifier "id", (Field.ofReference "oficina" "Oficina").inlined,
    .ofReference "provincia" "Provincia", .ofScalar "urgente" .boolean]
  mutations := { operations := ["abrir: assign = [provincia, urgente], context = create, " ++
    "set = \x7burgente: \"true\", provincia: p1, oficina: o1\x7d"] }

private def office : Schema where
  types := [openedFile, { name := "Oficina", fields := [.ofIdentifier "id"] },
    { name := "Provincia", fields := [.ofIdentifier "id"] }]

private def bureau : Engine := bare ⟨"/data"⟩ office ⟨"default", []⟩

private def opening : Operation :=
  ⟨"abrir", .create, ["provincia", "urgente"],
    [("oficina", .str "o1"), ("provincia", .str "p1"), ("urgente", .str "true")], false⟩

private theorem openedFile_operations : openedFile.operations = .ok
    [.ofImplicit "create" .create ["oficina"], .ofImplicit "update" .modify ["oficina"],
      .ofImplicit "delete" .delete [], opening] := by decide +kernel

private def oneOffice : State where
  files := ⟨[(["data"], .directory), (["data", "Legajo"], .directory),
    (["data", "Oficina"], .directory),
    (["data", "Oficina", "o1"], .file (some "\x7b\"id\": \"o1\"\x7d")),
    (["data", "Provincia"], .directory),
    (["data", "Provincia", "p2"], .file (some "\x7b\"id\": \"p2\"\x7d"))]⟩

/-- Asks for another province, by the key of its pointer, and for no haste. -/
private def request : Document :=
  [("id", .str "l1"), ("provincia_id", .str "p2"), ("urgente", .bool false)]

private theorem exec_request :
    bureau.store.find? oneOffice.files "Oficina" "o1" = .ok (some [("id", .str "o1")]) ∧
    ∃ after, exec (bureau.write "r" openedFile opening request) oneOffice = (.ok
      [("id", .str "l1"), ("provincia_id", .str "p2"), ("urgente", .bool true)], after) :=
  (And.imp_right exists_exec_eq_ok) (by decide +kernel)

theorem set_values_written_request :
    ∃ stored after, exec (bureau.write "r" openedFile opening request) oneOffice =
        (.ok stored, after) ∧
      ∃ w, ScalarKind.boolean.coerce (.str "true") = .ok w ∧ stored.get? "urgente" = some w := by
  obtain ⟨-, after, hrun⟩ := exec_request
  obtain ⟨-, hscalar, -⟩ := set_values_written bureau "r" openedFile opening _ oneOffice
    (bare_bare _ _ _) rfl openedFile_operations (by decide)
    (show inputOf request = .ok request from rfl) (by unfold Keyed.Ascending; decide) hrun
    (show opening.set.get? "urgente" = some (.str "true") from rfl)
  obtain ⟨w, hcoerce, hstored⟩ := hscalar (.ofScalar "urgente" .boolean) .boolean rfl rfl
  exact ⟨_, after, hrun, w, hcoerce, hstored fun hown => absurd hown (by decide)⟩

/-- A reference that an operation sets by its name is what the caller supplies by the key of its
pointer; and one that is stored as a copy stays away although the document that is set is there. -/
theorem exists_set_reference_lost :
    ∃ (e : Engine) (t : DocumentType) (operations : List Operation) (op : Operation)
      (f g : Field) (target : String) (doc arguments stored : Document) (state after : State),
      e.Bare ∧ e.schema.check = .ok () ∧ t ∈ e.schema.types ∧ t.operations = .ok operations ∧
      op ∈ operations ∧ inputOf arguments = .ok arguments ∧ arguments.Ascending ∧
      exec (e.write "r" t op arguments) state = (.ok stored, after) ∧
      f ∈ t.fields ∧ f.target?.isSome = true ∧ f.inline = false ∧
      op.set.get? f.name = some (.str "p1") ∧ stored.get? f.pointerKey = some (.str "p2") ∧
      g ∈ t.fields ∧ g.target? = some target ∧ g.inline = true ∧
      op.set.get? g.name = some (.str "o1") ∧
      e.store.find? state.files target "o1" = .ok (some doc) ∧ stored.get? g.name = none := by
  obtain ⟨hoffice, after, hrun⟩ := exec_request
  exact ⟨bureau, openedFile, _, opening, .ofReference "provincia" "Provincia",
    (Field.ofReference "oficina" "Oficina").inlined, "Oficina", [("id", .str "o1")], request, _,
    oneOffice, after, bare_bare _ _ _, by rfl, List.mem_cons_self, openedFile_operations,
    by decide, rfl, by unfold Keyed.Ascending; decide, hrun, by decide, rfl, rfl, rfl, by decide,
    by decide, rfl, rfl, rfl, hoffice, rfl⟩

end

end Engine

end DocumentEngine
