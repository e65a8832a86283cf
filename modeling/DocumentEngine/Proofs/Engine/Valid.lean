import DocumentEngine.Proofs.Engine.References
import DocumentEngine.Proofs.Mutation.Valid
import Mathlib.Data.List.Forall2

/-!
Validity of written documents. The validator sees the input of a mutation, and what is stored is
the input coerced, with its references resolved and merged over the stored document. The result is
valid as a whole wherever each value of the input has a stored form that says as much.
-/

namespace DocumentEngine

open Action Mutation

namespace Engine

variable {e : Engine} {requestId : String} {t : DocumentType} {op : Operation} {state : State}
  {f : Field}

/-- What is at hand for a reference may be copied into a document. -/
def CopiesFit (t : DocumentType) (related : Keyed Json) : Prop :=
  ∀ f copy, t.field? f.name = some f → f.target?.isSome = true →
    related.get? f.name = some copy → f.Admits copy

/-- Adding the documents of one key keeps what is at hand fit, and puts those of the key there. -/
theorem exec_addReferenced_fits {related related' : Keyed Json} {key : String} {v : Json}
    {done : State} (hfits : CopiesFit t related)
    (hv : ∀ f, referenceField? t key = some f → f.Storable v)
    (h : exec (e.addReferenced t related key v) state = (.ok related', done)) :
    CopiesFit t related' ∧
      (∀ other, (related.get? other).isSome = true → (related'.get? other).isSome = true) ∧
      ∀ f, referenceField? t key = some f → (related'.get? f.name).isSome = true := by
  unfold addReferenced at h
  cases hreference : referenceField? t key with
  | none =>
    rw [hreference] at h
    cases h
    exact ⟨hfits, fun _ hother => hother, fun _ hf => nomatch hf⟩
  | some g =>
    obtain ⟨htarget, hg, -⟩ := name_of_referenceField? hreference
    obtain ⟨target, hsome⟩ := Option.isSome_iff_exists.mp htarget
    rw [hreference] at h
    dsimp only at h
    rw [hsome] at h
    obtain ⟨docs, loaded, hload, hdone⟩ := exec_bind_eq_ok h
    cases hdone
    obtain ⟨-, stored, rfl, hstored⟩ := exec_loadReferenced hload
    have hadmits : g.Admits (if g.list then .arr (stored.map .obj)
        else (stored.map Json.obj).head?.getD .null) := by
      refine admits_entries htarget ?_ fun hrequired hlist hnil => ?_
      · rw [List.forall_mem_map]
        exact fun _ _ => .inr rfl
      · refine (hv g hreference).reference hrequired htarget hlist (List.length_eq_zero_iff.mp ?_)
        rw [hstored.length_eq, List.map_eq_nil_iff.mp hnil]
        rfl
    refine ⟨fun f copy hf _ hcopy => ?_,
      fun other hother => isSome_get?_insert related g.name other _ hother, fun f hf => ?_⟩
    · rw [Keyed.get?_insert] at hcopy
      by_cases hname : g.name = f.name
      · have hgf : g = f := by
          rw [hname, hf] at hg
          exact (Option.some.inj hg).symm
        rw [if_pos hname] at hcopy
        cases hcopy
        exact hgf ▸ hadmits
      · rw [if_neg hname] at hcopy
        exact hfits f copy hf ‹_› hcopy
    · cases hf
      rw [Keyed.get?_insert_self]
      rfl

/-- What is at hand after the references of an input were checked: copies that fit, for every
reference that the input names. -/
theorem exec_checkReferences_fits {input : Document} {related : Keyed Json} {done : State}
    (hinput : ∀ entry ∈ input, ∀ f, referenceField? t entry.1 = some f → f.Storable entry.2)
    (h : exec (e.checkReferences t input) state = (.ok related, done)) :
    CopiesFit t related ∧ ∀ entry ∈ input, ∀ f, referenceField? t entry.1 = some f →
      (related.get? f.name).isSome = true := by
  unfold checkReferences at h
  have hall : ∀ (input : Document) (known : Keyed Json) (state : State), CopiesFit t known →
      (∀ entry ∈ input, ∀ f, referenceField? t entry.1 = some f → f.Storable entry.2) →
      exec (input.foldlM (fun related entry => e.addReferenced t related entry.1 entry.2) known)
        state = (.ok related, done) →
      CopiesFit t related ∧
        (∀ other, (known.get? other).isSome = true → (related.get? other).isSome = true) ∧
        ∀ entry ∈ input, ∀ f, referenceField? t entry.1 = some f →
          (related.get? f.name).isSome = true := by
    intro input
    induction input with
    | nil =>
      intro known state hfits _ h
      cases h
      exact ⟨hfits, fun _ hother => hother, fun _ hentry => absurd hentry List.not_mem_nil⟩
    | cons entry input ih =>
      intro known state hfits hinput h
      rw [List.foldlM_cons] at h
      obtain ⟨added, between, hadd, hrest⟩ := exec_bind_eq_ok h
      obtain ⟨hadded, hkept, hnew⟩ := exec_addReferenced_fits hfits
        (hinput entry List.mem_cons_self) hadd
      obtain ⟨hfinal, hkept', hnew'⟩ := ih added between hadded
        (fun other hother => hinput other (List.mem_cons_of_mem _ hother)) hrest
      refine ⟨hfinal, fun other hother => hkept' other (hkept other hother), ?_⟩
      intro other hother f hf
      rcases List.mem_cons.mp hother with rfl | hother
      · exact hkept' f.name (hnew f hf)
      · exact hnew' other hother f hf
  obtain ⟨hfits, -, hnamed⟩ := hall input [] state (fun f copy _ _ hcopy => by cases hcopy) hinput h
  exact ⟨hfits, hnamed⟩

/-- Every stored document of a type is valid. -/
def StoredValid (e : Engine) (files : FileTree) (t : DocumentType) : Prop :=
  ∀ docs, e.store.stored files t.name = .ok docs → ∀ doc ∈ docs,
    e.schema.validate t.name doc .full = []

/-- What an input and an operation name may be merged, where the copies of the references that the
input names are at hand. -/
theorem mergeable_of_admitsAll {input set : Document} {related : Keyed Json}
    (hadmits : t.AdmitsAll (input.union set))
    (hstorable : ∀ entry ∈ input.union set, ∀ f, t.declaredField? entry.1 = some f →
      f.Storable entry.2)
    (hset : ∀ entry ∈ set, ∀ f, referenceField? t entry.1 = some f → f.inline = false)
    (hcopied : ∀ entry ∈ input, ∀ f, referenceField? t entry.1 = some f →
      (related.get? f.name).isSome = true) (hfits : CopiesFit t related) :
    ∀ entry ∈ input.union set, ∃ f, Mergeable t related entry.1 entry.2 f := by
  intro entry hentry
  obtain ⟨f, hdeclared, hv⟩ := hadmits entry hentry
  refine ⟨f, hdeclared, hv, hstorable entry hentry f hdeclared, fun htarget hinline => ?_⟩
  cases hreference : referenceField? t entry.1 with
  | none =>
    rw [(field?_of_declaredField? hdeclared hreference).2] at htarget
    cases htarget
  | some g =>
    obtain rfl := eq_of_referenceField? hdeclared hreference
    obtain ⟨-, hfield, -⟩ := name_of_referenceField? hreference
    rcases Keyed.mem_union hentry with hmem | hmem
    · obtain ⟨copy, hcopy⟩ := Option.isSome_iff_exists.mp (hcopied entry hmem g hreference)
      exact ⟨copy, hcopy, hfits g copy hfield htarget hcopy⟩
    · rw [hset entry hmem g hreference] at hinline
      cases hinline

/-- The merged document of an input is valid as a whole, where the document under it is or there is
none. -/
theorem valid_of_prepareDocument (he : e.Bare) (ht : e.schema.type? t.name = some t)
    (hapart : t.NamesApart) (hvalid : e.StoredValid state.files t)
    (hset : ∀ entry ∈ op.set, ∀ f, referenceField? t entry.1 = some f → f.inline = false)
    {arguments doc : Document} {prepared : State}
    (hstorable : ∀ input, inputOf arguments = .ok input →
      ∀ entry, entry ∈ input ∨ entry ∈ op.set →
        ∀ f, t.declaredField? entry.1 = some f → f.Storable entry.2)
    (h : exec (e.prepareDocument requestId t op arguments) state = (.ok doc, prepared)) :
    t.AdmitsAll doc ∧ ∀ f ∈ t.fields, f.nullable = false → f.identifier = false → HasField doc f := by
  obtain ⟨input, existing, related, allowed, checked, hinput, hnew, hold, hallowed, hreferences,
    hchecked, rfl, -⟩ := exec_prepareDocument_eq_ok he h
  have hstorable := hstorable input hinput
  obtain ⟨hfits, hcopied⟩ := exec_checkReferences_fits (fun entry hentry f hf =>
    hstorable entry (.inl hentry) f (declaredField?_of_referenceField? hf)) hreferences
  rw [Schema.validate_eq_nil_iff ht] at hchecked
  obtain ⟨hcomplete, hadmits⟩ := hchecked
  have hmergeable := mergeable_of_admitsAll hadmits
    (fun entry hentry => hstorable entry (Keyed.mem_union hentry)) hset hcopied hfits
  have hexisting : t.AdmitsAll existing ∧
      (op.context ≠ .create → t.Complete existing) := by
    by_cases hcreate : op.context = .create
    · rw [hnew hcreate]
      exact ⟨fun _ hentry => absurd hentry List.not_mem_nil, fun hmodify => absurd hcreate hmodify⟩
    · obtain ⟨looked, hfound⟩ := hold hcreate
      obtain ⟨docs, hdocs, hmem⟩ := mem_stored_of_findExisting he.restrictsQuietly hfound
      obtain ⟨hwhole, hall⟩ := (Schema.validate_eq_nil_iff ht existing .full).mp
        (hvalid docs hdocs existing hmem)
      exact ⟨hall, fun _ => hwhole rfl⟩
  obtain ⟨hall, hhas⟩ := valid_merge hapart hmergeable hexisting.1
  refine ⟨hall, fun f hf hrequired hown => hhas f hf hrequired ?_⟩
  by_cases hcreate : op.context = .create
  · rw [if_pos hcreate] at hcomplete
    have hnamed := (complete_iff hapart hadmits).mp (hcomplete rfl) f hf hrequired hown
    have hentry : ∃ key v, (key, v) ∈ input.union op.set ∧ (key = f.name ∨ key = f.pointerKey) := by
      rcases hnamed with hname | hname
      · obtain ⟨v, hv⟩ := Option.isSome_iff_exists.mp hname
        exact ⟨_, v, Keyed.mem_of_get? hv, .inl rfl⟩
      · obtain ⟨v, hv⟩ := Option.isSome_iff_exists.mp hname
        exact ⟨_, v, Keyed.mem_of_get? hv, .inr rfl⟩
    obtain ⟨key, v, hmem, hkey⟩ := hentry
    obtain ⟨g, hdeclared, -⟩ := hadmits (key, v) hmem
    obtain rfl := eq_of_declaredField? hapart hf hkey hdeclared
    exact .inr ⟨_, hmem, hdeclared⟩
  · exact .inl ((complete_iff hapart hexisting.1).mp (hexisting.2 hcreate) f hf hrequired hown)

/-- A creation or a modification that succeeds stores a document that is valid as a whole, where
the stored documents of the type are: if no field bears the name of a pointer, a made-up identifier
is one that its field admits, the stored form of each value says as much as the value, and the
operation sets no reference that is stored as a copy. -/
theorem valid_of_write (he : e.Bare) (ht : e.schema.type? t.name = some t)
    (hapart : t.NamesApart) {identifier : Field} (hidentifier : t.identifier? = some identifier)
    (hid : ∀ id, identifier.Admits (.str id)) (hvalid : e.StoredValid state.files t)
    (hset : ∀ entry ∈ op.set, ∀ f, referenceField? t entry.1 = some f → f.inline = false)
    {arguments stored : Document} {after : State}
    (hstorable : ∀ input, inputOf arguments = .ok input →
      ∀ entry, entry ∈ input ∨ entry ∈ op.set →
        ∀ f, t.declaredField? entry.1 = some f → f.Storable entry.2)
    (h : exec (e.write requestId t op arguments) state = (.ok stored, after)) :
    e.schema.validate t.name stored .full = [] ∧
      ∃ id before, before.files = state.files ∧
        exec (e.change t op id stored) before = (.ok (), after) := by
  obtain ⟨doc, prepared, id, named, hprepare, hidentified, hchange⟩ := exec_write_eq_ok he h
  obtain ⟨hall, hhas⟩ := valid_of_prepareDocument he ht hapart hvalid hset hstorable hprepare
  obtain ⟨hnamed, hstored⟩ := exec_identified hidentified
  have hown : t.declaredField? t.identifierName = some identifier := by
    have hfield := (hapart identifier (List.mem_of_find?_eq_some hidentifier)).1
    unfold DocumentType.declaredField? DocumentType.identifierName
    rw [hidentifier, hfield]
    rfl
  have hboth : t.AdmitsAll stored ∧
      ∀ f ∈ t.fields, f.nullable = false → f.identifier = false → HasField stored f := by
    rcases hstored with rfl | rfl
    · exact ⟨hall, hhas⟩
    · refine ⟨fun entry hentry => ?_, fun f hf hrequired hother => ?_⟩
      · rcases Keyed.mem_insert hentry with rfl | hentry
        · exact ⟨identifier, hown, hid id⟩
        · exact hall entry hentry
      · exact (hhas f hf hrequired hother).imp (isSome_get?_insert _ _ _ _)
          (isSome_get?_insert _ _ _ _)
  have hfiles : prepared.files = state.files := by
    obtain ⟨-, -, -, -, -, -, -, -, -, -, -, -, hprepared⟩ := exec_prepareDocument_eq_ok he hprepare
    exact hprepared
  refine ⟨?_, id, named, hnamed.trans hfiles, hchange⟩
  rw [Schema.validate_eq_nil_iff ht]
  exact ⟨fun _ => (complete_iff hapart hboth.1).mpr hboth.2, hboth.1⟩

end Engine

end DocumentEngine
