import DocumentEngine.Proofs.Engine.Effects
import DocumentEngine.Proofs.Engine.Valid
import DocumentEngine.Proofs.Mutation.Nesting
import DocumentEngine.Proofs.Operation.Values
import DocumentEngine.Proofs.Store.Nesting

/-!
The nesting that mutations leave. A written document is nested no deeper than the document under it
and, where it has inline references, than the documents that they copy, with one level more for the
copy and one for a list. So a bound for each directory passes over into another one with each write.
-/

namespace DocumentEngine

open Action Mutation

namespace Engine

variable {e : Engine} {requestId : String} {t : DocumentType} {op : Operation} {state : State}

/-- What is at hand for references are documents that are stored under the ids that they name. -/
def CopiesStored (e : Engine) (files : FileTree) (t : DocumentType) (related : Keyed Json) : Prop :=
  ∀ name copy, related.get? name = some copy → ∃ f target ids docs, t.field? name = some f ∧
    f.target? = some target ∧ e.StoredUnder files target ids docs ∧
      copy = f.entries (docs.map .obj)

/-- Adding the documents of one key keeps what is at hand stored. -/
theorem exec_addReferenced_stored {related related' : Keyed Json} {key : String} {v : Json}
    {done : State} (hcopies : e.CopiesStored state.files t related)
    (h : exec (e.addReferenced t related key v) state = (.ok related', done)) :
    e.CopiesStored state.files t related' ∧ done = state := by
  unfold addReferenced at h
  cases hreference : referenceField? t key with
  | none =>
    rw [hreference] at h
    cases h
    exact ⟨hcopies, rfl⟩
  | some g =>
    obtain ⟨htarget, hg, -⟩ := name_of_referenceField? hreference
    obtain ⟨target, hsome⟩ := Option.isSome_iff_exists.mp htarget
    rw [hreference] at h
    dsimp only at h
    rw [hsome] at h
    obtain ⟨found, loaded, hload, hdone⟩ := exec_bind_eq_ok h
    cases hdone
    obtain ⟨rfl, docs, rfl, hstored⟩ := exec_loadReferenced hload
    refine ⟨fun name copy hcopy => ?_, rfl⟩
    rw [Keyed.get?_insert] at hcopy
    split at hcopy
    · rename_i hname
      cases hcopy
      exact ⟨g, target, _, docs, hname ▸ hg, hsome, hstored, rfl⟩
    · exact hcopies name copy hcopy

/-- What is at hand after the references of an input were checked is stored. -/
theorem exec_checkReferences_stored {input : Document} {related : Keyed Json} {done : State}
    (h : exec (e.checkReferences t input) state = (.ok related, done)) :
    e.CopiesStored state.files t related := by
  unfold checkReferences at h
  have hall : ∀ (input : Document) (known : Keyed Json), e.CopiesStored state.files t known →
      exec (input.foldlM (fun related entry => e.addReferenced t related entry.1 entry.2) known)
        state = (.ok related, done) → e.CopiesStored state.files t related := by
    intro input
    induction input with
    | nil =>
      intro known hknown h
      cases h
      exact hknown
    | cons entry input ih =>
      intro known hknown h
      rw [List.foldlM_cons] at h
      obtain ⟨added, between, hadd, hrest⟩ := exec_bind_eq_ok h
      obtain ⟨hadded, rfl⟩ := exec_addReferenced_stored hknown hadd
      exact ih added hadded hrest
  exact hall input [] (fun name copy hcopy => by cases hcopy) h

/-- A bound for each directory that leaves room in another one for what a mutation may write: the
document under it, and a level for a list and two for the copies of inline references. -/
structure Room (e : Engine) (bound bound' : List String → Nat) : Prop where
  grows : ∀ dir, bound dir ≤ bound' dir
  least : ∀ t ∈ e.schema.types, ∀ dir, e.store.Home t.name dir → 2 ≤ bound' dir
  own : ∀ t ∈ e.schema.types, ∀ dir dir', e.store.Home t.name dir → e.store.Home t.name dir' →
    bound dir ≤ bound' dir'
  copies : ∀ t ∈ e.schema.types, ∀ f ∈ t.fields, ∀ target, f.inline = true →
    f.target? = some target → ∀ dir dir', e.store.Home target dir → e.store.Home t.name dir' →
      bound dir + (if f.list then 2 else 1) ≤ bound' dir'

variable {bound bound' : List String → Nat}

/-- Entries of bounded documents are nested one level deeper in a list, and else no deeper. -/
theorem within_entries (f : Field) {docs : List Document} {d : Nat} (hd : 1 ≤ d)
    (h : ∀ doc ∈ docs, Json.InRange (.obj doc) ∧
      (Json.obj doc).depth + (if f.list then 1 else 0) ≤ d) :
    (f.entries (docs.map .obj)).InRange ∧ (f.entries (docs.map .obj)).depth ≤ d := by
  unfold Field.entries
  cases hlist : f.list with
  | true =>
    obtain ⟨d, rfl⟩ : ∃ n, d = n + 1 := ⟨d - 1, by omega⟩
    simp only [hlist, if_true] at h
    rw [if_pos rfl]
    refine ⟨.arr (List.forall_mem_map.mpr fun doc hdoc => (h doc hdoc).1),
      Json.depth_arr_le_iff.mpr (List.forall_mem_map.mpr fun doc hdoc => ?_)⟩
    exact Nat.le_of_succ_le_succ (h doc hdoc).2
  | false =>
    rw [if_neg Bool.false_ne_true]
    cases docs with
    | nil => exact ⟨.null, Nat.zero_le d⟩
    | cons doc docs =>
      obtain ⟨hrange, hdepth⟩ := h doc List.mem_cons_self
      exact ⟨hrange, (Nat.le_add_right _ _).trans hdepth⟩

theorem inRange_of_inputOf {arguments input : Document} (h : inputOf arguments = .ok input)
    (harguments : Json.InRange (.obj arguments)) : Json.InRange (.obj input) := by
  unfold inputOf at h
  split at h
  · split at h
    · split at h
      · cases h
        cases harguments with
        | obj hall => exact hall _ List.mem_cons_self
      · cases h
    · cases h
      exact harguments
  · cases h
    exact harguments

/-- The copies that are at hand are nested as deep as there is room for in a document. -/
theorem copiesWithin_of_stored (ht : t ∈ e.schema.types) (hroom : e.Room bound bound')
    (hnested : Store.Nested bound state.files) {related : Keyed Json}
    (hcopies : e.CopiesStored state.files t related) {dir : List String}
    (hhome : e.store.Home t.name dir) {d : Nat} (hd : bound' dir = d + 1) (hleast : 1 ≤ d) :
    CopiesWithin t related d := by
  intro f copy hf htarget hinline hcopy
  obtain ⟨g, target, ids, docs, hg, hsome, hstored, rfl⟩ := hcopies f.name copy hcopy
  obtain rfl : g = f := Option.some.inj (hg.symm.trans hf)
  refine within_entries g hleast fun doc hdoc => ?_
  obtain ⟨id, hfind⟩ : ∃ id, e.store.find? state.files target id = .ok (some doc) := by
    obtain ⟨i, hi, rfl⟩ := List.mem_iff_getElem.mp hdoc
    exact ⟨_, hstored.get (hstored.length_eq ▸ hi) hi⟩
  obtain ⟨own, hown, hbounded⟩ := hnested.bounded_of_find? hfind
  have hcopied := hroom.copies t ht g (List.mem_of_find?_eq_some hg) target hinline hsome own dir
    hown hhome
  have hdepth := hbounded.depth
  refine ⟨hbounded.inRange, ?_⟩
  cases hlist : g.list with
  | true =>
    rw [hlist, if_pos rfl] at hcopied
    rw [if_pos rfl]
    omega
  | false =>
    rw [hlist, if_neg Bool.false_ne_true] at hcopied
    rw [if_neg Bool.false_ne_true]
    omega

/-- A document that is written is nested as deep as there is room for in its directory. -/
theorem bounded_of_write (he : e.Bare) (ht : e.schema.type? t.name = some t)
    (hroom : e.Room bound bound') (hnested : Store.Nested bound state.files)
    {arguments stored : Document} {after : State} (harguments : Json.InRange (.obj arguments))
    (hset : Json.InRange (.obj op.set))
    (h : exec (e.write requestId t op arguments) state = (.ok stored, after)) {dir : List String}
    (hhome : e.store.Home t.name dir) : Store.Bounded stored (bound' dir) := by
  have hmem : t ∈ e.schema.types := List.mem_of_find?_eq_some ht
  obtain ⟨d, hd, hleast⟩ : ∃ d, bound' dir = d + 1 ∧ 1 ≤ d := by
    have htwo := hroom.least t hmem dir hhome
    exact ⟨bound' dir - 1, by omega, by omega⟩
  obtain ⟨doc, prepared, id, named, hprepare, hidentified, -⟩ := exec_write_eq_ok he h
  obtain ⟨input, existing, related, allowed, checked, hinput, hnew, hold, hallowed, hreferences,
    hvalid, rfl, -⟩ := exec_prepareDocument_eq_ok he hprepare
  rw [Schema.validate_eq_nil_iff ht] at hvalid
  have hcopies := exec_checkReferences_stored hreferences
  rw [hallowed] at hcopies
  have hrange : Json.InRange (.obj (input.union op.set)) := by
    cases inRange_of_inputOf hinput harguments with
    | obj hall =>
      cases hset with
      | obj hown =>
        refine .obj fun entry hentry => ?_
        rcases Keyed.mem_union hentry with hentry | hentry
        · exact hall entry hentry
        · exact hown entry hentry
  have hexisting : Document.Within existing d := by
    by_cases hcreate : op.context = .create
    · rw [hnew hcreate]
      exact fun _ hentry => absurd hentry List.not_mem_nil
    · obtain ⟨looked, hfound⟩ := hold hcreate
      obtain ⟨docs, hdocs, hdoc⟩ := mem_stored_of_findExisting he.restrictsQuietly hfound
      obtain ⟨own, hown, hbounded⟩ := hnested.bounded_of_mem_stored hdocs hdoc
      have hle := hroom.own t hmem own dir hown hhome
      have hgrown := hbounded.mono (hle.trans_eq hd)
      exact Document.within_iff.mpr ⟨hgrown.inRange, hgrown.depth⟩
  have hmerged := within_merge hleast
    (copiesWithin_of_stored hmem hroom hnested hcopies hhome hd hleast) hvalid.2 hrange hexisting
  have hstored : stored.Within d := by
    obtain ⟨-, rfl | rfl⟩ := exec_identified hidentified
    · exact hmerged
    · exact hmerged.insert (.str id) (Nat.zero_le d)
  obtain ⟨hinRange, hdepth⟩ := Document.within_iff.mp hstored
  exact ⟨hinRange, hdepth.trans_eq hd.symm⟩

/-- A root field of a mutation keeps the files nested within a bound that there is room in, whether
it succeeds or fails. -/
theorem nested_after_mutated (he : e.Bare)
    (hset : ∀ name entry, e.mutations.get? name = some entry →
      Json.InRange (.obj entry.operation.set))
    (hroom : e.Room bound bound') {selection : Selection}
    (harguments : Json.InRange (.obj selection.arguments))
    (h : Store.Nested bound state.files) :
    Store.Nested bound' (mutated e requestId selection state).2.files := by
  rcases mutated_files he requestId selection state with
    hless | ⟨entry, t, id, doc, result, hentry, ht, -, hwritten, hwrite⟩
  · exact h.of_lessened hroom.grows hless
  · have hname : t.name = entry.type := by simpa using List.find?_some ht
    refine h.of_written hroom.grows hwritten fun hok dir hhome => ?_
    obtain ⟨after, hdone⟩ := hwrite hok
    exact bounded_of_write he (hname ▸ ht) hroom h harguments (hset selection.name entry hentry)
      hdone hhome

end Engine

end DocumentEngine
