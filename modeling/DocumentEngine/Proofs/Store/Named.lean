import DocumentEngine.Proofs.Projection.Known
import DocumentEngine.Proofs.Store.Fetch
import DocumentEngine.Proofs.Store.Files

/-!
Stores whose files are named by the ids of their documents. There the file of an id holds the
document with the id.
-/

namespace DocumentEngine

namespace Store

/-- Every file of a type holds a document and is named by its id. -/
def TypeNamed (s : Store) (files : FileTree) (t : DocumentType) : Prop :=
  ∃ paths, s.documentFiles files t.name = .ok paths ∧ ∀ path ∈ paths, ∃ doc id,
    readDocument? files path = .ok (some doc) ∧ t.idOf? doc = some id ∧
      path = (s.typeDir t.name).join id

/-- A store whose files hold documents, each in the file that its id names. -/
structure Named (s : Store) (files : FileTree) : Prop where
  files_named : ∀ type t, s.schema.type? type = some t → s.TypeNamed files t

/-- Whether every file of a type holds a document and is named by its id. -/
def isTypeNamed (s : Store) (files : FileTree) (t : DocumentType) : Bool :=
  match s.documentFiles files t.name with
  | .error _ => false
  | .ok paths => paths.all fun path =>
    match readDocument? files path with
    | .ok (some doc) => (t.idOf? doc).any fun id => path == (s.typeDir t.name).join id
    | _ => false

theorem typeNamed_of_isTypeNamed {s : Store} {files : FileTree} {t : DocumentType}
    (h : s.isTypeNamed files t = true) : s.TypeNamed files t := by
  unfold isTypeNamed at h
  unfold TypeNamed
  cases hpaths : s.documentFiles files t.name with
  | error cause => simp [hpaths] at h
  | ok paths =>
    refine ⟨paths, rfl, fun path hpath => ?_⟩
    rw [hpaths] at h
    have hread := List.all_eq_true.mp h path hpath
    rcases hdoc : readDocument? files path with cause | _ | doc
    · simp [hdoc] at hread
    · simp [hdoc] at hread
    · rw [hdoc] at hread
      cases hid : t.idOf? doc with
      | none => simp [hid] at hread
      | some id => exact ⟨doc, id, rfl, hid, by simpa [hid] using hread⟩

theorem named_of_isTypeNamed {s : Store} {files : FileTree}
    (h : s.schema.types.all (s.isTypeNamed files) = true) : s.Named files where
  files_named _ t ht :=
    typeNamed_of_isTypeNamed (List.all_eq_true.mp h t (List.mem_of_find?_eq_some ht))

/-- The file of an id stands at a place and holds a document. -/
def HoldsAt (s : Store) (files : FileTree) (type id : String) (place : List String)
    (doc : Document) : Prop :=
  ∃ path, s.documentPath type id = .ok path ∧ files.locate path = .ok place ∧
    readDocument? files path = .ok (some doc)

theorem documents_ok {files : FileTree} {paths : List Path}
    (h : ∀ path ∈ paths, ∃ doc, readDocument? files path = .ok (some doc)) :
    ∃ docs, documents files paths = .ok docs := by
  induction paths with
  | nil => exact ⟨[], rfl⟩
  | cons path paths ih =>
    obtain ⟨doc, hdoc⟩ := h path List.mem_cons_self
    obtain ⟨docs, hdocs⟩ := ih fun other hother => h other (List.mem_cons_of_mem _ hother)
    rw [documents, hdoc, hdocs]
    exact ⟨_, rfl⟩

namespace TypeNamed

variable {s : Store} {files : FileTree} {t : DocumentType} {docs : List Document} {doc : Document}
  {id : String}

theorem stored_ok (h : s.TypeNamed files t) : ∃ docs, s.stored files t.name = .ok docs := by
  obtain ⟨paths, hpaths, hall⟩ := h
  obtain ⟨docs, hdocs⟩ := documents_ok fun path hpath =>
    let ⟨doc, _, hdoc, _⟩ := hall path hpath
    ⟨doc, hdoc⟩
  rw [stored, hpaths]
  exact ⟨docs, hdocs⟩

/-- A stored document is what the file of its id holds. -/
theorem readDocument?_eq (h : s.TypeNamed files t) (hdocs : s.stored files t.name = .ok docs)
    (hdoc : doc ∈ docs) (hid : t.idOf? doc = some id) :
    readDocument? files ((s.typeDir t.name).join id) = .ok (some doc) := by
  obtain ⟨paths, hpaths, hall⟩ := h
  obtain ⟨paths', hpaths', path, hpath, hread⟩ := mem_stored hdocs hdoc
  cases hpaths.symm.trans hpaths'
  obtain ⟨doc', id', hread', hid', hname⟩ := hall path hpath
  cases hread.symm.trans hread'
  cases hid.symm.trans hid'
  rwa [hname] at hread

/-- A stored document is found at the place of the file of its id. -/
theorem exists_holdsAt (h : s.TypeNamed files t) (hdocs : s.stored files t.name = .ok docs)
    (hdoc : doc ∈ docs) (hid : t.idOf? doc = some id) {path : Path}
    (hpath : s.documentPath t.name id = .ok path) :
    ∃ place text, files.locate path = .ok place ∧
      files.get? place = some (.file (some text)) ∧ s.HoldsAt files t.name id place doc := by
  have hread := h.readDocument?_eq hdocs hdoc hid
  have hnamed : path = (s.typeDir t.name).join id := by
    unfold documentPath at hpath
    split at hpath
    · cases hpath
    · cases hpath
      rfl
  rw [← hnamed] at hread
  obtain ⟨place, text, hplace, hentry, -⟩ := readDocument?_eq_some hread
  exact ⟨place, text, hplace, hentry, path, hpath, hplace, hread⟩

end TypeNamed

end Store

end DocumentEngine
