import DocumentEngine.Proofs.Json.Depth
import DocumentEngine.Proofs.Projection.Known
import DocumentEngine.Proofs.Store.Files

/-!
Documents under their own names. A tree is filed where each of its files is an unfinished write, or
holds a document in the file that the identifier of the document names. Such a file is read back as
a document with the same identifier, if that is a text.
-/

namespace DocumentEngine

namespace Json

/-- The members that are read in place of others have their keys, each with a value that was written
under it. -/
theorem exists_of_membersToJson? {depth : Nat} {members entries : List (String × Json)}
    (h : Written.membersToJson? depth (writtenMembers members) = some entries) :
    entries.map Prod.fst = members.map Prod.fst ∧ ∀ entry ∈ entries, ∃ v,
      (entry.1, v) ∈ members ∧ v.written.toJson? depth = some entry.2 := by
  induction members generalizing entries with
  | nil =>
    rw [writtenMembers, Written.membersToJson?] at h
    cases h
    exact ⟨rfl, fun _ hentry => absurd hentry List.not_mem_nil⟩
  | cons member members ih =>
    obtain ⟨key, v⟩ := member
    rw [writtenMembers, Written.membersToJson?] at h
    simp only [Option.bind_eq_bind, Option.bind_eq_some_iff, Option.some.injEq, exists_eq_left']
      at h
    obtain ⟨w, hw, rest, hrest, heq⟩ := h
    cases heq
    obtain ⟨hkeys, hall⟩ := ih hrest
    refine ⟨by rw [List.map_cons, List.map_cons, hkeys], fun entry hentry => ?_⟩
    rcases List.mem_cons.mp hentry with rfl | hentry
    · exact ⟨v, List.mem_cons_self, hw⟩
    · obtain ⟨v', hmem, hv'⟩ := hall entry hentry
      exact ⟨v', List.mem_cons_of_mem _ hmem, hv'⟩

/-- A text in a printed document is read back as it was. -/
theorem get?_str_of_ofText? {doc read : Document} (hrange : InRange (.obj doc))
    (hordered : doc.Ascending) {key text : String} (hkey : doc.get? key = some (.str text))
    (hread : ofText? (pretty (.obj doc)) = some (.obj read)) : read.get? key = some (.str text) := by
  rw [ofText?, hrange.ofText?_pretty] at hread
  have hread : (Json.obj doc).written.toJson? maxDepth = some (.obj read) := hread
  rw [written, maxDepth, Written.toJson?] at hread
  obtain ⟨entries, hentries, hread⟩ := Option.map_eq_some_iff.mp hread
  obtain rfl := Json.obj.inj hread
  obtain ⟨hkeys, hall⟩ := exists_of_membersToJson? hentries
  have hthere : ((Keyed.ofList entries).get? key).isSome = true := by
    refine Keyed.isSome_get?_union [] (.inr ?_)
    rw [hkeys]
    exact List.mem_map_of_mem (Keyed.mem_of_get? hkey)
  obtain ⟨w, hw⟩ := Option.isSome_iff_exists.mp hthere
  obtain ⟨v, hmem, hv⟩ := hall _ (Keyed.mem_of_get?_ofList hw)
  have hsame := hordered.get?_of_mem hmem
  rw [hkey, Option.some.injEq] at hsame
  subst hsame
  rw [hw]
  exact hv.symm

end Json

namespace Store

variable {s : Store} {id : String} {doc : Document} {before after files : FileTree}
  {t : DocumentType}

/-- Every file of a tree is an unfinished write, or holds a document of a type under the identifier
of the document. -/
structure Filed (s : Store) (files : FileTree) : Prop where
  sound : files.Sound
  files : ∀ place text, files.get? place = some (.file text) →
    place.getLast?.any isTempName = true ∨
      ∃ t id doc, s.schema.type? t.name = some t ∧ s.Leads t.name id place ∧
        text = some (Json.pretty (.obj doc)) ∧ t.idOf? doc = some id

theorem Filed.of_no_files (hsound : files.Sound)
    (h : ∀ place text, files.get? place ≠ some (.file text)) : s.Filed files :=
  ⟨hsound, fun place text hplace => absurd hplace (h place text)⟩

theorem Filed.of_lessened (h : s.Filed before) (hless : Lessened before after) : s.Filed after :=
  ⟨hless.sound h.sound, fun place text hplace => h.files place text (hless.files place text hplace)⟩

/-- A write of a document under its own identifier keeps a tree filed. -/
theorem Filed.of_written (h : s.Filed before) (ht : s.schema.type? t.name = some t)
    {result : Except StoreError Unit} (hwritten : s.Written t.name id doc before after result)
    (hid : t.idOf? doc = some id) : s.Filed after := by
  refine ⟨hwritten.sound h.sound, fun place text hplace => ?_⟩
  rcases hwritten.files place text hplace with hold | hunfinished | ⟨-, hleads, rfl⟩
  · exact h.files place text hold
  · exact .inl hunfinished
  · exact .inr ⟨t, id, doc, ht, hleads, rfl, hid⟩

/-- In a filed tree whose types stand side by side, each file of a type holds a document that names
it. -/
theorem Filed.exists_of_mem (h : s.Filed files) (hlaid : s.Laid)
    (ht : s.schema.type? t.name = some t) {paths : List Path}
    (hpaths : s.documentFiles files t.name = .ok paths) {path : Path} (hpath : path ∈ paths) :
    ∃ id doc, path = (s.typeDir t.name).join id ∧ t.idOf? doc = some id ∧
      files.readText path = .ok (Json.pretty (.obj doc)) := by
  obtain ⟨name, place, text, htemp, rfl, hleads, hplace, hheld⟩ :=
    leads_of_mem_documentFiles h.sound hpaths hpath
  rcases h.files place text hheld with hunfinished | ⟨u, id, doc, hu, hown, rfl, hid⟩
  · rw [hleads.getLast?, Option.any_some, htemp] at hunfinished
    cases hunfinished
  have htmem : t ∈ s.schema.types := List.mem_of_find?_eq_some ht
  have humem : u ∈ s.schema.types := List.mem_of_find?_eq_some hu
  obtain rfl : name = id := Option.some.inj (hleads.getLast?.symm.trans hown.getLast?)
  -- Two types whose documents stand at one place are one type.
  have hdirs := (hleads.eq_of_plain (hlaid.plainDir htmem)).symm.trans
    (hown.eq_of_plain (hlaid.plainDir humem))
  rw [hlaid.steps_typeDir htmem, hlaid.steps_typeDir humem] at hdirs
  have hname : t.name = u.name := by simpa using hdirs
  rw [← hname, ht, Option.some.injEq] at hu
  subst hu
  exact ⟨name, doc, rfl, hid, FileTree.readText_of_locate hplace hheld⟩

end Store

end DocumentEngine
