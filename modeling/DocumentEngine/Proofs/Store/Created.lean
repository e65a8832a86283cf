import DocumentEngine.Proofs.Engine.Restriction
import DocumentEngine.Proofs.Json.Equality
import DocumentEngine.Proofs.Store.Files
import DocumentEngine.Proofs.Store.Named
import DocumentEngine.Schema.Structure

/-!
Reading back a document by its id. A creation puts the document into a free file of its own and
leaves the other files alone, so that the documents read afterwards are those from before and the
new one. A query by the id gives the new document and nothing else exactly where the id is one value
for the query, and no other document answers to it.
-/

namespace DocumentEngine

open Action
open Path (IsStep)

namespace Store

variable {s : Store} {type id : String} {doc : Document} {state state' : State} {files : FileTree}

/-- A document is created in a free file of its own, one step below the directory of its type, and
no other file is touched. -/
structure Created (s : Store) (type id : String) (doc : Document) (before after : FileTree) :
    Prop where
  name : idFault? id = none
  fits : FileTree.Fits ((s.typeDir type).join id)
  free : before.get? ((s.typeDir type).steps ++ [id]) = none
  sound : after.Sound
  file : after.get? ((s.typeDir type).steps ++ [id]) =
    some (.file (some (Json.pretty (.obj doc))))
  others : before.SameBut after ((s.typeDir type).steps ++ [id])

/-- In a sound tree what stands one step below the directory of a type is found there. -/
theorem locate_join (hsound : files.Sound) (hdir : s.PlainDir type) {name : String}
    (hname : IsStep name) (hfits : FileTree.Fits ((s.typeDir type).join name))
    (hthere : (files.get? ((s.typeDir type).steps ++ [name])).isSome = true) :
    files.locate ((s.typeDir type).join name) = .ok ((s.typeDir type).steps ++ [name]) := by
  obtain ⟨hsteps, hplain⟩ := plain_of_join hdir hname
  rw [← hsteps] at hthere ⊢
  refine hsound.locate_eq hplain hfits hthere fun hslash => ?_
  rw [FileTree.endsInSlash_join hname.1] at hslash
  cases hslash

theorem exec_create (hdir : s.PlainDir type) (hsound : state.files.Sound)
    (h : exec (s.create type id doc) state = (.ok (), state')) :
    s.Created type id doc state.files state'.files := by
  have hwritten := written_of_checked (exec_check_alike s type id state).1 h
  unfold create at h
  obtain ⟨⟨⟩, checked, hcheck, hwrite⟩ := exec_bind_eq_ok h
  obtain rfl : checked = state := by
    have halike := (exec_check_alike s type id state).1
    rwa [hcheck] at halike
  obtain ⟨path, temp, made, filled, hpath, hgrown, hcreate, hrename⟩ := exec_write hwrite
  have habsent : checked.files.isPresent path = false := by
    unfold checkAbsent at hcheck
    rw [exec_bind_ok (by rw [exec_lift, hpath]), exec_bind_ok (exec_get checked)] at hcheck
    rw [← Bool.not_eq_true]
    intro hpresent
    rw [if_pos hpresent] at hcheck
    cases hcheck
  obtain ⟨hfault, rfl⟩ := documentPath_eq_ok hpath
  have hstep : IsStep id := isName_of_idFault? hfault
  obtain ⟨hsteps, hplain⟩ := plain_of_join hdir hstep
  obtain ⟨beside, target, -, hfree, rfl, htarget, hfile, -, hfiles⟩ :=
    FileTree.staged_of_rename hcreate hrename
  have hplace : target = (s.typeDir type).steps ++ [id] := by
    rw [FileTree.eq_steps_of_locate hplain htarget, hsteps]
  obtain ⟨hnew, hothers⟩ := FileTree.sameBut_of_staged hgrown hfree
    (FileTree.ne_nil_of_get?_ne_directory hfile) (Json.pretty (.obj doc))
  rw [← hfiles, hplace] at hnew hothers
  have hfits := FileTree.fits_of_locate htarget
  refine ⟨hfault, hfits, ?_, hwritten.sound hsound, hnew, hothers⟩
  cases hheld : checked.files.get? ((s.typeDir type).steps ++ [id]) with
  | none => rfl
  | some entry =>
    have hlocated := locate_join hsound hdir hstep hfits (by rw [hheld]; rfl)
    unfold FileTree.isPresent FileTree.entry? at habsent
    rw [hlocated] at habsent
    dsimp only at habsent
    rw [hheld] at habsent
    cases habsent

/-- A file one step below the directory of a type that is no unfinished write is one of the files of
its documents, and these can be listed. -/
theorem mem_documentFiles (hsound : files.Sound) (hdir : s.PlainDir type) {name : String}
    (hstep : IsStep name) (htemp : isTempName name = false)
    (hfits : FileTree.Fits ((s.typeDir type).join name)) {text : Option String}
    (hheld : files.get? ((s.typeDir type).steps ++ [name]) = some (.file text)) :
    ∃ paths, s.documentFiles files type = .ok paths ∧ (s.typeDir type).join name ∈ paths := by
  have habove : files.get? (s.typeDir type).steps = some .directory := by
    have hparent := hsound.parents _ (by rw [hheld]; rfl)
    rwa [List.dropLast_concat] at hparent
  have hlocated : files.locate (s.typeDir type) = .ok (s.typeDir type).steps :=
    hsound.locate_eq hdir (hfits.of_join hstep.1) (by rw [habove]; rfl) fun _ => habove
  have hfile := locate_join hsound hdir hstep hfits (by rw [hheld]; rfl)
  have hlist := FileTree.list_eq_inside hlocated habove
  unfold documentFiles
  dsimp only
  rw [hlist]
  refine ⟨_, rfl, List.mem_filter.mpr ⟨List.mem_map.mpr ⟨name, ?_, rfl⟩, ?_⟩⟩
  · refine List.mem_mergeSort.mpr ((FileTree.mem_list_iff hlocated hlist name).mpr ?_)
    rw [hheld]
    rfl
  · rw [Path.fileName_join _ hstep, htemp]
    simp [FileTree.isFile, FileTree.entry?, hfile, hheld]

/-- The files of the documents of a type are listed once each. -/
theorem nodup_documentFiles (hsound : files.Sound) {paths : List Path}
    (h : s.documentFiles files type = .ok paths) : paths.Nodup := by
  obtain rfl | ⟨place, names, hplace, hlist, rfl⟩ := documentFiles_eq_ok h
  · exact List.nodup_nil
  have hstep : ∀ name ∈ sortNames names, IsStep name := fun name hname =>
    hsound.isStep_of_mem_list hplace hlist (List.mem_mergeSort.mp hname)
  have honce : (sortNames names).Nodup :=
    (List.mergeSort_perm names _).nodup_iff.mpr (hsound.nodup_list hplace hlist)
  refine (List.Nodup.map_on (fun name hname other hother heq => ?_) honce).sublist
    List.filter_sublist
  rw [← Path.fileName_join (s.typeDir type) (hstep name hname), heq,
    Path.fileName_join _ (hstep other hother)]

/-- The documents of files among which those of other files than one do not pass a test. -/
theorem documents_filter {paths : List Path} {p : Document → Bool} {path : Path}
    (hp : p doc = true) (hread : readDocument? files path = .ok (some doc)) (honce : paths.Nodup)
    (hothers : ∀ other ∈ paths, other ≠ path → ∃ held,
      readDocument? files other = .ok (some held) ∧ p held = false) :
    (documents files paths).map (·.filter p) = .ok (if path ∈ paths then [doc] else []) := by
  induction paths with
  | nil => rfl
  | cons first paths ih =>
    obtain ⟨hnotin, honce⟩ := List.nodup_cons.mp honce
    have hrest := ih honce fun other hother => hothers other (List.mem_cons_of_mem _ hother)
    obtain ⟨docs, hdocs, hfiltered⟩ : ∃ docs, documents files paths = .ok docs ∧
        docs.filter p = if path ∈ paths then [doc] else [] := by
      cases hdocs : documents files paths with
      | error cause =>
        rw [hdocs] at hrest
        cases hrest
      | ok docs =>
        rw [hdocs] at hrest
        exact ⟨docs, rfl, Except.ok.inj hrest⟩
    rw [documents]
    by_cases hfirst : first = path
    · subst hfirst
      rw [if_neg hnotin] at hfiltered
      rw [hread, hdocs, if_pos List.mem_cons_self]
      simp [Except.map, hfiltered, hp]
    · obtain ⟨held, hheld, hfails⟩ := hothers first List.mem_cons_self hfirst
      rw [hheld, hdocs]
      have hne : path ≠ first := fun heq => hfirst heq.symm
      simp [Except.map, hfiltered, hfails, hne]

theorem mem_of_documents {paths : List Path} {docs : List Document}
    (h : documents files paths = .ok docs) {path : Path} (hpath : path ∈ paths)
    (hread : readDocument? files path = .ok (some doc)) : doc ∈ docs := by
  induction paths generalizing docs with
  | nil => cases hpath
  | cons first paths ih =>
    rw [documents] at h
    cases hfirst : readDocument? files first with
    | error cause =>
      rw [hfirst] at h
      cases h
    | ok found =>
      rw [hfirst] at h
      cases hrest : documents files paths with
      | error cause =>
        rw [hrest] at h
        cases h
      | ok rest =>
        rw [hrest] at h
        cases h
        rcases List.mem_cons.mp hpath with rfl | hpath
        · rw [hread] at hfirst
          cases hfirst
          exact List.mem_append_left _ List.mem_cons_self
        · exact List.mem_append_right _ (ih hrest hpath)

variable {a b : FileTree} {paths : List Path} {path : Path}

theorem readDocument?_congr {place : List String} (ha : a.locate path = .ok place)
    (hb : b.locate path = .ok place) (h : a.get? place = b.get? place) :
    readDocument? a path = readDocument? b path := by
  unfold readDocument? FileTree.readText
  rw [ha, hb]
  dsimp only [bind, Except.bind]
  rw [h]

/-- In trees with the same files but for one, the other files of a type are the same. -/
theorem mem_documentFiles_of_sameBut (ha : a.Sound) (hb : b.Sound) (hdir : s.PlainDir type)
    (hsame : a.SameBut b ((s.typeDir type).steps ++ [id]))
    (hpaths : s.documentFiles a type = .ok paths) (hpath : path ∈ paths) :
    (path = (s.typeDir type).join id ∧
      ∃ text, a.get? ((s.typeDir type).steps ++ [id]) = some (.file text)) ∨
    ∃ others, s.documentFiles b type = .ok others ∧ path ∈ others ∧
      readDocument? b path = readDocument? a path := by
  obtain ⟨name, text, hstep, htemp, rfl, hplace, hheld⟩ :=
    exists_of_mem_documentFiles ha hdir hpaths hpath
  by_cases hname : name = id
  · exact .inl ⟨by rw [hname], text, hname ▸ hheld⟩
  · have hthere : b.get? ((s.typeDir type).steps ++ [name]) = some (.file text) :=
      (hsame _ (by simpa using hname) text).mpr hheld
    have hfits := FileTree.fits_of_locate hplace
    obtain ⟨others, hothers, hmem⟩ := mem_documentFiles hb hdir hstep htemp hfits hthere
    refine .inr ⟨others, hothers, hmem, readDocument?_congr ?_ hplace (hthere.trans hheld.symm)⟩
    exact locate_join hb hdir hstep hfits (by rw [hthere]; rfl)

theorem sameBut_symm {place : List String} (h : a.SameBut b place) : b.SameBut a place :=
  fun other ho text => (h other ho text).symm

namespace Created

variable {docs : List Document}

/-- The file of a created document holds it, where it reads back as it was written. -/
theorem readDocument?_eq (h : s.Created type id doc a b) (hdir : s.PlainDir type)
    (hread : Json.ofText? (Json.pretty (.obj doc)) = some (.obj doc)) :
    readDocument? b ((s.typeDir type).join id) = .ok (some doc) := by
  unfold readDocument?
  rw [FileTree.readText_of_locate
    (locate_join h.sound hdir (isName_of_idFault? h.name) h.fits (by rw [h.file]; rfl)) h.file]
  dsimp only
  unfold decode
  rw [hread]
  rfl

/-- A document from before a creation was not in the file of the created one. -/
theorem path_ne (h : s.Created type id doc a b) (ha : a.Sound) (hdir : s.PlainDir type)
    (hpaths : s.documentFiles a type = .ok paths) (hpath : path ∈ paths) :
    path ≠ (s.typeDir type).join id := by
  rintro rfl
  obtain ⟨name, text, -, -, -, hplace, hheld⟩ := exists_of_mem_documentFiles ha hdir hpaths hpath
  obtain ⟨hsteps, hplain⟩ := plain_of_join hdir (isName_of_idFault? h.name)
  rw [FileTree.eq_steps_of_locate hplain hplace |>.trans hsteps, h.free] at hheld
  cases hheld

/-- After a creation the documents from before are still there. -/
theorem mem_stored (h : s.Created type id doc a b) (ha : a.Sound) (hdir : s.PlainDir type)
    {docs' : List Document} (hdocs : s.stored a type = .ok docs)
    (hdocs' : s.stored b type = .ok docs') {other : Document} (hother : other ∈ docs) :
    other ∈ docs' := by
  obtain ⟨paths, hpaths, path, hpath, hread⟩ := Store.mem_stored hdocs hother
  obtain ⟨hown, -⟩ | ⟨others, hothers, hmem, hsame⟩ :=
    mem_documentFiles_of_sameBut ha h.sound hdir h.others hpaths hpath
  · exact absurd hown (h.path_ne ha hdir hpaths hpath)
  · unfold stored at hdocs'
    rw [hothers] at hdocs'
    exact mem_of_documents hdocs' hmem (hsame.trans hread)

/-- The documents after a creation that pass a test are the new one alone, where it passes the test
and those from before do not. -/
theorem stored_filter (h : s.Created type id doc a b) (ha : a.Sound) (hdir : s.PlainDir type)
    (hread : Json.ofText? (Json.pretty (.obj doc)) = some (.obj doc)) {t : DocumentType}
    (hnamed : s.TypeNamed a t) (htype : t.name = type) (hdocs : s.stored a type = .ok docs)
    {p : Document → Bool} (hp : p doc = true) (hothers : ∀ other ∈ docs, p other = false) :
    (s.stored b type).map (·.filter p) = .ok [doc] := by
  have hstep : IsStep id := isName_of_idFault? h.name
  obtain ⟨paths, hpaths, hmem⟩ :=
    mem_documentFiles h.sound hdir hstep (isTempName_of_idFault? h.name) h.fits h.file
  unfold stored
  rw [hpaths]
  change (documents b paths).map (·.filter p) = .ok [doc]
  rw [documents_filter hp (h.readDocument?_eq hdir hread) (nodup_documentFiles h.sound hpaths)
    (fun other hother hne => ?_), if_pos hmem]
  obtain ⟨hown, -⟩ | ⟨others, hlisted, hin, hsame⟩ :=
    mem_documentFiles_of_sameBut h.sound ha hdir (sameBut_symm h.others) hpaths hother
  · exact absurd hown hne
  · subst htype
    obtain ⟨listed, hlisted', hall⟩ := hnamed
    cases hlisted.symm.trans hlisted'
    obtain ⟨held, -, hheld, -⟩ := hall other hin
    unfold stored at hdocs
    rw [hlisted] at hdocs
    exact ⟨held, hsame.symm.trans hheld, hothers held (mem_of_documents hdocs hin hheld)⟩

/-- A created document was not stored before under its id. -/
theorem notMem (h : s.Created type id doc a b) (ha : a.Sound) (hdir : s.PlainDir type)
    {t : DocumentType} (hnamed : s.TypeNamed a t) (htype : t.name = type)
    (hdocs : s.stored a type = .ok docs) (hid : t.idOf? doc = some id) : doc ∉ docs := by
  subst htype
  intro hmem
  obtain ⟨paths, hpaths, hall⟩ := hnamed
  obtain ⟨paths', hpaths', path, hpath, hread⟩ := Store.mem_stored hdocs hmem
  cases hpaths.symm.trans hpaths'
  obtain ⟨held, own, hread', hown, hname⟩ := hall path hpath
  cases hread.symm.trans hread'
  cases hid.symm.trans hown
  exact h.path_ne ha hdir hpaths hpath hname

end Created

/-- A document whose identifier is a text answers to what a text asks for only where that is its
identifier. -/
theorem eq_of_answersTo {t : DocumentType} {text : String} {w : Json}
    (hid : doc.get? t.identifierName = some (.str id))
    (htarget : Filter.idTarget? (.str text) = some w) (h : t.answersTo w doc = true) :
    w = .str id := by
  obtain ⟨part, rfl⟩ := Filter.exists_text_of_idTarget? htarget
  have hidOf : t.idOf? doc = some id := by
    rw [DocumentType.idOf?, hid]
    rfl
  rw [DocumentType.answersTo_eq_hasId hid, DocumentType.hasId, hidOf] at h
  rw [show id = part by simpa using h]

/-- A fetch by the value that the `id` argument asks for. -/
theorem exec_fetch_id {t : DocumentType} (ht : s.schema.type? t.name = some t)
    (hdot : '.' ∉ t.identifierName.toList) (w : Json) (state : State) :
    (exec (s.fetch t.name { filter := some (.equals t.identifierName w) }) state).1 =
      (s.stored state.files t.name).map (·.filter (t.answersTo w)) := by
  obtain ⟨fetched, hfetch, -⟩ := s.exec_fetch t.name
    { filter := some (.equals t.identifierName w) } state
  rw [hfetch]
  exact s.found_of_condition state.files ht ⟨t.identifierName, .eq, .single w⟩ hdot

/-- A query by the id of a document that was just created compiles and gives that document and
nothing else exactly where the id has no comma and no blanks at its ends, and no document from
before answers to it. The `id` argument has to ask for the identifier, and the document to read
back as it was written. -/
theorem fetch_created_iff (s : Store) (t : DocumentType) (maxLimit : Nat) (id : String)
    (doc : Document) (docs : List Document) (state state' : State)
    (ht : s.schema.type? t.name = some t) (hask : t.AsksById s.schema)
    (hdot : '.' ∉ t.identifierName.toList) (hdir : s.PlainDir t.name) (hsound : state.files.Sound)
    (hnamed : s.TypeNamed state.files t) (hdocs : s.stored state.files t.name = .ok docs)
    (hid : doc.get? t.identifierName = some (.str id))
    (hread : Json.ofText? (Json.pretty (.obj doc)) = some (.obj doc))
    (h : exec (s.create t.name id doc) state = (.ok (), state')) :
    (∃ query, Query.compile s.schema t maxLimit [("id", .str id)] = .ok query ∧
        (exec (s.fetch t.name query) state').1 = .ok [doc]) ↔
      ',' ∉ id.toList ∧ Text.trimChars id.toList = id.toList ∧
        ∀ other ∈ docs, t.answersTo (.str id) other = false := by
  have hcreated := exec_create hdir hsound h
  have hidOf : t.idOf? doc = some id := by
    rw [DocumentType.idOf?, hid]
    rfl
  obtain ⟨hone, hmany⟩ := Query.compile_asksById hask maxLimit (.str id)
  rw [← and_assoc, ← Filter.idTarget?_str_iff]
  constructor
  · rintro ⟨query, hquery, hfetch⟩
    cases htarget : Filter.idTarget? (.str id) with
    | none =>
      obtain ⟨cause, hcause⟩ := hmany htarget
      rw [hcause] at hquery
      cases hquery
    | some w =>
      rw [hone w htarget] at hquery
      cases hquery
      rw [exec_fetch_id ht hdot] at hfetch
      cases hstored : s.stored state'.files t.name with
      | error cause =>
        rw [hstored] at hfetch
        cases hfetch
      | ok after =>
        rw [hstored] at hfetch
        have hfilter : after.filter (t.answersTo w) = [doc] := Except.ok.inj hfetch
        have hown : doc ∈ after.filter (t.answersTo w) := hfilter ▸ List.mem_cons_self
        obtain rfl := eq_of_answersTo hid htarget (List.mem_filter.mp hown).2
        refine ⟨rfl, fun other hother => ?_⟩
        -- What answered to the id before would be the new document, which was not stored before.
        rw [← Bool.not_eq_true]
        intro hanswers
        have hmem : other ∈ after.filter (t.answersTo (.str id)) :=
          List.mem_filter.mpr ⟨hcreated.mem_stored hsound hdir hdocs hstored hother, hanswers⟩
        rw [hfilter] at hmem
        obtain rfl : other = doc := List.mem_singleton.mp hmem
        exact hcreated.notMem hsound hdir hnamed rfl hdocs hidOf hother
  · rintro ⟨htarget, hothers⟩
    refine ⟨_, hone _ htarget, ?_⟩
    rw [exec_fetch_id ht hdot]
    refine hcreated.stored_filter hsound hdir hread hnamed rfl hdocs ?_ hothers
    rw [DocumentType.answersTo_eq_hasId hid, DocumentType.hasId, hidOf]
    simp

section

private def province : DocumentType where
  name := "Provincia"
  fields := [.ofIdentifier "id", .ofScalar "nombre" .string]

private def provinces : Store := ⟨⟨"/data"⟩, "default", ⟨[province]⟩⟩

private theorem provinces_plainDir : provinces.PlainDir "Provincia" := by
  unfold PlainDir
  decide +kernel

private def salta : Document := [("id", .str "p1"), ("nombre", .str "Salta")]

private def oneProvince : State where
  files := ⟨[(["data"], .directory), (["data", "Provincia"], .directory),
    (["data", "Provincia", "p1"], .file (some (Json.pretty (.obj salta))))]⟩

private def jujuy : Document := [("id", .str "p2"), ("nombre", .str "Jujuy")]

private theorem province_asksById : province.AsksById ⟨[province]⟩ :=
  Query.asksById_of_isWord (f := .ofIdentifier "id") (by decide) (by decide) (by decide)
    (by decide) (by decide)

theorem fetch_created_second :
    ∃ state', exec (provinces.create "Provincia" "p2" jujuy) oneProvince = (.ok (), state') ∧
      ∃ query, Query.compile provinces.schema province 100 [("id", .str "p2")] = .ok query ∧
        (exec (provinces.fetch "Provincia" query) state').1 = .ok [jujuy] := by
  have hok : (exec (provinces.create "Provincia" "p2" jujuy) oneProvince).1.isOk = true := by
    decide +kernel
  have hapart : (provinces.stored oneProvince.files "Provincia").toOption.all (fun docs =>
      docs.all fun other => !province.answersTo (.str "p2") other) = true := by decide +kernel
  have hnamed : provinces.TypeNamed oneProvince.files province :=
    typeNamed_of_isTypeNamed (by decide +kernel)
  obtain ⟨docs, hdocs⟩ := hnamed.stored_ok
  rcases hrun : exec (provinces.create "Provincia" "p2" jujuy) oneProvince with ⟨_ | ⟨⟩, state'⟩
  · rw [hrun] at hok
    cases hok
  refine ⟨state', rfl, (fetch_created_iff provinces province 100 "p2" jujuy docs oneProvince state'
    (by rfl) province_asksById (by decide) provinces_plainDir
    (FileTree.sound_of_entries (by decide +kernel) (by decide)) hnamed hdocs (by rfl)
    (by decide +kernel) hrun).mpr ⟨by decide, by decide, fun other hother => ?_⟩⟩
  have hall : provinces.stored oneProvince.files "Provincia" = .ok docs := hdocs
  rw [hall] at hapart
  simpa using List.all_eq_true.mp hapart other hother

private def noDocuments : State where
  files := ⟨[(["data"], .directory)]⟩

private def listed : Document := [("id", .str "a,b"), ("nombre", .str "Salta")]

/-- An id with a comma is a file name that the store takes, and two values for a query: the document
is created and cannot be asked for. -/
theorem exists_created_not_fetched :
    ∃ (s : Store) (t : DocumentType) (id : String) (doc : Document) (state state' : State),
      s.schema.check.isOk = true ∧ s.schema.type? t.name = some t ∧
      t.identifier? = some (.ofIdentifier "id") ∧ s.TypeNamed state.files t ∧
      idFault? id = none ∧ s.find? state.files t.name id = .ok none ∧
      doc.get? t.identifierName = some (.str id) ∧
      exec (s.create t.name id doc) state = (.ok (), state') ∧
      ∀ maxLimit query, Query.compile s.schema t maxLimit [("id", .str id)] ≠ .ok query := by
  have hok : (exec (provinces.create "Provincia" "a,b" listed) noDocuments).1.isOk = true := by
    decide +kernel
  rcases hrun : exec (provinces.create "Provincia" "a,b" listed) noDocuments with ⟨_ | ⟨⟩, state'⟩
  · rw [hrun] at hok
    cases hok
  refine ⟨provinces, province, "a,b", listed, noDocuments, state', by decide +kernel, by rfl, by rfl,
    typeNamed_of_isTypeNamed (by decide +kernel), by decide, by rfl, by rfl, hrun,
    fun maxLimit query hquery => ?_⟩
  obtain ⟨cause, hcause⟩ := (Query.compile_asksById province_asksById maxLimit (.str "a,b")).2
    (by decide +kernel)
  have hfailed := hcause.symm.trans hquery
  cases hfailed

end

end Store

end DocumentEngine
