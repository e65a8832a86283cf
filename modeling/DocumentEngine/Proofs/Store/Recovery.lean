import DocumentEngine.Proofs.Store.Fetch
import DocumentEngine.Proofs.Store.Interruption

/-!
Recovery after a crash. An operation that is cut off leaves the shelf of before or the one that the
whole operation leaves, with at most unfinished writes beside it. Loads and scans see nothing of
these, and a sweep removes them.
-/

namespace DocumentEngine

open Action
open Path (IsStep)

namespace Store

variable {s : Store} {base : List String} {type id : String} {doc : Document}
  {state state' : State} {files : FileTree} {m m' : Shelf} {w : Session} {op : Operation}
  {staged : Staged}

namespace Represents

/-- A document that is loaded is the document of the shelf, read from its file. -/
theorem of_find? (h : s.Represents base files m) (htype : IsStep type)
    (hfind : s.find? files type id = .ok (some doc)) :
    ∃ stored, m.get? type id = some stored ∧
      Json.ofText? (Json.pretty (.obj stored)) = some (.obj doc) := by
  cases hid : idFault? id with
  | some fault =>
    unfold find? documentPath at hfind
    rw [hid] at hfind
    cases hfind
  | none =>
    cases hdoc : m.get? type id with
    | none =>
      rcases h.find?_of_none htype hid hdoc with ⟨path, cause, hfailed⟩ | hnone
      · cases hfailed.symm.trans hfind
      · cases hnone.symm.trans hfind
    | some stored =>
      rw [h.find?_of_some htype hdoc] at hfind
      refine ⟨stored, rfl, ?_⟩
      unfold decode at hfind
      split at hfind
      · cases hfind
        assumption
      · cases hfind
      · cases hfind

/-- The documents that a fetch finds are documents of the shelf, read from their files. -/
theorem of_found (h : s.Represents base files m) (htype : IsStep type) {query : Query}
    {docs : List Document} (hfound : s.found files type query = .ok docs) (hdoc : doc ∈ docs) :
    ∃ id stored, m.get? type id = some stored ∧
      Json.ofText? (Json.pretty (.obj stored)) = some (.obj doc) := by
  obtain ⟨all, hall, hmem⟩ := mem_stored_of_found hfound hdoc
  obtain ⟨paths, hpaths, path, hpath, hread⟩ := mem_stored hall hmem
  rcases h.documentFiles_eq htype with ⟨_, _, hfailed⟩ | hfiles
  · cases hfailed.symm.trans hpaths
  · cases hfiles.symm.trans hpaths
    obtain ⟨id, hid, rfl⟩ := List.mem_map.mp hpath
    have hfind : s.find? files type id = .ok (some doc) := by
      unfold find? documentPath
      rw [((h.mem_keys_iff type id).mp hid).1]
      exact hread
    exact ⟨id, h.of_find? htype hfind⟩

/-- A store is opened again, and swept. -/
theorem exec_reopen (h : s.Represents base state.files m) {dataDir : Path}
    (hroot : s.root = dataDir.join s.space) :
    ∃ count state', exec (reopen dataDir s.space s.schema) state = (.ok count, state') ∧
      s.Represents base state'.files m ∧
      ∀ type name, isTempName name = true → state'.files.get? (base ++ [type, name]) = none := by
  have hfound := FileTree.ensureDirectory_of_locate h.leads h.directory
  have hopen : exec (openAt dataDir s.space s.schema) state = (.ok s, state) := by
    unfold openAt
    rw [exec_bind_ok (exec_get state), ← hroot]
    dsimp only
    unfold FileTree.makeDirectories
    rw [hfound]
    rfl
  obtain ⟨state', hsweep, hafter, -, hnone⟩ := h.exec_sweep_spec
  refine ⟨(s.staleFiles state.files).length, state', ?_, hafter, hnone⟩
  unfold reopen
  rw [exec_bind_ok hopen, hsweep]

end Represents

/-- What was staged before a sweep cannot be published after it. -/
theorem Outstanding.publish_fails {swept : State} (h : s.Outstanding base swept staged)
    (hswept : ∀ type name, isTempName name = true → swept.files.get? (base ++ [type, name]) = none)
    (hages : Ages base swept state) (hshelf : s.Represents base state.files m) :
    ∃ path cause, exec (publish staged.write) state = (.error (.io path cause), state) := by
  obtain ⟨count, hcount, hwrite, -⟩ := h.held
  have htemp := isTempName_tempName staged.id count
  have hgone : state.files.get? (base ++ [staged.type, tempName staged.id count]) = none := by
    rcases hages.temps staged.type staged.id count hcount with hsame | hgone
    · rw [hsame, hswept _ _ htemp]
    · exact hgone
  have hheld : state.files.get? (base ++ [staged.type, tempName staged.id count]) = none ∨
      state.files.get? (base ++ [staged.type, tempName staged.id count]) =
        some (.file (some (Json.pretty (.obj staged.doc)))) := .inl hgone
  rw [hwrite]
  rcases hrun : exec (publish _) state with ⟨result, state'⟩
  obtain ⟨path, cause, rfl, rfl⟩ | ⟨-, hthere, -⟩ := hshelf.exec_publish h.type h.id
    (isStep_tempName (isName_of_idFault? h.id) count) htemp hheld hrun
  · exact ⟨path, cause, rfl⟩
  · exact absurd hgone hthere

namespace Tracks

/-- What an operation leaves that is cut off has the documents of before or those that the whole of
it leaves, and so none but those of before and the one that it puts in place. -/
theorem exists_kept {old new : Shelf} {last : Operation} (h : s.Tracks base w old)
    (hlast : ∀ type, last.type? = some type → IsStep type) (hmoved : Moved w last old new)
    (hnew : s.Tracks base (s.perform last w) new) (progress : Progress) :
    ∃ kept, (kept = old ∨ kept = new) ∧
      s.Represents base (s.interrupt last progress w).files kept ∧
      ∀ type id doc, kept.get? type id = some doc →
        old.get? type id = some doc ∨ (type, id, doc) ∈ (last.given? w).toList := by
  rcases h.interrupt last progress hlast hnew with hleft | hleft
  · exact ⟨old, .inl rfl, hleft, fun _ _ _ hdoc => .inl hdoc⟩
  · exact ⟨new, .inr rfl, hleft, fun _ _ _ hdoc => hmoved.get?_of_some hdoc⟩

/-- What is staged when a sweep begins cannot be published after it, whatever is run between. -/
theorem publish_swept (h : s.Tracks base w m) (hstaged : staged ∈ w.staged)
    (late : List Operation) (hlate : ∀ op ∈ late, ∀ type, op.type? = some type → IsStep type) :
    ∃ path cause, exec (publish staged.write) (s.performAll (.sweep :: late) w).state =
      (.error (.io path cause), (s.performAll (.sweep :: late) w).state) := by
  obtain ⟨swept, hsweep, hshelf, hages, hnone⟩ := h.shelf.exec_sweep_spec
  have hsession : s.perform .sweep w = { w with state := swept } := by
    change { w with state := (exec s.sweep w.state).2 } = _
    rw [hsweep]
  have hall : s.performAll (.sweep :: late) w = s.performAll late { w with state := swept } := by
    rw [← hsession]
    rfl
  obtain ⟨final, hfinal, hlater, -⟩ := (h.of_ages hages hshelf).performAll late hlate
  rw [hall]
  exact ((h.outstanding staged hstaged).ages hages).publish_fails hnone hlater hfinal.shelf

end Tracks

/-- Crashes are atomic. Operations run on a store, in any order and with any number of staged writes
between them, and the last of them is cut off. Then the files have the documents of before or those
that the whole operation leaves, which differ at most in the one document that it is about; every
document is one of the start, or one that was written or published under its type and its id. Loads
and scans give nothing else even before the store is opened again, and when it is, with a sweep, no
unfinished write is left. What was staged before a sweep cannot be published after it, and the
attempt changes nothing. -/
theorem crash_atomic (s : Store) (base : List String) (start : State) (m : Shelf) (dataDir : Path)
    (hroot : s.root = dataDir.join s.space) (h : s.Represents base start.files m)
    (ops : List Operation) (last : Operation) (progress : Progress)
    (htypes : ∀ op ∈ last :: ops, ∀ type, op.type? = some type → IsStep type) :
    let before := s.performAll ops ⟨start, []⟩
    let crashed := s.interrupt last progress before
    (∃ old new kept, s.Represents base before.state.files old ∧
      s.Represents base (s.perform last before).state.files new ∧
      (∀ type id, last.target? before ≠ some (type, id) → new.get? type id = old.get? type id) ∧
      (kept = old ∨ kept = new) ∧
      (∀ type id doc, kept.get? type id = some doc →
        m.get? type id = some doc ∨ (type, id, doc) ∈ s.given (ops ++ [last]) ⟨start, []⟩) ∧
      (∀ type id doc, IsStep type → s.find? crashed.files type id = .ok (some doc) →
        ∃ stored, kept.get? type id = some stored ∧
          Json.ofText? (Json.pretty (.obj stored)) = some (.obj doc)) ∧
      (∀ type query docs after, IsStep type →
        exec (s.fetch type query) crashed = (.ok docs, after) → ∀ doc ∈ docs,
          ∃ id stored, kept.get? type id = some stored ∧
            Json.ofText? (Json.pretty (.obj stored)) = some (.obj doc)) ∧
      ∃ count reopened, exec (reopen dataDir s.space s.schema) crashed = (.ok count, reopened) ∧
        s.Represents base reopened.files kept ∧
        ∀ type name, isTempName name = true → reopened.files.get? (base ++ [type, name]) = none) ∧
    ∀ early late staged, ops = early ++ .sweep :: late →
      staged ∈ (s.performAll early ⟨start, []⟩).staged →
      ∃ path cause, exec (publish staged.write) before.state = (.error (.io path cause), before.state) := by
  intro before crashed
  have hstart : s.Tracks base ⟨start, []⟩ m := ⟨h, fun _ hstaged => by cases hstaged⟩
  have hops : ∀ op ∈ ops, ∀ type, op.type? = some type → IsStep type := fun op hop =>
    htypes op (List.mem_cons_of_mem _ hop)
  have hlast := htypes last List.mem_cons_self
  obtain ⟨old, hold, -, hdocs⟩ := hstart.performAll ops hops
  refine ⟨?_, fun early late staged heq hstaged => ?_⟩
  · obtain ⟨new, hmoved, hnew, -⟩ := hold.perform last hlast
    obtain ⟨kept, hkept, hleft, hfrom⟩ := hold.exists_kept hlast hmoved hnew progress
    refine ⟨old, new, kept, hold.shelf, hnew.shelf, fun type id => hmoved.get?_of_ne, hkept,
      fun type id doc hdoc => ?_, fun type id doc htype => hleft.of_find? htype,
      fun type query docs after htype hfetch doc hdoc => ?_, hleft.exec_reopen hroot⟩
    · rw [given_append, List.mem_append]
      rcases hfrom type id doc hdoc with hdoc | hgiven
      · exact (hdocs type id doc hdoc).imp_right .inl
      · exact .inr (.inr (List.mem_append_left _ hgiven))
    · obtain ⟨state', hrun, -⟩ := s.exec_fetch type query crashed
      exact hleft.of_found htype (congrArg Prod.fst (hrun.symm.trans hfetch)) hdoc
  · subst heq
    obtain ⟨between, hbetween, -⟩ := hstart.performAll early fun op hop =>
      hops op (List.mem_append_left _ hop)
    have hbefore : before = s.performAll (.sweep :: late) (s.performAll early ⟨start, []⟩) :=
      performAll_append s early _ _
    rw [hbefore]
    exact hbetween.publish_swept hstaged late fun op hop =>
      hops op (List.mem_append_right _ (List.mem_cons_of_mem _ hop))

section

private def lake : DocumentType where
  name := "Lago"
  fields := [.ofIdentifier "id", .ofScalar "nombre" .string]

private def lakes : Store := ⟨⟨"data/default"⟩, "default", ⟨[lake]⟩⟩

private def lakebed : State where
  files := ⟨[(["data"], .directory), (["data", "default"], .directory)]⟩

private def lakeOf (name : String) : Document := [("id", .str "l1"), ("nombre", .str name)]

private def lakeOps : List Operation :=
  [.create "Lago" "l1" (lakeOf "Nahuel Huapi"), .stage "Lago" "l1" (lakeOf "Futalaufquen"), .sweep,
    .stage "Lago" "l1" (lakeOf "Argentino"), .publish 1]

private theorem lakeOps_types (op : Operation)
    (hop : op ∈ Operation.replace "Lago" "l1" (lakeOf "Viedma") :: lakeOps) (type : String)
    (htype : op.type? = some type) : IsStep type := by
  have hall : ∀ op ∈ Operation.replace "Lago" "l1" (lakeOf "Viedma") :: lakeOps,
      op.type?.all (fun type => decide (IsStep type)) = true := by decide +kernel
  have hone := hall op hop
  rw [htype] at hone
  exact of_decide_eq_true hone

private theorem lakebed_represents :
    lakes.Represents ["data", "default"] lakebed.files Shelf.empty := by
  refine represents_empty (FileTree.sound_of_entries (by decide +kernel) (by decide))
    (by decide +kernel) (by decide +kernel) fun place hplace => ?_
  have hne : ["data", "default"] ++ place ≠ ["data", "default"] := by simpa using hplace
  rw [FileTree.get?_of_ne_nil _ (by simp)]
  exact ((FileTree.lookup_cons _ _ _ _).trans (if_neg (by simp))).trans
    ((FileTree.lookup_cons _ _ _ _).trans (if_neg hne))

/-- A replacement is cut off in the middle of its content. The store opens without what is
unfinished, and what was swept away before could not have been published. -/
theorem crash_atomic_lakes :
    (∃ count reopened, exec (reopen ⟨"data"⟩ "default" ⟨[lake]⟩)
        (lakes.interrupt (.replace "Lago" "l1" (lakeOf "Viedma")) (.content 7)
          (lakes.performAll lakeOps ⟨lakebed, []⟩)) = (.ok count, reopened) ∧
      ∀ type name, isTempName name = true →
        reopened.files.get? (["data", "default"] ++ [type, name]) = none) ∧
    ∃ staged path cause, staged ∈ (lakes.performAll (lakeOps.take 2) ⟨lakebed, []⟩).staged ∧
      exec (publish staged.write) (lakes.performAll lakeOps ⟨lakebed, []⟩).state =
        (.error (.io path cause), (lakes.performAll lakeOps ⟨lakebed, []⟩).state) := by
  obtain ⟨⟨_, _, _, -, -, -, -, -, -, -, count, reopened, hreopen, -, hnone⟩, hswept⟩ :=
    crash_atomic lakes ["data", "default"] lakebed Shelf.empty ⟨"data"⟩ (by decide +kernel)
      lakebed_represents lakeOps (.replace "Lago" "l1" (lakeOf "Viedma")) (.content 7) lakeOps_types
  refine ⟨⟨count, reopened, hreopen, hnone⟩, ?_⟩
  have hlength : (lakes.performAll (lakeOps.take 2) ⟨lakebed, []⟩).staged.length = 1 := by
    decide +kernel
  obtain ⟨staged, hstaged⟩ := List.exists_mem_of_length_pos (hlength ▸ Nat.one_pos)
  obtain ⟨path, cause, hpublish⟩ := hswept (lakeOps.take 2) (lakeOps.drop 3) staged rfl hstaged
  exact ⟨staged, path, cause, hstaged, hpublish⟩

end

end Store

end DocumentEngine
