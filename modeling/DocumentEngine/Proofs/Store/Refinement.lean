import DocumentEngine.Proofs.Store.Represented

/-!
A store is a finite map. The answers of its calls, whatever their order, are those of a map from
types and ids to documents, while the files can be read and written; and the files represent the
map after every call.
-/

namespace DocumentEngine

open Action
open FileTree (Fits)
open Path (IsStep)

/-- A call of a store. -/
inductive Call where
  | create (type id : String) (doc : Document)
  | replace (type id : String) (doc : Document)
  | delete (type id : String)
  | load (type id : String)
  | fetchAll (type : String)

/-- The answer of a call. -/
inductive Answer where
  | done
  | removed (there : Bool)
  | loaded (doc : Option Document)
  | fetched (docs : List Document)
  | failed (cause : StoreError)

namespace Answer

/-- Whether a call failed because of the files. -/
def isIo : Answer → Bool
  | .failed (.io _ _) => true
  | _ => false

/-- The answer of a result. -/
def of {α : Type} (f : α → Answer) : Except StoreError α → Answer
  | .ok a => f a
  | .error cause => .failed cause

/-- The answer of an operation, and the state that it leaves. -/
def run {α : Type} (f : α → Answer) (x : StoreM α) (state : State) : Answer × State :=
  (of f (exec x state).1, (exec x state).2)

end Answer

namespace Call

/-- The type that a call is about. -/
def type : Call → String
  | .create type _ _ => type
  | .replace type _ _ => type
  | .delete type _ => type
  | .load type _ => type
  | .fetchAll type => type

/-- The id that a call is about, if it is about one. -/
def id? : Call → Option String
  | .create _ id _ => some id
  | .replace _ id _ => some id
  | .delete _ id => some id
  | .load _ id => some id
  | .fetchAll _ => none

/-- The document that a call writes. -/
def doc? : Call → Option Document
  | .create _ _ doc => some doc
  | .replace _ _ doc => some doc
  | _ => none

end Call

/-- The answers of calls, one after the other, and what is left. -/
def answers {σ : Type} (answer : Call → σ → Answer × σ) : List Call → σ → List Answer × σ
  | [], state => ([], state)
  | call :: calls, state =>
    let (first, state) := answer call state
    let (rest, state) := answers answer calls state
    (first :: rest, state)

/-- The answer of a store to a call. -/
def Store.answer (s : Store) (call : Call) (state : State) : Answer × State :=
  match call with
  | .create type id doc => Answer.run (fun _ => .done) (s.create type id doc) state
  | .replace type id doc => Answer.run (fun _ => .done) (s.replace type id doc) state
  | .delete type id => Answer.run .removed (s.delete type id) state
  | .load type id => Answer.run .loaded (s.load type id) state
  | .fetchAll type => Answer.run .fetched (s.fetch type {}) state

namespace Shelf

/-- The answer of a map to a call. -/
def answer (call : Call) (m : Shelf) : Answer × Shelf :=
  match call with
  | .create type id doc =>
    match Store.idFault? id, m.get? type id with
    | some fault, _ => (.failed (.invalidId id fault), m)
    | none, some _ => (.failed (.alreadyExists type id), m)
    | none, none => (.done, m.put type id doc)
  | .replace type id doc =>
    match Store.idFault? id, m.get? type id with
    | some fault, _ => (.failed (.invalidId id fault), m)
    | none, none => (.failed (.notFound type id), m)
    | none, some _ => (.done, m.put type id doc)
  | .delete type id =>
    match Store.idFault? id with
    | some fault => (.failed (.invalidId id fault), m)
    | none => (.removed (m.get? type id).isSome, m.remove type id)
  | .load type id =>
    match Store.idFault? id with
    | some fault => (.failed (.invalidId id fault), m)
    | none => (.loaded (m.get? type id), m)
  | .fetchAll type => (.fetched (m type).values, m)

/-- A call that fails leaves the map as it is. -/
theorem answer_of_failed {m : Shelf} {call : Call} {cause : StoreError}
    (h : (answer call m).1 = .failed cause) : (answer call m).2 = m := by
  cases call with
  | create type id doc =>
    unfold answer at h ⊢
    dsimp only at h ⊢
    split at h
    · rfl
    · rfl
    · cases h
  | replace type id doc =>
    unfold answer at h ⊢
    dsimp only at h ⊢
    split at h
    · rfl
    · rfl
    · cases h
  | delete type id =>
    unfold answer at h ⊢
    dsimp only at h ⊢
    split at h
    · rfl
    · cases h
  | load type id =>
    unfold answer
    dsimp only
    split <;> rfl
  | fetchAll type => rfl

/-- A call changes at most the document that it is about. -/
theorem get?_answer (m : Shelf) (call : Call) {type id : String}
    (h : ¬ (type = call.type ∧ some id = call.id?)) :
    (answer call m).2.get? type id = m.get? type id := by
  have hput : ∀ t n doc, ¬ (type = t ∧ some id = some n) →
      (m.put t n doc).get? type id = m.get? type id := by
    intro t n doc hne
    rw [get?_put, if_neg (by simpa using hne)]
  cases call with
  | create t n doc =>
    unfold answer
    dsimp only
    split
    · rfl
    · rfl
    · exact hput t n doc h
  | replace t n doc =>
    unfold answer
    dsimp only
    split
    · rfl
    · rfl
    · exact hput t n doc h
  | delete t n =>
    unfold answer
    dsimp only
    split
    · rfl
    · have hne : ¬ (type = t ∧ id = n) := by simpa [Call.type, Call.id?] using h
      rw [get?_remove, if_neg hne]
  | load t n =>
    unfold answer
    dsimp only
    split <;> rfl
  | fetchAll t => rfl

end Shelf

namespace Store

variable {s : Store} {base : List String} {type id : String} {doc : Document}
  {state state' : State} {files : FileTree} {m : Shelf}

/-- The documents of a shelf read back as they were written. -/
def ReadsBack (m : Shelf) : Prop :=
  ∀ type id doc, m.get? type id = some doc →
    Json.ofText? (Json.pretty (.obj doc)) = some (.obj doc)

theorem decode_of_readsBack {path : Path}
    (h : Json.ofText? (Json.pretty (.obj doc)) = some (.obj doc)) :
    decode path (Json.pretty (.obj doc)) = .ok doc := by
  unfold decode
  rw [h]

namespace Represents

/-- A call either fails because of the files and leaves the shelf as it is, or gives the answer of
the shelf and leaves the files that represent what is left of it. -/
def Answers (s : Store) (base : List String) (m : Shelf) (call : Call) (state : State) : Prop :=
  ((s.answer call state).1.isIo = true ∧ s.Represents base (s.answer call state).2.files m) ∨
    (s.answer call state).1 = (m.answer call).1 ∧
      s.Represents base (s.answer call state).2.files (m.answer call).2

theorem answers_create (h : s.Represents base state.files m) (htype : IsStep type) (id : String)
    (doc : Document) : Answers s base m (.create type id doc) state := by
  unfold Answers Store.answer Shelf.answer Answer.run create
  dsimp only
  have hcheck := exec_checkAbsent s type id state
  cases hid : idFault? id with
  | some fault =>
    rw [hid] at hcheck
    rw [exec_bind_error hcheck]
    exact .inr ⟨rfl, h⟩
  | none =>
    rw [hid] at hcheck
    dsimp only at hcheck
    rw [h.isPresent_eq htype hid] at hcheck
    cases hdoc : m.get? type id with
    | some old =>
      rw [hdoc] at hcheck
      rw [exec_bind_error hcheck]
      exact .inr ⟨rfl, h⟩
    | none =>
      rw [hdoc] at hcheck
      rw [exec_bind_ok hcheck]
      rcases hrun : exec (s.write type id doc) state with ⟨result, state'⟩
      obtain ⟨-, ⟨path, cause, rfl, hafter⟩ | ⟨rfl, hafter⟩⟩ := h.exec_write htype hid hrun
      · exact .inl ⟨rfl, hafter⟩
      · exact .inr ⟨rfl, hafter⟩

theorem answers_replace (h : s.Represents base state.files m) (htype : IsStep type) (id : String)
    (doc : Document) : Answers s base m (.replace type id doc) state := by
  unfold Answers Store.answer Shelf.answer Answer.run replace
  dsimp only
  have hcheck := exec_checkPresent s type id state
  cases hid : idFault? id with
  | some fault =>
    rw [hid] at hcheck
    rw [exec_bind_error hcheck]
    exact .inr ⟨rfl, h⟩
  | none =>
    rw [hid] at hcheck
    dsimp only at hcheck
    rw [h.isPresent_eq htype hid] at hcheck
    cases hdoc : m.get? type id with
    | none =>
      rw [hdoc] at hcheck
      rw [exec_bind_error hcheck]
      exact .inr ⟨rfl, h⟩
    | some old =>
      rw [hdoc] at hcheck
      rw [exec_bind_ok hcheck]
      rcases hrun : exec (s.write type id doc) state with ⟨result, state'⟩
      obtain ⟨-, ⟨path, cause, rfl, hafter⟩ | ⟨rfl, hafter⟩⟩ := h.exec_write htype hid hrun
      · exact .inl ⟨rfl, hafter⟩
      · exact .inr ⟨rfl, hafter⟩

theorem answers_delete (h : s.Represents base state.files m) (htype : IsStep type) (id : String) :
    Answers s base m (.delete type id) state := by
  unfold Answers Store.answer Shelf.answer Answer.run
  dsimp only
  cases hid : idFault? id with
  | some fault =>
    have hpath : s.documentPath type id = .error (.invalidId id fault) := by
      unfold documentPath
      rw [hid]
    unfold delete
    rw [exec_bind_error (by rw [exec_lift, hpath])]
    exact .inr ⟨rfl, h⟩
  | none =>
    obtain ⟨state', hrun, hafter, -⟩ := h.exec_delete htype hid
    rw [hrun]
    exact .inr ⟨rfl, hafter⟩

theorem answers_load (h : s.Represents base state.files m) (hread : ReadsBack m)
    (htype : IsStep type) (id : String) : Answers s base m (.load type id) state := by
  have hrun : exec (s.load type id) state = (s.find? state.files type id, state) := by
    unfold load
    rw [exec_bind_ok (exec_get state), exec_ofExcept]
  unfold Answers Store.answer Shelf.answer Answer.run
  dsimp only
  rw [hrun]
  cases hid : idFault? id with
  | some fault =>
    have hfind : s.find? state.files type id = .error (.invalidId id fault) := by
      unfold find? documentPath
      rw [hid]
    rw [hfind]
    exact .inr ⟨rfl, h⟩
  | none =>
    cases hdoc : m.get? type id with
    | some doc =>
      rw [h.find?_of_some htype hdoc, decode_of_readsBack (hread type id doc hdoc)]
      exact .inr ⟨rfl, h⟩
    | none =>
      rcases h.find?_of_none htype hid hdoc with ⟨path, cause, hfind⟩ | hfind
      · rw [hfind]
        exact .inl ⟨rfl, h⟩
      · rw [hfind]
        exact .inr ⟨rfl, h⟩

/-- The documents of a type are read in the order of their ids. -/
theorem documents_keys (h : s.Represents base files m) (hread : ReadsBack m) (htype : IsStep type) :
    documents files ((m type).keys.map (s.typeDir type).join) = .ok (m type).values := by
  have hall : ∀ entries : Keyed Document, (∀ entry ∈ entries, entry ∈ m type) →
      documents files (entries.keys.map (s.typeDir type).join) = .ok entries.values := by
    intro entries
    induction entries with
    | nil => exact fun _ => rfl
    | cons entry entries ih =>
      intro hmem
      obtain ⟨id, doc⟩ := entry
      have hdoc : m.get? type id = some doc :=
        (h.ascending type).get?_of_mem (hmem _ List.mem_cons_self)
      have hfind := h.find?_of_some htype hdoc
      unfold find? documentPath at hfind
      rw [(h.get?_of_some hdoc).1, decode_of_readsBack (hread type id doc hdoc)] at hfind
      have hrest := ih fun entry hentry => hmem entry (List.mem_cons_of_mem _ hentry)
      change documents files ((s.typeDir type).join id :: (Keyed.keys entries).map _) = _
      rw [documents, show readDocument? files ((s.typeDir type).join id) = .ok (some doc) from hfind,
        hrest]
      rfl
  exact hall (m type) fun _ hentry => hentry

theorem answers_fetchAll (h : s.Represents base state.files m) (hread : ReadsBack m)
    (htype : IsStep type) {t : DocumentType} (ht : s.schema.type? type = some t) :
    Answers s base m (.fetchAll type) state := by
  obtain ⟨state', hrun, halike⟩ := s.exec_fetch type {} state
  have hafter : s.Represents base state'.files m := halike.files ▸ h
  have hfound : s.found state.files type {} = s.stored state.files type := by
    rw [s.found_of_filter state.files ht none]
    cases s.stored state.files type with
    | error cause => rfl
    | ok docs =>
      change Except.ok (docs.filter fun _ => true) = _
      rw [List.filter_true]
  unfold Answers Store.answer Shelf.answer Answer.run
  dsimp only
  rw [hrun, hfound]
  unfold stored
  rcases h.documentFiles_eq htype with ⟨path, cause, hfiles⟩ | hfiles
  · rw [hfiles]
    exact .inl ⟨rfl, hafter⟩
  · rw [hfiles]
    change (Answer.of .fetched (documents _ _)).isIo = true ∧ _ ∨
      Answer.of .fetched (documents _ _) = _ ∧ _
    rw [h.documents_keys hread htype]
    exact .inr ⟨rfl, hafter⟩

/-- Every call gives the answer of the shelf, or fails because of the files. -/
theorem answers (h : s.Represents base state.files m) (hread : ReadsBack m) {call : Call}
    (htype : IsStep call.type) (hknown : (s.schema.type? call.type).isSome = true) :
    Answers s base m call state := by
  cases call with
  | create type id doc => exact h.answers_create htype id doc
  | replace type id doc => exact h.answers_replace htype id doc
  | delete type id => exact h.answers_delete htype id
  | load type id => exact h.answers_load hread htype id
  | fetchAll type =>
    obtain ⟨t, ht⟩ := Option.isSome_iff_exists.mp hknown
    exact h.answers_fetchAll hread htype ht

end Represents

/-- What a call leaves on a shelf reads back where the document that it writes does. -/
theorem ReadsBack.answer (h : ReadsBack m) {call : Call}
    (hdoc : ∀ doc, call.doc? = some doc →
      Json.ofText? (Json.pretty (.obj doc)) = some (.obj doc)) :
    ReadsBack (m.answer call).2 := by
  have hput : ∀ type id doc, Json.ofText? (Json.pretty (.obj doc)) = some (.obj doc) →
      ReadsBack (m.put type id doc) := by
    intro type id doc hreads t n other hother
    rw [Shelf.get?_put] at hother
    split at hother
    · cases hother
      exact hreads
    · exact h t n other hother
  cases call with
  | create type id doc =>
    unfold Shelf.answer
    dsimp only
    split
    · exact h
    · exact h
    · exact hput type id doc (hdoc doc rfl)
  | replace type id doc =>
    unfold Shelf.answer
    dsimp only
    split
    · exact h
    · exact h
    · exact hput type id doc (hdoc doc rfl)
  | delete type id =>
    unfold Shelf.answer
    dsimp only
    split
    · exact h
    · intro t n other hother
      rw [Shelf.get?_remove] at hother
      split at hother
      · cases hother
      · exact h t n other hother
  | load type id =>
    unfold Shelf.answer
    dsimp only
    split <;> exact h
  | fetchAll type => exact h

/-- Calls that do not fail because of the files give the answers of the shelf, and leave files that
represent what is left of it. -/
theorem answers_represented (h : s.Represents base state.files m) (hread : ReadsBack m)
    (calls : List Call)
    (htypes : ∀ call ∈ calls, IsStep call.type ∧ (s.schema.type? call.type).isSome = true)
    (hdocs : ∀ call ∈ calls, ∀ doc, call.doc? = some doc →
      Json.ofText? (Json.pretty (.obj doc)) = some (.obj doc))
    (hio : ∀ answer ∈ (answers s.answer calls state).1, answer.isIo = false) :
    (answers s.answer calls state).1 = (answers Shelf.answer calls m).1 ∧
      s.Represents base (answers s.answer calls state).2.files
        (answers Shelf.answer calls m).2 ∧ ReadsBack (answers Shelf.answer calls m).2 := by
  induction calls generalizing state m with
  | nil => exact ⟨rfl, h, hread⟩
  | cons call calls ih =>
    obtain ⟨htype, hknown⟩ := htypes call List.mem_cons_self
    rcases h.answers hread htype hknown with ⟨hfailed, -⟩ | ⟨hanswer, hafter⟩
    · have hfirst : (s.answer call state).1.isIo = false := hio _ List.mem_cons_self
      rw [hfirst] at hfailed
      cases hfailed
    · obtain ⟨hrest, hfinal⟩ := ih hafter (hread.answer (hdocs call List.mem_cons_self))
        (fun other hother => htypes other (List.mem_cons_of_mem _ hother))
        (fun other hother => hdocs other (List.mem_cons_of_mem _ hother))
        (fun answer hin => hio answer (List.mem_cons_of_mem _ hin))
      exact ⟨congrArg₂ List.cons hanswer hrest, hfinal⟩

/-- A store that starts in an empty directory is a finite map from types and ids to documents: all
calls together give the answers of the map, whose documents of a type stand in the order of the
bytes of their ids, and the files represent what is left of the map. A call that fails then, for
whatever cause, leaves files that represent the same map, and no call changes a document but its
own. Types have to be known and plain names, documents have to read back, and no call before may
fail because of the files. -/
theorem answers_eq_shelf (s : Store) (base : List String) (state : State) (calls : List Call)
    (hsound : state.files.Sound) (hroot : state.files.locate s.root = .ok base)
    (hdir : state.files.get? base = some .directory)
    (hempty : ∀ place, place ≠ [] → state.files.get? (base ++ place) = none)
    (htypes : ∀ call ∈ calls, IsStep call.type ∧ (s.schema.type? call.type).isSome = true)
    (hdocs : ∀ call ∈ calls, ∀ doc, call.doc? = some doc →
      Json.ofText? (Json.pretty (.obj doc)) = some (.obj doc))
    (hio : ∀ answer ∈ (answers s.answer calls state).1, answer.isIo = false) :
    let left := answers s.answer calls state
    let shelf := answers Shelf.answer calls Shelf.empty
    left.1 = shelf.1 ∧ s.Represents base left.2.files shelf.2 ∧
      (∀ type, (shelf.2 type).Pairwise fun a b => Text.bytes a.1 < Text.bytes b.1) ∧
      ∀ call, IsStep call.type → (s.schema.type? call.type).isSome = true →
        (∀ cause, (s.answer call left.2).1 = .failed cause →
          s.Represents base (s.answer call left.2).2.files shelf.2) ∧
        ∀ type id, ¬ (type = call.type ∧ some id = call.id?) →
          (Shelf.answer call shelf.2).2.get? type id = shelf.2.get? type id := by
  intro left shelf
  have hstart := represents_empty hsound hroot hdir hempty
  have hnone : ReadsBack Shelf.empty := fun _ _ _ hdoc => by cases hdoc
  obtain ⟨hanswers, hfinal, hread⟩ :=
    answers_represented hstart hnone calls htypes hdocs hio
  refine ⟨hanswers, hfinal,
    fun type => (hfinal.ascending type).imp fun hlt => Text.lt_iff_bytes_lt.mp hlt,
    fun call htype hknown => ⟨fun cause hfailed => ?_, fun type id => shelf.2.get?_answer call⟩⟩
  rcases hfinal.answers hread htype hknown with ⟨-, hsame⟩ | ⟨hanswer, hafter⟩
  · exact hsame
  · have hleft : (Shelf.answer call shelf.2).2 = shelf.2 :=
      Shelf.answer_of_failed (hanswer.symm.trans hfailed)
    rwa [hleft] at hafter

section

private def river : DocumentType where
  name := "Rio"
  fields := [.ofIdentifier "id", .ofScalar "nombre" .string]

private def rivers : Store := ⟨⟨"./data/../data"⟩, "default", ⟨[river]⟩⟩

private def riverbed : State where
  files := ⟨[(["data"], .directory)]⟩

private def riverOf (id name : String) : Document := [("id", .str id), ("nombre", .str name)]

private def riverCalls : List Call :=
  [.load "Rio" "r1", .create "Rio" "r1" (riverOf "r1" "Bermejo"),
    .create "Rio" "r1" (riverOf "r1" "Pilcomayo"), .fetchAll "Rio",
    .replace "Rio" "r2" (riverOf "r2" "Salado"), .replace "Rio" "r1" (riverOf "r1" "Salado"),
    .load "Rio" "r1", .load "Rio" "r/1", .delete "Rio" "r1", .delete "Rio" "r1", .fetchAll "Rio"]

private theorem riverCalls_readBack (call : Call) (hcall : call ∈ riverCalls) (doc : Document)
    (hdoc : call.doc? = some doc) : Json.ofText? (Json.pretty (.obj doc)) = some (.obj doc) := by
  have hall : ∀ call ∈ riverCalls, call.doc?.all (fun doc =>
      decide (Json.ofText? (Json.pretty (.obj doc)) = some (.obj doc))) = true := by decide +kernel
  have hone := hall call hcall
  rw [hdoc] at hone
  exact of_decide_eq_true hone

theorem answers_eq_shelf_rivers :
    (answers rivers.answer riverCalls riverbed).1 =
      (answers Shelf.answer riverCalls Shelf.empty).1 :=
  (answers_eq_shelf rivers ["data"] riverbed riverCalls
    (FileTree.sound_of_entries (by decide +kernel) (by decide)) (by decide +kernel)
    (by decide +kernel)
    (fun place hplace => by
      have hne : ["data"] ++ place ≠ ["data"] := by simpa using hplace
      rw [FileTree.get?_of_ne_nil _ (by simp)]
      exact (FileTree.lookup_cons _ _ _ _).trans (if_neg hne))
    (by decide +kernel) riverCalls_readBack (by decide +kernel)).1

end

end Store

end DocumentEngine
