import DocumentEngine.Proofs.Store.Sweep

/-!
Sessions of a represented store. Every operation moves the shelf by at most the one document that it
is about, or leaves it as it is; what is staged keeps a file of its own until it is published or
swept away, and a file that is swept away never comes back.
-/

namespace DocumentEngine.Store

open Action
open Path (IsStep)

/-- The document that an operation puts in place where it succeeds, with its type and its id. -/
def Operation.given? (w : Session) : Operation → Option (String × String × Document)
  | .create type id doc => some (type, id, doc)
  | .replace type id doc => some (type, id, doc)
  | .publish index =>
    (w.staged[index]?).map fun staged => (staged.type, staged.id, staged.doc)
  | _ => none

/-- The documents that operations put in place, one after the other. -/
def given (s : Store) : List Operation → Session → List (String × String × Document)
  | [], _ => []
  | op :: ops, w => (op.given? w).toList ++ s.given ops (s.perform op w)

/-- The shelves that an operation may leave of a shelf. -/
inductive Moved (w : Session) (op : Operation) (m : Shelf) : Shelf → Prop where
  | same : Moved w op m m
  | put {type id : String} {doc : Document} (hgiven : op.given? w = some (type, id, doc)) :
      Moved w op m (m.put type id doc)
  | removed {type id : String} (hop : op = .delete type id) : Moved w op m (m.remove type id)

/-- What is staged has a file of its own, named by a count that was given before, until that is
published or swept away. -/
structure Outstanding (s : Store) (base : List String) (state : State) (staged : Staged) : Prop where
  type : IsStep staged.type
  id : idFault? staged.id = none
  held : ∃ count < state.minted,
    staged.write = ⟨(s.typeDir staged.type).join staged.id,
      (s.typeDir staged.type).join (tempName staged.id count)⟩ ∧
    (state.files.get? (base ++ [staged.type, tempName staged.id count]) = none ∨
      state.files.get? (base ++ [staged.type, tempName staged.id count]) =
        some (.file (some (Json.pretty (.obj staged.doc)))))

/-- A session whose files hold the documents of a shelf, with all that is staged. -/
structure Tracks (s : Store) (base : List String) (w : Session) (m : Shelf) : Prop where
  shelf : s.Represents base w.state.files m
  outstanding : ∀ staged ∈ w.staged, s.Outstanding base w.state staged

/-- The document that an operation is about, if it is about one: its type and its id. -/
def Operation.target? (w : Session) : Operation → Option (String × String)
  | .create type id _ => some (type, id)
  | .replace type id _ => some (type, id)
  | .delete type id => some (type, id)
  | .publish index => (w.staged[index]?).map fun staged => (staged.type, staged.id)
  | _ => none

variable {s : Store} {base : List String} {type id : String} {doc : Document}
  {state state' : State} {files : FileTree} {m m' : Shelf} {w : Session} {op : Operation}
  {staged : Staged}

theorem Operation.target?_of_given? (h : op.given? w = some (type, id, doc)) :
    op.target? w = some (type, id) := by
  cases op with
  | publish index =>
    obtain ⟨staged, hstaged, heq⟩ := Option.map_eq_some_iff.mp h
    cases heq
    exact Option.map_eq_some_iff.mpr ⟨staged, hstaged, rfl⟩
  | delete type id => cases h
  | stage type id doc => cases h
  | sweep => cases h
  | _ =>
    cases h
    rfl

theorem performAll_append (s : Store) (early late : List Operation) (w : Session) :
    s.performAll (early ++ late) w = s.performAll late (s.performAll early w) :=
  List.foldl_append

theorem given_append (s : Store) (early late : List Operation) (w : Session) :
    s.given (early ++ late) w = s.given early w ++ s.given late (s.performAll early w) := by
  induction early generalizing w with
  | nil => rfl
  | cons op early ih =>
    rw [List.cons_append, given, ih, given, List.append_assoc]
    rfl

namespace Moved

/-- A document on the shelf was there before, or is the one that the operation puts in place. -/
theorem get?_of_some (h : Moved w op m m') (hdoc : m'.get? type id = some doc) :
    m.get? type id = some doc ∨ (type, id, doc) ∈ (op.given? w).toList := by
  cases h with
  | same => exact .inl hdoc
  | put hgiven =>
    rw [Shelf.get?_put] at hdoc
    split at hdoc
    · rename_i heq
      cases hdoc
      rw [hgiven, heq.1, heq.2]
      exact .inr List.mem_cons_self
    · exact .inl hdoc
  | removed hop =>
    rw [Shelf.get?_remove] at hdoc
    split at hdoc
    · cases hdoc
    · exact .inl hdoc

/-- All documents but the one that the operation is about are as before. -/
theorem get?_of_ne (h : Moved w op m m') (hne : op.target? w ≠ some (type, id)) :
    m'.get? type id = m.get? type id := by
  cases h with
  | same => rfl
  | put hgiven =>
    rw [Shelf.get?_put, if_neg]
    rintro ⟨rfl, rfl⟩
    exact hne (Operation.target?_of_given? hgiven)
  | removed hop =>
    rw [Shelf.get?_remove, if_neg]
    rintro ⟨rfl, rfl⟩
    exact hne (by rw [hop]; rfl)

end Moved

/-- What is staged stays staged in later states, or is gone. -/
theorem Outstanding.ages (h : s.Outstanding base state staged) (hages : Ages base state state') :
    s.Outstanding base state' staged where
  type := h.type
  id := h.id
  held := by
    obtain ⟨count, hcount, hwrite, hheld⟩ := h.held
    refine ⟨count, hcount.trans_le hages.minted, hwrite, ?_⟩
    rcases hages.temps staged.type staged.id count hcount with hsame | hgone
    · rwa [hsame]
    · exact .inl hgone

theorem Tracks.of_ages (h : s.Tracks base w m) (hages : Ages base w.state state)
    (hshelf : s.Represents base state.files m') : s.Tracks base { w with state := state } m' :=
  ⟨hshelf, fun staged hstaged => (h.outstanding staged hstaged).ages hages⟩

/-- A check that looks at the files and leaves them, and lets plain ids pass only. -/
def Checks (id : String) (check : StoreM Unit) : Prop :=
  ∀ state, (∃ cause, exec check state = (.error cause, state)) ∨
    exec check state = (.ok (), state) ∧ idFault? id = none

theorem checks_checkAbsent (s : Store) (type id : String) : Checks id (s.checkAbsent type id) := by
  intro state
  rw [exec_checkAbsent]
  cases idFault? id with
  | some fault => exact .inl ⟨_, rfl⟩
  | none =>
    dsimp only
    split
    · exact .inl ⟨_, rfl⟩
    · exact .inr ⟨rfl, rfl⟩

theorem checks_checkPresent (s : Store) (type id : String) : Checks id (s.checkPresent type id) := by
  intro state
  rw [exec_checkPresent]
  cases idFault? id with
  | some fault => exact .inl ⟨_, rfl⟩
  | none =>
    dsimp only
    split
    · exact .inr ⟨rfl, rfl⟩
    · exact .inl ⟨_, rfl⟩

namespace Represents

/-- A write that is checked puts its document on the shelf, or leaves the shelf as it is. -/
theorem exec_checked (h : s.Represents base state.files m) (htype : IsStep type)
    {check : StoreM Unit} (hcheck : Checks id check)
    (hrun : (exec (do check; s.write type id doc) state).2 = state') :
    Ages base state state' ∧
      (s.Represents base state'.files m ∨ s.Represents base state'.files (m.put type id doc)) := by
  rcases hcheck state with ⟨cause, hfailed⟩ | ⟨hpassed, hid⟩
  · rw [exec_bind_error hfailed] at hrun
    subst hrun
    exact ⟨.refl base state, .inl h⟩
  · rw [exec_bind_ok hpassed] at hrun
    subst hrun
    obtain ⟨hages, ⟨_, _, -, hsame⟩ | ⟨-, hput⟩⟩ := h.exec_write htype hid (Prod.eta _).symm
    · exact ⟨hages, .inl hsame⟩
    · exact ⟨hages, .inr hput⟩

end Represents

namespace Tracks

theorem perform_checked (h : s.Tracks base w m) (htype : IsStep type) {check : StoreM Unit}
    (hcheck : Checks id check) (hgiven : op.given? w = some (type, id, doc))
    (hrun : (exec (do check; s.write type id doc) w.state).2 = state') :
    ∃ m', Moved w op m m' ∧ s.Tracks base { w with state := state' } m' ∧
      Ages base w.state state' := by
  obtain ⟨hages, hsame | hput⟩ := h.shelf.exec_checked htype hcheck hrun
  · exact ⟨m, .same, h.of_ages hages hsame, hages⟩
  · exact ⟨_, .put hgiven, h.of_ages hages hput, hages⟩

theorem perform_delete (h : s.Tracks base w m) (htype : IsStep type) (id : String) :
    ∃ m', Moved w (.delete type id) m m' ∧ s.Tracks base (s.perform (.delete type id) w) m' ∧
      Ages base w.state (s.perform (.delete type id) w).state := by
  change ∃ m', _ ∧ s.Tracks base { w with state := (exec (s.delete type id) w.state).2 } m' ∧
    Ages base w.state (exec (s.delete type id) w.state).2
  cases hid : idFault? id with
  | some fault =>
    have hfailed : exec (s.delete type id) w.state = (.error (.invalidId id fault), w.state) := by
      unfold delete documentPath
      rw [hid]
      rfl
    rw [hfailed]
    exact ⟨m, .same, h, .refl base w.state⟩
  | none =>
    obtain ⟨state', hrun, hshelf, hages⟩ := h.shelf.exec_delete htype hid
    rw [hrun]
    exact ⟨_, .removed rfl, h.of_ages hages hshelf, hages⟩

theorem perform_stage (h : s.Tracks base w m) (htype : IsStep type) (id : String) (doc : Document) :
    s.Tracks base (s.perform (.stage type id doc) w) m ∧
      Ages base w.state (s.perform (.stage type id doc) w).state := by
  rcases hrun : exec (s.stage type id doc) w.state with ⟨result, state'⟩
  have hperform : s.perform (.stage type id doc) w = match result with
      | .ok write => ⟨state', w.staged ++ [⟨type, id, doc, write⟩]⟩
      | .error _ => { w with state := state' } := by
    unfold Store.perform
    dsimp only
    rw [show (s.stage type id doc).run.run w.state = (result, state') from hrun]
    cases result <;> rfl
  rw [hperform]
  cases hid : idFault? id with
  | some fault =>
    have hfailed : exec (s.stage type id doc) w.state = (.error (.invalidId id fault), w.state) := by
      unfold stage documentPath
      rw [hid]
      rfl
    cases hfailed.symm.trans hrun
    exact ⟨h, .refl base w.state⟩
  | none =>
    obtain ⟨hshelf, hages, ⟨_, _, rfl⟩ | ⟨rfl, hminted, hheld⟩⟩ := h.shelf.exec_stage htype hid hrun
    · exact ⟨h.of_ages hages hshelf, hages⟩
    · refine ⟨⟨hshelf, fun staged hstaged => ?_⟩, hages⟩
      rcases List.mem_append.mp hstaged with hstaged | hstaged
      · exact (h.outstanding staged hstaged).ages hages
      · rw [List.mem_singleton.mp hstaged]
        exact ⟨htype, hid, w.state.minted, hminted ▸ Nat.lt_succ_self _, rfl, .inr hheld⟩

theorem perform_publish (h : s.Tracks base w m) (index : Nat) :
    ∃ m', Moved w (.publish index) m m' ∧ s.Tracks base (s.perform (.publish index) w) m' ∧
      Ages base w.state (s.perform (.publish index) w).state := by
  unfold Store.perform
  dsimp only
  cases hstaged : w.staged[index]? with
  | none => exact ⟨m, .same, h, .refl base w.state⟩
  | some staged =>
    dsimp only
    have hgiven : Operation.given? w (.publish index) =
        some (staged.type, staged.id, staged.doc) :=
      Option.map_eq_some_iff.mpr ⟨staged, hstaged, rfl⟩
    obtain ⟨htype, hid, count, hcount, hwrite, hheld⟩ :=
      h.outstanding staged (List.mem_of_getElem? hstaged)
    have hrest : ∀ {state'} (m'), s.Represents base state'.files m' → Ages base w.state state' →
        s.Tracks base ⟨state', w.staged.eraseIdx index⟩ m' := fun m' hshelf hages =>
      ⟨hshelf, fun other hother =>
        (h.outstanding other (List.mem_of_mem_eraseIdx hother)).ages hages⟩
    change ∃ m', _ ∧ s.Tracks base ⟨(exec (publish staged.write) w.state).2, _⟩ m' ∧
      Ages base w.state (exec (publish staged.write) w.state).2
    rw [hwrite]
    rcases hrun : exec (publish _) w.state with ⟨result, state'⟩
    obtain ⟨_, _, -, rfl⟩ | ⟨-, -, hshelf, hages⟩ := h.shelf.exec_publish htype hid
      (isStep_tempName (isName_of_idFault? hid) count) (isTempName_tempName _ count) hheld hrun
    · exact ⟨m, .same, hrest m h.shelf (.refl base _), .refl base _⟩
    · exact ⟨_, .put hgiven, hrest _ hshelf hages, hages⟩

/-- Every operation moves the shelf by at most its own document and leaves what is staged. -/
theorem perform (h : s.Tracks base w m) (op : Operation)
    (htype : ∀ type, op.type? = some type → IsStep type) :
    ∃ m', Moved w op m m' ∧ s.Tracks base (s.perform op w) m' ∧
      Ages base w.state (s.perform op w).state := by
  cases op with
  | create type id doc =>
    exact h.perform_checked (htype type rfl) (checks_checkAbsent s type id) rfl rfl
  | replace type id doc =>
    exact h.perform_checked (htype type rfl) (checks_checkPresent s type id) rfl rfl
  | delete type id => exact h.perform_delete (htype type rfl) id
  | stage type id doc => exact ⟨m, .same, h.perform_stage (htype type rfl) id doc⟩
  | publish index => exact h.perform_publish index
  | sweep =>
    obtain ⟨state', hrun, hshelf, hages, -⟩ := h.shelf.exec_sweep_spec
    have hstate : s.perform .sweep w = { w with state := state' } := by
      change { w with state := (exec s.sweep w.state).2 } = _
      rw [hrun]
    rw [hstate]
    exact ⟨m, .same, h.of_ages hages hshelf, hages⟩

/-- A session tracks a shelf whatever operations run. -/
theorem performAll (h : s.Tracks base w m) (ops : List Operation)
    (htypes : ∀ op ∈ ops, ∀ type, op.type? = some type → IsStep type) :
    ∃ m', s.Tracks base (s.performAll ops w) m' ∧ Ages base w.state (s.performAll ops w).state ∧
      ∀ type id doc, m'.get? type id = some doc →
        m.get? type id = some doc ∨ (type, id, doc) ∈ s.given ops w := by
  induction ops generalizing w m with
  | nil => exact ⟨m, h, .refl base w.state, fun _ _ _ hdoc => .inl hdoc⟩
  | cons op ops ih =>
    obtain ⟨between, hmoved, hbetween, hages⟩ := h.perform op (htypes op List.mem_cons_self)
    obtain ⟨m', hafter, hlater, hdocs⟩ :=
      ih hbetween fun other hother => htypes other (List.mem_cons_of_mem _ hother)
    refine ⟨m', hafter, hages.trans hlater, fun type id doc hdoc => ?_⟩
    rcases hdocs type id doc hdoc with hdoc | hdoc
    · exact (hmoved.get?_of_some hdoc).imp_right (List.mem_append_left _)
    · exact .inr (List.mem_append_right _ hdoc)

end Tracks

end DocumentEngine.Store
