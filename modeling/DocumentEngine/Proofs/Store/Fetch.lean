import DocumentEngine.Proofs.Evaluation.Operators
import DocumentEngine.Proofs.Json.Reader
import DocumentEngine.Proofs.State
import DocumentEngine.Proofs.Store.Rows
import DocumentEngine.Proofs.Text

/-!
What a fetch gives. It reads the documents of the type, keeps the rows of those that the query asks
for, and changes nothing but counters and the log. A fetch by ids finds every stored document with
one of the ids.
-/

namespace DocumentEngine

open Action Evaluation

namespace Store

/-- The stored documents of a type in the order of their files. -/
def stored (s : Store) (files : FileTree) (type : String) : Except StoreError (List Document) :=
  s.documentFiles files type >>= documents files

/-- The documents of a type that a query asks for. -/
def found (s : Store) (files : FileTree) (type : String) (query : Query) :
    Except StoreError (List Document) :=
  match s.schema.type? type with
  | none => .error (.unknownType type)
  | some t => (s.stored files type).map fun docs =>
    (selectRows query (docs.filterMap fun doc =>
      (row? s.schema (s.related? files) t query [] doc).1)).map Row.doc

theorem warnUnreadable_alike (s : Store) (files : FileTree) (state : State) (load : Load) :
    (s.warnUnreadable files state load).Alike state := by
  unfold warnUnreadable
  split
  · exact .refl state
  · exact .warn state _ _

theorem warnAll_alike (s : Store) (files : FileTree) (memo : Memo) (state : State) :
    (memo.foldl (s.warnUnreadable files) state).Alike state := by
  induction memo generalizing state with
  | nil => exact .refl state
  | cons load memo ih => exact (ih _).trans (warnUnreadable_alike s files state load)

theorem exec_reportFetch (s : Store) (type : String) (query : Query) (scanned returned : Nat)
    (state : State) :
    ∃ state', exec (s.reportFetch type query scanned returned) state = (.ok ⟨⟩, state') ∧
      state'.Alike state :=
  ⟨_, exec_modify _ _, ⟨rfl, rfl⟩⟩

/-- A fetch gives the documents that the query asks for and leaves files and identifiers as they
are. -/
theorem exec_fetch (s : Store) (type : String) (query : Query) (state : State) :
    ∃ state', exec (s.fetch type query) state = (s.found state.files type query, state') ∧
      state'.Alike state := by
  unfold fetch found stored
  cases s.schema.type? type with
  | none => exact ⟨state, rfl, .refl state⟩
  | some t =>
    dsimp only
    rw [exec_bind_ok (exec_get state)]
    cases hpaths : s.documentFiles state.files type with
    | error e =>
      refine ⟨state, ?_, .refl state⟩
      rw [exec_bind, exec_lift]
      rfl
    | ok paths =>
      rw [exec_bind_ok (exec_lift _ _)]
      have hrows := rows_eq (s := s.schema) (t := t) (Memo.faithful_nil (s.related? state.files))
        query state.files paths
      rcases hfound : rows s.schema (s.related? state.files) t query state.files [] paths with
        ⟨result, memo⟩
      rw [hfound] at hrows
      dsimp only at hrows ⊢
      rw [exec_bind_ok (exec_modify _ _)]
      have hwarned := warnAll_alike s state.files memo state
      generalize memo.foldl (s.warnUnreadable state.files) state = warned at hwarned ⊢
      subst hrows
      cases hdocs : documents state.files paths with
      | error e =>
        refine ⟨warned, ?_, hwarned⟩
        rw [exec_bind, exec_lift]
        change _ = (Except.map _ (documents state.files paths), warned)
        rw [hdocs]
        rfl
      | ok docs =>
        obtain ⟨reported, hreport, hsame⟩ := exec_reportFetch s type query paths.length
          (selectRows query (docs.filterMap fun doc =>
            (row? s.schema (s.related? state.files) t query [] doc).1)).length warned
        refine ⟨reported, ?_, hsame.trans hwarned⟩
        change _ = (Except.map _ (documents state.files paths), reported)
        rw [hdocs, Except.map, exec_bind_ok (exec_lift _ _), exec_bind_ok hreport]
        rfl

theorem selectRows_all (filter : Option Filter) (rows : List Row) :
    selectRows { filter := filter } rows = rows := by
  unfold selectRows sortRows
  exact List.mergeSort_of_pairwise (List.pairwise_of_forall fun _ _ => rfl)

/-- A fetch with nothing but a filter finds the stored documents that pass it. -/
theorem found_of_filter (s : Store) (files : FileTree) {type : String} {t : DocumentType}
    (ht : s.schema.type? type = some t) (filter : Option Filter) :
    s.found files type { filter := filter } = (s.stored files type).map
      (·.filter fun doc => (verdictOf s.schema (s.related? files) t filter [] doc).holds) := by
  have hrow : ∀ doc : Document, (row? s.schema (s.related? files) t
      { filter := filter } [] doc).1 =
        if (verdictOf s.schema (s.related? files) t filter [] doc).holds then some ⟨[], doc⟩
        else none := by
    intro doc
    rw [row?_eq]
    simp [passesCursor, sortKeys]
  unfold found
  simp only [ht, selectRows_all, hrow]
  congr 1
  funext docs
  induction docs with
  | nil => rfl
  | cons doc docs ih =>
    rw [List.filterMap_cons, List.filter_cons]
    cases (verdictOf s.schema (s.related? files) t filter [] doc).holds with
    | false => simpa using ih
    | true => simpa using ih

/-- A condition on a field of its own reads the field and nothing else. -/
theorem test_field (s : Schema) (loader : Loader) (t : DocumentType) (doc : Document)
    (memo : Memo) {field : String} (hfield : '.' ∉ field.toList) (op : Operator)
    (targets : List Json) :
    test s loader t doc memo field op targets =
      ⟨satisfies op (fieldValue t doc field) targets, doc, memo⟩ := by
  rw [test, resolvePath, Text.splitAt_of_notMem hfield]
  rfl

/-- A fetch with one condition on a field of its own finds the stored documents whose field passes
it. -/
theorem found_of_condition (s : Store) (files : FileTree) {type : String} {t : DocumentType}
    (ht : s.schema.type? type = some t) (c : Condition) (hc : '.' ∉ c.field.toList) :
    s.found files type { filter := some (.condition c) } = (s.stored files type).map
      (·.filter fun doc => satisfies c.operator (fieldValue t doc c.field) c.operand.values) := by
  rw [found_of_filter s files ht]
  simp only [verdictOf, passes, test_field _ _ _ _ _ hc]

theorem mem_documents {files : FileTree} {paths : List Path} {docs : List Document}
    (h : documents files paths = .ok docs) {doc : Document} (hdoc : doc ∈ docs) :
    ∃ path ∈ paths, readDocument? files path = .ok (some doc) := by
  induction paths generalizing docs with
  | nil =>
    cases h
    cases hdoc
  | cons path paths ih =>
    rw [documents] at h
    cases hread : readDocument? files path with
    | error e => simp [hread] at h
    | ok found =>
      rw [hread] at h
      cases hrest : documents files paths with
      | error e => simp [hrest, Except.map] at h
      | ok rest =>
        rw [hrest] at h
        cases h
        rcases List.mem_append.mp hdoc with hdoc | hdoc
        · exact ⟨path, List.mem_cons_self, by rw [hread, Option.mem_toList.mp hdoc]⟩
        · obtain ⟨path', hmem, hpath'⟩ := ih hrest hdoc
          exact ⟨path', List.mem_cons_of_mem _ hmem, hpath'⟩

theorem mem_stored {s : Store} {files : FileTree} {type : String} {docs : List Document}
    (h : s.stored files type = .ok docs) {doc : Document} (hdoc : doc ∈ docs) :
    ∃ paths, s.documentFiles files type = .ok paths ∧
      ∃ path ∈ paths, readDocument? files path = .ok (some doc) := by
  unfold stored at h
  cases hpaths : s.documentFiles files type with
  | error e =>
    rw [hpaths] at h
    cases h
  | ok paths =>
    rw [hpaths] at h
    exact ⟨paths, rfl, mem_documents h hdoc⟩

theorem mem_selectRows {query : Query} {rows : List Row} {row : Row}
    (h : row ∈ selectRows query rows) : row ∈ rows := by
  have hsorted : row ∈ sortRows query.sort rows := by
    unfold selectRows at h
    cases hlimit : query.limit with
    | none =>
      rw [hlimit] at h
      exact h
    | some n =>
      rw [hlimit] at h
      exact List.mem_of_mem_take h
  exact List.mem_mergeSort.mp hsorted

/-- A document that a fetch finds is a stored one. -/
theorem mem_stored_of_found {s : Store} {files : FileTree} {type : String} {query : Query}
    {docs : List Document} (h : s.found files type query = .ok docs) {doc : Document}
    (hdoc : doc ∈ docs) : ∃ all, s.stored files type = .ok all ∧ doc ∈ all := by
  unfold found at h
  cases ht : s.schema.type? type with
  | none =>
    rw [ht] at h
    cases h
  | some t =>
    rw [ht] at h
    cases hall : s.stored files type with
    | error cause =>
      rw [hall] at h
      cases h
    | ok all =>
      rw [hall] at h
      cases h
      obtain ⟨row, hselected, rfl⟩ := List.mem_map.mp hdoc
      obtain ⟨stored, hstored, hrow⟩ := List.mem_filterMap.mp (mem_selectRows hselected)
      refine ⟨all, rfl, ?_⟩
      rw [row?_eq] at hrow
      dsimp only at hrow
      split at hrow
      · cases hrow
        exact hstored
      · cases hrow

/-- Every number of a stored document fits its kind. -/
theorem inRange_of_stored {s : Store} {files : FileTree} {type : String} {docs : List Document}
    (h : s.stored files type = .ok docs) {doc : Document} (hdoc : doc ∈ docs) {key : String}
    {n : Number} (hn : doc.get? key = some (.num n)) : n.InRange := by
  obtain ⟨paths, -, path, -, hread⟩ := mem_stored h hdoc
  unfold readDocument? at hread
  split at hread
  · rename_i text htext
    cases hdecode : decode path text with
    | error e => simp [hdecode, Except.map] at hread
    | ok found =>
      rw [hdecode] at hread
      cases hread
      exact inRange_of_decode hdecode hn
  · cases hread
  · cases hread

/-- A value passes as one of some ids where it passes as one of them alone. -/
theorem satisfies_isIn_iff (v : Option Json) (ids : List String) :
    satisfies .isIn v (ids.map .str) = true ↔
      ∃ id ∈ ids, satisfies .isIn v [.str id] = true := by
  rw [satisfies_isIn_iff_exists]
  simp only [List.mem_map, exists_exists_and_eq_and]

/-- A stored document with one of the ids is among those that a fetch by ids finds. -/
theorem satisfies_isIn_of_id {v : Json} {id : String} {ids : List String}
    (hv : v.idText? = some id) (hrange : ∀ n, v = .num n → n.InRange) (hid : id ∈ ids) :
    satisfies .isIn (some v) (ids.map .str) = true := by
  obtain ⟨first, rest, hids⟩ : ∃ first rest, ids = first :: rest :=
    List.exists_cons_of_ne_nil (List.ne_nil_of_mem hid)
  have hloose : looseEq v (.str id) = true := by
    cases v with
    | str text =>
      cases hv
      simp [looseEq, Json.same]
    | num n =>
      cases hv
      exact looseEq_text (hrange n rfl)
    | _ => cases hv
  have hany : (ids.map Json.str).any (fun target => looseEq v target) = true :=
    List.any_eq_true.mpr ⟨_, List.mem_map_of_mem hid, hloose⟩
  cases v with
  | str text =>
    rw [hids] at hany ⊢
    exact hany
  | num n =>
    rw [hids] at hany ⊢
    exact hany
  | _ => cases hv

theorem satisfies_isIn_singleton {v : Json} {id id' : String} (hv : v.idText? = some id') :
    satisfies .isIn (some v) [.str id] = looseEq v (.str id) := by
  cases v with
  | str text => simp [satisfies, satisfiesScalar]
  | num n => simp [satisfies, satisfiesScalar]
  | _ => cases hv

/-- What passes as the id of a value that passes as another id has that id for its own or passes as
the other id too. -/
theorem satisfies_isIn_trans {v w : Json} {id own other : String} (hv : v.idText? = some own)
    (hrange : ∀ n, v = .num n → n.InRange) (hpass : satisfies .isIn (some v) [.str id] = true)
    (hw : w.idText? = some other) (hpass' : satisfies .isIn (some w) [.str own] = true) :
    other = own ∨ satisfies .isIn (some w) [.str id] = true := by
  rw [satisfies_isIn_singleton hv] at hpass
  rw [satisfies_isIn_singleton hw] at hpass' ⊢
  cases w with
  | str text =>
    cases hw
    exact .inl (looseEq_str_iff.mp hpass')
  | num m =>
    right
    cases v with
    | str text =>
      cases hv
      rwa [← looseEq_str_iff.mp hpass]
    | num n =>
      cases hv
      have hown := looseEq_num_iff.mp (looseEq_text (hrange n rfl))
      rw [looseEq_num_iff] at hpass hpass' ⊢
      rw [hpass, ← hown, hpass']
    | _ => cases hv
  | _ => cases hw

end Store

end DocumentEngine
