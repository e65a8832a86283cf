import DocumentEngine.Evaluation.Relation
import DocumentEngine.Proofs.Keyed

/-!
Paths read without a memo. What a path gives and how it fills the document in depend only on the
document and the loader: a memo that repeats what the loader says changes neither. The two halves
of a resolution are separate recursions here, so that each can be reasoned about alone.
-/

namespace DocumentEngine

/-- The relation under a field name: the field, and the type that it refers to. -/
def Schema.relation? (s : Schema) (t : DocumentType) (name : String) :
    Option (Field × DocumentType) :=
  match t.field? name with
  | none => none
  | some f => (f.target? >>= s.type?).map fun u => (f, u)

theorem Schema.relation?_eq_some_iff {s : Schema} {t : DocumentType} {name : String} {f : Field}
    {u : DocumentType} :
    s.relation? t name = some (f, u) ↔
      t.field? name = some f ∧ f.target? >>= s.type? = some u := by
  unfold Schema.relation?
  cases t.field? name with
  | none => simp
  | some g =>
    simp only [Option.map_eq_some_iff, Prod.mk.injEq, Option.some.injEq]
    constructor
    · rintro ⟨w, hw, rfl, rfl⟩
      exact ⟨rfl, hw⟩
    · rintro ⟨rfl, hu⟩
      exact ⟨u, hu, rfl, rfl⟩

namespace Evaluation

/-- Every document in a memo is the one that the loader gives. -/
def Memo.Faithful (loader : Loader) (memo : Memo) : Prop :=
  ∀ l ∈ memo, l.found = loader l.type l.id

/-- The value of a pointer with documents in place of their ids. -/
def related? (loader : Loader) (type : String) : Json → Option Json
  | .arr items => some (.arr (((items.filterMap Json.idText?).filterMap (loader type)).map .obj))
  | pointer => (pointer.idText? >>= loader type).map .obj

/-- The values that an item of a list has below it. -/
def itemValues (below : Document → Option Json) : Json → List Json
  | .obj related => contribution (below related)
  | _ => []

/-- The value below a relation: of its document, or of all documents of its list. -/
def gather (below : Document → Option Json) : Json → Option Json
  | .obj related => below related
  | .arr items =>
    let values := items.flatMap (itemValues below)
    if values.isEmpty then none else some (.arr values)
  | _ => none

/-- An item with its document filled in. -/
def fillItem (below : Document → Document) : Json → Json
  | .obj related => .obj (below related)
  | v => v

/-- A relation with its documents filled in. -/
def fillRelation (below : Document → Document) : Json → Json
  | .obj related => .obj (below related)
  | .arr items => .arr (items.map (fillItem below))
  | v => v

/-- The document with a relation filled in under a name; a scalar there stays as it is. -/
def putRelation (below : Document → Document) (doc : Document) (name : String) : Json → Document
  | .obj related => doc.insert name (fillRelation below (.obj related))
  | .arr items => doc.insert name (fillRelation below (.arr items))
  | _ => doc

/-- The value that a relation has in a document, or that its pointer leads to. -/
def relationValue? (loader : Loader) (doc : Document) (f : Field) (u : DocumentType)
    (name : String) : Option Json :=
  match doc.get? name with
  | some v => some v
  | none => doc.get? f.pointerKey >>= related? loader u.name

/-- The value at a path of a document. -/
def read (s : Schema) (loader : Loader) (t : DocumentType) (doc : Document) :
    List String → Option Json
  | [] => none
  | [name] => fieldValue t doc name
  | name :: next :: rest =>
    match s.relation? t name with
    | none => none
    | some (f, u) =>
      if doc.contains name = false ∧ next :: rest = [u.identifierName] then doc.get? f.pointerKey
      else
        relationValue? loader doc f u name >>=
          gather fun related => read s loader u related (next :: rest)

/-- The document after a path was read: the relations on the way are filled in. -/
def filled (s : Schema) (loader : Loader) (t : DocumentType) (doc : Document) :
    List String → Document
  | [] => doc
  | [_] => doc
  | name :: next :: rest =>
    match s.relation? t name with
    | none => doc
    | some (f, u) =>
      if doc.contains name = false ∧ next :: rest = [u.identifierName] then doc
      else
        match relationValue? loader doc f u name with
        | none => doc
        | some v => putRelation (fun related => filled s loader u related (next :: rest)) doc name v

theorem read_of_no_relation {s : Schema} {t : DocumentType} {name : String}
    (h : s.relation? t name = none) (loader : Loader) (doc : Document) (next : String)
    (rest : List String) : read s loader t doc (name :: next :: rest) = none := by
  unfold read
  rw [h]

theorem read_of_relation {s : Schema} {t : DocumentType} {name : String} {f : Field}
    {u : DocumentType} (h : s.relation? t name = some (f, u)) (loader : Loader) (doc : Document)
    (next : String) (rest : List String) :
    read s loader t doc (name :: next :: rest) =
      if doc.contains name = false ∧ next :: rest = [u.identifierName] then doc.get? f.pointerKey
      else
        relationValue? loader doc f u name >>=
          gather fun related => read s loader u related (next :: rest) := by
  rw [read.eq_def]
  simp only [h]

theorem filled_of_no_relation {s : Schema} {t : DocumentType} {name : String}
    (h : s.relation? t name = none) (loader : Loader) (doc : Document) (next : String)
    (rest : List String) : filled s loader t doc (name :: next :: rest) = doc := by
  unfold filled
  rw [h]

theorem filled_of_relation {s : Schema} {t : DocumentType} {name : String} {f : Field}
    {u : DocumentType} (h : s.relation? t name = some (f, u)) (loader : Loader) (doc : Document)
    (next : String) (rest : List String) :
    filled s loader t doc (name :: next :: rest) =
      if doc.contains name = false ∧ next :: rest = [u.identifierName] then doc
      else
        match relationValue? loader doc f u name with
        | none => doc
        | some v =>
          putRelation (fun related => filled s loader u related (next :: rest)) doc name v := by
  rw [filled.eq_def]
  simp only [h]

/-- A resolution that gives what reading without a memo gives, and leaves a faithful memo. -/
structure Resolution.Reads (loader : Loader) (value : Option Json) (doc : Document)
    (r : Resolution) : Prop where
  value_eq : r.value = value
  doc_eq : r.doc = doc
  faithful : r.memo.Faithful loader

theorem Memo.faithful_nil (loader : Loader) : Memo.Faithful loader [] := by
  intro l hl
  cases hl

theorem load_spec {loader : Loader} {memo : Memo} (h : memo.Faithful loader) (type id : String) :
    (load loader memo type id).1 = loader type id ∧
      (load loader memo type id).2.Faithful loader := by
  unfold load Memo.find?
  cases hfind : List.find? (fun l : Load => l.type == type && l.id == id) memo with
  | none =>
    refine ⟨rfl, ?_⟩
    intro l hl
    rcases List.mem_append.mp hl with hl | hl
    · exact h l hl
    · rw [List.mem_singleton.mp hl]
  | some l =>
    have hkey := List.find?_some hfind
    simp only [Bool.and_eq_true, beq_iff_eq] at hkey
    refine ⟨?_, h⟩
    simpa only [Option.map_some, hkey.1, hkey.2] using h l (List.mem_of_find?_eq_some hfind)

theorem loadItems_spec {loader : Loader} (type : String) (items : List Json) {memo : Memo}
    (h : memo.Faithful loader) :
    (loadItems loader type memo items).1 =
        ((items.filterMap Json.idText?).filterMap (loader type)).map .obj ∧
      (loadItems loader type memo items).2.Faithful loader := by
  induction items generalizing memo with
  | nil => exact ⟨rfl, h⟩
  | cons item items ih =>
    unfold loadItems
    cases hid : item.idText? with
    | none => simpa only [List.filterMap_cons, hid] using ih h
    | some id =>
      obtain ⟨hfound, hmemo⟩ := load_spec h type id
      obtain ⟨hrest, hmemo'⟩ := ih hmemo
      simp only [List.filterMap_cons, hid]
      rw [hfound]
      cases loader type id with
      | none => exact ⟨hrest, hmemo'⟩
      | some doc => exact ⟨by simp [hrest], hmemo'⟩

theorem related?_of_not_list (loader : Loader) (type : String) {pointer : Json}
    (h : ∀ items, pointer ≠ .arr items) :
    related? loader type pointer = (pointer.idText? >>= loader type).map .obj := by
  cases pointer with
  | arr items => exact absurd rfl (h items)
  | _ => rfl

theorem expand_spec {loader : Loader} {memo : Memo} (h : memo.Faithful loader) (type : String)
    (pointer : Json) :
    (expand loader memo type pointer).1 = related? loader type pointer ∧
      (expand loader memo type pointer).2.Faithful loader := by
  unfold expand
  split
  · rename_i items
    obtain ⟨hdocs, hmemo⟩ := loadItems_spec type items h
    exact ⟨by simp only [related?, hdocs], hmemo⟩
  · rename_i hp
    rw [related?_of_not_list loader type hp]
    cases hid : pointer.idText? with
    | none => exact ⟨rfl, h⟩
    | some id =>
      obtain ⟨hfound, hmemo⟩ := load_spec h type id
      exact ⟨congrArg (Option.map Json.obj) hfound, hmemo⟩

theorem resolveItems_spec {loader : Loader} {below : Document → Memo → Resolution}
    {value : Document → Option Json} {fill : Document → Document}
    (hbelow : ∀ d memo, memo.Faithful loader → (below d memo).Reads loader (value d) (fill d))
    (items : List Json) {memo : Memo} (h : memo.Faithful loader) :
    (resolveItems below memo items).1 = items.flatMap (itemValues value) ∧
      (resolveItems below memo items).2.1 = items.map (fillItem fill) ∧
      (resolveItems below memo items).2.2.Faithful loader := by
  induction items generalizing memo with
  | nil => exact ⟨rfl, rfl, h⟩
  | cons item items ih =>
    cases item with
    | obj related =>
      obtain ⟨hvalue, hdoc, hmemo⟩ := hbelow related memo h
      obtain ⟨hvalues, hfilled, hmemo'⟩ := ih hmemo
      unfold resolveItems
      exact ⟨by simp only [hvalue, hvalues, List.flatMap_cons, itemValues],
        by simp only [hdoc, hfilled, List.map_cons, fillItem], hmemo'⟩
    | _ =>
      obtain ⟨hvalues, hfilled, hmemo'⟩ := ih h
      unfold resolveItems
      exact ⟨by simp only [hvalues, List.flatMap_cons, itemValues, List.nil_append],
        by simp only [hfilled, List.map_cons, fillItem], hmemo'⟩

theorem resolveBelow_spec {loader : Loader} {below : Document → Memo → Resolution}
    {value : Document → Option Json} {fill : Document → Document}
    (hbelow : ∀ d memo, memo.Faithful loader → (below d memo).Reads loader (value d) (fill d))
    (doc : Document) (name : String) {memo : Memo} (h : memo.Faithful loader) (v : Json) :
    (resolveBelow below doc name memo v).Reads loader (gather value v)
      (putRelation fill doc name v) := by
  cases v with
  | obj related =>
    obtain ⟨hvalue, hdoc, hmemo⟩ := hbelow related memo h
    exact ⟨hvalue, by simp only [resolveBelow, hdoc, putRelation, fillRelation], hmemo⟩
  | arr items =>
    obtain ⟨hvalues, hfilled, hmemo⟩ := resolveItems_spec hbelow items h
    exact ⟨by simp only [resolveBelow, hvalues, gather],
      by simp only [resolveBelow, hfilled, putRelation, fillRelation], hmemo⟩
  | _ => exact ⟨rfl, rfl, h⟩

/-- A pointer leads to a document or to a list of documents. -/
theorem related?_shape {loader : Loader} {type : String} {pointer v : Json}
    (h : related? loader type pointer = some v) :
    (∃ d, v = .obj d) ∨ ∃ ds : List Document, v = .arr (ds.map .obj) := by
  unfold related? at h
  split at h
  · exact Or.inr ⟨_, (Option.some.inj h).symm⟩
  · obtain ⟨d, -, hd⟩ := Option.map_eq_some_iff.mp h
    exact Or.inl ⟨d, hd.symm⟩

theorem putRelation_insert (fill : Document → Document) (doc : Document) (name : String)
    {loader : Loader} {type : String} {pointer v : Json}
    (hv : related? loader type pointer = some v) :
    putRelation fill (doc.insert name v) name v = putRelation fill doc name v := by
  rcases related?_shape hv with ⟨d, rfl⟩ | ⟨ds, rfl⟩
  · simp only [putRelation, Keyed.insert_insert]
  · simp only [putRelation, Keyed.insert_insert]

theorem resolve_of_no_relation {s : Schema} {t : DocumentType} {name : String}
    (h : s.relation? t name = none) (loader : Loader) (doc : Document) (memo : Memo)
    (next : String) (rest : List String) :
    resolve s loader t doc memo (name :: next :: rest) = ⟨none, doc, memo⟩ := by
  unfold Schema.relation? at h
  unfold resolve
  cases hf : t.field? name with
  | none => simp only
  | some f =>
    simp only [hf, Option.map_eq_none_iff] at h
    simp only [h]

/-- A path is resolved as it is read without a memo. -/
theorem resolve_spec (s : Schema) (loader : Loader) (t : DocumentType) (doc : Document)
    {memo : Memo} (h : memo.Faithful loader) (path : List String) :
    (resolve s loader t doc memo path).Reads loader (read s loader t doc path)
      (filled s loader t doc path) := by
  induction path generalizing t doc memo with
  | nil => exact ⟨rfl, rfl, h⟩
  | cons name path ih =>
    cases path with
    | nil => exact ⟨rfl, rfl, h⟩
    | cons next rest =>
      cases hrel : s.relation? t name with
      | none =>
        rw [resolve_of_no_relation hrel, read_of_no_relation hrel, filled_of_no_relation hrel]
        exact ⟨rfl, rfl, h⟩
      | some fu =>
        obtain ⟨f, u⟩ := fu
        rw [read_of_relation hrel, filled_of_relation hrel]
        obtain ⟨hf, hu⟩ := Schema.relation?_eq_some_iff.mp hrel
        have hbelow : ∀ d (m : Memo), m.Faithful loader →
            (resolve s loader u d m (next :: rest)).Reads loader
              (read s loader u d (next :: rest)) (filled s loader u d (next :: rest)) :=
          fun d m hm => ih u d hm
        unfold resolve
        simp only [hf, hu]
        cases hv : doc.get? name with
        | some v =>
          simpa [Keyed.contains, hv, relationValue?] using resolveBelow_spec hbelow doc name h v
        | none =>
          cases hp : doc.get? f.pointerKey with
          | none =>
            simpa [Keyed.contains, hv, hp, relationValue?] using
              (⟨rfl, rfl, h⟩ : Resolution.Reads loader none doc ⟨none, doc, memo⟩)
          | some pointer =>
            obtain ⟨hfound, hmemo⟩ := expand_spec h u.name pointer
            have hshort : (rest.isEmpty && decide (next = u.identifierName)) =
                decide (next :: rest = [u.identifierName]) := by
              cases rest <;> simp
            simp only [hshort, decide_eq_true_eq, Keyed.contains, hv, Option.isSome_none,
              true_and, relationValue?, hp]
            by_cases hid : next :: rest = [u.identifierName]
            · simp only [hid, if_true]
              exact ⟨rfl, rfl, h⟩
            · simp only [hid, if_false]
              rcases hexp : expand loader memo u.name pointer with ⟨found, memo'⟩
              rw [hexp] at hfound hmemo
              simp only [Option.bind_eq_bind, Option.bind_some, ← hfound]
              cases found with
              | none => exact ⟨rfl, rfl, hmemo⟩
              | some v =>
                have := resolveBelow_spec hbelow (doc.insert name v) name hmemo v
                rwa [putRelation_insert _ _ _ hfound.symm] at this

end Evaluation

end DocumentEngine
