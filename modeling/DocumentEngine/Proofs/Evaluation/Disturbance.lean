import DocumentEngine.Evaluation.Condition
import DocumentEngine.Proofs.Evaluation.Reading

/-!
When reading one path changes what another path reads. Reading fills in the relations that a path
goes through. A path that shows a pointer, because the document lacks the relation itself, no
longer shows it once the relation is filled in; nothing else is ever changed.
-/

namespace DocumentEngine.Evaluation

/-- The key of the pointer that a path shows on documents that lack its first field: a reference
alone shows its pointer, and so does the identifier right below a reference. -/
def shownPointer? (s : Schema) (t : DocumentType) : List String → Option String
  | [name] =>
    match t.field? name with
    | some f => if f.target?.isSome then some f.pointerKey else none
    | none => none
  | [name, below] =>
    match s.relation? t name with
    | some (f, u) => if below = u.identifierName then some f.pointerKey else none
    | none => none
  | _ => none

/-- Whether reading the first path can change what the second one reads: the first goes through a
relation, and the second shows a pointer that this relation replaces, or goes on below it. -/
def disturbs (s : Schema) (t : DocumentType) : List String → List String → Bool
  | name :: next :: rest, other :: below =>
    match s.relation? t name with
    | none => false
    | some (_, u) =>
      decide (next :: rest ≠ [u.identifierName]) &&
        if other = name then
          (shownPointer? s t (other :: below)).isSome || disturbs s u (next :: rest) below
        else decide (shownPointer? s t (other :: below) = some name)
  | _, _ => false

theorem gather_fillRelation (value : Document → Option Json) (fill : Document → Document)
    (v : Json) : gather value (fillRelation fill v) = gather (fun d => value (fill d)) v := by
  cases v with
  | arr items =>
    have hitem : ∀ item, itemValues value (fillItem fill item) =
        itemValues (fun d => value (fill d)) item := by
      intro item
      cases item <;> rfl
    simp only [fillRelation, gather, List.flatMap_map, hitem]
  | _ => rfl

/-- A relation leads to the same documents when those in its place are filled in. -/
theorem related?_fillRelation (loader : Loader) (type : String) (fill : Document → Document)
    (v : Json) : related? loader type (fillRelation fill v) = related? loader type v := by
  cases v with
  | arr items =>
    have hitem : (items.map (fillItem fill)).filterMap Json.idText? =
        items.filterMap Json.idText? := by
      rw [List.filterMap_map]
      refine congrArg (fun f => List.filterMap f items) (funext fun item => ?_)
      cases item <;> rfl
    simp only [fillRelation, related?, hitem]
  | _ => rfl

theorem get?_putRelation (fill : Document → Document) (doc : Document) (name : String) (v : Json)
    (key : String) (h : key ≠ name) :
    (putRelation fill doc name v).get? key = doc.get? key := by
  cases v with
  | obj members => exact Keyed.get?_insert_of_ne doc _ (Ne.symm h)
  | arr items => exact Keyed.get?_insert_of_ne doc _ (Ne.symm h)
  | _ => rfl

theorem get?_putRelation_self {loader : Loader} {doc : Document} {f : Field} {u : DocumentType}
    {name : String} {v : Json} (h : relationValue? loader doc f u name = some v)
    (fill : Document → Document) :
    (putRelation fill doc name v).get? name = some (fillRelation fill v) := by
  cases v with
  | obj members => exact Keyed.get?_insert_self doc name _
  | arr items => exact Keyed.get?_insert_self doc name _
  | _ =>
    unfold relationValue? at h
    split at h
    · rename_i w hw
      exact hw.trans h
    · obtain ⟨p, -, hp⟩ := Option.bind_eq_some_iff.mp h
      rcases related?_shape hp with ⟨d, hd⟩ | ⟨ds, hd⟩ <;> cases hd

/-- What a relation leads to is no pointer: nothing is found through it. -/
theorem related?_related_gather {loader : Loader} {type : String} {pointer v : Json}
    (h : related? loader type pointer = some v) (type' : String)
    (value : Document → Option Json) : (related? loader type' v >>= gather value) = none := by
  rcases related?_shape h with ⟨d, rfl⟩ | ⟨ds, rfl⟩
  · rfl
  · have hids : (ds.map Json.obj).filterMap Json.idText? = [] := by
      rw [List.filterMap_map]
      exact List.filterMap_eq_nil_iff.mpr fun _ _ => rfl
    simp only [related?, hids]
    rfl

theorem fieldValue_congr (t : DocumentType) {doc doc' : Document} {name : String}
    (hname : doc'.get? name = doc.get? name)
    (hpointer : ∀ f, t.field? name = some f → f.target?.isSome → doc.get? name = none →
      doc'.get? f.pointerKey = doc.get? f.pointerKey) :
    fieldValue t doc' name = fieldValue t doc name := by
  unfold fieldValue
  rw [hname]
  cases hv : doc.get? name with
  | some v => rfl
  | none =>
    cases hf : t.field? name with
    | none => rfl
    | some f =>
      by_cases ht : f.target?.isSome
      · simp only [ht, if_true, hpointer f hf ht hv]
      · simp only [ht, Bool.false_eq_true, if_false]

theorem contains_congr {doc doc' : Document} {name : String}
    (h : doc'.get? name = doc.get? name) : doc'.contains name = doc.contains name := by
  unfold Keyed.contains
  rw [h]

theorem relationValue?_congr (loader : Loader) (f : Field) (u : DocumentType)
    {doc doc' : Document} {name : String} (hname : doc'.get? name = doc.get? name)
    (hpointer : doc'.get? f.pointerKey = doc.get? f.pointerKey) :
    relationValue? loader doc' f u name = relationValue? loader doc f u name := by
  unfold relationValue?
  rw [hname, hpointer]

/-- Documents that agree on every key read alike. -/
theorem read_congr (s : Schema) (loader : Loader) (t : DocumentType) {doc doc' : Document}
    (h : ∀ key, doc'.get? key = doc.get? key) (path : List String) :
    read s loader t doc' path = read s loader t doc path := by
  match path with
  | [] => rfl
  | [name] => exact fieldValue_congr t (h name) fun f _ _ _ => h f.pointerKey
  | name :: next :: rest =>
    cases hrel : s.relation? t name with
    | none => rw [read_of_no_relation hrel, read_of_no_relation hrel]
    | some fu =>
      obtain ⟨f, u⟩ := fu
      rw [read_of_relation hrel, read_of_relation hrel, contains_congr (h name),
        relationValue?_congr loader f u (h name) (h f.pointerKey), h f.pointerKey]

theorem fillRelation_id (v : Json) : fillRelation (fun d => d) v = v := by
  cases v with
  | arr items =>
    have hitem : fillItem (fun d => d) = id := by
      funext item
      cases item <;> rfl
    simp only [fillRelation, hitem, List.map_id]
  | _ => rfl

theorem shownPointer?_field {s : Schema} {t : DocumentType} {name : String} {f : Field}
    (hf : t.field? name = some f) (ht : f.target?.isSome) :
    shownPointer? s t [name] = some f.pointerKey := by
  simp only [shownPointer?, hf, ht, if_true]

theorem shownPointer?_identifier {s : Schema} {t : DocumentType} {name : String} {f : Field}
    {u : DocumentType} (h : s.relation? t name = some (f, u)) :
    shownPointer? s t [name, u.identifierName] = some f.pointerKey := by
  simp only [shownPointer?, h, if_true]

theorem isSome_target_of_relation {s : Schema} {t : DocumentType} {name : String} {f : Field}
    {u : DocumentType} (h : s.relation? t name = some (f, u)) : f.target?.isSome := by
  obtain ⟨-, hu⟩ := Schema.relation?_eq_some_iff.mp h
  obtain ⟨target, htarget, -⟩ := Option.bind_eq_some_iff.mp hu
  simp only [htarget, Option.isSome_some]

/-- A path that shows no pointer in place of a relation reads the same when the relation is filled
in, provided that its rest does so below the relation. -/
theorem read_putRelation_same {s : Schema} {loader : Loader} {t : DocumentType} {doc : Document}
    {f : Field} {u : DocumentType} {name : String} (hrel : s.relation? t name = some (f, u))
    {v : Json} (hv : relationValue? loader doc f u name = some v) (fill : Document → Document)
    {below : List String} (hshown : shownPointer? s t (name :: below) = none)
    (hbelow : ∀ d, read s loader u (fill d) below = read s loader u d below) :
    read s loader t (putRelation fill doc name v) (name :: below) =
      read s loader t doc (name :: below) := by
  match below with
  | [] =>
    rw [shownPointer?_field (Schema.relation?_eq_some_iff.mp hrel).1
      (isSome_target_of_relation hrel)] at hshown
    cases hshown
  | next :: rest =>
    have hshort : next :: rest ≠ [u.identifierName] := by
      intro heq
      rw [heq, shownPointer?_identifier hrel] at hshown
      cases hshown
    have hself := get?_putRelation_self hv fill
    have hfilled : relationValue? loader (putRelation fill doc name v) f u name =
        some (fillRelation fill v) := by
      unfold relationValue?
      rw [hself]
    rw [read_of_relation hrel, read_of_relation hrel, if_neg fun h => hshort h.2,
      if_neg fun h => hshort h.2, hfilled, hv]
    simp only [Option.bind_eq_bind, Option.bind_some, gather_fillRelation, hbelow]

/-- A path through another field reads the same when a relation is filled in, unless it shows what
stands under the name of the relation as a pointer. -/
theorem read_putRelation_other {s : Schema} {loader : Loader} {t : DocumentType} {doc : Document}
    {f : Field} {u : DocumentType} {name other : String} {v : Json}
    (hv : relationValue? loader doc f u name = some v) (fill : Document → Document)
    (hne : other ≠ name) {below : List String}
    (hshown : shownPointer? s t (other :: below) ≠ some name) :
    read s loader t (putRelation fill doc name v) (other :: below) =
      read s loader t doc (other :: below) := by
  have hget := get?_putRelation fill doc name v
  match below with
  | [] =>
    refine fieldValue_congr t (hget other hne) fun g hg ht _ => hget _ ?_
    rw [shownPointer?_field hg ht] at hshown
    exact fun h => hshown (congrArg some h)
  | next :: rest =>
    cases hrel : s.relation? t other with
    | none => rw [read_of_no_relation hrel, read_of_no_relation hrel]
    | some gw =>
      obtain ⟨g, w⟩ := gw
      rw [read_of_relation hrel, read_of_relation hrel, contains_congr (hget other hne)]
      by_cases hkey : g.pointerKey = name
      · have hshort : next :: rest ≠ [w.identifierName] := by
          intro heq
          rw [heq, shownPointer?_identifier hrel] at hshown
          exact hshown (congrArg some hkey)
        rw [if_neg fun h => hshort h.2, if_neg fun h => hshort h.2]
        cases hother : doc.get? other with
        | some w' => simp only [relationValue?, hget other hne, hother]
        | none =>
          have hself := get?_putRelation_self hv fill
          simp only [relationValue?, hget other hne, hother, hkey, hself, related?_fillRelation,
            Option.bind_eq_bind, Option.bind_some]
          cases hname : doc.get? name with
          | some w' =>
            simp only [relationValue?, hname, Option.some.injEq] at hv
            rw [hv, Option.bind_some]
          | none =>
            simp only [relationValue?, hname] at hv
            obtain ⟨p, -, hp⟩ := Option.bind_eq_some_iff.mp hv
            exact related?_related_gather hp w.name _
      · rw [relationValue?_congr loader g w (hget other hne) (hget _ hkey), hget _ hkey]

/-- Reading a path does not change what another path reads, unless it disturbs that path. -/
theorem read_filled (s : Schema) (loader : Loader) (path : List String) :
    ∀ (t : DocumentType) (doc : Document) (other : List String),
      disturbs s t path other = false →
        read s loader t (filled s loader t doc path) other = read s loader t doc other := by
  induction path with
  | nil => exact fun _ _ _ _ => rfl
  | cons name path ih =>
    cases path with
    | nil => exact fun _ _ _ _ => rfl
    | cons next rest =>
      intro t doc other h
      cases hrel : s.relation? t name with
      | none => rw [filled_of_no_relation hrel]
      | some fu =>
        obtain ⟨f, u⟩ := fu
        rw [filled_of_relation hrel]
        by_cases hshort : doc.contains name = false ∧ next :: rest = [u.identifierName]
        · rw [if_pos hshort]
        rw [if_neg hshort]
        cases hv : relationValue? loader doc f u name with
        | none => rfl
        | some v =>
          match other with
          | [] => rfl
          | o :: below =>
            by_cases hid : next :: rest = [u.identifierName]
            · refine read_congr s loader t (fun key => ?_) _
              by_cases hkey : key = name
              · subst hkey
                have hstays : (fun d => filled s loader u d (next :: rest)) = fun d => d := by
                  rw [hid]
                  rfl
                have hhas : doc.contains key = true := by
                  simpa only [hid, and_true, Bool.not_eq_false] using hshort
                obtain ⟨w, hw⟩ := Option.isSome_iff_exists.mp hhas
                rw [get?_putRelation_self hv, hstays, fillRelation_id, hw]
                simpa only [relationValue?, hw] using hv.symm
              · exact get?_putRelation _ doc name v key hkey
            · simp only [disturbs, hrel, ne_eq, hid, not_false_eq_true, decide_true,
                Bool.true_and] at h
              by_cases ho : o = name
              · subst ho
                simp only [if_true, Bool.or_eq_false_iff, Option.isSome_eq_false_iff,
                  Option.isNone_iff_eq_none] at h
                exact read_putRelation_same hrel hv _ h.1 fun d => ih u d below h.2
              · simp only [ho, if_false, decide_eq_false_iff_not] at h
                exact read_putRelation_other hv _ ho h

theorem read_empty (s : Schema) (loader : Loader) (t : DocumentType) (path : List String) :
    read s loader t [] path = none := by
  match path with
  | [] => rfl
  | [name] =>
    simp only [read, fieldValue, Keyed.get?]
    cases t.field? name <;> simp
  | name :: next :: rest =>
    cases hrel : s.relation? t name with
    | none => exact read_of_no_relation hrel loader [] next rest
    | some fu =>
      obtain ⟨f, u⟩ := fu
      rw [read_of_relation hrel]
      simp [Keyed.get?, relationValue?]

theorem filled_empty (s : Schema) (loader : Loader) (t : DocumentType) (path : List String) :
    filled s loader t [] path = [] := by
  match path with
  | [] => rfl
  | [name] => rfl
  | name :: next :: rest =>
    cases hrel : s.relation? t name with
    | none => exact filled_of_no_relation hrel loader [] next rest
    | some fu =>
      obtain ⟨f, u⟩ := fu
      rw [filled_of_relation hrel]
      simp [Keyed.get?, relationValue?]

theorem pointerKey_ne (f : Field) : f.pointerKey ≠ f.name := by
  intro h
  have := congrArg String.length h
  simp [Field.pointerKey] at this

theorem field?_name {t : DocumentType} {name : String} {f : Field} (h : t.field? name = some f) :
    f.name = name := by
  simpa using List.find?_some h

/-- On a document that lacks its first field a path reads the pointer that it shows. -/
theorem read_of_shownPointer {s : Schema} {loader : Loader} {t : DocumentType} {doc : Document}
    {name key : String} {below : List String}
    (h : shownPointer? s t (name :: below) = some key) (habsent : doc.get? name = none) :
    read s loader t doc (name :: below) = doc.get? key := by
  match below with
  | [] =>
    cases hf : t.field? name with
    | none => simp [shownPointer?, hf] at h
    | some f =>
      by_cases ht : f.target?.isSome
      · rw [shownPointer?_field hf ht] at h
        simp only [read, fieldValue, habsent, hf, ht, if_true, Option.some.inj h]
      · simp [shownPointer?, hf, ht] at h
  | [id] =>
    cases hrel : s.relation? t name with
    | none => simp [shownPointer?, hrel] at h
    | some fu =>
      obtain ⟨f, u⟩ := fu
      by_cases hid : id = u.identifierName
      · rw [hid, shownPointer?_identifier hrel] at h
        rw [read_of_relation hrel, if_pos, Option.some.inj h]
        exact ⟨by simp [Keyed.contains, habsent], by rw [hid]⟩
      · simp [shownPointer?, hrel, hid] at h
  | _ :: _ :: _ => simp [shownPointer?] at h

/-- The pointer that a path shows is that of its first field. -/
theorem exists_field_of_shownPointer {s : Schema} {t : DocumentType} {name key : String}
    {below : List String} (h : shownPointer? s t (name :: below) = some key) :
    ∃ f, t.field? name = some f ∧ f.pointerKey = key := by
  match below with
  | [] =>
    cases hf : t.field? name with
    | none => simp [shownPointer?, hf] at h
    | some f =>
      simp only [shownPointer?, hf, Option.ite_none_right_eq_some, Option.some.injEq] at h
      exact ⟨f, rfl, h.2⟩
  | [id] =>
    cases hrel : s.relation? t name with
    | none => simp [shownPointer?, hrel] at h
    | some fu =>
      simp only [shownPointer?, hrel, Option.ite_none_right_eq_some, Option.some.injEq] at h
      exact ⟨fu.1, (Schema.relation?_eq_some_iff.mp hrel).1, h.2⟩
  | _ :: _ :: _ => simp [shownPointer?] at h

/-- Below an empty document under its first field a path finds at most that document. -/
theorem read_below_empty (s : Schema) (loader : Loader) (t : DocumentType) {doc : Document}
    {name : String} (h : doc.get? name = some (.obj [])) (below : List String) :
    read s loader t doc (name :: below) = none ∨
      read s loader t doc (name :: below) = some (.obj []) := by
  match below with
  | [] => exact Or.inr (by simp only [read, fieldValue, h])
  | next :: rest =>
    left
    cases hrel : s.relation? t name with
    | none => exact read_of_no_relation hrel loader doc next rest
    | some fu =>
      obtain ⟨f, u⟩ := fu
      rw [read_of_relation hrel, if_neg (by simp [Keyed.contains, h])]
      simp [relationValue?, h, gather, read_empty]

/-- The loader that finds an empty document everywhere. -/
def blankLoader : Loader := fun _ _ => some []

/-- A document that holds nothing but the pointer of a relation. -/
def pointerOnly (f : Field) : Document := [(f.pointerKey, .str "")]

theorem get?_pointerOnly_name {t : DocumentType} {name : String} {f : Field}
    (hf : t.field? name = some f) : (pointerOnly f).get? name = none := by
  have hne : f.pointerKey ≠ name := field?_name hf ▸ pointerKey_ne f
  simp [pointerOnly, Keyed.get?, hne]

theorem relationValue?_pointerOnly {t : DocumentType} {name : String} {f : Field}
    (hf : t.field? name = some f) (u : DocumentType) :
    relationValue? blankLoader (pointerOnly f) f u name = some (.obj []) := by
  simp only [relationValue?, get?_pointerOnly_name hf]
  simp [pointerOnly, Keyed.get?, related?, blankLoader, Json.idText?]

theorem read_pointerOnly {s : Schema} {t u : DocumentType} {name next : String} {f : Field}
    {rest : List String} (hrel : s.relation? t name = some (f, u))
    (hid : next :: rest ≠ [u.identifierName]) :
    read s blankLoader t (pointerOnly f) (name :: next :: rest) = none := by
  rw [read_of_relation hrel, if_neg fun hshort => hid hshort.2,
    relationValue?_pointerOnly (Schema.relation?_eq_some_iff.mp hrel).1]
  exact read_empty s blankLoader u (next :: rest)

theorem filled_pointerOnly {s : Schema} {t u : DocumentType} {name next : String} {f : Field}
    {rest : List String} (hrel : s.relation? t name = some (f, u))
    (hid : next :: rest ≠ [u.identifierName]) :
    filled s blankLoader t (pointerOnly f) (name :: next :: rest) =
      (pointerOnly f).insert name (.obj []) := by
  rw [filled_of_relation hrel, if_neg fun hshort => hid hshort.2,
    relationValue?_pointerOnly (Schema.relation?_eq_some_iff.mp hrel).1]
  simp only [putRelation, fillRelation, filled_empty]

/-- There is a document on which the first path reads nothing, and on which the value at the second
path passes an equality before the first was read and not after, or the other way round. -/
def ChangesVerdict (s : Schema) (t : DocumentType) (path other : List String) : Prop :=
  ∃ (doc : Document) (target : Json), read s blankLoader t doc path = none ∧
    satisfies .eq (read s blankLoader t doc other) [target] ≠
      satisfies .eq (read s blankLoader t (filled s blankLoader t doc path) other) [target]

theorem changesVerdict_of_own_pointer {s : Schema} {t u : DocumentType} {name next key : String}
    {f : Field} {rest below : List String} (hrel : s.relation? t name = some (f, u))
    (hid : next :: rest ≠ [u.identifierName])
    (hshown : shownPointer? s t (name :: below) = some key) :
    ChangesVerdict s t (name :: next :: rest) (name :: below) := by
  have hf := (Schema.relation?_eq_some_iff.mp hrel).1
  obtain ⟨g, hg, rfl⟩ := exists_field_of_shownPointer hshown
  obtain rfl : g = f := Option.some.inj (hg.symm.trans hf)
  refine ⟨pointerOnly g, .str "", read_pointerOnly hrel hid, ?_⟩
  have hbefore : (pointerOnly g).get? g.pointerKey = some (.str "") := by
    simp [pointerOnly, Keyed.get?]
  rw [read_of_shownPointer hshown (get?_pointerOnly_name hf), hbefore, filled_pointerOnly hrel hid]
  rcases read_below_empty s blankLoader t
    (Keyed.get?_insert_self (pointerOnly g) name (.obj [])) below with hafter | hafter
  · rw [hafter]
    decide
  · rw [hafter]
    decide

theorem changesVerdict_of_other_pointer {s : Schema} {t u : DocumentType}
    {name next other : String} {f : Field} {rest below : List String}
    (hrel : s.relation? t name = some (f, u)) (hid : next :: rest ≠ [u.identifierName])
    (hne : other ≠ name) (hshown : shownPointer? s t (other :: below) = some name) :
    ChangesVerdict s t (name :: next :: rest) (other :: below) := by
  have hf := (Schema.relation?_eq_some_iff.mp hrel).1
  obtain ⟨g, hg, hkey⟩ := exists_field_of_shownPointer hshown
  have hpointer : f.pointerKey ≠ other := by
    intro heq
    have hlen := congrArg String.length heq
    rw [← field?_name hg, Field.pointerKey, field?_name hf, ← hkey, Field.pointerKey,
      String.length_append, String.length_append, show "_id".length = 3 from rfl] at hlen
    omega
  have habsent : (pointerOnly f).get? other = none := by
    simp [pointerOnly, Keyed.get?, hpointer]
  have habsent' : ((pointerOnly f).insert name (.obj [])).get? other = none := by
    rw [Keyed.get?_insert_of_ne _ _ (Ne.symm hne), habsent]
  refine ⟨pointerOnly f, .obj [], read_pointerOnly hrel hid, ?_⟩
  rw [read_of_shownPointer hshown habsent, get?_pointerOnly_name hf, filled_pointerOnly hrel hid,
    read_of_shownPointer hshown habsent', Keyed.get?_insert_self]
  decide

theorem changesVerdict_below {s : Schema} {t u : DocumentType} {name next next' : String}
    {f : Field} {rest rest' : List String} (hrel : s.relation? t name = some (f, u))
    (h : ChangesVerdict s u (next :: rest) (next' :: rest')) :
    ChangesVerdict s t (name :: next :: rest) (name :: next' :: rest') := by
  obtain ⟨doc, target, hpath, hne⟩ := h
  have hvalue : ∀ d : Document,
      relationValue? blankLoader [(name, .obj d)] f u name = some (.obj d) := by
    intro d
    simp [relationValue?, Keyed.get?]
  have hread : ∀ (d : Document) (q : String) (r : List String),
      read s blankLoader t [(name, .obj d)] (name :: q :: r) = read s blankLoader u d (q :: r) := by
    intro d q r
    rw [read_of_relation hrel, if_neg (by simp [Keyed.contains, Keyed.get?]), hvalue]
    rfl
  refine ⟨[(name, .obj doc)], target, by rw [hread, hpath], ?_⟩
  rw [hread, filled_of_relation hrel, if_neg (by simp [Keyed.contains, Keyed.get?]), hvalue]
  simp only [putRelation, Keyed.insert, if_true, fillRelation]
  rwa [hread]

/-- Every disturbance shows in a verdict on some document. -/
theorem changesVerdict_of_disturbs (s : Schema) (path : List String) :
    ∀ (t : DocumentType) (other : List String), disturbs s t path other = true →
      ChangesVerdict s t path other := by
  induction path with
  | nil => simp [disturbs]
  | cons name path ih =>
    intro t other h
    match path, other with
    | [], _ => simp [disturbs] at h
    | _ :: _, [] => simp [disturbs] at h
    | next :: rest, o :: below =>
      cases hrel : s.relation? t name with
      | none => simp [disturbs, hrel] at h
      | some fu =>
        obtain ⟨f, u⟩ := fu
        simp only [disturbs, hrel, Bool.and_eq_true, decide_eq_true_eq] at h
        obtain ⟨hid, h⟩ := h
        by_cases ho : o = name
        · subst ho
          simp only [if_true, Bool.or_eq_true] at h
          rcases h with hshown | hbelow
          · obtain ⟨key, hkey⟩ := Option.isSome_iff_exists.mp hshown
            exact changesVerdict_of_own_pointer hrel hid hkey
          · match below with
            | [] => simp [disturbs] at hbelow
            | _ :: _ => exact changesVerdict_below hrel (ih u _ hbelow)
        · simp only [ho, if_false, decide_eq_true_eq] at h
          exact changesVerdict_of_other_pointer hrel hid ho h

end DocumentEngine.Evaluation
