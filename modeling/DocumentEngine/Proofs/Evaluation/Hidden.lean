import DocumentEngine.Proofs.Evaluation.Verdict
import DocumentEngine.Proofs.Text

/-!
Reading past a hidden type. A path that goes through no relation into a type is resolved in the same
way whatever the documents of that type are, step by step and with the same memo. And a condition on
a field of the document's own gets the same verdict however many relations were filled in before it.
-/

namespace DocumentEngine

/-- Whether a path goes through no relation into a hidden type. -/
def Schema.avoids (s : Schema) (hidden : String) (t : DocumentType) : List String → Bool
  | name :: next :: rest =>
    match s.relation? t name with
    | none => true
    | some (_, u) => u.name != hidden && s.avoids hidden u (next :: rest)
  | _ => true

/-- Whether every path goes through no relation into a hidden type. -/
def Schema.allAvoid (s : Schema) (hidden : String) (t : DocumentType) (paths : List String) : Bool :=
  paths.all fun p => s.avoids hidden t (Text.splitAt '.' p)

/-- A field that holds no relation. -/
def DocumentType.isOwn (t : DocumentType) (name : String) : Bool :=
  ((t.field? name).bind Field.target?).isNone

/-- Whether a filter asks only for fields of the document's own that hold no relation. -/
def Filter.isOwn (t : DocumentType) (g : Filter) : Bool :=
  g.conditions.all fun c => !c.field.toList.contains '.' && t.isOwn c.field

/-- Whether a filter on fields of its own shows a document. -/
def Filter.shows (g : Filter) (doc : Document) : Bool :=
  g.truth fun c => Evaluation.satisfies c.operator (doc.get? c.field) c.operand.values

namespace Filter

mutual

/-- The truth value of a filter depends only on those of its conditions. -/
theorem truth_congr {v w : Condition → Bool} :
    (f : Filter) → (∀ c ∈ f.conditions, v c = w c) → f.truth v = f.truth w
  | .condition c, h => h c List.mem_cons_self
  | .and fs, h => by
    rw [truth, truth]
    exact truthAll_congr fs h
  | .or fs, h => by
    rw [truth, truth]
    exact truthAny_congr fs h

theorem truthAll_congr {v w : Condition → Bool} :
    (fs : List Filter) → (∀ c ∈ listConditions fs, v c = w c) → truthAll v fs = truthAll w fs
  | [], _ => rfl
  | f :: fs, h => by
    rw [truthAll, truthAll, truth_congr f fun c hc => h c (List.mem_append_left _ hc),
      truthAll_congr fs fun c hc => h c (List.mem_append_right _ hc)]

theorem truthAny_congr {v w : Condition → Bool} :
    (fs : List Filter) → (∀ c ∈ listConditions fs, v c = w c) → truthAny v fs = truthAny w fs
  | [], _ => rfl
  | f :: fs, h => by
    rw [truthAny, truthAny, truth_congr f fun c hc => h c (List.mem_append_left _ hc),
      truthAny_congr fs fun c hc => h c (List.mem_append_right _ hc)]

end

end Filter

namespace Evaluation

variable {s : Schema} {loader loader' : Loader} {hidden : String} {t : DocumentType}

section

variable {type : String} (h : ∀ id, loader type id = loader' type id)

include h

theorem load_congr (memo : Memo) (id : String) :
    load loader memo type id = load loader' memo type id := by
  unfold load
  rw [h]

theorem loadItems_congr (memo : Memo) (items : List Json) :
    loadItems loader type memo items = loadItems loader' type memo items := by
  induction items generalizing memo with
  | nil => rfl
  | cons item items ih =>
    unfold loadItems
    cases item.idText? with
    | none => exact ih memo
    | some id =>
      dsimp only
      rw [load_congr h, ih]

theorem expand_congr (memo : Memo) (pointer : Json) :
    expand loader memo type pointer = expand loader' memo type pointer := by
  cases pointer with
  | arr items => simp only [expand, loadItems_congr h]
  | _ => simp only [expand, load_congr h]

end

/-- Two loaders that differ, on the types of a schema, only on the documents of a hidden type. -/
def SameBeyond (s : Schema) (hidden : String) (loader loader' : Loader) : Prop :=
  ∀ u ∈ s.types, u.name ≠ hidden → ∀ id, loader u.name id = loader' u.name id

/-- A path past the hidden type never asks for its documents. -/
theorem resolve_avoids (h : SameBeyond s hidden loader loader') (path : List String)
    (doc : Document) (memo : Memo) (hpath : s.avoids hidden t path = true) :
    resolve s loader t doc memo path = resolve s loader' t doc memo path := by
  induction path generalizing t doc memo with
  | nil => rfl
  | cons name path ih =>
    cases path with
    | nil => rfl
    | cons next rest =>
      cases hrel : s.relation? t name with
      | none => rw [resolve_of_no_relation hrel, resolve_of_no_relation hrel]
      | some fu =>
        obtain ⟨f, u⟩ := fu
        obtain ⟨hf, hu⟩ := Schema.relation?_eq_some_iff.mp hrel
        rw [Schema.avoids, hrel] at hpath
        simp only [Bool.and_eq_true, bne_iff_ne] at hpath
        have hbelow : (fun related memo => resolve s loader u related memo (next :: rest)) =
            fun related memo => resolve s loader' u related memo (next :: rest) := by
          funext related memo
          exact ih related memo hpath.2
        obtain ⟨target, -, htype⟩ := Option.bind_eq_some_iff.mp hu
        have hexpand := expand_congr (h u (List.mem_of_find?_eq_some htype) hpath.1)
        unfold resolve
        simp only [hf, hu, hbelow, hexpand]

theorem test_avoids (h : SameBeyond s hidden loader loader') {path : String}
    (hpath : s.avoids hidden t (Text.splitAt '.' path) = true) (doc : Document) (memo : Memo)
    (op : Operator) (targets : List Json) :
    test s loader t doc memo path op targets = test s loader' t doc memo path op targets := by
  simp only [test, resolvePath, resolve_avoids h _ doc memo hpath]

mutual

theorem passes_avoids (h : SameBeyond s hidden loader loader') :
    (f : Filter) → (doc : Document) → (memo : Memo) →
      s.allAvoid hidden t (f.conditions.map Condition.field) = true →
      passes s loader t doc memo f = passes s loader' t doc memo f
  | .condition c, doc, memo, hf => by
    rw [passes, passes]
    have hc : s.avoids hidden t (Text.splitAt '.' c.field) = true := by
      simpa [Schema.allAvoid, Filter.conditions] using hf
    exact test_avoids h hc doc memo _ _
  | .and fs, doc, memo, hf => by
    rw [passes, passes]
    exact passesAll_avoids h fs doc memo hf
  | .or fs, doc, memo, hf => by
    rw [passes, passes]
    exact passesAny_avoids h fs doc memo hf

theorem passesAll_avoids (h : SameBeyond s hidden loader loader') :
    (fs : List Filter) → (doc : Document) → (memo : Memo) →
      s.allAvoid hidden t ((Filter.listConditions fs).map Condition.field) = true →
      passesAll s loader t doc memo fs = passesAll s loader' t doc memo fs
  | [], _, _, _ => by rw [passesAll, passesAll]
  | f :: fs, doc, memo, hf => by
    rw [Filter.listConditions, List.map_append, Schema.allAvoid, List.all_append,
      Bool.and_eq_true] at hf
    rw [passesAll, passesAll, passes_avoids h f doc memo hf.1,
      passesAll_avoids h fs _ _ hf.2]

theorem passesAny_avoids (h : SameBeyond s hidden loader loader') :
    (fs : List Filter) → (doc : Document) → (memo : Memo) →
      s.allAvoid hidden t ((Filter.listConditions fs).map Condition.field) = true →
      passesAny s loader t doc memo fs = passesAny s loader' t doc memo fs
  | [], _, _, _ => by rw [passesAny, passesAny]
  | f :: fs, doc, memo, hf => by
    rw [Filter.listConditions, List.map_append, Schema.allAvoid, List.all_append,
      Bool.and_eq_true] at hf
    rw [passesAny, passesAny, passes_avoids h f doc memo hf.1,
      passesAny_avoids h fs _ _ hf.2]

end

theorem passesCursor_avoids (h : SameBeyond s hidden loader loader') (since : Keyed Json)
    (doc : Document) (memo : Memo)
    (hsince : s.allAvoid hidden t (since.map Prod.fst) = true) :
    passesCursor s loader t doc memo since = passesCursor s loader' t doc memo since := by
  induction since generalizing doc memo with
  | nil => rfl
  | cons entry since ih =>
    obtain ⟨path, value⟩ := entry
    rw [List.map_cons, Schema.allAvoid, List.all_cons, Bool.and_eq_true] at hsince
    rw [passesCursor, passesCursor, test_avoids h hsince.1]
    dsimp only
    rw [ih _ _ hsince.2]

/-- Reading a path fills in relations and leaves every other field as it is. -/
theorem resolve_keeps {name : String} (hown : t.isOwn name = true) (doc : Document) (memo : Memo)
    (path : List String) :
    (resolve s loader t doc memo path).doc.get? name = doc.get? name := by
  match path with
  | [] => rfl
  | [_] => rfl
  | first :: next :: rest =>
    cases hrel : s.relation? t first with
    | none => rw [resolve_of_no_relation hrel]
    | some fu =>
      obtain ⟨f, u⟩ := fu
      obtain ⟨hf, hu⟩ := Schema.relation?_eq_some_iff.mp hrel
      have hne : first ≠ name := by
        rintro rfl
        rw [DocumentType.isOwn, hf, Option.isNone_iff_eq_none, Option.bind_some] at hown
        rw [hown] at hu
        cases hu
      have hbelow : ∀ (below : Document → Memo → Resolution) (doc : Document) (memo : Memo)
          (v : Json), (resolveBelow below doc first memo v).doc.get? name = doc.get? name := by
        intro below doc memo v
        cases v with
        | obj related => exact Keyed.get?_insert_of_ne _ _ hne
        | arr items => exact Keyed.get?_insert_of_ne _ _ hne
        | _ => rfl
      unfold resolve
      simp only [hf, hu]
      split
      · exact hbelow _ _ _ _
      · rfl
      · split
        · rfl
        · split
          · rfl
          · rw [hbelow, Keyed.get?_insert_of_ne _ _ hne]

mutual

/-- The verdict of a filter leaves every field that holds no relation as it is. -/
theorem passes_keeps {name : String} (hown : t.isOwn name = true) :
    (f : Filter) → (doc : Document) → (memo : Memo) →
      (passes s loader t doc memo f).doc.get? name = doc.get? name
  | .condition c, doc, memo => by
    rw [passes]
    exact resolve_keeps hown doc memo _
  | .and fs, doc, memo => by
    rw [passes]
    exact passesAll_keeps hown fs doc memo
  | .or fs, doc, memo => by
    rw [passes]
    exact passesAny_keeps hown fs doc memo

theorem passesAll_keeps {name : String} (hown : t.isOwn name = true) :
    (fs : List Filter) → (doc : Document) → (memo : Memo) →
      (passesAll s loader t doc memo fs).doc.get? name = doc.get? name
  | [], _, _ => by rw [passesAll]
  | f :: fs, doc, memo => by
    have hfirst := passes_keeps hown f doc memo
    rw [passesAll]
    split
    · exact (passesAll_keeps hown fs _ _).trans hfirst
    · exact hfirst

theorem passesAny_keeps {name : String} (hown : t.isOwn name = true) :
    (fs : List Filter) → (doc : Document) → (memo : Memo) →
      (passesAny s loader t doc memo fs).doc.get? name = doc.get? name
  | [], _, _ => by rw [passesAny]
  | f :: fs, doc, memo => by
    have hfirst := passes_keeps hown f doc memo
    rw [passesAny]
    split
    · exact hfirst
    · exact (passesAny_keeps hown fs _ _).trans hfirst

end

theorem splitAt_of_isOwn {g : Filter} (hg : g.isOwn t = true) {c : Condition}
    (hc : c ∈ g.conditions) : Text.splitAt '.' c.field = [c.field] ∧ t.isOwn c.field = true := by
  have hcondition := List.all_eq_true.mp hg c hc
  simp only [Bool.and_eq_true, Bool.not_eq_true', List.contains_eq_mem, decide_eq_false_iff_not]
    at hcondition
  exact ⟨Text.splitAt_of_notMem hcondition.1, hcondition.2⟩

theorem fieldValue_of_isOwn {name : String} (hown : t.isOwn name = true) (doc : Document) :
    fieldValue t doc name = doc.get? name := by
  unfold fieldValue
  unfold DocumentType.isOwn at hown
  cases doc.get? name with
  | some v => rfl
  | none =>
    cases hf : t.field? name with
    | none => rfl
    | some f =>
      rw [hf, Option.bind_some, Option.isNone_iff_eq_none] at hown
      simp [hown]

/-- A filter on fields of its own shows or hides a document whatever was filled in before it. -/
theorem passes_own {g : Filter} (hg : g.isOwn t = true) {doc copy : Document} {memo : Memo}
    (hm : memo.Faithful loader)
    (hcopy : ∀ name, t.isOwn name = true → copy.get? name = doc.get? name) :
    (passes s loader t copy memo g).holds = g.shows doc := by
  have hsplit : ∀ p ∈ g.conditions.map Condition.field, ∃ name, t.isOwn name = true ∧
      Text.splitAt '.' p = [name] := by
    intro p hp
    obtain ⟨c, hc, rfl⟩ := List.mem_map.mp hp
    exact ⟨c.field, (splitAt_of_isOwn hg hc).2, (splitAt_of_isOwn hg hc).1⟩
  have hundisturbed : Undisturbed s t (g.conditions.map Condition.field) := by
    intro p hp q hq
    obtain ⟨name, -, hname⟩ := hsplit p hp
    rw [hname]
    rfl
  have halike : ReadsAlike s loader t (g.conditions.map Condition.field) doc copy := by
    intro q hq
    obtain ⟨name, hown, hname⟩ := hsplit q hq
    rw [hname, read, read, fieldValue_of_isOwn hown, fieldValue_of_isOwn hown, hcopy name hown]
  rw [(passes_isAlone hundisturbed g halike hm fun c hc => List.mem_map_of_mem hc).holds_eq]
  have hcondition : ∀ c ∈ g.conditions, alone s loader t doc c =
      satisfies c.operator (doc.get? c.field) c.operand.values := by
    intro c hc
    obtain ⟨hpath, hown⟩ := splitAt_of_isOwn hg hc
    rw [alone, testAlone, test, resolvePath, hpath, resolve, fieldValue_of_isOwn hown]
  exact g.truth_congr hcondition

end Evaluation

end DocumentEngine
