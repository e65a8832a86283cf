import DocumentEngine.Evaluation.Verdict
import DocumentEngine.Proofs.Evaluation.Reading
import Mathlib.Data.List.Nodup

/-!
What evaluation asks of a loader. Values at paths and verdicts of filters come to the loader through
the memo only: they keep what it holds, ask for nothing that it holds, and ask for nothing twice.
-/

namespace DocumentEngine.Evaluation

/-- The type and the id that were asked for. -/
def Load.key (l : Load) : String × String := (l.type, l.id)

/-- Nothing was asked for twice. -/
def Memo.Distinct (memo : Memo) : Prop := (memo.map Load.key).Nodup

/-- Another loader gives the same for all that the second memo holds and the first does not. -/
def Loader.Agrees (loader loader' : Loader) (memo memo' : Memo) : Prop :=
  ∀ l ∈ memo', l ∉ memo → loader' l.type l.id = loader l.type l.id

/-- A computation that comes to a loader through a memo. What it adds to the memo is all that it
asks the loader for, and once the memo holds that it asks for nothing. -/
structure Consults {α : Type} (g : Loader → Memo → α × Memo) : Prop where
  kept (loader : Loader) (memo : Memo) : memo <+: (g loader memo).2
  distinct (loader : Loader) (memo : Memo) (h : memo.Distinct) : (g loader memo).2.Distinct
  asked {loader loader' : Loader} {memo : Memo}
    (h : loader.Agrees loader' memo (g loader memo).2) : g loader' memo = g loader memo
  again {loader : Loader} {memo memo' : Memo} (h : (g loader memo).2 <+: memo')
    (loader' : Loader) : g loader' memo' = ((g loader memo).1, memo')

/-- The parts of a resolution, the memo last. -/
def Resolution.outcome (r : Resolution) : (Option Json × Document) × Memo := ((r.value, r.doc), r.memo)

/-- The parts of a verdict, the memo last. -/
def Verdict.outcome (v : Verdict) : (Bool × Document) × Memo := ((v.holds, v.doc), v.memo)

/-! Lookups -/

theorem Memo.find?_eq_none_iff {memo : Memo} {type id : String} :
    memo.find? type id = none ↔ (type, id) ∉ memo.map Load.key := by
  unfold Memo.find?
  rw [Option.map_eq_none_iff, List.find?_eq_none, List.mem_map]
  constructor
  · rintro h ⟨l, hl, hkey⟩
    refine h l hl ?_
    simpa [Load.key] using hkey
  · intro h l hl hkey
    refine h ⟨l, hl, ?_⟩
    simpa [Load.key] using hkey

/-- What a memo holds it still holds when it has grown. -/
theorem Memo.find?_of_prefix {memo memo' : Memo} (h : memo <+: memo') {type id : String}
    {found : Option Document} (hfound : memo.find? type id = some found) :
    memo'.find? type id = some found := by
  obtain ⟨more, rfl⟩ := h
  unfold Memo.find? at *
  obtain ⟨l, hl, rfl⟩ := Option.map_eq_some_iff.mp hfound
  rw [List.find?_append, hl]
  rfl

namespace Consults

variable {α β : Type} {g : Loader → Memo → α × Memo}

theorem congr {g' : Loader → Memo → α × Memo} (hg : Consults g)
    (h : ∀ loader memo, g' loader memo = g loader memo) : Consults g' := by
  obtain rfl : g' = g := funext fun loader => funext fun memo => h loader memo
  exact hg

theorem pure (a : α) : Consults fun _ memo => (a, memo) where
  kept _ memo := List.prefix_refl memo
  distinct _ _ hmemo := hmemo
  asked _ := rfl
  again _ _ := rfl

/-- One computation after another asks for what either asks for. -/
theorem bind {h : α → Loader → Memo → β × Memo} (hg : Consults g) (hh : ∀ a, Consults (h a)) :
    Consults fun loader memo => h (g loader memo).1 loader (g loader memo).2 where
  kept loader memo := (hg.kept loader memo).trans ((hh _).kept loader _)
  distinct loader memo hmemo := (hh _).distinct loader _ (hg.distinct loader memo hmemo)
  asked {loader loader' memo} hagree := by
    have hfirst : g loader' memo = g loader memo := hg.asked fun l hl hnew =>
      hagree l (((hh _).kept loader _).subset hl) hnew
    rw [hfirst]
    exact (hh _).asked fun l hl hnew =>
      hagree l hl fun hold => hnew ((hg.kept loader memo).subset hold)
  again {loader memo memo'} hkept loader' := by
    rw [hg.again (((hh _).kept loader _).trans hkept) loader']
    exact (hh _).again hkept loader'

theorem map (f : α → β) (hg : Consults g) :
    Consults fun loader memo => (f (g loader memo).1, (g loader memo).2) :=
  hg.bind fun a => .pure (f a)

end Consults

/-! Steps of a path -/

/-- A document is asked for only where the memo does not hold it. -/
theorem consults_load (type id : String) :
    Consults fun loader memo => load loader memo type id where
  kept loader memo := by
    unfold load
    split
    · exact List.prefix_refl memo
    · exact List.prefix_append memo _
  distinct loader memo hmemo := by
    unfold load
    split
    · exact hmemo
    · rename_i hnone
      unfold Memo.Distinct at *
      rw [List.map_append, List.map_singleton, List.nodup_append_comm, List.singleton_append]
      exact List.nodup_cons.mpr ⟨Memo.find?_eq_none_iff.mp hnone, hmemo⟩
  asked {loader loader' memo} hagree := by
    unfold load at *
    split
    · rfl
    · rename_i hnone
      rw [hnone] at hagree
      have hsame := hagree ⟨type, id, loader type id⟩ (by simp) fun hold =>
        Memo.find?_eq_none_iff.mp hnone (List.mem_map_of_mem hold)
      dsimp only at hsame
      rw [hsame]
  again {loader memo memo'} hkept loader' := by
    have hheld : (load loader memo type id).2.find? type id =
        some (load loader memo type id).1 := by
      unfold load
      split
      · assumption
      · rename_i hnone
        unfold Memo.find? at *
        rw [List.find?_append, Option.map_eq_none_iff.mp hnone]
        simp
    rw [load, Memo.find?_of_prefix hkept hheld]

theorem consults_loadItems (type : String) (items : List Json) :
    Consults fun loader memo => loadItems loader type memo items := by
  induction items with
  | nil => exact .pure []
  | cons item items ih =>
    cases hid : item.idText? with
    | none => exact ih.congr fun loader memo => by rw [loadItems, hid]
    | some id =>
      refine ((consults_load type id).bind fun found => ih.map fun docs =>
        (found.map Json.obj).toList ++ docs).congr fun loader memo => ?_
      rw [loadItems, hid]
      dsimp only
      cases (load loader memo type id).1 <;> rfl

theorem consults_expand (type : String) (pointer : Json) :
    Consults fun loader memo => expand loader memo type pointer := by
  by_cases hlist : ∃ items, pointer = .arr items
  · obtain ⟨items, rfl⟩ := hlist
    exact (consults_loadItems type items).map fun docs => some (Json.arr docs)
  · have hexpand : ∀ loader memo, expand loader memo type pointer =
        pointer.idText?.elim (none, memo) fun id =>
          ((load loader memo type id).1.map .obj, (load loader memo type id).2) := by
      intro loader memo
      cases pointer with
      | arr items => exact absurd ⟨items, rfl⟩ hlist
      | _ =>
        unfold expand
        dsimp only
        generalize Json.idText? _ = id
        cases id <;> rfl
    cases hid : pointer.idText? with
    | none =>
      exact (Consults.pure none).congr fun loader memo => by rw [hexpand, hid, Option.elim_none]
    | some id =>
      exact ((consults_load type id).map fun found => found.map Json.obj).congr
        fun loader memo => by rw [hexpand, hid, Option.elim_some]

section

variable {below : Loader → Document → Memo → Resolution}

theorem consults_resolveItems
    (hbelow : ∀ d, Consults fun loader memo => (below loader d memo).outcome) (items : List Json) :
    Consults fun loader memo =>
      (((resolveItems (below loader) memo items).1, (resolveItems (below loader) memo items).2.1),
        (resolveItems (below loader) memo items).2.2) := by
  induction items with
  | nil => exact .pure ([], [])
  | cons item items ih =>
    cases item with
    | obj related =>
      exact (hbelow related).bind fun r => ih.map fun rest =>
        (contribution r.1 ++ rest.1, .obj r.2 :: rest.2)
    | _ => exact ih.map fun rest => (rest.1, _ :: rest.2)

theorem consults_resolveBelow
    (hbelow : ∀ d, Consults fun loader memo => (below loader d memo).outcome) (doc : Document)
    (name : String) (v : Json) :
    Consults fun loader memo => (resolveBelow (below loader) doc name memo v).outcome := by
  cases v with
  | obj related => exact (hbelow related).map fun r => (r.1, doc.insert name (.obj r.2))
  | arr items =>
    exact (consults_resolveItems hbelow items).map fun r =>
      (if r.1.isEmpty then none else some (Json.arr r.1), doc.insert name (.arr r.2))
  | _ => exact .pure (none, doc)

end

section

variable {s : Schema} {t u : DocumentType} {name : String} {f : Field}
  (hrel : s.relation? t name = some (f, u)) {doc : Document} (loader : Loader) (memo : Memo)
  (next : String) (rest : List String)

include hrel

theorem resolve_of_held {v : Json} (hv : doc.get? name = some v) :
    resolve s loader t doc memo (name :: next :: rest) =
      resolveBelow (fun d m => resolve s loader u d m (next :: rest)) doc name memo v := by
  obtain ⟨hf, hu⟩ := Schema.relation?_eq_some_iff.mp hrel
  simp only [resolve, hf, hu, hv]

theorem resolve_of_absent (hv : doc.get? name = none) (hp : doc.get? f.pointerKey = none) :
    resolve s loader t doc memo (name :: next :: rest) = ⟨none, doc, memo⟩ := by
  obtain ⟨hf, hu⟩ := Schema.relation?_eq_some_iff.mp hrel
  simp only [resolve, hf, hu, hv, hp]

theorem resolve_of_identifier {pointer : Json} (hv : doc.get? name = none)
    (hp : doc.get? f.pointerKey = some pointer)
    (hid : (rest.isEmpty && decide (next = u.identifierName)) = true) :
    resolve s loader t doc memo (name :: next :: rest) = ⟨some pointer, doc, memo⟩ := by
  obtain ⟨hf, hu⟩ := Schema.relation?_eq_some_iff.mp hrel
  simp only [resolve, hf, hu, hv, hp, hid, if_true]

theorem resolve_of_pointer {pointer : Json} (hv : doc.get? name = none)
    (hp : doc.get? f.pointerKey = some pointer)
    (hid : ¬(rest.isEmpty && decide (next = u.identifierName)) = true) :
    resolve s loader t doc memo (name :: next :: rest) =
      match expand loader memo u.name pointer with
      | (none, memo) => ⟨none, doc, memo⟩
      | (some v, memo) =>
        resolveBelow (fun d m => resolve s loader u d m (next :: rest)) (doc.insert name v) name
          memo v := by
  obtain ⟨hf, hu⟩ := Schema.relation?_eq_some_iff.mp hrel
  simp only [resolve, hf, hu, hv, hp, hid]
  rfl

end

section

variable (s : Schema) (t : DocumentType) (doc : Document)

theorem consults_resolve (path : List String) :
    Consults fun loader memo => (resolve s loader t doc memo path).outcome := by
  induction path generalizing t doc with
  | nil => exact .pure (none, doc)
  | cons name path ih =>
    cases path with
    | nil => exact .pure (fieldValue t doc name, doc)
    | cons next rest =>
      have hnone : Consults fun _ memo => (⟨none, doc, memo⟩ : Resolution).outcome :=
        .pure (none, doc)
      cases hrel : s.relation? t name with
      | none => exact hnone.congr fun loader memo => by rw [resolve_of_no_relation hrel]
      | some fu =>
        obtain ⟨f, u⟩ := fu
        have hbelow : ∀ doc name v, Consults fun loader memo =>
            (resolveBelow (fun d m => resolve s loader u d m (next :: rest)) doc name memo
              v).outcome := consults_resolveBelow fun d => ih u d
        cases hv : doc.get? name with
        | some v => exact (hbelow doc name v).congr fun loader memo => by rw [resolve_of_held hrel _ _ _ _ hv]
        | none =>
          cases hp : doc.get? f.pointerKey with
          | none => exact hnone.congr fun loader memo => by rw [resolve_of_absent hrel _ _ _ _ hv hp]
          | some pointer =>
            by_cases hid : (rest.isEmpty && decide (next = u.identifierName)) = true
            · exact (Consults.pure (some pointer, doc)).congr fun loader memo => by
                rw [resolve_of_identifier hrel _ _ _ _ hv hp hid]
                rfl
            · refine ((consults_expand u.name pointer).bind (h := fun v loader memo =>
                v.elim (⟨none, doc, memo⟩ : Resolution).outcome fun v =>
                  (resolveBelow (fun d m => resolve s loader u d m (next :: rest))
                    (doc.insert name v) name memo v).outcome) fun v => ?_).congr
                  fun loader memo => ?_
              · cases v with
                | none => exact hnone
                | some v => exact hbelow (doc.insert name v) name v
              · rw [resolve_of_pointer hrel _ _ _ _ hv hp hid]
                rcases expand loader memo u.name pointer with ⟨_ | v, memo'⟩ <;> rfl

theorem consults_test (path : String) (op : Operator) (targets : List Json) :
    Consults fun loader memo => (test s loader t doc memo path op targets).outcome :=
  (consults_resolve s t doc (Text.splitAt '.' path)).map fun r =>
    (satisfies op r.1 targets, r.2)

end

section

variable (s : Schema) (t : DocumentType)

mutual

theorem consults_passes :
    (f : Filter) → (doc : Document) →
      Consults fun loader memo => (passes s loader t doc memo f).outcome
  | .condition c, doc =>
    (consults_test s t doc c.field c.operator c.operand.values).congr fun loader memo => by
      rw [passes]
  | .and fs, doc => (consults_passesAll fs doc).congr fun loader memo => by rw [passes]
  | .or fs, doc => (consults_passesAny fs doc).congr fun loader memo => by rw [passes]

theorem consults_passesAll :
    (fs : List Filter) → (doc : Document) →
      Consults fun loader memo => (passesAll s loader t doc memo fs).outcome
  | [], doc => (Consults.pure (true, doc)).congr fun loader memo => by
      rw [passesAll]
      rfl
  | f :: fs, doc => by
    refine ((consults_passes f doc).bind (h := fun v loader memo =>
      if v.1 then (passesAll s loader t v.2 memo fs).outcome else (v, memo)) fun v => ?_).congr
        fun loader memo => ?_
    · rcases v with ⟨_ | _, doc⟩
      · exact .pure (false, doc)
      · exact consults_passesAll fs doc
    · rw [passesAll]
      exact apply_ite Verdict.outcome _ _ _

theorem consults_passesAny :
    (fs : List Filter) → (doc : Document) →
      Consults fun loader memo => (passesAny s loader t doc memo fs).outcome
  | [], doc => (Consults.pure (false, doc)).congr fun loader memo => by
      rw [passesAny]
      rfl
  | f :: fs, doc => by
    refine ((consults_passes f doc).bind (h := fun v loader memo =>
      if v.1 then (v, memo) else (passesAny s loader t v.2 memo fs).outcome) fun v => ?_).congr
        fun loader memo => ?_
    · rcases v with ⟨_ | _, doc⟩
      · exact consults_passesAny fs doc
      · exact .pure (true, doc)
    · rw [passesAny]
      exact apply_ite Verdict.outcome _ _ _

end

end

end DocumentEngine.Evaluation
