import DocumentEngine.Proofs.Evaluation.Loads
import DocumentEngine.Proofs.Evaluation.Verdict

/-!
Values and verdicts asked for one after another, with one memo for all of them. Each is what it is
alone, every related document is loaded once at most, and a document is only extended: by relations
that its pointers lead to. A path that was read is read again without loading anything.
-/

namespace DocumentEngine.Evaluation

mutual

/-- A document of a type that extends another: under every key it has what the other has, or what
the relation of that name has, extended. -/
inductive Extends (s : Schema) (loader : Loader) : DocumentType → Document → Document → Prop where
  | intro {t : DocumentType} {doc doc' : Document}
      (h : ∀ key, ExtendsAt s loader t doc key (doc'.get? key)) : Extends s loader t doc doc'

/-- What a document may have under a key when it extends another. A relation that the other has only
as a pointer is there with the documents that the pointer leads to. -/
inductive ExtendsAt (s : Schema) (loader : Loader) :
    DocumentType → Document → String → Option Json → Prop where
  | same (t : DocumentType) (doc : Document) (key : String) :
      ExtendsAt s loader t doc key (doc.get? key)
  | relation {t u : DocumentType} {doc : Document} {key : String} {f : Field} {v v' : Json}
      (hrel : s.relation? t key = some (f, u)) (hv : relationValue? loader doc f u key = some v)
      (h : ExtendsRelation s loader u v v') : ExtendsAt s loader t doc key (some v')

/-- The document of a relation extended, or the documents of its list. -/
inductive ExtendsRelation (s : Schema) (loader : Loader) : DocumentType → Json → Json → Prop where
  | document {u : DocumentType} {doc doc' : Document} (h : Extends s loader u doc doc') :
      ExtendsRelation s loader u (.obj doc) (.obj doc')
  | list {u : DocumentType} {items items' : List Json} (h : ExtendsItems s loader u items items') :
      ExtendsRelation s loader u (.arr items) (.arr items')

/-- The documents of a list extended, where other items stay as they are. -/
inductive ExtendsItems (s : Schema) (loader : Loader) :
    DocumentType → List Json → List Json → Prop where
  | nil (u : DocumentType) : ExtendsItems s loader u [] []
  | item {u : DocumentType} {items items' : List Json} (v : Json)
      (hrest : ExtendsItems s loader u items items') :
      ExtendsItems s loader u (v :: items) (v :: items')
  | document {u : DocumentType} {doc doc' : Document} {items items' : List Json}
      (h : Extends s loader u doc doc') (hrest : ExtendsItems s loader u items items') :
      ExtendsItems s loader u (.obj doc :: items) (.obj doc' :: items')

end

section

variable {s : Schema} {loader : Loader} {t u : DocumentType}

theorem Extends.refl (doc : Document) : Extends s loader t doc doc :=
  .intro fun key => .same t doc key

theorem extendsItems_fillItem {fill : Document → Document}
    (hfill : ∀ d, Extends s loader u d (fill d)) (items : List Json) :
    ExtendsItems s loader u items (items.map (fillItem fill)) := by
  induction items with
  | nil => exact .nil u
  | cons item items ih =>
    cases item with
    | obj related => exact .document (hfill related) ih
    | _ => exact .item _ ih

/-- A document with a relation filled in extends it. -/
theorem extends_putRelation {fill : Document → Document} {doc : Document} {name : String}
    {f : Field} {v : Json} (hfill : ∀ d, Extends s loader u d (fill d))
    (hrel : s.relation? t name = some (f, u)) (hv : relationValue? loader doc f u name = some v) :
    Extends s loader t doc (putRelation fill doc name v) := by
  have hput : ∀ v', ExtendsRelation s loader u v v' → Extends s loader t doc (doc.insert name v') := by
    refine fun v' hgrown => .intro fun key => ?_
    by_cases hkey : name = key
    · subst hkey
      rw [Keyed.get?_insert_self]
      exact .relation hrel hv hgrown
    · rw [Keyed.get?_insert_of_ne doc v' hkey]
      exact .same t doc key
  cases v with
  | obj related => exact hput _ (.document (hfill related))
  | arr items => exact hput _ (.list (extendsItems_fillItem hfill items))
  | _ => exact .refl doc

/-- Reading a path only extends the document. -/
theorem extends_filled (s : Schema) (loader : Loader) (t : DocumentType) (doc : Document)
    (path : List String) : Extends s loader t doc (filled s loader t doc path) := by
  induction path generalizing t doc with
  | nil => exact .refl doc
  | cons name path ih =>
    cases path with
    | nil => exact .refl doc
    | cons next rest =>
      cases hrel : s.relation? t name with
      | none =>
        rw [filled_of_no_relation hrel]
        exact .refl doc
      | some fu =>
        obtain ⟨f, u⟩ := fu
        rw [filled_of_relation hrel]
        split
        · exact .refl doc
        cases hv : relationValue? loader doc f u name with
        | none => exact .refl doc
        | some v => exact extends_putRelation (fun d => ih u d) hrel hv

end

/-! Reading again -/

section

variable {below : Loader → Document → Memo → Resolution} {loader : Loader} {memo memo' : Memo}

/-- A document that was filled in below is read again as it was, and nothing is loaded. -/
def Repeats (below : Loader → Document → Memo → Resolution) : Prop :=
  ∀ {loader doc memo memo'}, (below loader doc memo).memo <+: memo' → ∀ loader',
    below loader' (below loader doc memo).doc memo' =
      ⟨(below loader doc memo).value, (below loader doc memo).doc, memo'⟩

theorem resolveItems_again
    (hbelow : ∀ d, Consults fun loader memo => (below loader d memo).outcome)
    (hagain : Repeats below) {items : List Json}
    (h : (resolveItems (below loader) memo items).2.2 <+: memo') (loader' : Loader) :
    resolveItems (below loader') memo' (resolveItems (below loader) memo items).2.1 =
      ((resolveItems (below loader) memo items).1, (resolveItems (below loader) memo items).2.1,
        memo') := by
  induction items generalizing memo with
  | nil => rfl
  | cons item items ih =>
    cases item with
    | obj related =>
      have hkept := (consults_resolveItems hbelow items).kept loader (below loader related memo).memo
      have hrest : (resolveItems (below loader) (below loader related memo).memo items).2.2 <+:
        memo' := h
      simp only [resolveItems, hagain (hkept.trans hrest) loader', ih hrest]
    | _ => simp only [resolveItems, ih h]

theorem resolveBelow_again
    (hbelow : ∀ d, Consults fun loader memo => (below loader d memo).outcome)
    (hagain : Repeats below) {doc : Document} {name : String} {v : Json}
    (hv : doc.get? name = some v) (h : (resolveBelow (below loader) doc name memo v).memo <+: memo')
    (loader' : Loader) :
    ∃ v', (resolveBelow (below loader) doc name memo v).doc.get? name = some v' ∧
      resolveBelow (below loader') (resolveBelow (below loader) doc name memo v).doc name memo' v' =
        ⟨(resolveBelow (below loader) doc name memo v).value,
          (resolveBelow (below loader) doc name memo v).doc, memo'⟩ := by
  cases v with
  | obj related =>
    refine ⟨_, Keyed.get?_insert_self _ _ _, ?_⟩
    simp only [resolveBelow, hagain h loader', Keyed.insert_insert]
  | arr items =>
    refine ⟨_, Keyed.get?_insert_self _ _ _, ?_⟩
    simp only [resolveBelow, resolveItems_again hbelow hagain h loader', Keyed.insert_insert]
  | _ => exact ⟨_, hv, rfl⟩

end

/-- A path that was read is read again as it was, and nothing is loaded. -/
theorem resolve_again (s : Schema) (t : DocumentType) (path : List String) :
    Repeats fun loader doc memo => resolve s loader t doc memo path := by
  induction path generalizing t with
  | nil => exact fun _ _ => rfl
  | cons name path ih =>
    cases path with
    | nil => exact fun _ _ => rfl
    | cons next rest =>
      intro loader doc memo memo' hkept loader'
      dsimp only at hkept ⊢
      cases hrel : s.relation? t name with
      | none => rw [resolve_of_no_relation hrel, resolve_of_no_relation hrel]
      | some fu =>
        obtain ⟨f, u⟩ := fu
        -- where the relation is held, or was loaded, its documents are read again below
        have hheld : ∀ {d : Document} {m : Memo} {v : Json} {r : Resolution},
            d.get? name = some v →
            resolveBelow (fun d m => resolve s loader u d m (next :: rest)) d name m v = r →
            r.memo <+: memo' →
            resolve s loader' t r.doc memo' (name :: next :: rest) = ⟨r.value, r.doc, memo'⟩ := by
          rintro d m v r hv rfl hkept
          obtain ⟨v', hv', hsame⟩ := resolveBelow_again
            (fun d => consults_resolve s u d (next :: rest)) (ih u) hv hkept loader'
          rw [resolve_of_held hrel _ _ _ _ hv']
          exact hsame
        cases hv : doc.get? name with
        | some v => exact hheld hv (resolve_of_held hrel _ _ _ _ hv).symm hkept
        | none =>
          cases hp : doc.get? f.pointerKey with
          | none =>
            rw [resolve_of_absent hrel loader memo _ _ hv hp]
            exact resolve_of_absent hrel _ _ _ _ hv hp
          | some pointer =>
            by_cases hid : (rest.isEmpty && decide (next = u.identifierName)) = true
            · rw [resolve_of_identifier hrel loader memo _ _ hv hp hid]
              exact resolve_of_identifier hrel _ _ _ _ hv hp hid
            · have hresolve := resolve_of_pointer hrel loader memo _ _ hv hp hid
              rcases hexp : expand loader memo u.name pointer with ⟨_ | v, memo₁⟩
              · rw [hexp] at hresolve
                rw [hresolve] at hkept ⊢
                have hloaded : (expand loader memo u.name pointer).2 <+: memo' := by rwa [hexp]
                have hagain := (consults_expand u.name pointer).again hloaded loader'
                rw [hexp] at hagain
                rw [resolve_of_pointer hrel loader' memo' _ _ hv hp hid, hagain]
              · rw [hexp] at hresolve
                exact hheld (Keyed.get?_insert_self doc name v) hresolve.symm hkept

/-! Runs of calls -/

/-- What is asked: the value at a path of a document, or the verdict of a filter on it. -/
inductive Call where
  | value (t : DocumentType) (doc : Document) (path : String)
  | verdict (t : DocumentType) (doc : Document) (f : Filter)

/-- What is answered. -/
inductive Answer where
  | value (v : Option Json)
  | verdict (holds : Bool)

/-- The answer to a call, the document that it leaves, and the memo. -/
def Call.run (s : Schema) (loader : Loader) (memo : Memo) : Call → (Answer × Document) × Memo
  | .value t doc path =>
    let r := resolvePath s loader t doc memo path
    ((.value r.value, r.doc), r.memo)
  | .verdict t doc f =>
    let v := passes s loader t doc memo f
    ((.verdict v.holds, v.doc), v.memo)

/-- The answers to calls one after another, with the document that each leaves, and the memo. -/
def runCalls (s : Schema) (loader : Loader) : Memo → List Call → List (Answer × Document) × Memo
  | memo, [] => ([], memo)
  | memo, call :: calls =>
    let (answer, memo) := call.run s loader memo
    let (answers, memo) := runCalls s loader memo calls
    (answer :: answers, memo)

section

variable (s : Schema) (loader : Loader)

theorem consults_run (call : Call) : Consults fun loader memo => call.run s loader memo := by
  cases call with
  | value t doc path =>
    exact (consults_resolve s t doc (Text.splitAt '.' path)).map fun r => (Answer.value r.1, r.2)
  | verdict t doc f => exact (consults_passes s t f doc).map fun v => (Answer.verdict v.1, v.2)

theorem consults_runCalls (calls : List Call) :
    Consults fun loader memo => runCalls s loader memo calls := by
  induction calls with
  | nil => exact .pure []
  | cons call calls ih => exact (consults_run s call).bind fun answer => ih.map (answer :: ·)

variable {loader} {memo : Memo}

/-- A call is answered as it is without a memo. -/
theorem run_of_faithful (h : memo.Faithful loader) (call : Call) :
    (call.run s loader memo).1 = (call.run s loader []).1 ∧
      (call.run s loader memo).2.Faithful loader := by
  cases call with
  | value t doc path =>
    have hread := resolve_spec s loader t doc h (Text.splitAt '.' path)
    have halone := resolve_spec s loader t doc (Memo.faithful_nil loader) (Text.splitAt '.' path)
    refine ⟨?_, hread.faithful⟩
    simp only [Call.run, resolvePath, hread.value_eq, hread.doc_eq, halone.value_eq, halone.doc_eq]
  | verdict t doc f =>
    have hsame : (passes s loader t doc memo f).Same loader (passes s loader t doc [] f) :=
      passes_same f h (Memo.faithful_nil loader)
    refine ⟨?_, hsame.left⟩
    simp only [Call.run, hsame.holds_eq, hsame.doc_eq]

theorem runCalls_of_faithful (h : memo.Faithful loader) (calls : List Call) :
    (runCalls s loader memo calls).1 = calls.map (fun call => (call.run s loader []).1) ∧
      (runCalls s loader memo calls).2.Faithful loader := by
  induction calls generalizing memo with
  | nil => exact ⟨rfl, h⟩
  | cons call calls ih =>
    obtain ⟨hanswer, hmemo⟩ := run_of_faithful s h call
    obtain ⟨hanswers, hmemo'⟩ := ih hmemo
    exact ⟨by simp only [runCalls, hanswer, hanswers, List.map_cons], hmemo'⟩

end

/-- Calls that share a memo are answered as each is alone. What the memo holds after them is what
was loaded: nothing twice, and the loader is asked for nothing else. A path only extends its
document, and read again there it gives the same and loads nothing. -/
theorem calls_transparent (s : Schema) (loader : Loader) (calls : List Call) :
    (runCalls s loader [] calls).1 = calls.map (fun call => (call.run s loader []).1) ∧
    ((runCalls s loader [] calls).2.Distinct ∧ (runCalls s loader [] calls).2.Faithful loader) ∧
    (∀ (memo : Memo) (loader' : Loader),
      loader.Agrees loader' memo (runCalls s loader memo calls).2 →
        runCalls s loader' memo calls = runCalls s loader memo calls) ∧
    ∀ (t : DocumentType) (doc : Document) (path : String) (later : List Call) (loader' : Loader),
      let r := resolvePath s loader t doc (runCalls s loader [] calls).2 path
      let memo := (runCalls s loader r.memo later).2
      Extends s loader t doc r.doc ∧ resolvePath s loader' t r.doc memo path = ⟨r.value, r.doc, memo⟩ := by
  obtain ⟨hanswers, hfaithful⟩ := runCalls_of_faithful s (Memo.faithful_nil loader) calls
  have hcalls := consults_runCalls s calls
  refine ⟨hanswers, ⟨hcalls.distinct loader [] List.nodup_nil, hfaithful⟩,
    fun memo loader' hagree => hcalls.asked hagree, fun t doc path later loader' => ⟨?_, ?_⟩⟩
  · have hread := resolve_spec s loader t doc hfaithful (Text.splitAt '.' path)
    rw [resolvePath, hread.doc_eq]
    exact extends_filled s loader t doc (Text.splitAt '.' path)
  · exact resolve_again s t (Text.splitAt '.' path) ((consults_runCalls s later).kept loader _) loader'

section

private def harbour : DocumentType where
  name := "Puerto"
  fields := [.ofIdentifier "id", .ofScalar "nombre" .string]

private def ship : DocumentType where
  name := "Barco"
  fields := [.ofIdentifier "id", .ofReference "puerto" "Puerto"]

private def fleet : Schema := ⟨[ship, harbour]⟩

private def shipIn (id : String) : Document := [("puerto_id", .str id)]

private def harbours : Loader := fun _ id =>
  if id = "p1" then some [("id", .str "p1"), ("nombre", .str "Rosario")] else none

private def rosarioOnly : Loader := fun type id => if type = "Puerto" then harbours type id else some []

private def voyages : List Call :=
  [.value ship (shipIn "p1") "puerto.nombre", .value ship (shipIn "p9") "puerto.nombre",
    .verdict ship (shipIn "p1") (.condition ⟨"puerto.nombre", .eq, .single (.str "Rosario")⟩)]

theorem calls_transparent_voyages :
    (runCalls fleet harbours [] voyages).2.map Load.key = [("Puerto", "p1"), ("Puerto", "p9")] ∧
    harbours.Agrees rosarioOnly [] (runCalls fleet harbours [] voyages).2 ∧
    runCalls fleet rosarioOnly [] voyages = runCalls fleet harbours [] voyages := by
  have hloads : (runCalls fleet harbours [] voyages).2.map Load.key =
      [("Puerto", "p1"), ("Puerto", "p9")] := by decide +kernel
  have hagree : harbours.Agrees rosarioOnly [] (runCalls fleet harbours [] voyages).2 := by
    intro l hl _
    have hkey : l.key ∈ [("Puerto", "p1"), ("Puerto", "p9")] := hloads ▸ List.mem_map_of_mem hl
    have htype : l.type = "Puerto" := by
      rcases List.mem_pair.mp hkey with h | h <;> exact congrArg Prod.fst h
    rw [rosarioOnly, if_pos htype]
  exact ⟨hloads, hagree, (calls_transparent fleet harbours voyages).2.2.1 [] rosarioOnly hagree⟩

end

end DocumentEngine.Evaluation
