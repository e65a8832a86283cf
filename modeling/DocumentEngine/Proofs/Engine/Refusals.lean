import DocumentEngine.Proofs.Engine.Guards
import DocumentEngine.Proofs.Engine.Query
import DocumentEngine.Proofs.Json.Equality
import DocumentEngine.Proofs.Store.Scan

/-!
Refused documents in queries. A round fails every slot of a type of which one slot asks for a
refused document, and a root field fails where its own query finds one; all other slots and root
fields come to what they are without handlers of reads. So the answer of a query is the one without
handlers, with null at the paths of what failed, and the errors are told at these paths.
-/

namespace DocumentEngine

/-- The data with null at some paths. -/
def Json.nullAt (data : Json) (paths : List ResponsePath) : Json :=
  paths.foldl (fun data path => data.setAt .null path) data

theorem Json.nullAt_append (data : Json) (paths others : List ResponsePath) :
    data.nullAt (paths ++ others) = (data.nullAt paths).nullAt others := List.foldl_append ..

/-- Putting null into some slots of a round and its value into each other puts all values and then
null at the paths of the some. -/
theorem Direct.put_or_null (s : Schema) (find : Finder) (failed : Slot → Bool) (data : Json)
    {round : List Slot} (hapart : round.Pairwise fun a b => a.path.Diverge b.path) :
    round.foldl (fun data open_ => data.setAt
        (if failed open_ then .null else slot s find open_) open_.path) data =
      (settle s find data round).nullAt ((round.filter failed).map Slot.path) := by
  induction round generalizing data with
  | nil => rfl
  | cons head round ih =>
    obtain ⟨hhead, htail⟩ := List.pairwise_cons.mp hapart
    rw [List.foldl_cons, ih _ htail]
    have hapart : ∀ other ∈ round, other.path.Diverge head.path :=
      fun other hother => (hhead other hother).symm
    cases hfailed : failed head with
    | true =>
      rw [if_pos rfl, List.filter_cons_of_pos hfailed, List.map_cons]
      change _ = ((settle s find (data.setAt (slot s find head) head.path) round).setAt .null
        head.path).nullAt _
      rw [← settle_setAt s find _ _ hapart, Json.setAt_setAt]
    | false =>
      rw [if_neg Bool.false_ne_true, List.filter_cons_of_neg (Bool.eq_false_iff.mp hfailed)]
      rfl

/-- An object with null in some of its members is the object with null at their paths. -/
theorem Json.object_or_null {α : Type} (key : α → String) (value : α → Json) (failed : α → Bool)
    {xs : List α} (hkeys : (xs.map key).Nodup) (members : Document) :
    Json.obj (Keyed.union members (xs.map fun x => (key x, if failed x then .null else value x))) =
      (Json.obj (Keyed.union members (xs.map fun x => (key x, value x)))).nullAt
        ((xs.filter failed).map fun x => [.key (key x)]) := by
  induction xs generalizing members with
  | nil => rfl
  | cons x xs ih =>
    rw [List.map_cons, List.nodup_cons] at hkeys
    have hnot : key x ∉ (xs.map fun x => (key x, value x)).map Prod.fst := by
      rw [List.map_map]
      exact hkeys.1
    rw [List.map_cons, List.map_cons, Keyed.union_cons, Keyed.union_cons, ih hkeys.2]
    cases hfailed : failed x with
    | true =>
      have hheld : (Keyed.union (Keyed.insert members (key x) (value x))
          (xs.map fun x => (key x, value x))).get? (key x) = some (value x) := by
        rw [Keyed.get?_union_of_notMem _ hnot, Keyed.get?_insert_self]
      rw [if_pos rfl, List.filter_cons_of_pos hfailed, List.map_cons]
      change _ = ((Json.obj _).setAt .null [.key (key x)]).nullAt _
      rw [Json.setAt_key hheld, Json.setAt, Keyed.insert_union _ hnot, Keyed.insert_insert]
    | false =>
      rw [if_neg Bool.false_ne_true, List.filter_cons_of_neg (Bool.eq_false_iff.mp hfailed)]

/-- Errors that are told at the paths of what failed, beside faults. -/
structure Accounts (failed : List ResponsePath) (faults errors : List ResponseError) : Prop where
  told : ∀ path ∈ failed, ∃ error ∈ errors, error.path = path
  kept : faults ⊆ errors
  only : ∀ error ∈ errors, error.path ∈ failed ∨ error ∈ faults

namespace Accounts

theorem of_faults (faults : List ResponseError) : Accounts [] faults faults :=
  ⟨by simp, List.Subset.refl _, fun _ h => .inr h⟩

theorem of_error (error : ResponseError) : Accounts [error.path] [] [error] :=
  ⟨by simp, List.nil_subset _, by simp⟩

theorem append {failed failed' : List ResponsePath} {faults faults' errors errors' :
    List ResponseError} (h : Accounts failed faults errors) (h' : Accounts failed' faults' errors') :
    Accounts (failed ++ failed') (faults ++ faults') (errors ++ errors') where
  told path hpath := by
    rcases List.mem_append.mp hpath with hpath | hpath
    · obtain ⟨error, herror, hat⟩ := h.told path hpath
      exact ⟨error, List.mem_append_left _ herror, hat⟩
    · obtain ⟨error, herror, hat⟩ := h'.told path hpath
      exact ⟨error, List.mem_append_right _ herror, hat⟩
  kept := List.append_subset.mpr ⟨List.subset_append_of_subset_left _ h.kept,
    List.subset_append_of_subset_right _ h'.kept⟩
  only error herror := by
    rcases List.mem_append.mp herror with herror | herror
    · exact (h.only error herror).imp (List.mem_append_left _) (List.mem_append_left _)
    · exact (h'.only error herror).imp (List.mem_append_right _) (List.mem_append_right _)

/-- What each element of a list accounts for is accounted for by the list. -/
theorem flatMap {α : Type} {failed : α → List ResponsePath}
    {faults errors : α → List ResponseError} {xs : List α}
    (h : ∀ x ∈ xs, Accounts (failed x) (faults x) (errors x)) :
    Accounts (xs.flatMap failed) (xs.flatMap faults) (xs.flatMap errors) := by
  induction xs with
  | nil => exact .of_faults []
  | cons x xs ih =>
    rw [List.flatMap_cons, List.flatMap_cons, List.flatMap_cons]
    exact (h x List.mem_cons_self).append (ih fun y hy => h y (List.mem_cons_of_mem _ hy))

end Accounts

namespace Engine

section

variable (e : Engine) (refusal : Refusal) (files : FileTree)

/-- The slots of a round that it fails. -/
def failedIn (round : List Slot) : List Slot :=
  round.filter fun slot => e.stalls files refusal round slot.type

/-- The slots that a round leaves open. -/
def leftIn (round : List Slot) : List Slot :=
  round.flatMap fun slot => (e.fillingAmong files refusal round slot).slots

/-- The faults of the fillings of a round. -/
def faultsIn (round : List Slot) : List ResponseError :=
  round.flatMap fun slot => (e.fillingAmong files refusal round slot).faults

/-- The data and the slots that wait after rounds that fill slots with stored documents or fail
them. -/
def settleAmong : Nat → Json → List Slot → Json × List Slot
  | 0, data, round => (data, round)
  | fuel + 1, data, round =>
    settleAmong fuel (Direct.fillAll (e.fillingAmong files refusal round) data round)
      (e.leftIn refusal files round)

/-- The slots that rounds fail. -/
def failedSlots : Nat → List Slot → List Slot
  | 0, _ => []
  | fuel + 1, round =>
    e.failedIn refusal files round ++ failedSlots fuel (e.leftIn refusal files round)

/-- The faults of the fillings of rounds. -/
def faultsAmong : Nat → List Slot → List ResponseError
  | 0, _ => []
  | fuel + 1, round =>
    e.faultsIn refusal files round ++ faultsAmong fuel (e.leftIn refusal files round)

/-- Whether a root field of a query finds a document that is refused. -/
def refusesRoot (selection : Selection) : Bool :=
  match e.rootDocuments files selection with
  | .error _ => false
  | .ok (t, _, docs) => !(refusal.pass t.name docs).isOk

/-- The paths at which the root fields of a query and its rounds fail. -/
def refusedPaths (selections : List Selection) : List ResponsePath :=
  let waiting := e.admittedWaiting refusal files selections
  (selections.filter (e.refusesRoot refusal files)).map (fun selection =>
    [.key selection.responseKey]) ++
      (e.failedSlots refusal files (Batch.rounds ⟨waiting, []⟩) waiting).map Slot.path

end

variable {e : Engine} {refusal : Refusal} {files : FileTree} {requestId : String}

theorem settleAmong_nil (fuel : Nat) (data : Json) :
    e.settleAmong refusal files fuel data [] = (data, []) := by
  induction fuel with
  | zero => rfl
  | succ fuel ih => exact ih

theorem failedSlots_nil (fuel : Nat) : e.failedSlots refusal files fuel [] = [] := by
  induction fuel with
  | zero => rfl
  | succ fuel ih => exact ih

theorem faultsAmong_nil (fuel : Nat) : e.faultsAmong refusal files fuel [] = [] := by
  induction fuel with
  | zero => rfl
  | succ fuel ih => exact ih

section

variable (hdot : e.schema.PlainIdentifiers) (hi : e.store.Identified files)
  (halone : PassesAlone e files refusal)

include hdot hi halone

/-- Rounds with an admitted batch go as rounds with stored documents. -/
theorem refusedRounds_admitted (fuel : Nat) (data : Json) {b : Batch}
    (hb : Admitted e files refusal b) :
    (refusedRounds e files refusal fuel data b).1 =
        (e.settleAmong refusal files fuel data b.pending).1 ∧
      (refusedRounds e files refusal fuel data b).2.pending =
        (e.settleAmong refusal files fuel data b.pending).2 := by
  induction fuel generalizing data b with
  | zero => exact ⟨rfl, rfl⟩
  | succ fuel ih =>
    obtain ⟨hdata, hpending, hthen⟩ := refusedRound_admitted hdot hi halone data hb
    unfold refusedRounds Batch.hasPending
    cases hempty : b.pending.isEmpty with
    | true =>
      rw [List.isEmpty_iff.mp hempty, settleAmong_nil]
      exact ⟨rfl, List.isEmpty_iff.mp hempty⟩
    | false =>
      have hrest := ih (refusedRound e files refusal data b).1 hthen
      rw [hdata, hpending] at hrest
      simpa only [hdata, Bool.not_false, if_true, settleAmong, leftIn] using hrest

/-- The errors of a round are told at the paths of the slots that it fails, beside the faults of the
others. -/
theorem roundErrors_accounts {b : Batch} (hb : Admitted e files refusal b) :
    Accounts ((e.failedIn refusal files b.pending).map Slot.path)
      (e.faultsIn refusal files b.pending) (roundErrors e files refusal b) := by
  have hpaths : (e.failedIn refusal files b.pending).map Slot.path = b.pending.flatMap fun slot =>
      if e.stalls files refusal b.pending slot.type then [slot.path] else [] := by
    unfold failedIn
    generalize e.stalls files refusal b.pending = stalls
    induction b.pending with
    | nil => rfl
    | cons slot round ih =>
      rw [List.flatMap_cons, ← ih]
      cases hstalls : stalls slot.type <;> simp [hstalls]
  rw [hpaths]
  refine .flatMap fun slot hslot => ?_
  have hfails := isSome_roundFailures hdot hb slot.type
  unfold slotErrors fillingAmong
  cases hstalls : e.stalls files refusal b.pending slot.type with
  | true =>
    obtain ⟨cause, hcause⟩ := Option.isSome_iff_exists.mp (hfails.trans hstalls)
    rw [hcause, if_pos rfl, if_pos rfl]
    exact .of_error ⟨slot.path, cause⟩
  | false =>
    have hnone := Option.isSome_eq_false_iff.mp (hfails.trans hstalls)
    have hloaded := (admitted_roundLoads hdot hi halone hb).fresh
    have hknown := fun id hid =>
      @isMemoized_roundLoads e files refusal hdot b slot hslot hstalls id hid
    rw [Option.isNone_iff_eq_none.mp hnone, if_neg Bool.false_ne_true, if_neg Bool.false_ne_true,
      Batch.fill_of_fresh hloaded hknown]
    exact .of_faults _

/-- The errors of rounds are told at the paths of the slots that they fail, beside the faults of the
others. -/
theorem roundsErrors_accounts (fuel : Nat) (data : Json) {b : Batch}
    (hb : Admitted e files refusal b) :
    Accounts ((e.failedSlots refusal files fuel b.pending).map Slot.path)
      (e.faultsAmong refusal files fuel b.pending)
      (roundsErrors e files refusal fuel data b) := by
  induction fuel generalizing data b with
  | zero => exact .of_faults []
  | succ fuel ih =>
    obtain ⟨-, hpending, hthen⟩ := refusedRound_admitted hdot hi halone data hb
    unfold roundsErrors Batch.hasPending
    cases hempty : b.pending.isEmpty with
    | true =>
      rw [List.isEmpty_iff.mp hempty, failedSlots_nil, faultsAmong_nil]
      exact .of_faults []
    | false =>
      have hrest := ih (refusedRound e files refusal data b).1 hthen
      rw [hpending] at hrest
      rw [failedSlots, faultsAmong, List.map_append]
      exact (roundErrors_accounts hdot hi halone hb).append hrest

end

/-- Rounds that have the fuel for the largest of their slots settle them all, but for null at the
paths of those that they fail. -/
theorem settleAmong_eq {fuel : Nat} (data : Json) {round : List Slot}
    (hsize : ∀ slot ∈ round, slot.size ≤ fuel)
    (hdistinct : ∀ slot ∈ round, slot.selection.Distinct)
    (hapart : round.Pairwise fun a b => a.path.Diverge b.path) :
    e.settleAmong refusal files fuel data round =
      ((Direct.settle e.schema (e.store.finder files) data round).nullAt
        ((e.failedSlots refusal files fuel round).map Slot.path), []) := by
  induction fuel generalizing data round with
  | zero =>
    have hnone : round = [] := List.eq_nil_iff_forall_not_mem.mpr fun slot hslot => by
      have hsmall := hsize slot hslot
      have hlarge := slot.two_le_size
      omega
    rw [hnone]
    rfl
  | succ fuel ih =>
    have hfilling : ∀ slot ∈ round, (e.fillingAmong files refusal round slot).Resolves e.schema
        (e.store.finder files) slot.path (slot.size - 1)
          (if e.stalls files refusal round slot.type then .null
            else Direct.slot e.schema (e.store.finder files) slot) := by
      intro slot hslot
      unfold fillingAmong
      split
      · exact .closed .null []
      · exact Slot.filling_resolves e.schema _ (hdistinct slot hslot)
    rw [settleAmong, leftIn, ih, Direct.settle_round _ _ data hfilling hapart,
      Direct.put_or_null _ _ (fun slot => e.stalls files refusal round slot.type) _ hapart,
      ← Json.nullAt_append, ← List.map_append]
    · rfl
    · exact Direct.small_round _ _ hfilling hsize
    · exact Direct.distinct_round _ _ hfilling
    · exact Direct.apart_round _ _ hfilling hapart

/-- The faults of rounds in which documents are refused are faults of rounds in which none is. -/
theorem faultsAmong_subset (hdot : e.schema.PlainIdentifiers)
    (hread : ∀ type, (e.schema.type? type).isSome → (e.store.contents? files type).isSome)
    {fuel fuel' : Nat} (hfuel : fuel ≤ fuel') {round round' : List Slot} (hround : round ⊆ round') :
    e.faultsAmong refusal files fuel round ⊆ e.faultsAmong .never files fuel' round' := by
  -- A round in which documents are refused fills a slot as the other round does, or not at all.
  have hfilling : ∀ (round round' : List Slot) (slot : Slot),
      e.fillingAmong files refusal round slot = ⟨.null, [], []⟩ ∨
        e.fillingAmong files refusal round slot = e.fillingAmong files .never round' slot := by
    intro round round' slot
    rw [fillingAmong_never hdot, Store.filling_eq hread]
    unfold fillingAmong
    split
    · exact .inl rfl
    · exact .inr rfl
  induction fuel generalizing fuel' round round' with
  | zero => exact List.nil_subset _
  | succ fuel ih =>
    obtain ⟨fuel', rfl⟩ : ∃ n, fuel' = n + 1 := ⟨fuel' - 1, by omega⟩
    refine List.append_subset.mpr ⟨fun error herror => ?_, fun error herror => ?_⟩
    · obtain ⟨slot, hslot, hmem⟩ := List.mem_flatMap.mp herror
      rcases hfilling round round' slot with hnone | hsame
      · rw [hnone] at hmem
        cases hmem
      · rw [hsame] at hmem
        exact List.mem_append_left _ (List.mem_flatMap.mpr ⟨slot, hround hslot, hmem⟩)
    · refine List.mem_append_right _ (ih (by omega) (fun inner hinner => ?_) herror)
      obtain ⟨slot, hslot, hmem⟩ := List.mem_flatMap.mp hinner
      rcases hfilling round round' slot with hnone | hsame
      · rw [hnone] at hmem
        cases hmem
      · rw [hsame] at hmem
        exact List.mem_flatMap.mpr ⟨slot, hround hslot, hmem⟩

/-- Where files are named by the ids of their documents a document that passes a fetch by ids passes
a fetch by its own id. -/
theorem passesAlone_of_named (hdot : e.schema.PlainIdentifiers) (hstore : e.store.Named files)
    (refusal : Refusal) : PassesAlone e files refusal := by
  intro type ids t found h doc hdoc own hown
  obtain ⟨u, docs, hc, hall⟩ := (isOk_presented_iff hdot).mp (by rw [h]; rfl)
  have hload := loaded_of_presented h
  rw [loaded_of_contents hdot hc] at hload
  cases hload
  obtain ⟨hstored, hpass⟩ := List.mem_filter.mp hdoc
  obtain ⟨id, hid, hpass⟩ := (Store.satisfies_isIn_iff _ ids).mp hpass
  refine (isOk_presented_iff hdot).mpr ⟨t, docs, hc, fun other hother hpass' => ?_⟩
  obtain ⟨ht, hdocs⟩ := Store.contents?_eq_some_iff.mp hc
  obtain ⟨paths, hpaths, hfiles⟩ := hstore.files_named type t ht
  obtain ⟨paths', hpaths', path, hpath, hread⟩ := Store.mem_stored hdocs hother
  rw [Projection.type?_name e.schema ht] at hpaths
  cases hpaths.symm.trans hpaths'
  obtain ⟨other', held, hread', hheld, -⟩ := hfiles path hpath
  cases hread.symm.trans hread'
  obtain ⟨v, hv, hvid⟩ := Option.bind_eq_some_iff.mp hown
  obtain ⟨w, hw, hwid⟩ := Option.bind_eq_some_iff.mp hheld
  have hrange : ∀ n, v = .num n → n.InRange := fun n hn =>
    Store.inRange_of_stored hdocs hstored (hn ▸ hv)
  have hvalue : ∀ {d : Document} {x : Json}, d.get? t.identifierName = some x →
      Evaluation.fieldValue t d t.identifierName = some x := fun hx => by
    rw [Evaluation.fieldValue, hx]
  rw [hvalue hv] at hpass
  rw [hvalue hw] at hpass'
  refine hall other hother ((Store.satisfies_isIn_iff _ ids).mpr ⟨id, hid, ?_⟩)
  rcases Store.satisfies_isIn_trans hvid hrange hpass hwid hpass' with rfl | hsame
  · -- Two documents with one id are one.
    obtain rfl := hstore.identified type t docs hc doc hstored other hother held hown hheld
    cases hv.symm.trans hw
    rwa [hvalue hv]
  · rwa [hvalue hw]

theorem admittedRoot_eq (selection : Selection) :
    e.admittedRoot refusal files selection =
      if e.refusesRoot refusal files selection then ⟨.null, [], []⟩
      else e.projectRoot files selection := by
  cases hroot : e.rootDocuments files selection with
  | error cause =>
    have hkept : e.refusesRoot refusal files selection = false := by
      rw [refusesRoot, hroot]
    rw [hkept, admittedRoot, rootOutcome, hroot, projectRoot, hroot]
    rfl
  | ok found =>
    obtain ⟨t, plural, docs⟩ := found
    have hrefuses : e.refusesRoot refusal files selection = !(refusal.pass t.name docs).isOk := by
      rw [refusesRoot, hroot]
    rw [hrefuses, admittedRoot, rootOutcome, hroot]
    dsimp only
    cases refusal.pass t.name docs <;> rfl

/-- The errors of a root field of a query are told at its path, if it finds a document that is
refused, and are what they are without refusals, if not. -/
theorem rootErrors_accounts (selection : Selection) :
    Accounts (if e.refusesRoot refusal files selection then [[.key selection.responseKey]] else [])
      (if e.refusesRoot refusal files selection then [] else e.rootErrors .never files selection)
      (e.rootErrors refusal files selection) := by
  cases hroot : e.rootDocuments files selection with
  | error cause =>
    have hkept : e.refusesRoot refusal files selection = false := by
      rw [refusesRoot, hroot]
    rw [hkept, rootErrors, rootErrors, rootOutcome, rootOutcome, hroot]
    exact .of_faults _
  | ok found =>
    obtain ⟨t, plural, docs⟩ := found
    have hrefuses : e.refusesRoot refusal files selection = !(refusal.pass t.name docs).isOk := by
      rw [refusesRoot, hroot]
    rw [hrefuses, rootErrors, rootErrors, rootOutcome, rootOutcome, hroot]
    dsimp only
    rw [Refusal.pass_never]
    cases refusal.pass t.name docs with
    | error cause => exact .of_error ⟨[.key selection.responseKey], cause⟩
    | ok docs => exact .of_faults _

/-- The errors of a query in which documents are refused. -/
theorem errors_accounts (hr : e.Refuses requestId refusal) (hdot : e.schema.PlainIdentifiers)
    {request : Request} {state : State} (hi : e.store.Identified state.files)
    (halone : PassesAlone e state.files refusal) (hkind : request.kind = .query) :
    let waiting := e.admittedWaiting refusal state.files request.selections
    Accounts (e.refusedPaths refusal state.files request.selections)
      ((request.selections.flatMap fun selection =>
        if e.refusesRoot refusal state.files selection then []
        else e.rootErrors .never state.files selection) ++
        e.faultsAmong refusal state.files (Batch.rounds ⟨waiting, []⟩) waiting)
      ((e.executeRequest requestId request).run state).1.errors := by
  intro waiting
  have hreports := @reports_resolveAll e requestId state refusal hr request hkind
  have herrors : ((e.executeRequest requestId request).run state).1.errors =
      (after (e.resolveAll requestId request) {} state).1.2.errors := rfl
  have hroots : (request.selections.filter (e.refusesRoot refusal state.files)).map
      (fun selection => ([.key selection.responseKey] : ResponsePath)) =
        request.selections.flatMap fun selection =>
          if e.refusesRoot refusal state.files selection then [[.key selection.responseKey]]
          else [] := by
    induction request.selections with
    | nil => rfl
    | cons selection selections ih =>
      rw [List.flatMap_cons, ← ih]
      cases hrefuses : e.refusesRoot refusal state.files selection <;> simp [hrefuses]
  rw [herrors, hreports.errors_eq, refusedPaths, hroots]
  exact (Accounts.flatMap fun selection _ => rootErrors_accounts selection).append
    (roundsErrors_accounts hdot hi halone _ _ (admitted_of_memo_nil (b := ⟨waiting, []⟩) refusal rfl))

theorem projectRoot_or_null_resolves {selection : Selection} (hd : selection.Distinct) :
    (e.admittedRoot refusal files selection).Resolves e.schema (e.store.finder files)
      [.key selection.responseKey] (2 * selection.height)
      (if e.refusesRoot refusal files selection then .null else Direct.root e files selection) := by
  rw [admittedRoot_eq]
  split
  · exact .closed .null []
  · exact projectRoot_resolves files hd

/-- The data of a query in which documents are refused is what its fields have with every pointer
followed at once, with null at the paths of what fails. -/
theorem query_data_admitted (hr : e.Refuses requestId refusal) (hdot : e.schema.PlainIdentifiers)
    {request : Request} {state : State} (hstore : e.store.Named state.files)
    (hkind : request.kind = .query) (hkeys : Selection.DistinctBelow request.selections) :
    ((e.executeRequest requestId request).run state).1.data =
      (Direct.data e state.files request.selections).nullAt
        (e.refusedPaths refusal state.files request.selections) := by
  have hresolves := Projected.Resolves.object (rootFields_resolve
    (fun _ => @projectRoot_or_null_resolves e refusal state.files _) hkeys)
  have hobject : Projected.object (request.selections.map fun selection =>
      (selection.responseKey, e.admittedRoot refusal state.files selection)) =
        ⟨e.admittedPlaced refusal state.files request.selections,
          e.admittedWaiting refusal state.files request.selections,
          request.selections.flatMap fun selection =>
            (e.admittedRoot refusal state.files selection).faults⟩ := by
    simp only [Projected.object, List.map_map, List.flatMap_map, admittedPlaced, admittedWaiting]
    rfl
  rw [hobject] at hresolves
  have hreports := @reports_resolveAll e requestId state refusal hr request hkind
  have hrounds := (refusedRounds_admitted hdot hstore.identified
    (passesAlone_of_named hdot hstore refusal)
    (Batch.rounds ⟨e.admittedWaiting refusal state.files request.selections, []⟩)
    (e.admittedPlaced refusal state.files request.selections)
    (b := ⟨e.admittedWaiting refusal state.files request.selections, []⟩)
    (admitted_of_memo_nil refusal rfl)).1
  have hsettled := @settleAmong_eq e refusal state.files _
    (e.admittedPlaced refusal state.files request.selections) _
    (fun slot hslot => size_le_rounds
      (b := ⟨e.admittedWaiting refusal state.files request.selections, []⟩) hslot)
    hresolves.distinct hresolves.apart
  have hvalue : ((e.executeRequest requestId request).run state).1.data =
      (after (e.resolveAll requestId request) {} state).1.1 := rfl
  have hroots := Json.object_or_null Selection.responseKey (Direct.root e state.files)
    (e.refusesRoot refusal state.files) hkeys.nodup []
  rw [hvalue, hreports.value_eq, hrounds, hsettled]
  dsimp only
  have hput := hresolves.settles .null
  dsimp only [Json.setAt] at hput
  rw [hput, refusedPaths, Json.nullAt_append]
  exact congrArg (fun data => Json.nullAt data _) hroots

/-- The data of a query without handlers of reads is what its fields have with every pointer followed
at once. -/
theorem plain_data_eq (hr : e.Refuses requestId refusal) (hdot : e.schema.PlainIdentifiers)
    {request : Request} {state : State} (hstore : e.store.Named state.files)
    (hkind : request.kind = .query) (hkeys : Selection.DistinctBelow request.selections) :
    ((({ e with hooks := {} } : Engine).executeRequest requestId request).run state).1.data =
      Direct.data e state.files request.selections := by
  have hrounds := (query_settleRounds { e with hooks := {} } requestId request state hr.readsPlainly
    hdot hstore.identified hkind).1
  rw [settleRounds_placed (e := { e with hooks := {} }) hstore hkeys] at hrounds
  exact hrounds

theorem refusesRoot_never (selection : Selection) :
    e.refusesRoot .never files selection = false := by
  unfold refusesRoot
  cases e.rootDocuments files selection with
  | error cause => rfl
  | ok found =>
    dsimp only
    rw [Refusal.pass_never]
    rfl

theorem admittedWaiting_subset (selections : List Selection) :
    e.admittedWaiting refusal files selections ⊆ e.admittedWaiting .never files selections := by
  intro slot hslot
  obtain ⟨selection, hselection, hmem⟩ := List.mem_flatMap.mp hslot
  refine List.mem_flatMap.mpr ⟨selection, hselection, ?_⟩
  rw [admittedRoot_never]
  rw [admittedRoot_eq] at hmem
  split at hmem
  · cases hmem
  · exact hmem

/-- The faults of rounds come of the store, not of the handlers. -/
theorem faultsAmong_hooks (hooks : Registry Document) (fuel : Nat) (round : List Slot) :
    ({ e with hooks := hooks } : Engine).faultsAmong refusal files fuel round =
      e.faultsAmong refusal files fuel round := by
  induction fuel generalizing round with
  | zero => rfl
  | succ fuel ih =>
    rw [faultsAmong, faultsAmong, ih]
    rfl

/-- The faults of a query in which documents are refused are errors of the query without handlers
of reads. -/
theorem faults_subset_plain (hr : e.Refuses requestId refusal) (hdot : e.schema.PlainIdentifiers)
    {request : Request} {state : State} (hstore : e.store.Named state.files)
    (hkind : request.kind = .query) :
    let waiting := e.admittedWaiting refusal state.files request.selections
    (request.selections.flatMap fun selection =>
        if e.refusesRoot refusal state.files selection then []
        else e.rootErrors .never state.files selection) ++
        e.faultsAmong refusal state.files (Batch.rounds ⟨waiting, []⟩) waiting ⊆
      ((({ e with hooks := {} } : Engine).executeRequest requestId request).run state).1.errors := by
  intro waiting
  have hplain := (errors_accounts (hr.readsPlainly.refuses requestId) hdot hstore.identified
    (passesAlone_of_named hdot hstore .never) hkind).kept
  have hsub := @admittedWaiting_subset e refusal state.files request.selections
  refine List.append_subset.mpr ⟨fun error herror => hplain (List.mem_append_left _ ?_),
    fun error herror => hplain (List.mem_append_right _ ?_)⟩
  · obtain ⟨selection, hselection, hmem⟩ := List.mem_flatMap.mp herror
    refine List.mem_flatMap.mpr ⟨selection, hselection, ?_⟩
    rw [refusesRoot_never, if_neg Bool.false_ne_true]
    split at hmem
    · cases hmem
    · exact hmem
  · rw [faultsAmong_hooks]
    refine faultsAmong_subset hdot (fun _ => hstore.readable) ?_ hsub herror
    exact rounds_le fun slot hslot =>
      size_le_rounds (b := ⟨e.admittedWaiting .never state.files request.selections, []⟩)
        (hsub hslot)

/-- The answer of a query where the handlers of reads refuse some documents and change none is the
answer without handlers of reads, with null where a root field finds a refused document and at every
slot of a type of which the same round asks for one; an error is told at each of these paths, and
all other errors are errors without handlers. -/
theorem query_refused (e : Engine) (requestId : String) (refusal : Refusal) (request : Request)
    (state : State) (hr : e.Refuses requestId refusal) (hdot : e.schema.PlainIdentifiers)
    (hstore : e.store.Named state.files) (hkind : request.kind = .query)
    (hkeys : Selection.DistinctBelow request.selections) :
    let response := ((e.executeRequest requestId request).run state).1
    let plain := ((({ e with hooks := {} } : Engine).executeRequest requestId request).run state).1
    let failed := e.refusedPaths refusal state.files request.selections
    response.data = plain.data.nullAt failed ∧
      (∀ path ∈ failed, ∃ error ∈ response.errors, error.path = path) ∧
      ∀ error ∈ response.errors, error.path ∈ failed ∨ error ∈ plain.errors := by
  intro response plain failed
  have hi := hstore.identified
  have halone := passesAlone_of_named hdot hstore refusal
  have haccounts := errors_accounts hr hdot hi halone hkind
  refine ⟨?_, haccounts.told, fun error herror => (haccounts.only error herror).imp_right
    fun hfault => ?_⟩
  · rw [plain_data_eq hr hdot hstore hkind hkeys, query_data_admitted hr hdot hstore hkind hkeys]
  · exact faults_subset_plain hr hdot hstore hkind hfault

section

/-- Employees with two provinces. -/
private def districts : Schema where
  types := [
    { name := "Empleado"
      fields := [.ofIdentifier "id", .ofReference "provincia" "Provincia",
        .ofReference "destino" "Provincia"] },
    { name := "Provincia"
      fields := [.ofIdentifier "id", .ofScalar "nombre" .string] }]

/-- A rule that refuses a province by its name. -/
private def sealing : Rule Document where
  failure := .authorization ""
  before := DocumentEdit.apply { refused := some [("nombre", .str "Salta")] }
  combine doc _ := doc
  after := id

/-- An engine with the rule behind the reads of provinces. -/
private def desk : Engine :=
  { bare ⟨"/data"⟩ districts ⟨"default", []⟩ with
    hooks := ({} : Registry Document).register "default::ProvinciaRead" sealing.handler }

/-- What the rule refuses, for each handler behind the reads of a type. -/
private def sealed : Refusal := fun type doc =>
  ((desk.hooks.handlersFor desk.space type Registry.readStage).map fun _ doc =>
    if DocumentEdit.hasAll doc [("nombre", .str "Salta")] then some sealing.failure
    else none).findSome? fun refusal => refusal doc

private theorem desk_refuses : desk.Refuses "r" sealed := by
  refine refuses_of_guards (fun _ => rfl) (fun _ _ => rfl) fun type => ?_
  rw [List.forall₂_map_right_iff, List.forall₂_same]
  have hsealing : ∀ handler ∈ desk.hooks.handlersFor desk.space type Registry.readStage,
      handler = sealing.handler := by
    refine Registry.forall_handlersFor (fun entry hentry handler hhandler => ?_)
      (fun _ hentry => absurd hentry List.not_mem_nil) _ _ _
    rw [List.mem_singleton.mp hentry] at hhandler
    exact List.mem_singleton.mp hhandler
  intro handler hhandler
  rw [hsealing handler hhandler]
  exact Rule.guards rfl (fun _ => rfl) rfl rfl rfl rfl rfl

private theorem desk_plain : desk.schema.PlainIdentifiers := by
  unfold Schema.PlainIdentifiers
  decide

/-- The names of the two provinces of all employees. -/
private def transfers : Request where
  kind := .query
  name := none
  selections := [.field none "empleados" [] [
    .field none "provincia" [] [.field none "nombre" [] []],
    .field none "destino" [] [.field none "nombre" [] []]]]

private theorem transfers_distinct : Selection.DistinctBelow transfers.selections := by
  simp [transfers, Selection.DistinctBelow, Selection.Distinct, Selection.responseKey,
    Selection.label, Selection.name]

/-- An employee of a province that the rule refuses, with none to go to. -/
private def sealedBranch : FileTree :=
  ⟨[(["data"], .directory), (["data", "Empleado"], .directory), (["data", "Provincia"], .directory),
    (["data", "Empleado", "e1"],
      .file (some "\x7b\"id\": \"e1\", \"provincia_id\": \"p1\"\x7d")),
    (["data", "Provincia", "p1"],
      .file (some "\x7b\"id\": \"p1\", \"nombre\": \"Salta\"\x7d"))]⟩

theorem query_refused_transfers :
    let response := ((desk.executeRequest "r" transfers).run { files := sealedBranch }).1
    let plain := ((({ desk with hooks := {} } : Engine).executeRequest "r" transfers).run
      { files := sealedBranch }).1
    let path : ResponsePath := [.key "empleados", .index 0, .key "provincia"]
    response.data = plain.data.setAt .null path ∧
      (∃ error ∈ response.errors, error.path = path) ∧
      ∀ error ∈ response.errors, error.path = path ∨ error ∈ plain.errors := by
  intro response plain path
  have hpaths : desk.refusedPaths sealed sealedBranch transfers.selections = [path] := by
    decide +kernel
  have hrefused := query_refused desk "r" sealed transfers { files := sealedBranch } desk_refuses
    desk_plain (Store.named_of_isTypeNamed (by decide +kernel)) rfl transfers_distinct
  rw [hpaths] at hrefused
  exact ⟨hrefused.1, hrefused.2.1 path List.mem_cons_self,
    fun error herror => (hrefused.2.2 error herror).imp_left List.mem_singleton.mp⟩

/-- An employee of a province that the rule refuses, who goes to one that it does not refuse. -/
private def branches : FileTree :=
  ⟨[(["data"], .directory), (["data", "Empleado"], .directory), (["data", "Provincia"], .directory),
    (["data", "Empleado", "e1"],
      .file (some "\x7b\"id\": \"e1\", \"provincia_id\": \"p1\", \"destino_id\": \"p2\"\x7d")),
    (["data", "Provincia", "p1"],
      .file (some "\x7b\"id\": \"p1\", \"nombre\": \"Salta\"\x7d")),
    (["data", "Provincia", "p2"],
      .file (some "\x7b\"id\": \"p2\", \"nombre\": \"Chaco\"\x7d"))]⟩

/-- The files of the employee and the two provinces are named by their ids. -/
private theorem branches_stored : desk.store.Named branches ∧
    desk.store.contents? branches "Provincia" =
      some (districts.types[1], [[("id", .str "p1"), ("nombre", .str "Salta")],
        [("id", .str "p2"), ("nombre", .str "Chaco")]]) := by
  have hfiles : desk.store.documentFiles branches "Provincia" =
      .ok [⟨"/data/Provincia/p1"⟩, ⟨"/data/Provincia/p2"⟩] := by
    have hlist : branches.list (desk.store.typeDir "Provincia") = .ok ["p2", "p1"] :=
      rfl
    have hsort : Store.sortNames ["p2", "p1"] = ["p1", "p2"] :=
      Store.sortNames_eq (List.Perm.swap ..) (by decide +kernel)
    rw [Store.documentFiles, hlist]
    dsimp only
    rw [hsort]
    decide +kernel
  refine ⟨⟨fun type t ht => ?_⟩, Store.contents?_eq_some_iff.mpr ⟨rfl, ?_⟩⟩
  · have hmem : t ∈ districts.types := List.mem_of_find?_eq_some ht
    rcases List.mem_cons.mp hmem with rfl | hmem
    · exact Store.typeNamed_of_isTypeNamed (by decide +kernel)
    · obtain rfl := List.mem_singleton.mp hmem
      refine Store.typeNamed_of_isTypeNamed ?_
      rw [Store.isTypeNamed, hfiles]
      decide +kernel
  · rw [Store.stored, hfiles]
    decide +kernel

/-- The slot of a reference of the employee. -/
private def posted (field id : String) : Slot where
  path := [.key "empleados", .index 0, .key field]
  type := "Provincia"
  pointer := .one id
  selection := .field none field [] [.field none "nombre" [] []]
  kind := .relation

private theorem branches_roots (selection : Selection) (h : selection ∈ transfers.selections) :
    desk.rootDocuments branches selection = .ok (districts.types[0], true,
      [[("destino_id", .str "p2"), ("id", .str "e1"), ("provincia_id", .str "p1")]]) := by
  obtain rfl := List.mem_singleton.mp h
  decide +kernel

private theorem branches_admits (selection : Selection) (h : selection ∈ transfers.selections) :
    desk.refusesRoot sealed branches selection = false := by
  rw [refusesRoot, branches_roots selection h]
  rfl

private theorem branches_waiting : desk.admittedWaiting sealed branches transfers.selections =
    [posted "provincia" "p1", posted "destino" "p2"] := by
  have hslots : ∀ selection ∈ transfers.selections,
      (desk.admittedRoot sealed branches selection).slots =
        [posted "provincia" "p1", posted "destino" "p2"] := by
    intro selection h
    rw [admittedRoot_eq, branches_admits selection h, if_neg Bool.false_ne_true, projectRoot,
      branches_roots selection h]
    obtain rfl := List.mem_singleton.mp h
    rfl
  rw [admittedWaiting, List.flatMap_congr hslots]
  rfl

private theorem branches_found :
    desk.store.finder branches "Provincia" "p1" = some [("id", .str "p1"), ("nombre", .str "Salta")] ∧
      desk.store.finder branches "Provincia" "p2" =
        some [("id", .str "p2"), ("nombre", .str "Chaco")] := by
  rw [Store.finder, Store.finder, branches_stored.2]
  exact ⟨rfl, rfl⟩

/-- Each reference has the name of its province. -/
private theorem branches_data : Direct.data desk branches transfers.selections =
    .obj [("empleados", .arr [.obj [("destino", .obj [("nombre", .str "Chaco")]),
      ("provincia", .obj [("nombre", .str "Salta")])]])] := by
  have hemployee : ∀ find : Finder,
      find "Provincia" "p1" = some [("id", .str "p1"), ("nombre", .str "Salta")] →
      find "Provincia" "p2" = some [("id", .str "p2"), ("nombre", .str "Chaco")] →
      ∀ selection ∈ transfers.selections,
        Direct.document districts find districts.types[0] .stored selection.selections
            [("destino_id", .str "p2"), ("id", .str "e1"), ("provincia_id", .str "p1")] =
          .obj (Keyed.ofList [("provincia", .obj (Keyed.ofList [("nombre", .str "Salta")])),
            ("destino", .obj (Keyed.ofList [("nombre", .str "Chaco")]))]) := by
    intro find hsalta hchaco selection h
    obtain rfl := List.mem_singleton.mp h
    simp [Direct.document, Direct.fields, Direct.field, districts, hsalta, hchaco,
      Schema.type?, DocumentType.field?, Field.target?, Field.pointerKey, Field.ofReference,
      Field.ofIdentifier, Field.ofScalar, Pointer.ofJson?, Json.idText?, Finder.follow,
      Projection.typeNameField, Selection.selections, Selection.responseKey, Selection.label,
      Selection.name, Keyed.get?]
  have hroot : ∀ selection ∈ transfers.selections, Direct.root desk branches selection =
      .arr [.obj [("destino", .obj [("nombre", .str "Chaco")]),
        ("provincia", .obj [("nombre", .str "Salta")])]] := by
    intro selection h
    rw [Direct.root, branches_roots selection h]
    exact congrArg (fun employee => Json.arr [employee])
      (hemployee _ branches_found.1 branches_found.2 selection h)
  rw [Direct.data, List.map_congr_left fun selection h => by rw [hroot selection h]]
  rfl

/-- The slot of the one reference fails the slots of both. -/
private theorem branches_refused : desk.refusedPaths sealed branches transfers.selections =
    [[.key "empleados", .index 0, .key "provincia"],
      [.key "empleados", .index 0, .key "destino"]] := by
  have hrefused : (desk.presented sealed branches "Provincia" ["p1"]).isOk = false := by
    rw [Bool.eq_false_iff, Ne, isOk_presented_iff desk_plain, branches_stored.2]
    rintro ⟨t, docs, hc, hall⟩
    cases hc
    cases hall _ List.mem_cons_self rfl
  let round := [posted "provincia" "p1", posted "destino" "p2"]
  have hstalls : ∀ slot ∈ round, desk.stalls branches sealed round slot.type = true := by
    intro slot hslot
    have htype : slot.type = "Provincia" := by
      rcases List.mem_cons.mp hslot with rfl | hslot
      · rfl
      · rw [List.mem_singleton.mp hslot]
        rfl
    rw [htype]
    exact stalls_eq_true_iff.mpr
      ⟨_, List.mem_cons_self, rfl, "p1", List.mem_singleton_self _, hrefused⟩
  have hleft : desk.leftIn sealed branches round = [] := by
    refine List.flatMap_eq_nil_iff.mpr fun slot hslot => ?_
    rw [fillingAmong, if_pos (hstalls slot hslot)]
  have hfailed : desk.failedIn sealed branches round = round :=
    List.filter_eq_self.mpr hstalls
  have hroots : transfers.selections.filter (desk.refusesRoot sealed branches) = [] := by
    refine List.filter_eq_nil_iff.mpr fun selection h => ?_
    rw [branches_admits selection h]
    exact Bool.false_ne_true
  have hfuel : Batch.rounds ⟨round, []⟩ = 3 + 1 := rfl
  rw [refusedPaths, hroots, branches_waiting, hfuel, failedSlots, hfailed, hleft, failedSlots_nil]
  rfl

/-- A slot whose document is not refused may fail, and be null where it has a value without
handlers: another slot of its type waits for a refused document in the same round. -/
theorem exists_slot_failed_beside :
    ∃ (e : Engine) (refusal : Refusal) (request : Request) (state : State) (doc : Document),
      let response := ((e.executeRequest "r" request).run state).1
      let plain := ((({ e with hooks := {} } : Engine).executeRequest "r" request).run state).1
      e.schema.check.isOk = true ∧ e.Refuses "r" refusal ∧ e.store.Named state.files ∧
      request.kind = .query ∧ Selection.DistinctBelow request.selections ∧
      e.store.finder state.files "Provincia" "p2" = some doc ∧ refusal "Provincia" doc = none ∧
      plain.data = .obj [("empleados", .arr [.obj [("destino", .obj [("nombre", .str "Chaco")]),
        ("provincia", .obj [("nombre", .str "Salta")])]])] ∧
      response.data = .obj [("empleados", .arr [.obj [("destino", .null),
        ("provincia", .null)]])] ∧
      ∃ error ∈ response.errors, error.path = [.key "empleados", .index 0, .key "destino"] := by
  refine ⟨desk, sealed, transfers, { files := branches }, [("id", .str "p2"), ("nombre", .str "Chaco")],
    rfl, desk_refuses, branches_stored.1, rfl, transfers_distinct, branches_found.2,
    rfl, ?_, ?_, ?_⟩
  · rw [plain_data_eq desk_refuses desk_plain branches_stored.1 rfl transfers_distinct]
    exact branches_data
  · rw [query_data_admitted desk_refuses desk_plain branches_stored.1 rfl transfers_distinct]
    change (Direct.data desk branches transfers.selections).nullAt
      (desk.refusedPaths sealed branches transfers.selections) = _
    rw [branches_data, branches_refused]
    rfl
  · refine (@errors_accounts desk sealed "r" desk_refuses desk_plain transfers { files := branches }
      branches_stored.1.identified (passesAlone_of_named desk_plain branches_stored.1 sealed) rfl).told _ ?_
    change _ ∈ desk.refusedPaths sealed branches transfers.selections
    rw [branches_refused]
    exact List.mem_cons_of_mem _ (List.mem_singleton_self _)

end

end Engine

end DocumentEngine
