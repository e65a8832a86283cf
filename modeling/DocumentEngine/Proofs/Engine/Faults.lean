import DocumentEngine.Proofs.Engine.Settling
import DocumentEngine.Proofs.Projection.Placed

/-!
Where the errors of a response stand. While a request runs, its slots that wait lie apart from each
other and from the errors so far, each error at a null; root fields and rounds keep that, whatever is
stored and whatever handlers do. So every error of a response is at a null in its data.
-/

namespace DocumentEngine.Engine

/-- A request under way, with root fields under some keys: its slots and its errors are placed in its
data. -/
def Underway (keys : List String) (data : Json) (r : Resolution) : Prop :=
  Projected.Rooted keys ⟨data, r.batch.pending, r.errors⟩

namespace Underway

variable {keys : List String} {r : Resolution} (e : Engine) (requestId : String)

theorem round {data : Json} (h : Underway keys data r) (state : State) :
    Underway keys (after (e.resolveRound requestId data) r state).1.1
      (after (e.resolveRound requestId data) r state).1.2 := by
  obtain ⟨failures, loaded, left, hround⟩ := e.exists_round requestId data r state
  have hstart : Projected.Rooted keys ⟨data, r.batch.pending ++ [], r.errors⟩ := by
    rw [List.append_nil]
    exact h
  rw [hround]
  exact hstart.fillAll (e.filled_answers failures loaded)

theorem settles {e : Engine} {requestId : String} {n : Nat} {start last : (Json × Resolution) × State}
    (hsettles : Settles e requestId n start last) (h : Underway keys start.1.1 start.1.2) :
    Underway keys last.1.1 last.1.2 := by
  induction hsettles with
  | settled _ => exact h
  | round _ _ ih => exact ih (h.round _ _ _)

theorem flush {data : Json} (h : Underway keys data r) (state : State) :
    Underway keys (after (e.flush requestId data) r state).1.1
      (after (e.flush requestId data) r state).1.2 := by
  obtain ⟨n, hsettles⟩ := exists_settles_flush e requestId data r state
  exact h.settles hsettles

/-- A root field with a key of its own. -/
theorem addRoot {data : Document} {selection : Selection} (h : Underway keys (.obj data) r)
    (hkey : selection.responseKey ∉ keys) (hd : selection.Distinct) (kind : RequestKind)
    (state : State) :
    Underway (keys ++ [selection.responseKey])
      (.obj (after (e.addRoot requestId kind data selection) r state).1.1)
      (after (e.addRoot requestId kind data selection) r state).1.2 := by
  obtain ⟨p, left, hp, hroot⟩ := exists_rootOutcome e requestId kind selection r state
  have hadded : Underway (keys ++ [selection.responseKey])
      (.obj (data.insert selection.responseKey p.value))
      ⟨{ r.batch with pending := r.batch.pending ++ p.slots }, r.errors ++ p.faults⟩ :=
    h.add hkey hd hp.answers
  cases kind with
  | query =>
    rw [after_addRoot_query hroot]
    exact hadded
  | mutation =>
    have hflushed := hadded.flush e requestId left
    obtain ⟨members, hmembers, -⟩ := hflushed.members
    rw [after_addRoot_mutation hroot]
    change (after (e.flush requestId (.obj (data.insert selection.responseKey p.value))) _ left).1.1
      = _ at hmembers
    dsimp only
    rw [hmembers] at hflushed ⊢
    exact hflushed

/-- Root fields with keys of their own, one after the other. -/
theorem addRoots {selections : List Selection} {data : Document}
    (h : Underway keys (.obj data) r) (hd : Selection.DistinctBelow selections)
    (hkeys : ∀ selection ∈ selections, selection.responseKey ∉ keys) (kind : RequestKind)
    (state : State) :
    ∃ keys', Underway keys'
      (.obj (after (selections.foldlM (e.addRoot requestId kind) data) r state).1.1)
      (after (selections.foldlM (e.addRoot requestId kind) data) r state).1.2 := by
  induction selections generalizing keys data r state with
  | nil => exact ⟨keys, h⟩
  | cons selection rest ih =>
    obtain ⟨hnotin, hself, hrest⟩ := hd
    rw [List.foldlM_cons]
    refine ih (h.addRoot e requestId (hkeys selection List.mem_cons_self) hself kind state) hrest
      (fun other hother hmem => ?_) _
    rcases List.mem_append.mp hmem with hmem | hmem
    · exact hkeys other (List.mem_cons_of_mem _ hother) hmem
    · exact hnotin (List.mem_map.mpr ⟨other, hother, List.mem_singleton.mp hmem⟩)

end Underway

/-- Every error of a response is at a null in its data, for queries and mutations, whatever is stored
and whatever collaborators and handlers do, where response keys are distinct within selections. -/
theorem errors_at_null (e : Engine) (requestId : String) (request : Request) (state : State)
    (hkeys : Selection.DistinctBelow request.selections) :
    let response := ((e.executeRequest requestId request).run state).1
    ∀ error ∈ response.errors, response.data.at? error.path = some .null := by
  have hempty : Underway [] (.obj []) {} := ⟨.value _, [], rfl, List.Subset.refl _⟩
  obtain ⟨keys, hroots⟩ := hempty.addRoots e requestId hkeys (fun _ _ => List.not_mem_nil)
    request.kind state
  have hdone := hroots.flush e requestId
    (after (request.selections.foldlM (e.addRoot requestId request.kind) []) {} state).2
  intro response error herror
  obtain ⟨below, hpath, hat⟩ := hdone.placed.null error herror
  rw [hpath]
  exact hat

section

/-- Employees with employees over them. -/
private def layered : DocumentType :=
  { name := "Empleado", fields := [.ofIdentifier "id", .ofReference "jefe" "Empleado"] }

/-- A query that asks of the employees over employees for a field that there is not. -/
private def askew : Request where
  kind := .query
  name := none
  selections := [.field none "empleados" [] [.field none "jefe" [] [.field none "nada" [] []]]]

/-- An employee over itself. -/
private def oneEmployee : State where
  files := ⟨[(["data"], .directory), (["data", "Empleado"], .directory),
    (["data", "Empleado", "e1"], .file (some "\x7b\"id\": \"e1\", \"jefe_id\": \"e1\"\x7d"))]⟩

theorem errors_at_null_askew :
    let e := bare ⟨"/data"⟩ ⟨[layered]⟩ ⟨"default", []⟩
    let response := ((e.executeRequest "r" askew).run oneEmployee).1
    response.errors.map ResponseError.path =
        [[.key "empleados", .index 0, .key "jefe", .key "nada"]] ∧
      ∀ error ∈ response.errors, response.data.at? error.path = some .null :=
  ⟨by decide +kernel, errors_at_null _ "r" askew oneEmployee
    (by simp [askew, Selection.DistinctBelow, Selection.Distinct, Selection.responseKey,
      Selection.label, Selection.name])⟩

end

end DocumentEngine.Engine
