import DocumentEngine.Proofs.Engine.Effects
import DocumentEngine.Proofs.Engine.Query
import DocumentEngine.Proofs.Json.Printed
import DocumentEngine.Proofs.Json.Reader
import DocumentEngine.Proofs.Request.Parsing

/-!
Runs of requests. Each request is a text under an identifier of its own. What it leaves of the files
is what its root fields leave one after the other, if it is a mutation; a query changes no file, and
neither does a text that is no request. The numbers of all arguments fit their kinds, since an
integer that a request spells fits 64 bits with a sign.
-/

namespace DocumentEngine

open Action

namespace Request

theorem IsValue.inRange {v : Json} (h : IsValue v) : v.InRange := by
  induction h with
  | null => exact .null
  | bool b => exact .bool b
  | num h => exact .num h.inRange
  | str s => exact .str s
  | arr _ ih => exact .arr ih
  | obj _ _ ih => exact .obj ih

/-- The root fields of a request that is read have arguments whose numbers fit. -/
theorem inRange_of_ofText {text : String} {request : Request} (h : ofText text = .ok request) :
    ∀ selection ∈ request.selections, Json.InRange (.obj selection.arguments) := by
  intro selection hselection
  obtain ⟨depth, -, hrenders⟩ := exists_renders_of_ofText h
  cases hrenders.inOrder.1.fields selection hselection with
  | field _ _ hargs _ => exact .obj fun entry hentry => (hargs.values entry hentry).inRange

end Request

namespace Engine

variable {e : Engine} {requestId : String} {state : State}

/-- The state after requests, one after the other. -/
def served (e : Engine) (requests : List (String × String)) (state : State) : State :=
  requests.foldl (fun state request => ((e.executeText request.1 request.2).run state).2) state

theorem served_cons (e : Engine) (request : String × String) (requests : List (String × String))
    (state : State) : served e (request :: requests) state =
      served e requests ((e.executeText request.1 request.2).run state).2 := rfl

/-- A text with one root field of a mutation leaves what the field leaves. -/
theorem executeText_alike (he : e.Bare) {text : String} {selection : Selection}
    (h : Request.ofText text = .ok ⟨.mutation, none, [selection]⟩) (requestId : String)
    (state : State) :
    ((e.executeText requestId text).run state).2.Alike (mutated e requestId selection state).2 := by
  unfold executeText
  rw [h]
  exact (executeRequest_field he (requestId, selection) state).2

/-- How many root fields of mutations a text asks for. -/
def mutationFields (text : String) : Nat :=
  match Request.ofText text with
  | .ok ⟨.mutation, _, selections⟩ => selections.length
  | _ => 0

/-- How many root fields of mutations requests ask for. -/
def countMutations (requests : List (String × String)) : Nat :=
  (requests.map fun request => mutationFields request.2).sum

theorem executeRequest_files (e : Engine) (requestId : String) (request : Request) (state : State) :
    ((e.executeRequest requestId request).run state).2.files =
      (after (e.resolveAll requestId request) {} state).2.files := rfl

section

variable (he : e.ReadsQuietly)

include he

theorem addRoot_keepsFiles (data : Document) (selection : Selection) :
    KeepsFiles (e.addRoot requestId .query data selection) := by
  unfold addRoot
  rw [resolveRoot_eq]
  exact .of_bind (.of_bind (.of_attempt (resolveQuery_quiet he selection _)) fun _ =>
    .of_takeOver requestId _ _) fun _ => .of_pure _

/-- A query changes no file. -/
theorem executeRequest_query_files (requestId : String) (name : Option String)
    (selections : List Selection) (state : State) :
    ((e.executeRequest requestId ⟨.query, name, selections⟩).run state).2.files = state.files := by
  have hall : KeepsFiles (e.resolveAll requestId ⟨.query, name, selections⟩) :=
    .of_bind (.of_foldlM (addRoot_keepsFiles he) _ _) fun _ => flush_keepsFiles he _
  exact hall {} state

/-- A root field of a mutation leaves the files that its mutation leaves, whatever slots are filled
behind it. -/
theorem addRoot_mutation_files (data : Document) (selection : Selection) (r : Resolution)
    (state : State) :
    (after (e.addRoot requestId .mutation data selection) r state).2.files =
      (mutated e requestId selection state).2.files := by
  let finish (result : Except EngineError Projected) : ResolutionM Document := do
    let value ← takeOver requestId [.key selection.responseKey] result
    return (← e.flush requestId (.obj (data.insert selection.responseKey value))).obj?.getD []
  have hfinish : ∀ result, KeepsFiles (finish result) := fun result =>
    .of_bind (.of_takeOver requestId _ result) fun _ =>
      .of_bind (flush_keepsFiles he _) fun _ => .of_pure _
  have hafter : after (e.addRoot requestId .mutation data selection) r state =
      after (finish (exec (e.resolveMutation requestId selection
        [.key selection.responseKey]) state).1) r (mutated e requestId selection state).2 := by
    unfold addRoot
    rw [resolveRoot_eq]
    rfl
  rw [hafter]
  exact hfinish _ r _

end

section

variable {inv : Nat → FileTree → Prop} (hstep : ∀ n requestId selection (state : State),
  Json.InRange (.obj selection.arguments) → inv n state.files →
    inv (n + 1) (mutated e requestId selection state).2.files)

include hstep

/-- What each root field of a mutation preserves, the root fields of a request preserve. -/
theorem invariant_of_addRoots (he : e.ReadsQuietly) (selections : List Selection)
    (harguments : ∀ selection ∈ selections, Json.InRange (.obj selection.arguments))
    (data : Document) (r : Resolution) (state : State) {n : Nat} (h : inv n state.files) :
    inv (n + selections.length)
      (after (selections.foldlM (e.addRoot requestId .mutation) data) r state).2.files := by
  induction selections generalizing data r state n with
  | nil => exact h
  | cons selection selections ih =>
    rw [List.length_cons, Nat.add_comm selections.length, ← Nat.add_assoc]
    refine ih (fun other hother => harguments other (List.mem_cons_of_mem selection hother))
      (after (e.addRoot requestId .mutation data selection) r state).1.1
      (after (e.addRoot requestId .mutation data selection) r state).1.2
      (after (e.addRoot requestId .mutation data selection) r state).2 ?_
    rw [addRoot_mutation_files he]
    exact hstep n requestId selection state (harguments selection List.mem_cons_self) h

/-- What each root field of a mutation preserves, a request preserves. -/
theorem invariant_of_executeText (he : e.ReadsQuietly) (requestId text : String) (state : State)
    {n : Nat} (h : inv n state.files) :
    inv (n + mutationFields text) ((e.executeText requestId text).run state).2.files := by
  unfold executeText mutationFields
  cases hrequest : Request.ofText text with
  | error fault => exact h
  | ok request =>
    obtain ⟨kind, name, selections⟩ := request
    cases kind with
    | query =>
      dsimp only
      rw [executeRequest_query_files he]
      exact h
    | mutation =>
      have hfields := @invariant_of_addRoots e requestId inv hstep he selections
        (Request.inRange_of_ofText hrequest) [] {} state n h
      dsimp only
      rw [executeRequest_files]
      exact (flush_keepsFiles he _ _ _).symm ▸ hfields

/-- What each root field of a mutation preserves, a run of requests preserves. -/
theorem invariant_of_served (he : e.ReadsQuietly) (requests : List (String × String)) (state : State)
    {n : Nat} (h : inv n state.files) :
    inv (n + countMutations requests) (served e requests state).files := by
  unfold countMutations served
  induction requests generalizing state n with
  | nil => exact h
  | cons request requests ih =>
    rw [List.map_cons, List.sum_cons, List.foldl_cons, ← Nat.add_assoc]
    exact ih _ (invariant_of_executeText hstep he request.1 request.2 state h)

end

end Engine

end DocumentEngine
