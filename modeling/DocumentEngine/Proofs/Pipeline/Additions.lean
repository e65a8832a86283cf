import DocumentEngine.Pipeline.Basic
import DocumentEngine.Proofs.Keyed

/-!
What a registry holds after any additions. Under a tag stand the handlers that were added under it,
in their order, whatever came in between; of the hooks of a type those count that were added last.
So the handlers of a stage can be read off the additions alone.
-/

namespace DocumentEngine

/-- What is added to a registry: a handler under a tag, or the hooks of a type. -/
inductive Addition (η : Type) where
  | tagged (tag : String) (handler : η)
  | typed (type : String) (hooks : String → Option η)

namespace Addition

variable {η θ : Type}

/-- The handler, if it is added under a tag. -/
def under? (tag : String) : Addition η → Option η
  | .tagged other handler => if other = tag then some handler else none
  | .typed _ _ => none

/-- The hooks, if they are for a type. -/
def hooksOf? (type : String) : Addition η → Option (String → Option η)
  | .tagged _ _ => none
  | .typed other hooks => if other = type then some hooks else none

/-- The hook of a type under a name, of the hooks that were added last. -/
def lastHook? (additions : List (Addition η)) (type name : String) : Option η :=
  (additions.filterMap (hooksOf? type)).getLast?.bind fun hooks => hooks name

/-- The handlers of a stage: those under its tag in the order of their addition, then the hook of
the type for the name of the stage in lower case. -/
def stage (additions : List (Addition η)) (space type name : String) : List η :=
  additions.filterMap (under? (Registry.tag space type name)) ++
    (lastHook? additions type (Text.lower name)).toList

/-- The same addition with other handlers. -/
def map (f : η → θ) : Addition η → Addition θ
  | .tagged tag handler => .tagged tag (f handler)
  | .typed type hooks => .typed type fun name => (hooks name).map f

theorem map_map {κ : Type} (f : η → θ) (g : θ → κ) (addition : Addition η) :
    (addition.map f).map g = addition.map (g ∘ f) := by
  cases addition with
  | tagged tag handler => rfl
  | typed type hooks => simp only [map, Option.map_map]

theorem under?_map (f : η → θ) (tag : String) (addition : Addition η) :
    (addition.map f).under? tag = (addition.under? tag).map f := by
  cases addition with
  | tagged other handler =>
    simp only [map, under?]
    split <;> rfl
  | typed type hooks => rfl

theorem hooksOf?_map (f : η → θ) (type : String) (addition : Addition η) :
    (addition.map f).hooksOf? type =
      (addition.hooksOf? type).map fun found name => (found name).map f := by
  cases addition with
  | tagged tag handler => rfl
  | typed other hooks =>
    simp only [map, hooksOf?]
    split <;> rfl

theorem lastHook?_map (f : η → θ) (additions : List (Addition η)) (type name : String) :
    lastHook? (additions.map (map f)) type name = (lastHook? additions type name).map f := by
  unfold lastHook?
  have hfound : (additions.map (map f)).filterMap (hooksOf? type) =
      (additions.filterMap (hooksOf? type)).map fun found name => (found name).map f := by
    rw [List.filterMap_map, List.map_filterMap]
    exact List.filterMap_congr fun addition _ => hooksOf?_map f type addition
  rw [hfound, List.getLast?_map]
  cases (additions.filterMap (hooksOf? type)).getLast? <;> rfl

/-- Which handlers make up a stage does not depend on what they are. -/
theorem stage_map (f : η → θ) (additions : List (Addition η)) (space type name : String) :
    stage (additions.map (map f)) space type name = (stage additions space type name).map f := by
  unfold stage
  rw [List.map_append, lastHook?_map, List.filterMap_map, List.map_filterMap]
  congr 1
  · exact List.filterMap_congr fun addition _ => under?_map f _ addition
  · cases lastHook? additions type (Text.lower name) <;> rfl

end Addition

namespace Registry

variable {α : Type}

/-- The registry with one addition more. -/
def extend (r : Registry α) : Addition (Handler α) → Registry α
  | .tagged tag handler => r.register tag handler
  | .typed type hooks => r.registerTypeHooks type hooks

/-- The registry that additions make one after the other. -/
def ofList (additions : List (Addition (Handler α))) : Registry α := additions.foldl extend {}

theorem get_register (r : Registry α) (name other : String) (handler : Handler α) :
    (r.register name handler).get other =
      r.get other ++ if name = other then [handler] else [] := by
  rw [get, register, Keyed.update, Keyed.get?_insert]
  split
  · rename_i hname
    rw [hname]
    rfl
  · rw [List.append_nil]
    rfl

/-- An addition stands behind what was under its tag, and leaves all other tags alone. -/
theorem get_extend (r : Registry α) (addition : Addition (Handler α)) (tag : String) :
    (r.extend addition).get tag = r.get tag ++ (addition.under? tag).toList := by
  cases addition with
  | tagged other handler =>
    rw [extend, get_register, Addition.under?]
    split <;> rfl
  | typed type hooks => exact (List.append_nil _).symm

theorem typeHooks_extend (r : Registry α) (addition : Addition (Handler α)) (type : String) :
    (r.extend addition).typeHooks.get? type =
      (addition.hooksOf? type).or (r.typeHooks.get? type) := by
  cases addition with
  | tagged tag handler => rfl
  | typed other hooks =>
    rw [extend, registerTypeHooks, Keyed.get?_insert, Addition.hooksOf?]
    split <;> rfl

theorem get_foldl_extend (r : Registry α) (additions : List (Addition (Handler α)))
    (tag : String) : (additions.foldl extend r).get tag =
      r.get tag ++ additions.filterMap (·.under? tag) := by
  induction additions generalizing r with
  | nil => exact (List.append_nil _).symm
  | cons addition additions ih =>
    rw [List.foldl_cons, ih, get_extend, List.append_assoc, List.filterMap_cons]
    cases addition.under? tag <;> rfl

theorem typeHooks_foldl_extend (r : Registry α) (additions : List (Addition (Handler α)))
    (type : String) : (additions.foldl extend r).typeHooks.get? type =
      (additions.filterMap (·.hooksOf? type)).getLast?.or (r.typeHooks.get? type) := by
  induction additions generalizing r with
  | nil => rfl
  | cons addition additions ih =>
    rw [List.foldl_cons, ih, typeHooks_extend, List.filterMap_cons]
    cases addition.hooksOf? type with
    | none => rfl
    | some found =>
      rw [List.getLast?_cons]
      cases (additions.filterMap (·.hooksOf? type)).getLast? <;> rfl

theorem hook?_ofList (additions : List (Addition (Handler α))) (type stage : String) :
    (ofList additions).hook? type stage =
      Addition.lastHook? additions type (Text.lower stage) := by
  have hnone : ({} : Registry α).typeHooks.get? type = none := rfl
  rw [hook?, ofList, typeHooks_foldl_extend, hnone, Option.or_none]
  rfl

/-- What runs for some stages of a type, whatever was added to the registry and in what order. -/
theorem chain_ofList (additions : List (Addition (Handler α))) (space type : String)
    (stages : List String) : (ofList additions).chain space type stages =
      stages.flatMap (Addition.stage additions space type) := by
  refine congrArg (stages.flatMap ·) (funext fun stage => ?_)
  rw [handlersFor, hook?_ofList, ofList, get_foldl_extend]
  rfl

end Registry

end DocumentEngine
