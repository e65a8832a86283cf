import DocumentEngine.Engine.Error

/-!
Responses: the data that was asked for, and an error for each field that failed, at the path of
the null that stands for it.
-/

namespace DocumentEngine

/-- A step into the data: to a member of an object, or to an item of a list. -/
inductive PathSegment where
  | key (name : String)
  | index (i : Nat)
  deriving DecidableEq

/-- The way to a value in the data. -/
abbrev ResponsePath := List PathSegment

namespace PathSegment

/-- The step as it is written in paths. -/
def text : PathSegment → String
  | .key name => name
  | .index i => toString i

/-- The step as a JSON value. -/
def toJson : PathSegment → Json
  | .key name => .str name
  | .index i => .int i

end PathSegment

/-- The steps of a path with points between them. -/
def ResponsePath.text (path : ResponsePath) : String :=
  ".".intercalate (path.map PathSegment.text)

/-- An error of a field, or of the whole request where the path is empty. -/
structure ResponseError where
  path : ResponsePath
  cause : EngineError

/-- The error as responses show it. -/
def ResponseError.toJson (e : ResponseError) : Json :=
  let path := if e.path.isEmpty then [] else [("path", Json.arr (e.path.map PathSegment.toJson))]
  Json.object
    (("message", .str e.cause.message) :: ("extensions", e.cause.extensions) :: path)

/-- The answer to a request. -/
structure Response where
  data : Json
  errors : List ResponseError := []

namespace Response

/-- The answer to a request that fails as a whole. -/
def failed (e : EngineError) : Response := ⟨.null, [⟨[], e⟩]⟩

/-- Whether nothing failed. -/
def isOk (r : Response) : Bool := r.errors.isEmpty

/-- The value of a root field, null where it is absent. -/
def field (r : Response) (key : String) : Json := (r.data.get? key).getD .null

/-- The response as callers get it. -/
def toJson (r : Response) : Json :=
  let errors :=
    if r.errors.isEmpty then [] else [("errors", Json.arr (r.errors.map ResponseError.toJson))]
  Json.object (("data", r.data) :: errors)

end Response

/-- Puts a value at a path. A path that leads nowhere changes nothing. -/
def Json.setAt (v new : Json) : ResponsePath → Json
  | [] => new
  | .key name :: rest =>
    match v with
    | .obj members =>
      match Keyed.get? members name with
      | some child => .obj (Keyed.insert members name (child.setAt new rest))
      | none => v
    | _ => v
  | .index i :: rest =>
    match v with
    | .arr items =>
      match items[i]? with
      | some child => .arr (items.set i (child.setAt new rest))
      | none => v
    | _ => v

end DocumentEngine
