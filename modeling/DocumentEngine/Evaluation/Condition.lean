import DocumentEngine.Evaluation.Compare
import DocumentEngine.Evaluation.Like
import DocumentEngine.Filter.Basic

/-!
What conditions ask of a value. A list passes when one of its items does, and passes a negated
operator when none of its items passes the operator itself. A value that is absent or null passes
only `NE`.
-/

namespace DocumentEngine.Evaluation

/-- Whether two scalars have texts in a relation. -/
def textsRelated (related : String → String → Bool) (v target : Json) : Bool :=
  match scalarText? v, scalarText? target with
  | some a, some b => related a b
  | _, _ => false

/-- Whether one value passes an operator with its targets. -/
def satisfiesScalar (op : Operator) (v : Json) (targets : List Json) : Bool :=
  match targets with
  | [] => false
  | target :: _ =>
    match op with
    | .eq => looseEq v target
    | .ne => !looseEq v target
    | .gt => compare? v target == some .gt
    | .gte => compare? v target == some .gt || compare? v target == some .eq
    | .lt => compare? v target == some .lt
    | .lte => compare? v target == some .lt || compare? v target == some .eq
    | .like => textsRelated isLike v target
    | .containing => textsRelated (fun a b => Text.containsChars b.toList a.toList) v target
    | .startingWith => textsRelated (fun a b => b.toList.isPrefixOf a.toList) v target
    | .endingWith => textsRelated (fun a b => b.toList.isSuffixOf a.toList) v target
    | .isIn => targets.any fun t => looseEq v t
    | .notIn => !targets.any fun t => looseEq v t
    | .between =>
      match targets with
      | [low, high] =>
        (compare? v low == some .gt || compare? v low == some .eq) &&
          (compare? v high == some .lt || compare? v high == some .eq)
      | _ => false

/-- Whether the items of a list pass an operator with its targets. -/
def satisfiesList (op : Operator) (items : List Json) (targets : List Json) : Bool :=
  match op with
  | .ne => !items.any fun item => satisfiesScalar .eq item targets
  | .notIn => !items.any fun item => satisfiesScalar .isIn item targets
  | .containing =>
    match targets with
    | [] => false
    | target :: _ => items.any fun item => looseEq item target
  | op => items.any fun item => satisfiesScalar op item targets

/-- Whether a value, if there is one, passes an operator with its targets. -/
def satisfies (op : Operator) (v : Option Json) (targets : List Json) : Bool :=
  match v with
  | none => op = .ne
  | some .null => op = .ne
  | some (.arr items) => satisfiesList op items targets
  | some v => satisfiesScalar op v targets

end DocumentEngine.Evaluation
