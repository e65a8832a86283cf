import DocumentEngine.Text.Case
import DocumentEngine.Text.Split

/-!
Pattern matching without regard to case. A pattern with `%` or `_` has to cover the whole text; one
without them only has to occur in it.
-/

namespace DocumentEngine.Evaluation

/-- Matches a text against a pattern from the left. On a mismatch matching resumes behind the last
`%` of the pattern, one character further on than it did before; `back` holds the pattern and the
text at that place. A character that the pattern has literally is matched first, a `%` among
them. -/
def likeFrom : List Char → List Char → Option (List Char × List Char) → Bool
  | [], pattern, _ => pattern.all (· = '%')
  | c :: text, d :: pattern, back =>
    if d = '_' || d = c then likeFrom text pattern back
    else if d = '%' then likeFrom (c :: text) pattern (some (pattern, c :: text))
    else
      match back with
      | some (after, _ :: later) => likeFrom later after (some (after, later))
      | _ => false
  | _ :: _, [], some (after, _ :: later) => likeFrom later after (some (after, later))
  | _ :: _, [], _ => false
termination_by text pattern back =>
  (match back with
    | none => text.length + 1
    | some (_, later) => max text.length later.length,
  text.length + pattern.length)
decreasing_by
  · cases back with
    | none => exact Prod.Lex.left _ _ (by simp)
    | some b =>
      simp only [List.length_cons]
      rcases Nat.lt_or_ge (text.length + 1) (b.2.length + 1) with h | h
      · have : max text.length b.2.length = max (text.length + 1) b.2.length := by omega
        simp only [this]
        exact Prod.Lex.right _ (by omega)
      · exact Prod.Lex.left _ _ (by omega)
  · cases back with
    | none => exact Prod.Lex.left _ _ (by simp)
    | some b =>
      simp only [List.length_cons, Nat.max_self]
      rcases Nat.lt_or_ge (text.length + 1) b.2.length with h | h
      · exact Prod.Lex.left _ _ (by omega)
      · have : max (text.length + 1) b.2.length = text.length + 1 := by omega
        simp only [this]
        exact Prod.Lex.right _ (by omega)
  · exact Prod.Lex.left _ _ (by simp only [List.length_cons]; omega)
  · exact Prod.Lex.left _ _ (by simp only [List.length_cons]; omega)

/-- Whether a pattern has wildcards. -/
def hasWildcard (pattern : List Char) : Bool := pattern.any fun c => c = '%' || c = '_'

/-- Whether a text matches a pattern, both taken in lower case. -/
def isLike (text pattern : String) : Bool :=
  let t := (Text.lower text).toList
  let p := (Text.lower pattern).toList
  if hasWildcard p then likeFrom t p none else Text.containsChars p t

end DocumentEngine.Evaluation
