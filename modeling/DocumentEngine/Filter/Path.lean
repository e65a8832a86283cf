import DocumentEngine.Schema.Basic
import DocumentEngine.Text.Split

/-!
Field paths. A camel-case name is divided into names of fields, each field but the last a reference
to the type that has the next. At each type the longest run of words that names a field comes
first, and shorter ones are tried where the rest cannot be resolved.
-/

namespace DocumentEngine.Schema

/-- The field name that words spell. -/
def fieldName (words : List String) : String := Text.lowerFirst (Text.concat words)

/-- Resolves words from a type with at most `k` of them in the first field. A failure names the
words left over at the deepest type that was reached. -/
def resolveWords (s : Schema) (t : DocumentType) (words : List String) :
    Nat → String → Except String (List String)
  | 0, deepest => .error deepest
  | k + 1, deepest =>
    match t.looseField? (fieldName (words.take (k + 1))) with
    | none => resolveWords s t words k deepest
    | some f =>
      if _h : words.length ≤ k + 1 then .ok [f.name]
      else
        match f.target? >>= s.type? with
        | none => resolveWords s t words k deepest
        | some target =>
          let rest := words.drop (k + 1)
          match resolveWords s target rest rest.length (fieldName rest) with
          | .ok path => .ok (f.name :: path)
          | .error remainder =>
            resolveWords s t words k
              (if remainder.utf8ByteSize < deepest.utf8ByteSize then remainder else deepest)
termination_by k => (words.length, k)
decreasing_by
  · exact Prod.Lex.right _ (Nat.lt_succ_self k)
  · exact Prod.Lex.right _ (Nat.lt_succ_self k)
  · apply Prod.Lex.left
    simp only [List.length_drop]
    omega
  · exact Prod.Lex.right _ (Nat.lt_succ_self k)

/-- The type at the end of a path of references. -/
def follow? (s : Schema) (t : DocumentType) : List String → Option DocumentType
  | [] => some t
  | name :: path => do
    let f ← t.field? name
    let target ← s.type? (← f.target?)
    follow? s target path

/-- Resolves dotted parts one after the other; `field` is the whole. -/
def resolveParts (s : Schema) (field : String) (t : DocumentType) :
    List String → Except String (List String)
  | [] => .ok []
  | part :: parts => do
    let words := Text.camelWords part
    if words.isEmpty then throw field
    let path ← resolveWords s t words words.length (fieldName words)
    match parts with
    | [] => return path
    | next :: _ =>
      match s.follow? t path with
      | none => throw next
      | some target => return path ++ (← resolveParts s field target parts)

/-- The dotted path of a field from a type. A failure gives the part that names no field. -/
def resolvePath (s : Schema) (t : DocumentType) (field : String) : Except String String := do
  let path ← resolveParts s field t (Text.splitAt '.' field)
  return ".".intercalate path

end DocumentEngine.Schema
