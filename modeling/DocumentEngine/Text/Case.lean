import DocumentEngine.Text.CaseTable
import DocumentEngine.Text.Sigma

/-!
Lower and upper case of texts. Only the first letter of a name changes case when a name becomes an
accessor or a field; whole texts are lowered for comparisons that ignore case.
-/

namespace DocumentEngine.Text

/-- The lower case of one character, taken alone. -/
def lowerChar (c : Char) : List Char := mapCase lowercaseRuns lowercaseExpansions c

/-- The upper case of one character, taken alone. -/
def upperChar (c : Char) : List Char := mapCase uppercaseRuns uppercaseExpansions c

/-- The lower case of a text read after the characters `before`, the nearest first. -/
def lowerAfter (before : List Char) : List Char → List Char
  | [] => []
  | c :: cs =>
    let lowered :=
      if c = 'Σ' then [if isFinalSigma before cs then 'ς' else 'σ'] else lowerChar c
    lowered ++ lowerAfter (c :: before) cs

/-- The lower case of a whole text, with a final sigma where a word ends in one. -/
def lower (s : String) : String := String.ofList (lowerAfter [] s.toList)

/-- The text with its first character in lower case. -/
def lowerFirst (s : String) : String :=
  match s.toList with
  | [] => ""
  | c :: cs => String.ofList (lowerChar c ++ cs)

/-- The text with its first character in upper case. -/
def upperFirst (s : String) : String :=
  match s.toList with
  | [] => ""
  | c :: cs => String.ofList (upperChar c ++ cs)

end DocumentEngine.Text
