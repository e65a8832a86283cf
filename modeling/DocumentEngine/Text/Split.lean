import DocumentEngine.Text.Uppercase

/-!
Cutting texts apart: the blanks from the ends, at a separator character, and into the words of a
camel-case name. Nothing is lost by a cut but the blanks or the separators.
-/

namespace DocumentEngine.Text

/-- A character with the Unicode property White_Space. -/
def isBlank (c : Char) : Bool :=
  let n := c.toNat
  (9 ≤ n && n ≤ 13) || n == 0x20 || n == 0x85 || n == 0xA0 || n == 0x1680 ||
    (0x2000 ≤ n && n ≤ 0x200A) || n == 0x2028 || n == 0x2029 || n == 0x202F || n == 0x205F ||
    n == 0x3000

/-- The characters without the blanks at either end. -/
def trimChars (cs : List Char) : List Char :=
  ((cs.dropWhile isBlank).reverse.dropWhile isBlank).reverse

/-- The text without the blanks at either end. -/
def trim (s : String) : String := String.ofList (trimChars s.toList)

/-- The parts between separators; a text without one is its only part. -/
def splitChars (sep : Char) : List Char → List (List Char)
  | [] => [[]]
  | c :: cs =>
    if c = sep then [] :: splitChars sep cs
    else
      match splitChars sep cs with
      | part :: parts => (c :: part) :: parts
      | [] => [[c]]

/-- The parts of a text between separators. -/
def splitAt (sep : Char) (s : String) : List String :=
  (splitChars sep s.toList).map String.ofList

/-- The parts of a text between separators, each without blanks at its ends. -/
def splitTrimmed (sep : Char) (s : String) : List String :=
  (splitChars sep s.toList).map fun part => String.ofList (trimChars part)

/-- The words of a camel-case name: a new word starts at every capital. -/
def camelChars : List Char → List (List Char)
  | [] => []
  | [c] => [[c]]
  | c :: d :: cs =>
    if isUppercase d then [c] :: camelChars (d :: cs)
    else
      match camelChars (d :: cs) with
      | word :: words => (c :: word) :: words
      | [] => [[c]]

/-- The words of a camel-case name. -/
def camelWords (s : String) : List String := (camelChars s.toList).map String.ofList

/-- The words joined without a separator. -/
def concat (words : List String) : String := String.join words

/-- Whether the characters of `part` stand next to each other in those of the other text. -/
def containsChars (part : List Char) : List Char → Bool
  | [] => part.isEmpty
  | c :: cs => part.isPrefixOf (c :: cs) || containsChars part cs

/-- The text without an ending, if it has that ending. -/
def dropEnding? (ending s : String) : Option String :=
  let cs := s.toList
  let es := ending.toList
  if es.isSuffixOf cs then some (String.ofList (cs.take (cs.length - es.length))) else none

end DocumentEngine.Text
