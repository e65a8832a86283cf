import DocumentEngine.Text.Split

/-!
Identifiers that a caller gives its requests: 32 hexadecimal digits in groups of 8, 4, 4, 4 and 12.
They may stand without the hyphens between the groups, or with them and then also in braces or
behind `urn:uuid:`; the log shows them in lower case with the hyphens.
-/

namespace DocumentEngine.RequestId

/-- The numbers of digits in the groups. -/
def groupLengths : List Nat := [8, 4, 4, 4, 12]

/-- A hexadecimal digit in lower case. -/
def digit? (c : Char) : Option Char :=
  if c.isDigit || ('a' ≤ c && c ≤ 'f') then some c
  else if 'A' ≤ c && c ≤ 'F' then some c.toLower
  else none

/-- Characters cut into groups; what the last group leaves is a group of its own. -/
def cut : List Nat → List Char → List (List Char)
  | [], [] => []
  | [], cs => [cs]
  | n :: ns, cs => cs.take n :: cut ns (cs.drop n)

/-- The groups of an identifier that has its hyphens. -/
def hyphenated (cs : List Char) : List (List Char) := Text.splitChars '-' cs

/-- The groups of an identifier in any of its forms. -/
def groups (cs : List Char) : List (List Char) :=
  let marker := "urn:uuid:".toList
  if cs.head? = some '{' && cs.getLast? = some '}' then hyphenated cs.tail.dropLast
  else if marker.isPrefixOf cs then hyphenated (cs.drop marker.length)
  else if cs.contains '-' then hyphenated cs
  else cut groupLengths cs

/-- The identifier of a text, as the log shows it. -/
def ofText? (s : String) : Option String := do
  let parts := groups s.toList
  if parts.map List.length ≠ groupLengths then none
  let digits ← parts.mapM (·.mapM digit?)
  return "-".intercalate (digits.map String.ofList)

end DocumentEngine.RequestId
