import DocumentEngine.Json.Basic

/-!
JSON text as written. A first reading settles the grammar and keeps numbers as digits, strings
with their faults and members with their repeats; later readings decide what these mean. A part
that nobody asks for may so hold a number out of range or an unpaired surrogate.
-/

namespace DocumentEngine.Json

/-- A number as written. -/
structure Numeral where
  negative : Bool
  whole : List Char
  fraction : List Char
  exponent : Option Int

/-- A JSON text as written. A string is none where its escapes spell no text. -/
inductive Written where
  | null
  | bool (value : Bool)
  | num (numeral : Numeral)
  | str (value : Option String)
  | arr (items : List Written)
  | obj (members : List (Option String × Written))

namespace Written

instance : Inhabited Written := ⟨.null⟩

/-- A blank of JSON text. -/
def isSpace (c : Char) : Bool := c = ' ' || c = '\n' || c = '\t' || c = '\r'

/-- The text after its leading blanks. -/
def skipSpace (cs : List Char) : List Char := cs.dropWhile isSpace

/-- The value of a hexadecimal digit. -/
def hexValue? (c : Char) : Option Nat :=
  if c.isDigit then some (c.toNat - '0'.toNat)
  else if 'a' ≤ c && c ≤ 'f' then some (c.toNat - 'a'.toNat + 10)
  else if 'A' ≤ c && c ≤ 'F' then some (c.toNat - 'A'.toNat + 10)
  else none

/-- The number that four hexadecimal digits spell. -/
def hexQuad? (a b c d : Char) : Option Nat := do
  return (((← hexValue? a) * 16 + (← hexValue? b)) * 16 + (← hexValue? c)) * 16 + (← hexValue? d)

/-- The character that a one-letter escape stands for. -/
def simpleEscape? : Char → Option Char
  | '"' => some '"'
  | '\\' => some '\\'
  | '/' => some '/'
  | 'b' => some '\x08'
  | 'f' => some '\x0c'
  | 'n' => some '\n'
  | 'r' => some '\r'
  | 't' => some '\t'
  | _ => none

/-- A piece of a string: a character, or one half of a surrogate pair. -/
inductive Piece where
  | char (c : Char)
  | unit (value : Nat)

/-- The pieces of a string up to its closing quote, and the text behind it. -/
def readPieces : List Char → Option (List Piece × List Char)
  | [] => none
  | '"' :: rest => some ([], rest)
  | '\\' :: 'u' :: a :: b :: c :: d :: rest => do
    let n ← hexQuad? a b c d
    let (pieces, tail) ← readPieces rest
    let piece := if 0xD800 ≤ n && n ≤ 0xDFFF then Piece.unit n else .char (Char.ofNat n)
    return (piece :: pieces, tail)
  | '\\' :: e :: rest => do
    let c ← simpleEscape? e
    let (pieces, tail) ← readPieces rest
    return (.char c :: pieces, tail)
  | c :: rest =>
    if c.toNat < 0x20 || c = '\\' then none
    else do
      let (pieces, tail) ← readPieces rest
      return (.char c :: pieces, tail)

/-- The text that pieces spell: a high surrogate has to stand before a low one, and no half stands
alone. -/
def joinPieces : List Piece → Option (List Char)
  | [] => some []
  | .char c :: rest => (joinPieces rest).map (c :: ·)
  | .unit high :: .unit low :: rest =>
    if high < 0xDC00 && 0xDC00 ≤ low then
      (joinPieces rest).map
        (Char.ofNat (0x10000 + (high - 0xD800) * 0x400 + (low - 0xDC00)) :: ·)
    else none
  | .unit _ :: _ => none

/-- A string behind its opening quote. -/
def readString (cs : List Char) : Option (Option String × List Char) := do
  let (pieces, rest) ← readPieces cs
  return ((joinPieces pieces).map String.ofList, rest)

/-- The digits at the front, at least one. -/
def readDigits (cs : List Char) : Option (List Char × List Char) :=
  let digits := cs.takeWhile Char.isDigit
  if digits.isEmpty then none else some (digits, cs.dropWhile Char.isDigit)

/-- The digits before the point: no zero stands in front of others. -/
def readWhole (cs : List Char) : Option (List Char × List Char) := do
  let (digits, rest) ← readDigits cs
  if digits.head? = some '0' && digits.length > 1 then none else return (digits, rest)

/-- The point and the digits behind it, or nothing. -/
def readFraction : List Char → Option (List Char × List Char)
  | '.' :: rest => readDigits rest
  | cs => some ([], cs)

/-- The exponent, or nothing. -/
def readExponent : List Char → Option (Option Int × List Char)
  | c :: rest =>
    if c = 'e' || c = 'E' then do
      let (negative, body) := match rest with
        | '-' :: more => (true, more)
        | '+' :: more => (false, more)
        | _ => (false, rest)
      let (digits, tail) ← readDigits body
      let n : Int := Number.digitsValue digits
      return (some (if negative then -n else n), tail)
    else some (none, c :: rest)
  | [] => some (none, [])

/-- A number. -/
def readNumeral (cs : List Char) : Option (Numeral × List Char) := do
  let (negative, body) := match cs with
    | '-' :: rest => (true, rest)
    | _ => (false, cs)
  let (whole, rest) ← readWhole body
  let (fraction, rest) ← readFraction rest
  let (exponent, rest) ← readExponent rest
  return (⟨negative, whole, fraction, exponent⟩, rest)

mutual

/-- A value at the front of the text, blanks before it allowed. The fuel bounds the count of
values and separators that are read. -/
def readValue : Nat → List Char → Option (Written × List Char)
  | 0, _ => none
  | fuel + 1, cs =>
    match skipSpace cs with
    | 'n' :: 'u' :: 'l' :: 'l' :: rest => some (.null, rest)
    | 't' :: 'r' :: 'u' :: 'e' :: rest => some (.bool true, rest)
    | 'f' :: 'a' :: 'l' :: 's' :: 'e' :: rest => some (.bool false, rest)
    | '"' :: rest => do
      let (s, tail) ← readString rest
      return (.str s, tail)
    | '[' :: rest =>
      match skipSpace rest with
      | ']' :: tail => some (.arr [], tail)
      | body => do
        let (items, tail) ← readItems fuel body
        return (.arr items, tail)
    | '\x7b' :: rest =>
      match skipSpace rest with
      | '\x7d' :: tail => some (.obj [], tail)
      | body => do
        let (members, tail) ← readMembers fuel body
        return (.obj members, tail)
    | body => do
      let (n, tail) ← readNumeral body
      return (.num n, tail)

/-- Items with commas between them, up to the closing bracket. -/
def readItems : Nat → List Char → Option (List Written × List Char)
  | 0, _ => none
  | fuel + 1, cs => do
    let (v, rest) ← readValue fuel cs
    match skipSpace rest with
    | ',' :: more => do
      let (vs, tail) ← readItems fuel more
      return (v :: vs, tail)
    | ']' :: tail => return ([v], tail)
    | _ => none

/-- Members with commas between them, up to the closing brace. -/
def readMembers : Nat → List Char → Option (List (Option String × Written) × List Char)
  | 0, _ => none
  | fuel + 1, cs =>
    match skipSpace cs with
    | '"' :: rest => do
      let (k, rest) ← readString rest
      match skipSpace rest with
      | ':' :: rest => do
        let (v, rest) ← readValue fuel rest
        match skipSpace rest with
        | ',' :: more => do
          let (ms, tail) ← readMembers fuel more
          return ((k, v) :: ms, tail)
        | '\x7d' :: tail => return ([(k, v)], tail)
        | _ => none
      | _ => none
    | _ => none

end

/-- A whole text: one value with blanks around it. -/
def ofText? (text : String) : Option Written := do
  let cs := text.toList
  let (v, rest) ← readValue (2 * cs.length + 2) cs
  if (skipSpace rest).isEmpty then return v else none

end Written

end DocumentEngine.Json
