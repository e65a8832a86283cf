import DocumentEngine.Json.Basic
import DocumentEngine.Text.Split
import DocumentEngine.Text.Word

/-!
The tokens of request text. Blanks, commas and comments up to the end of their line stand between
tokens and have no meaning.
-/

namespace DocumentEngine.Request

/-- A token. -/
inductive Token where
  | name (text : String)
  | string (text : String)
  | number (n : Number)
  | mark (c : Char)
  deriving DecidableEq

/-- The token as messages show it. -/
def Token.shown : Token → String
  | .name text => s!"name '{text}'"
  | .string text => s!"string \"{text}\""
  | .number n => s!"number {n.text}"
  | .mark c => s!"'{c}'"

/-- Why a text is no request. -/
inductive SyntaxFault where
  | unexpectedEnd
  | unexpectedCharacter (c : Char)
  | unterminatedString
  | invalidNumber (text : String)
  | expectedMark (c : Char) (found : Token)
  | expectedName (found : Token)
  | expectedKey (found : Token)
  | expectedValue (found : Token)
  | unknownKind (word : String)
  | noSelection
  | tooDeep
  | trailing (found : Token)
  deriving DecidableEq

/-- The deepest nesting of selections, lists and objects together. -/
def maxNesting : Nat := 64

/-- The fault in words. -/
def SyntaxFault.reason : SyntaxFault → String
  | .unexpectedEnd => "unexpected end of document"
  | .unexpectedCharacter c => s!"unexpected character '{c}'"
  | .unterminatedString => "unterminated string"
  | .invalidNumber text => s!"invalid number '{text}'"
  | .expectedMark c found => s!"expected '{c}', found {found.shown}"
  | .expectedName found => s!"expected a name, found {found.shown}"
  | .expectedKey found => s!"expected an object key, found {found.shown}"
  | .expectedValue found => s!"expected a value, found {found.shown}"
  | .unknownKind word => s!"unknown operation type '{word}'"
  | .noSelection => "empty selection set"
  | .tooDeep => s!"document nests deeper than {maxNesting} levels"
  | .trailing found => s!"unexpected {found.shown} after the operation"

/-- The character that a backslash and a letter stand for. -/
def unescape : Char → Char
  | 'n' => '\n'
  | 't' => '\t'
  | 'r' => '\r'
  | c => c

/-- The characters of a string up to its closing quote, and the text behind it. -/
def readString : List Char → Option (List Char × List Char)
  | [] => none
  | '"' :: rest => some ([], rest)
  | '\\' :: c :: rest => (readString rest).map fun (cs, tail) => (unescape c :: cs, tail)
  | c :: rest => if c = '\\' then none else (readString rest).map fun (cs, tail) => (c :: cs, tail)

/-- A character that goes on with a number. -/
def continuesNumber (c : Char) : Bool :=
  c.isDigit || c = '.' || c = 'e' || c = 'E' || c = '+' || c = '-'

/-- The number that a text spells: an integer of 64 bits with a sign, else a finite decimal. -/
def number? (cs : List Char) : Option Number :=
  match Number.signed? cs with
  | some n => some (.int n)
  | none =>
    match Number.double? cs with
    | some (.finite d) => some (.double d)
    | _ => none

/-- A character that begins a name. -/
def startsName (c : Char) : Bool := Text.isAlphabetic c || c = '_'

/-- A character that goes on with a name. -/
def continuesName (c : Char) : Bool := Text.isAlphanumeric c || c = '_'

/-- A character that is a token by itself. -/
def isMark (c : Char) : Bool :=
  c = '\x7b' || c = '\x7d' || c = '(' || c = ')' || c = '[' || c = ']' || c = ':'

/-- The tokens of a text. The fuel bounds the count of tokens and of characters between them. -/
def readTokens : Nat → List Char → Except SyntaxFault (List Token)
  | 0, _ => .ok []
  | _, [] => .ok []
  | fuel + 1, c :: cs =>
    if Text.isBlank c || c = ',' then readTokens fuel cs
    else if c = '#' then readTokens fuel (cs.dropWhile (· ≠ '\n'))
    else if isMark c then do return .mark c :: (← readTokens fuel cs)
    else if c = '"' then
      match readString cs with
      | none => .error .unterminatedString
      | some (s, rest) => do return .string (String.ofList s) :: (← readTokens fuel rest)
    else if c = '-' || c.isDigit then
      let raw := c :: cs.takeWhile continuesNumber
      match number? raw with
      | none => .error (.invalidNumber (String.ofList raw))
      | some n => do return .number n :: (← readTokens fuel (cs.dropWhile continuesNumber))
    else if startsName c then do
      let word := String.ofList (c :: cs.takeWhile continuesName)
      return .name word :: (← readTokens fuel (cs.dropWhile continuesName))
    else .error (.unexpectedCharacter c)

/-- The tokens of a text. -/
def tokens (text : String) : Except SyntaxFault (List Token) :=
  let cs := text.toList
  readTokens cs.length cs

end DocumentEngine.Request
