import DocumentEngine.Json.Basic

/-!
The written forms of JSON values: on one line without blanks, and indented by two spaces with one
item on each line.
-/

namespace DocumentEngine.Json

/-- The lower-case hexadecimal digit of a number below sixteen. -/
def hexDigit (n : Nat) : Char :=
  if n < 10 then Char.ofNat ('0'.toNat + n) else Char.ofNat ('a'.toNat + n - 10)

/-- A character inside a quoted string. Quotes, backslashes and control characters are escaped,
everything else stands for itself. -/
def escapeChar (c : Char) : List Char :=
  match c with
  | '"' => ['\\', '"']
  | '\\' => ['\\', '\\']
  | '\x08' => ['\\', 'b']
  | '\x0c' => ['\\', 'f']
  | '\n' => ['\\', 'n']
  | '\r' => ['\\', 'r']
  | '\t' => ['\\', 't']
  | c =>
    if c.toNat < 0x20 then
      ['\\', 'u', '0', '0', hexDigit (c.toNat / 16), hexDigit (c.toNat % 16)]
    else [c]

/-- A string in quotes. -/
def quoted (s : String) : String :=
  String.ofList ('"' :: s.toList.flatMap escapeChar ++ ['"'])

mutual

/-- The value on one line, without blanks. -/
def compact : Json → String
  | .null => "null"
  | .bool b => if b then "true" else "false"
  | .num n => n.text
  | .str s => quoted s
  | .arr items => "[" ++ compactItems items ++ "]"
  | .obj members => "\x7b" ++ compactMembers members ++ "\x7d"

/-- Items with commas between them. -/
def compactItems : List Json → String
  | [] => ""
  | [v] => compact v
  | v :: vs => compact v ++ "," ++ compactItems vs

/-- Members with commas between them. -/
def compactMembers : List (String × Json) → String
  | [] => ""
  | [(k, v)] => quoted k ++ ":" ++ compact v
  | (k, v) :: ms => quoted k ++ ":" ++ compact v ++ "," ++ compactMembers ms

end

/-- A line break and the indentation of a depth. -/
def newline (depth : Nat) : String := String.ofList ('\n' :: List.replicate (2 * depth) ' ')

mutual

/-- The value over several lines, its parts at depth `depth + 1`. Empty containers stay on one
line. -/
def prettyAt (depth : Nat) : Json → String
  | .null => "null"
  | .bool b => if b then "true" else "false"
  | .num n => n.text
  | .str s => quoted s
  | .arr [] => "[]"
  | .arr (v :: vs) =>
    "[" ++ newline (depth + 1) ++ prettyAt (depth + 1) v ++ prettyItems (depth + 1) vs ++
      newline depth ++ "]"
  | .obj [] => "\x7b\x7d"
  | .obj ((k, v) :: ms) =>
    "\x7b" ++ newline (depth + 1) ++ quoted k ++ ": " ++ prettyAt (depth + 1) v ++
      prettyMembers (depth + 1) ms ++ newline depth ++ "\x7d"

/-- The items after the first. -/
def prettyItems (depth : Nat) : List Json → String
  | [] => ""
  | v :: vs => "," ++ newline depth ++ prettyAt depth v ++ prettyItems depth vs

/-- The members after the first. -/
def prettyMembers (depth : Nat) : List (String × Json) → String
  | [] => ""
  | (k, v) :: ms =>
    "," ++ newline depth ++ quoted k ++ ": " ++ prettyAt depth v ++ prettyMembers depth ms

end

/-- The value over several lines. -/
def pretty (v : Json) : String := prettyAt 0 v

end DocumentEngine.Json
