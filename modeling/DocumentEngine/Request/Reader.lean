import DocumentEngine.Request.Basic
import DocumentEngine.Request.Token

/-!
Requests from text. A request is a selection set, or a word for its kind, a name that may be left
out, and a selection set. A bare name in the place of a value is a string, but for `true`, `false`
and `null`.
-/

namespace DocumentEngine.Request

/-- Takes a mark from the front of the tokens. -/
def expectMark (c : Char) : List Token → Except SyntaxFault (List Token)
  | [] => .error .unexpectedEnd
  | .mark d :: rest => if d = c then .ok rest else .error (.expectedMark c (.mark d))
  | found :: _ => .error (.expectedMark c found)

/-- Takes a name from the front of the tokens. -/
def expectName : List Token → Except SyntaxFault (String × List Token)
  | [] => .error .unexpectedEnd
  | .name n :: rest => .ok (n, rest)
  | found :: _ => .error (.expectedName found)

/-- Takes the key of an object member from the front of the tokens. -/
def expectKey : List Token → Except SyntaxFault (String × List Token)
  | [] => .error .unexpectedEnd
  | .name n :: rest => .ok (n, rest)
  | .string s :: rest => .ok (s, rest)
  | found :: _ => .error (.expectedKey found)

/-- One level of nesting less, if there is one. -/
def descend : Nat → Except SyntaxFault Nat
  | 0 => .error .tooDeep
  | depth + 1 => .ok depth

/-- The value of a bare name. -/
def wordValue : String → Json
  | "true" => .bool true
  | "false" => .bool false
  | "null" => .null
  | word => .str word

mutual

/-- A value at the front of the tokens, with `depth` levels of nesting left. The fuel bounds the
count of steps. -/
def readValue (depth : Nat) : Nat → List Token → Except SyntaxFault (Json × List Token)
  | 0, _ => .error .unexpectedEnd
  | _, [] => .error .unexpectedEnd
  | fuel + 1, token :: rest =>
    match token with
    | .string s => .ok (.str s, rest)
    | .number n => .ok (.num n, rest)
    | .name n => .ok (wordValue n, rest)
    | .mark '[' => do
      let depth ← descend depth
      let (items, rest) ← readItems depth fuel rest
      return (.arr items, rest)
    | .mark '\x7b' => do
      let depth ← descend depth
      let (members, rest) ← readMembers depth '\x7d' expectKey fuel rest
      return (.obj (Keyed.ofList members), rest)
    | found => .error (.expectedValue found)

/-- The items of a list up to its closing bracket. -/
def readItems (depth : Nat) : Nat → List Token → Except SyntaxFault (List Json × List Token)
  | 0, _ => .error .unexpectedEnd
  | fuel + 1, tokens =>
    match tokens with
    | .mark ']' :: rest => .ok ([], rest)
    | _ => do
      let (item, rest) ← readValue depth fuel tokens
      let (items, rest) ← readItems depth fuel rest
      return (item :: items, rest)

/-- The members of an object or of arguments up to the closing mark. -/
def readMembers (depth : Nat) (closing : Char)
    (key : List Token → Except SyntaxFault (String × List Token)) :
    Nat → List Token → Except SyntaxFault (List (String × Json) × List Token)
  | 0, _ => .error .unexpectedEnd
  | fuel + 1, tokens =>
    if tokens.head? = some (.mark closing) then .ok ([], tokens.tail)
    else do
      let (name, rest) ← key tokens
      let rest ← expectMark ':' rest
      let (value, rest) ← readValue depth fuel rest
      let (members, rest) ← readMembers depth closing key fuel rest
      return ((name, value) :: members, rest)

end

/-- Arguments in parentheses, or none. -/
def readArguments (depth fuel : Nat) (tokens : List Token) :
    Except SyntaxFault (Keyed Json × List Token) :=
  match tokens with
  | .mark '(' :: rest => do
    let (members, rest) ← readMembers depth ')' expectName fuel rest
    return (Keyed.ofList members, rest)
  | _ => .ok ([], tokens)

/-- The label and the name of a field. -/
def readFieldName (tokens : List Token) :
    Except SyntaxFault ((Option String × String) × List Token) := do
  let (first, rest) ← expectName tokens
  match rest with
  | .mark ':' :: rest =>
    let (name, rest) ← expectName rest
    return ((some first, name), rest)
  | _ => return ((none, first), rest)

/-- Selected fields up to the closing brace. -/
def readSelections (depth : Nat) :
    Nat → List Token → Except SyntaxFault (List Selection × List Token)
  | 0, _ => .error .unexpectedEnd
  | fuel + 1, tokens =>
    match tokens with
    | .mark '\x7d' :: rest => .ok ([], rest)
    | _ => do
      let ((label, name), rest) ← readFieldName tokens
      let (arguments, rest) ← readArguments depth fuel rest
      match rest with
      | .mark '\x7b' :: rest =>
        let inner ← descend depth
        let (below, rest) ← readSelections inner fuel rest
        let (selections, rest) ← readSelections depth fuel rest
        return (.field label name arguments below :: selections, rest)
      | _ =>
        let (selections, rest) ← readSelections depth fuel rest
        return (.field label name arguments [] :: selections, rest)

/-- The kind and the name of a request. -/
def readHead : List Token → Except SyntaxFault ((RequestKind × Option String) × List Token)
  | .name word :: rest => do
    let kind ← match word with
      | "query" => pure RequestKind.query
      | "mutation" => pure .mutation
      | _ => throw (.unknownKind word)
    match rest with
    | .name n :: rest => return ((kind, some n), rest)
    | _ => return ((kind, none), rest)
  | tokens => .ok ((.query, none), tokens)

/-- The request that tokens spell. -/
def ofTokens (tokens : List Token) : Except SyntaxFault Request := do
  let ((kind, name), rest) ← readHead tokens
  let rest ← expectMark '\x7b' rest
  let depth ← descend maxNesting
  let (selections, rest) ← readSelections depth (2 * tokens.length + 1) rest
  if selections.isEmpty then throw .noSelection
  match rest with
  | [] => return ⟨kind, name, selections⟩
  | found :: _ => throw (.trailing found)

/-- The request that a text spells. -/
def ofText (text : String) : Except SyntaxFault Request := do ofTokens (← tokens text)

end DocumentEngine.Request
