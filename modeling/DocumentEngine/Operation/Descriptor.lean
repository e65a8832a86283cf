import DocumentEngine.Operation.Basic
import DocumentEngine.Text.Split
import DocumentEngine.Text.Word

/-!
Descriptors of operations, such as
`promote: assign = [role], set = {active: true}, context = "modify"`. The name ends at the first
colon. Fragments follow with one comma between them; a value is a list in brackets, a map in
braces, a text in quotes, or else runs to the next comma.
-/

namespace DocumentEngine

/-- A descriptor that is read but not yet checked against a type. -/
structure Descriptor where
  name : String
  assign : List String := []
  set : Keyed Json := []
  context : Option String := none

namespace Descriptor

/-- The text before the first `sep` and the text after it. -/
def splitOnce? (sep : Char) (cs : List Char) : Option (List Char × List Char) :=
  match cs.dropWhile (· ≠ sep) with
  | [] => none
  | _ :: after => some (cs.takeWhile (· ≠ sep), after)

/-- A value between an opening and a closing character, and the text after it. -/
def enclosed? (opening closing : Char) : List Char → Option (List Char × List Char)
  | [] => none
  | c :: cs =>
    if c = opening then
      (splitOnce? closing cs).map fun (inner, after) => (c :: inner ++ [closing], after)
    else none

/-- A value that runs to the next comma. -/
def bare? : List Char → Option (List Char × List Char)
  | [] => none
  | c :: cs =>
    if c = ',' || Text.isBlank c then none
    else some (c :: cs.takeWhile (· ≠ ','), cs.dropWhile (· ≠ ','))

/-- The value at the front of a text, and the text after it. -/
def value? (cs : List Char) : Option (List Char × List Char) :=
  enclosed? '[' ']' cs <|> enclosed? '\x7b' '\x7d' cs <|> enclosed? '"' '"' cs <|>
    enclosed? '\'' '\'' cs <|> bare? cs

/-- A key with its value, and the text between the fragment before and this one. -/
structure Fragment where
  gap : List Char
  key : String
  value : List Char

/-- The value behind an equals sign, and the text after it. -/
def assigned? (cs : List Char) : Option (List Char × List Char) :=
  match cs.dropWhile Text.isBlank with
  | '=' :: rest => value? (rest.dropWhile Text.isBlank)
  | _ => none

/-- The leftmost fragment of a text and the text after it. The fuel bounds the count of words and
other characters that are passed over. -/
def nextFragment? (gap : List Char) : Nat → List Char → Option (Fragment × List Char)
  | 0, _ => none
  | _, [] => none
  | fuel + 1, c :: cs =>
    if Text.isWordChar c then
      let word := c :: cs.takeWhile Text.isWordChar
      let rest := cs.dropWhile Text.isWordChar
      match assigned? rest with
      | some (value, after) => some (⟨gap, String.ofList word, value⟩, after)
      | none => nextFragment? (gap ++ word) fuel rest
    else nextFragment? (gap ++ [c]) fuel cs

/-- The fragments of a text and what is left after the last one. The fuel bounds their count. -/
def fragments : Nat → List Char → List Fragment × List Char
  | 0, cs => ([], cs)
  | fuel + 1, cs =>
    match nextFragment? [] (cs.length + 1) cs with
    | none => ([], cs)
    | some (fragment, after) =>
      let (rest, tail) := fragments fuel after
      (fragment :: rest, tail)

/-- A comma or a blank. -/
def isSeparator (c : Char) : Bool := c = ',' || Text.isBlank c

/-- Between fragments there are only blanks and an allowed number of commas. -/
def checkGap (gap : List Char) (least most : Nat) : Except DescriptorFault Unit :=
  let stray := ((gap.dropWhile isSeparator).reverse.dropWhile isSeparator).reverse
  if !stray.isEmpty then .error (.stray (String.ofList stray))
  else if least ≤ gap.count ',' && gap.count ',' ≤ most then .ok ()
  else .error .separator

/-- The characters between an opening and a closing one at the very ends. -/
def inner? (opening closing : Char) : List Char → Option (List Char)
  | [] => none
  | c :: cs => if c = opening && cs.getLast? = some closing then some cs.dropLast else none

/-- The text inside a pair of quotes of one kind, or the text itself. -/
def unquote (cs : List Char) : List Char :=
  ((inner? '"' '"' cs <|> inner? '\'' '\'' cs)).getD cs

/-- The names of a list in brackets; blank ones are skipped. -/
def names (raw : List Char) : Except DescriptorFault (List String) :=
  match inner? '[' ']' raw with
  | none => .error .notAList
  | some body =>
    .ok (((Text.splitChars ',' body).map fun item =>
      String.ofList (unquote (Text.trimChars item))).filter fun name => name ≠ "")

/-- The value that a text stands for: a flag, an integer, a decimal, or a text with or without
quotes. -/
def valueOf (cs : List Char) : Json :=
  if cs = "true".toList then .bool true
  else if cs = "false".toList then .bool false
  else
    match Number.signed? cs with
    | some n => .int n
    | none =>
      match Number.double? cs with
      | some (.finite d) => .num (.double d)
      | _ => .str (String.ofList (unquote cs))

/-- The key and the value of an entry of a map. -/
def entry (cs : List Char) : Except DescriptorFault (String × Json) :=
  match splitOnce? ':' cs with
  | none => .error (.entryWithoutColon (String.ofList cs))
  | some (key, value) =>
    let key := unquote (Text.trimChars key)
    if key.isEmpty then .error .emptyEntryKey
    else .ok (String.ofList key, valueOf (Text.trimChars value))

/-- The entries of a map in braces; blank ones are skipped. -/
def entries (raw : List Char) : Except DescriptorFault (Keyed Json) :=
  match inner? '\x7b' '\x7d' raw with
  | none => .error .notAMap
  | some body => do
    let parts := ((Text.splitChars ',' body).map Text.trimChars).filter fun part => !part.isEmpty
    return Keyed.ofList (← parts.mapM entry)

/-- The descriptor with one fragment more. -/
def add (d : Descriptor) (f : Fragment) : Except DescriptorFault Descriptor := do
  let raw := Text.trimChars f.value
  match f.key with
  | "assign" => return { d with assign := ← names raw }
  | "set" => return { d with set := ← entries raw }
  | "context" => return { d with context := some (String.ofList (unquote raw)) }
  | key => throw (.unknownKey key)

/-- The descriptor with fragments added in order. -/
def addAll (d : Descriptor) (first : Bool) : List Fragment → Except DescriptorFault Descriptor
  | [] => .ok d
  | f :: fs => do
    if first then checkGap f.gap 0 0 else checkGap f.gap 1 1
    addAll (← d.add f) false fs

/-- The name and the body of a descriptor. -/
def nameAndBody (cs : List Char) : List Char × List Char :=
  match splitOnce? ':' cs with
  | some (name, body) => (Text.trimChars name, body)
  | none => (Text.trimChars cs, [])

/-- Reads the body of a descriptor after its name. -/
def readBody (name : List Char) (body : List Char) : Except DescriptorFault Descriptor := do
  if !name.all fun c => Text.isAlphanumeric c || c = '_' then
    throw (.badName (String.ofList name))
  let (found, tail) := fragments body.length body
  let d ← addAll { name := String.ofList name } true found
  checkGap tail 0 1
  return d

/-- The descriptor of a text. -/
def ofText (text : String) : Except OperationError Descriptor :=
  let (name, body) := nameAndBody text.toList
  if name.isEmpty then .error (.missingName text)
  else
    match readBody name body with
    | .ok d => .ok d
    | .error fault => .error (.malformed text fault)

end Descriptor

end DocumentEngine
