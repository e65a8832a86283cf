import DocumentEngine.Json.Reader

/-!
Records in JSON text. A record is an object with named members, of which none stands twice, or a
list of the members in their order, of which some may be left out at the end. Members with other
names are skipped unread.
-/

namespace DocumentEngine.Json

namespace Written

/-- The member of a name, if exactly one or none has it. -/
def member? (members : List (String × Written)) (name : String) : Option (Option Written) :=
  match members.filter fun m => m.1 == name with
  | [] => some none
  | [m] => some (some m.2)
  | _ => none

/-- The members of a record in the order of their names. -/
def record? (names : List String) : Written → Option (List (Option Written))
  | .obj members => do
    let named ← members.mapM fun m => m.1.map fun k => (k, m.2)
    names.mapM (member? named)
  | .arr items =>
    if items.length ≤ names.length then
      some (items.map some ++ List.replicate (names.length - items.length) none)
    else none
  | _ => none

/-- A text. -/
def string? : Written → Option String
  | .str s => s
  | _ => none

/-- A flag. -/
def flag? : Written → Option Bool
  | .bool b => some b
  | _ => none

/-- A list of things. -/
def list? {α : Type} (item : Written → Option α) : Written → Option (List α)
  | .arr items => items.mapM item
  | _ => none

/-- A count of at most 64 bits. -/
def count? : Written → Option Nat
  | .num n =>
    match n.read? with
    | some number => number.toUnsigned?
    | none => none
  | _ => none

/-- A thing or null. -/
def nullable? {α : Type} (item : Written → Option α) : Written → Option (Option α)
  | .null => some none
  | w => (item w).map some

/-- A member that must be there. -/
def required? {α : Type} (item : Written → Option α) : Option Written → Option α
  | some w => item w
  | none => none

/-- A member with a default. -/
def optional? {α : Type} (default : α) (item : Written → Option α) : Option Written → Option α
  | some w => item w
  | none => some default

end Written

/-- The numeral of an integer or of the text of a binary64 number. -/
def Numeral.ofNumber (n : Number) : Numeral :=
  match Written.readNumeral n.text.toList with
  | some (numeral, _) => numeral
  | none => ⟨false, ['0'], [], none⟩

mutual

/-- A value as a text that is written without repeats. -/
def written : Json → Written
  | .null => .null
  | .bool b => .bool b
  | .num n => .num (Numeral.ofNumber n)
  | .str s => .str (some s)
  | .arr items => .arr (writtenItems items)
  | .obj members => .obj (writtenMembers members)

/-- Items as written. -/
def writtenItems : List Json → List Written
  | [] => []
  | v :: vs => written v :: writtenItems vs

/-- Members as written. -/
def writtenMembers : List (String × Json) → List (Option String × Written)
  | [] => []
  | (k, v) :: ms => (some k, written v) :: writtenMembers ms

end

/-- An object from members in any order. -/
def object (members : List (String × Json)) : Json := .obj (Keyed.ofList members)

/-- A list of texts. -/
def strings (texts : List String) : Json := .arr (texts.map .str)

/-- A text or null. -/
def strOrNull : Option String → Json
  | some s => .str s
  | none => .null

end DocumentEngine.Json
