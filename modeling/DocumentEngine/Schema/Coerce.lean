import DocumentEngine.Calendar.Timestamp
import DocumentEngine.Json.Basic
import DocumentEngine.Schema.Basic

/-!
Coercion of input values to the kind of a scalar field. Text is taken for every kind, as forms send
it; numbers and flags where they make sense; null always.
-/

namespace DocumentEngine

/-- Why a value is not of a kind: a number or a text that does not fit, or a value of another
sort. -/
inductive CoercionError where
  | number (expected : ScalarKind) (n : Number)
  | text (expected : ScalarKind) (s : String)
  | sort (expected : ScalarKind) (found : String)
  deriving DecidableEq

/-- The message of a failed coercion. -/
def CoercionError.message : CoercionError → String
  | .number expected n => s!"expected {expected.name}, got {n.text}"
  | .text expected s => s!"expected {expected.name}, got \"{s}\""
  | .sort expected found => s!"expected {expected.name}, got {found}"

namespace ScalarKind

/-- The value that holds a binary64 number: null where it is not finite. -/
def doubleJson (d : ExtendedDouble) : Json :=
  match d.finite? with
  | some d => .num (.double d)
  | none => .null

/-- An integer cut to the 64 bits of a signed one. -/
def clampSigned (n : Int) : Int := max Number.minSigned (min Number.maxSigned n)

/-- The integer of a number without a fraction. -/
def coerceInt : Number → Except CoercionError Json
  | .int n => .ok (.int n)
  | .double d =>
    if d.isWhole then .ok (.int (clampSigned d.truncate)) else .error (.number .int (.double d))

/-- The flag of a text. -/
def coerceFlag (s : String) : Except CoercionError Json :=
  if s == "true" || s == "1" then .ok (.bool true)
  else if s == "false" || s == "0" then .ok (.bool false)
  else .error (.text .boolean s)

/-- The written form of a point in time, or an error. -/
def coerceTime (error : CoercionError) : Option Timestamp → Except CoercionError Json
  | some t => .ok (.str t.text)
  | none => .error error

/-- The value as the kind holds it. -/
def coerce : ScalarKind → Json → Except CoercionError Json
  | _, .null => .ok .null
  | .id, .str s => .ok (.str s)
  | .id, .num n => .ok (.str n.text)
  | .string, .str s => .ok (.str s)
  | .string, .num n => .ok (.str n.text)
  | .string, .bool b => .ok (.str (if b then "true" else "false"))
  | .int, .num n => coerceInt n
  | .int, .str s =>
    match Number.signed? (Text.trimChars s.toList) with
    | some n => .ok (.int n)
    | none => .error (.text .int s)
  | .float, .num n => .ok (.num n)
  | .float, .str s =>
    match Number.double? (Text.trimChars s.toList) with
    | some d => .ok (doubleJson d)
    | none => .error (.text .float s)
  | .boolean, .bool b => .ok (.bool b)
  | .boolean, .str s => coerceFlag (Text.trim s)
  | .boolean, .num n =>
    match n.toSigned? with
    | some 0 => .ok (.bool false)
    | some 1 => .ok (.bool true)
    | _ => .error (.number .boolean n)
  | .dateTime, .str s => coerceTime (.text .dateTime s) (Timestamp.ofText? s)
  | .dateTime, .num n => coerceTime (.number .dateTime n) (n.toSigned? >>= Timestamp.ofMillis?)
  | kind, v => .error (.sort kind v.kindName)

end ScalarKind

end DocumentEngine
