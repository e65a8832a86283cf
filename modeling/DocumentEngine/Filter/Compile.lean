import DocumentEngine.Filter.Path
import DocumentEngine.Filter.Key

/-!
Filters and queries from arguments. Within a key `And` binds tighter than `Or`; the keys of an
argument object must all hold. The arguments `id`, `orderBy`, `since` and `limit` have meanings of
their own.
-/

namespace DocumentEngine.Filter

/-- The path of a field, or the error that a key names no field. -/
def resolveField (s : Schema) (t : DocumentType) (key field : String) :
    Except FilterError String :=
  match s.resolvePath t field with
  | .ok path => .ok path
  | .error unresolved => .error (.unknownField key unresolved)

/-- Conditions in the groups between `or` connectors; the first connector joins nothing. -/
def disjuncts : List (Connector × Filter) → List (List Filter)
  | [] => []
  | [(_, f)] => [[f]]
  | (_, f) :: (.or, g) :: rest => [f] :: disjuncts ((.or, g) :: rest)
  | (_, f) :: (.and, g) :: rest =>
    match disjuncts ((.and, g) :: rest) with
    | group :: groups => (f :: group) :: groups
    | [] => [[f]]

/-- The condition of a segment with its operand. -/
def compileSegment (s : Schema) (t : DocumentType) (key : String) (segment : Segment)
    (operand : Operand) : Except FilterError (Connector × Filter) := do
  let path ← resolveField s t key segment.field
  return (segment.connector, .condition ⟨path, segment.operator, operand⟩)

/-- The first membership operator that is not the last operator. -/
def misplacedMembership? : List Segment → Option Operator
  | [] => none
  | [_] => none
  | segment :: rest =>
    if segment.operator.isMembership then some segment.operator else misplacedMembership? rest

/-- The filter of a key and its argument. -/
def compileKey (s : Schema) (t : DocumentType) (key : String) (raw : Json) :
    Except FilterError Filter := do
  let segments ← match segments key with
    | .ok segments => pure segments
    | .error fault => throw (.malformedKey key fault)
  match misplacedMembership? segments with
  | some operator => throw (.membershipNotLast key operator)
  | none => pure ()
  let operands ← assignValues key segments (splitValues raw)
  let conditions ← (segments.zip operands).mapM fun (segment, operand) =>
    compileSegment s t key segment operand
  return any ((disjuncts conditions).map all)

/-- The filter of all keys together; none where there are no keys. -/
def compileAll (s : Schema) (t : DocumentType) (filters : Keyed Json) :
    Except FilterError (Option Filter) := do
  let children ← filters.mapM fun (key, raw) => compileKey s t key raw
  return if children.isEmpty then none else some (all children)

end Filter

namespace Query

open Filter (resolveField)

/-- The direction words of a sort item. -/
def direction? (word : List Char) : Option Direction :=
  match String.ofList (word.map Char.toLower) with
  | "desc" => some .descending
  | "asc" => some .ascending
  | _ => none

/-- The text before the last blank and the word after it. -/
def splitLastWord? (cs : List Char) : Option (List Char × List Char) :=
  let backwards := cs.reverse
  match backwards.dropWhile fun c => !Text.isBlank c with
  | [] => none
  | _ :: before =>
    some (before.reverse, (backwards.takeWhile fun c => !Text.isBlank c).reverse)

/-- The field and the direction of a sort item: `-age`, `age desc` or `age asc`, or the field
alone. -/
def sortItem (item : String) : String × Direction :=
  let cs := item.toList
  match cs with
  | '-' :: rest => (String.ofList (Text.trimChars rest), .descending)
  | _ =>
    match splitLastWord? cs with
    | none => (item, .ascending)
    | some (field, word) =>
      match direction? word with
      | some direction => (String.ofList (Text.trimChars field), direction)
      | none => (item, .ascending)

/-- The items of a sort argument: the parts of a text between commas, or the texts of a list. -/
def sortItems : Json → Except FilterError (List String)
  | .str s => .ok (Text.splitTrimmed ',' s)
  | .arr items => items.mapM fun v =>
    match v with
    | .str s => .ok (Text.trim s)
    | _ => .error (.invalidArgument "orderBy" "expected a list of field names")
  | _ => .error (.invalidArgument "orderBy" "expected a field list")

/-- The rules of a sort argument; blank items are skipped. -/
def sortRules (s : Schema) (t : DocumentType) (raw : Json) :
    Except FilterError (List SortRule) := do
  let items ← sortItems raw
  (items.filter fun item => item ≠ "").mapM fun item => do
    let (field, direction) := sortItem item
    return ⟨← resolveField s t "orderBy" field, direction⟩

/-- The cursor of an object of fields and values; of two fields with one path the last counts. -/
def cursor (s : Schema) (t : DocumentType) (since : Keyed Json) :
    Json → Except FilterError (Keyed Json)
  | .obj members => members.foldlM (fun since (field, value) => do
      return since.insert (← resolveField s t "since" field) value) since
  | _ => .error (.invalidArgument "since" "expected an object of field: value")

/-- The limit of an argument, cut to the greatest limit allowed; null asks for none. -/
def limitOf (maxLimit : Nat) (raw : Json) : Except FilterError (Option Nat) :=
  let requested := match raw with
    | .num n => n.toUnsigned?
    | .str text => Number.unsigned? (Text.trimChars text.toList)
    | _ => none
  match raw, requested with
  | .null, _ => .ok none
  | _, some n => .ok (some (min n maxLimit))
  | _, none => .error (.invalidArgument "limit" "expected a non-negative integer")

/-- Reads arguments in order into a query and the filter keys that are left. -/
def readArguments (s : Schema) (t : DocumentType) (maxLimit : Nat) :
    Query → Keyed Json → Keyed Json → Except FilterError (Query × Keyed Json)
  | query, filters, [] => .ok (query, filters)
  | query, filters, (name, raw) :: args => do
    if name = "id" then
      readArguments s t maxLimit query (filters.insert (t.identifierName ++ "Equals") raw) args
    else if name = "orderBy" then
      readArguments s t maxLimit { query with sort := ← sortRules s t raw } filters args
    else if name = "since" then
      readArguments s t maxLimit { query with since := ← cursor s t query.since raw } filters args
    else if name = "limit" then
      readArguments s t maxLimit { query with limit := ← limitOf maxLimit raw } filters args
    else readArguments s t maxLimit query (filters.insert name raw) args

/-- The query of an argument object. -/
def compile (s : Schema) (t : DocumentType) (maxLimit : Nat) (args : Keyed Json) :
    Except FilterError Query := do
  let (query, filters) ← readArguments s t maxLimit {} [] args
  return { query with filter := ← Filter.compileAll s t filters }

end Query

end DocumentEngine
