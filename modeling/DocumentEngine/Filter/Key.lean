import DocumentEngine.Filter.Error
import DocumentEngine.Text.Split

/-!
Filter keys such as `nameLikeOrAgeGreaterThan`. The words between connectors are one segment: a
field, and the longest run of words at its end that spells an operator. Values are handed out to the
segments from left to right; where they run out the last one is repeated, and a value that nobody
takes is an error.
-/

namespace DocumentEngine.Filter

/-- What joins a segment to the one before it. -/
inductive Connector where
  | and
  | or
  deriving DecidableEq

/-- The connector that a word is. -/
def connector? (word : String) : Option Connector :=
  if word == "Or" || word == "or" then some .or
  else if word == "And" || word == "and" then some .and
  else none

/-- The words that spell operators. -/
def vocabulary : List (List String × Operator) := [
  (["Equals"], .eq), (["Eq"], .eq), (["Is"], .eq),
  (["Not", "Equals"], .ne), (["Not"], .ne), (["Ne"], .ne), (["Is", "Not"], .ne),
  (["Greater", "Than"], .gt), (["Gt"], .gt), (["After"], .gt),
  (["Greater", "Than", "Equal"], .gte), (["Gte"], .gte),
  (["Less", "Than"], .lt), (["Lt"], .lt), (["Before"], .lt),
  (["Less", "Than", "Equal"], .lte), (["Lte"], .lte),
  (["Like"], .like), (["Containing"], .containing), (["Contains"], .containing),
  (["Starting", "With"], .startingWith), (["Starts", "With"], .startingWith),
  (["Ending", "With"], .endingWith), (["Ends", "With"], .endingWith),
  (["In"], .isIn), (["Not", "In"], .notIn), (["Between"], .between)]

/-- The operator that words spell. -/
def operator? (words : List String) : Option Operator := vocabulary.lookup words

/-- A field with an operator, and what joins it to the segment before. -/
structure Segment where
  connector : Connector
  field : String
  operator : Operator
  deriving DecidableEq

/-- The words up to the next connector. -/
def runOf (words : List String) : List String := words.takeWhile fun w => (connector? w).isNone

/-- The words from the next connector on. -/
def afterRun (words : List String) : List String := words.dropWhile fun w => (connector? w).isNone

/-- Reads segments from words, after the words `field` of the segment that is open and the
connector `pending` in front of it. The flag `dangling` tells that the last word was a connector. -/
def readSegments (pending : Connector) (field : List String) (dangling : Bool) :
    List String → Except KeyFault (List Segment)
  | [] =>
    if !field.isEmpty then .ok [⟨pending, Text.concat field, .eq⟩]
    else if dangling then .error .trailingConnector
    else .ok []
  | word :: words =>
    match connector? word with
    | some c => do
      let segments ← readSegments c [] true words
      if field.isEmpty then return segments
      else return ⟨pending, Text.concat field, .eq⟩ :: segments
    | none =>
      match (if field.isEmpty then none else operator? (word :: runOf words)) with
      | some op => do
        let segments ← readSegments pending [] false (afterRun words)
        return ⟨pending, Text.concat field, op⟩ :: segments
      | none => readSegments pending (field ++ [word]) false words
termination_by words => words.length
decreasing_by
  · simp
  · have := (List.dropWhile_sublist (fun w => (connector? w).isNone) (l := words)).length_le
    simp only [afterRun, List.length_cons]
    omega
  · simp

/-- The segments of a filter key. -/
def segments (key : String) : Except KeyFault (List Segment) := do
  let words := Text.camelWords key
  if words.isEmpty then throw .empty
  let segments ← readSegments .and [] false words
  if segments.isEmpty then throw .noField
  return segments

/-- The values of an argument: the parts of a text between commas, the items of a list, or the
one value. -/
def splitValues : Json → List Json
  | .str s => (Text.splitTrimmed ',' s).map .str
  | .arr items => items
  | v => [v]

/-- The values that an operator takes, and those it leaves. -/
def takeOperand (last : Json) (values : List Json) : Arity → Operand × List Json
  | .one => (.single (values.head?.getD last), values.tail)
  | .two =>
    (.list [values.head?.getD last, values.tail.head?.getD last], values.tail.tail)
  | .rest => (.list (if values.isEmpty then [last] else values), [])

/-- The operands of operators in order, and the values left over. -/
def takeOperands (last : Json) : List Json → List Operator → List Operand × List Json
  | values, [] => ([], values)
  | values, op :: ops =>
    let (operand, left) := takeOperand last values op.arity
    let (operands, left) := takeOperands last left ops
    (operand :: operands, left)

/-- The operands of the segments of a key. -/
def assignValues (key : String) (segments : List Segment) (values : List Json) :
    Except FilterError (List Operand) :=
  match values.getLast? with
  | none => .error (.malformedKey key .noValue)
  | some last =>
    let (operands, left) := takeOperands last values (segments.map (·.operator))
    if left.isEmpty then .ok operands
    else
      .error (.valueCount key (operands.flatMap Operand.values).length values.length)

end DocumentEngine.Filter
