import DocumentEngine.FileTree.Basic
import DocumentEngine.Observability.Log
import DocumentEngine.Observability.Metrics

/-!
All that the engine changes: the files, the counters, the log, the notes that handlers leave, and
the count of identifiers made up so far.
-/

namespace DocumentEngine

/-- The state around an engine. -/
structure State where
  files : FileTree := {}
  metrics : Metrics := {}
  log : Log := {}
  notes : List String := []
  minted : Nat := 0

namespace State

/-- Writes the log line of an event. -/
def report (s : State) (event : Event) (fields : List (String × String)) : State :=
  { s with log := s.log.report event fields }

/-- Writes a warning. -/
def warn (s : State) (event : String) (fields : List (String × String)) : State :=
  { s with log := s.log.write .warn event fields }

/-- Leaves a note. -/
def note (s : State) (text : String) : State := { s with notes := s.notes ++ [text] }

/-- Changes the counters. -/
def count (s : State) (f : Metrics → Metrics) : State := { s with metrics := f s.metrics }

/-- Twelve hexadecimal digits of a number. -/
def hexTwelve (n : Nat) : String :=
  let digits := Nat.toDigits 16 n
  String.ofList (List.replicate (12 - digits.length) '0' ++ digits)

/-- The identifier of a number, in the form of a random identifier. -/
def identifier (n : Nat) : String := "00000000-0000-4000-8000-" ++ hexTwelve n

/-- Makes up an identifier that was not made up before. -/
def mint (s : State) : String × State :=
  (identifier s.minted, { s with minted := s.minted + 1 })

end State

end DocumentEngine
