import DocumentEngine.Json.Record

/-!
Counters of what the engine has done since it was opened. A counter that has run full begins at
zero again.
-/

namespace DocumentEngine

/-- The counters. -/
structure Metrics where
  fetches : UInt64 := 0
  documentsScanned : UInt64 := 0
  writes : UInt64 := 0
  deletes : UInt64 := 0
  batchLoads : UInt64 := 0
  requestsExecuted : UInt64 := 0
  mutationsRejected : UInt64 := 0
  fetchesByType : Keyed Nat := []

namespace Metrics

/-- Counts a fetch of the documents of a type. -/
def countFetch (m : Metrics) (type : String) : Metrics :=
  { m with fetches := m.fetches + 1, fetchesByType := m.fetchesByType.update type 0 (· + 1) }

/-- Counts document files that were read in a fetch. -/
def countScanned (m : Metrics) (n : Nat) : Metrics :=
  { m with documentsScanned := m.documentsScanned + n.toUInt64 }

/-- Counts a document written. -/
def countWrite (m : Metrics) : Metrics := { m with writes := m.writes + 1 }

/-- Counts a document removed. -/
def countDelete (m : Metrics) : Metrics := { m with deletes := m.deletes + 1 }

/-- Counts a batch of related documents. -/
def countBatch (m : Metrics) : Metrics := { m with batchLoads := m.batchLoads + 1 }

/-- Counts a request. -/
def countRequest (m : Metrics) : Metrics := { m with requestsExecuted := m.requestsExecuted + 1 }

/-- Counts a mutation that was refused. -/
def countRejected (m : Metrics) : Metrics :=
  { m with mutationsRejected := m.mutationsRejected + 1 }

/-- The number of fetches of the documents of a type. -/
def fetchesOf (m : Metrics) (type : String) : Nat := (m.fetchesByType.get? type).getD 0

/-- The counters as an object. -/
def toJson (m : Metrics) : Json := Json.object [
  ("fetches", .int m.fetches.toNat), ("documents_scanned", .int m.documentsScanned.toNat),
  ("writes", .int m.writes.toNat), ("deletes", .int m.deletes.toNat),
  ("batch_loads", .int m.batchLoads.toNat),
  ("requests_executed", .int m.requestsExecuted.toNat),
  ("mutations_rejected", .int m.mutationsRejected.toNat)]

end Metrics

end DocumentEngine
