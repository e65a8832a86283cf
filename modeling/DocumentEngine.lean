import DocumentEngine.Calendar.Date
import DocumentEngine.Calendar.Timestamp
import DocumentEngine.Config
import DocumentEngine.Engine.Action
import DocumentEngine.Engine.Basic
import DocumentEngine.Engine.Policy
import DocumentEngine.Engine.Error
import DocumentEngine.Engine.Execute
import DocumentEngine.Engine.Open
import DocumentEngine.Engine.Read
import DocumentEngine.Engine.Resolution
import DocumentEngine.Evaluation.Compare
import DocumentEngine.Evaluation.Condition
import DocumentEngine.Evaluation.Like
import DocumentEngine.Evaluation.Relation
import DocumentEngine.Evaluation.Sort
import DocumentEngine.Evaluation.Verdict
import DocumentEngine.FileTree.Basic
import DocumentEngine.Filter.Basic
import DocumentEngine.Filter.Compile
import DocumentEngine.Filter.Error
import DocumentEngine.Filter.Json
import DocumentEngine.Filter.Key
import DocumentEngine.Filter.Path
import DocumentEngine.Json.Basic
import DocumentEngine.Json.Printer
import DocumentEngine.Json.Reader
import DocumentEngine.Json.Record
import DocumentEngine.Json.Written
import DocumentEngine.Keyed
import DocumentEngine.Mutation.Merge
import DocumentEngine.Mutation.Write
import DocumentEngine.Number.Double
import DocumentEngine.Number.Reading
import DocumentEngine.Number.Shortest
import DocumentEngine.Observability.Log
import DocumentEngine.Observability.Metrics
import DocumentEngine.Operation.Basic
import DocumentEngine.Operation.Catalog
import DocumentEngine.Operation.Descriptor
import DocumentEngine.Pipeline.Basic
import DocumentEngine.Pipeline.Rule
import DocumentEngine.Projection.Basic
import DocumentEngine.Projection.Batch
import DocumentEngine.Projection.Fill
import DocumentEngine.Request.Basic
import DocumentEngine.Request.Id
import DocumentEngine.Request.Reader
import DocumentEngine.Request.Token
import DocumentEngine.Response.Basic
import DocumentEngine.Schema.Basic
import DocumentEngine.Schema.Coerce
import DocumentEngine.Schema.Error
import DocumentEngine.Schema.Json
import DocumentEngine.Schema.Structure
import DocumentEngine.Schema.Validate
import DocumentEngine.State
import DocumentEngine.Store.Basic
import DocumentEngine.Store.Crash
import DocumentEngine.Store.Error
import DocumentEngine.Store.Interruption
import DocumentEngine.Store.Write
import DocumentEngine.Store.Scan
import DocumentEngine.Text.Alphabetic
import DocumentEngine.Text.Case
import DocumentEngine.Text.CaseTable
import DocumentEngine.Text.CodePoints
import DocumentEngine.Text.Sigma
import DocumentEngine.Text.Split
import DocumentEngine.Text.Uppercase
import DocumentEngine.Text.Word
import DocumentEngine.Proofs.Engine.Agreement
import DocumentEngine.Proofs.Engine.Decoding
import DocumentEngine.Proofs.Engine.Effects
import DocumentEngine.Proofs.Engine.Fresh
import DocumentEngine.Proofs.Engine.Hidden
import DocumentEngine.Proofs.Engine.Mutations
import DocumentEngine.Proofs.Engine.Nesting
import DocumentEngine.Proofs.Engine.Query
import DocumentEngine.Proofs.Engine.Reading
import DocumentEngine.Proofs.Engine.References
import DocumentEngine.Proofs.Engine.Requests
import DocumentEngine.Proofs.Engine.Restriction
import DocumentEngine.Proofs.Engine.Rounds
import DocumentEngine.Proofs.Engine.Target
import DocumentEngine.Proofs.Engine.Valid
import DocumentEngine.Proofs.Engine.ValidRuns
import DocumentEngine.Proofs.Evaluation.Disturbance
import DocumentEngine.Proofs.Evaluation.Hidden
import DocumentEngine.Proofs.Evaluation.Integers
import DocumentEngine.Proofs.Evaluation.Like
import DocumentEngine.Proofs.Evaluation.Operators
import DocumentEngine.Proofs.Evaluation.Order
import DocumentEngine.Proofs.Evaluation.Reading
import DocumentEngine.Proofs.Evaluation.Verdict
import DocumentEngine.Proofs.FileTree
import DocumentEngine.Proofs.FileTree.Sound
import DocumentEngine.Proofs.FileTree.Walk
import DocumentEngine.Proofs.Filter.Identifier
import DocumentEngine.Proofs.Identifier
import DocumentEngine.Proofs.Json.Depth
import DocumentEngine.Proofs.Json.Equality
import DocumentEngine.Proofs.Json.Numeral
import DocumentEngine.Proofs.Json.Printed
import DocumentEngine.Proofs.Json.Reader
import DocumentEngine.Proofs.Keyed
import DocumentEngine.Proofs.Mutation.Merge
import DocumentEngine.Proofs.Mutation.Nesting
import DocumentEngine.Proofs.Mutation.References
import DocumentEngine.Proofs.Mutation.Valid
import DocumentEngine.Proofs.Number.Decimal
import DocumentEngine.Proofs.Number.Integers
import DocumentEngine.Proofs.Number.Numeral
import DocumentEngine.Proofs.Number.Order
import DocumentEngine.Proofs.Number.Rounding
import DocumentEngine.Proofs.Number.Shortest
import DocumentEngine.Proofs.Number.Text
import DocumentEngine.Proofs.Operation.Values
import DocumentEngine.Proofs.Projection.Bounds
import DocumentEngine.Proofs.Projection.Direct
import DocumentEngine.Proofs.Projection.Filling
import DocumentEngine.Proofs.Projection.Known
import DocumentEngine.Proofs.Projection.Place
import DocumentEngine.Proofs.Projection.Slots
import DocumentEngine.Proofs.Schema.Coerce
import DocumentEngine.Proofs.Schema.Structure
import DocumentEngine.Proofs.Schema.Validate
import DocumentEngine.Proofs.State
import DocumentEngine.Proofs.Store.Changes
import DocumentEngine.Proofs.Store.Created
import DocumentEngine.Proofs.Store.Fetch
import DocumentEngine.Proofs.Store.Files
import DocumentEngine.Proofs.Store.Interruption
import DocumentEngine.Proofs.Store.Layout
import DocumentEngine.Proofs.Store.Named
import DocumentEngine.Proofs.Store.Nesting
import DocumentEngine.Proofs.Store.Place
import DocumentEngine.Proofs.Store.Recovery
import DocumentEngine.Proofs.Store.Refinement
import DocumentEngine.Proofs.Store.Represented
import DocumentEngine.Proofs.Store.Rows
import DocumentEngine.Proofs.Store.Scan
import DocumentEngine.Proofs.Store.Session
import DocumentEngine.Proofs.Store.Shelf
import DocumentEngine.Proofs.Store.Shown
import DocumentEngine.Proofs.Store.Sweep
import DocumentEngine.Proofs.Store.Write
import DocumentEngine.Proofs.Text
import DocumentEngine.Proofs.Engine.Atomic
import DocumentEngine.Proofs.Engine.Identity
import DocumentEngine.Proofs.Engine.RootFields
import DocumentEngine.Proofs.Engine.Refusals
import DocumentEngine.Proofs.Engine.Guards
import DocumentEngine.Proofs.Engine.Course
import DocumentEngine.Proofs.Engine.Faults
import DocumentEngine.Proofs.Engine.Fetches
import DocumentEngine.Proofs.Engine.Settling
import DocumentEngine.Proofs.Filter.Arguments
import DocumentEngine.Proofs.Projection.Answers
import DocumentEngine.Proofs.Projection.Placed
import DocumentEngine.Proofs.Filter.Connectors
import DocumentEngine.Proofs.Operation.Resolvers
import DocumentEngine.Proofs.Store.Confinement
import DocumentEngine.Proofs.Number.Nearest
import DocumentEngine.Proofs.Request.Numeral
import DocumentEngine.Proofs.Request.Layout
import DocumentEngine.Proofs.Request.Grammar
import DocumentEngine.Proofs.Request.Parsing
import DocumentEngine.Proofs.Text.Case
import DocumentEngine.Proofs.Text.Lower
import DocumentEngine.Proofs.Text.Words
import DocumentEngine.Proofs.Filter.Segments
import DocumentEngine.Proofs.Filter.Values
import DocumentEngine.Proofs.Filter.Walks
import DocumentEngine.Proofs.Filter.Remainders
import DocumentEngine.Proofs.Filter.Paths
import DocumentEngine.Proofs.Calendar.Date
import DocumentEngine.Proofs.Calendar.Timestamp
import DocumentEngine.Proofs.Sorting
import DocumentEngine.Proofs.Evaluation.Loads
import DocumentEngine.Proofs.Evaluation.Calls
import DocumentEngine.Proofs.Number.Value
import DocumentEngine.Proofs.Schema.Exact
import DocumentEngine.Proofs.Mutation.Stored
import DocumentEngine.Proofs.Engine.Frame
import DocumentEngine.Proofs.Engine.SetValues
import DocumentEngine.Proofs.Engine.Roots
import DocumentEngine.Proofs.Store.Clear
import DocumentEngine.Proofs.Operation.Parsing
import DocumentEngine.Proofs.Schema.RoundTrip
import DocumentEngine.Proofs.Filter.RoundTrip
import DocumentEngine.Proofs.Pipeline.Stages
import DocumentEngine.Proofs.Pipeline.Journal
