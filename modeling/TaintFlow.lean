import TaintFlow.Agenda
import TaintFlow.Catalog
import TaintFlow.Chain.Basic
import TaintFlow.Chain.Concurrency
import TaintFlow.Chain.Execution
import TaintFlow.Chain.Reading
import TaintFlow.Chain.Result
import TaintFlow.Chain.StepKind
import TaintFlow.Chain.Validation
import TaintFlow.CommandLine.Basic
import TaintFlow.CommandLine.Files
import TaintFlow.CommandLine.Opening
import TaintFlow.CommandLine.Request
import TaintFlow.Corpus
import TaintFlow.Data.Assoc
import TaintFlow.Data.Enumeration
import TaintFlow.Data.Issue
import TaintFlow.Data.SortedSet
import TaintFlow.Environment
import TaintFlow.Fault
import TaintFlow.Folder.Basic
import TaintFlow.Harness.Basic
import TaintFlow.Harness.Storage
import TaintFlow.Json.Basic
import TaintFlow.Json.Reader
import TaintFlow.Label
import TaintFlow.Ledger
import TaintFlow.Logging.Correlation
import TaintFlow.Logging.Line
import TaintFlow.Main
import TaintFlow.Metric
import TaintFlow.Mishap
import TaintFlow.Moment
import TaintFlow.Moment.Layout
import TaintFlow.Notice
import TaintFlow.Number.Binary64
import TaintFlow.Number.Notation
import TaintFlow.Number.Reading
import TaintFlow.Payload.Basic
import TaintFlow.Payload.Equality
import TaintFlow.Payload.Reading
import TaintFlow.Payload.Shared
import TaintFlow.Payload.Show
import TaintFlow.Proofs.Agenda
import TaintFlow.Proofs.Catalog.Grammar
import TaintFlow.Proofs.Catalog.Registration
import TaintFlow.Proofs.Catalog.RoundTrip
import TaintFlow.Proofs.Chain.Depth
import TaintFlow.Proofs.Chain.Names
import TaintFlow.Proofs.CommandLine.Escape
import TaintFlow.Proofs.CommandLine.Opening
import TaintFlow.Proofs.CommandLine.Reporting
import TaintFlow.Proofs.CommandLine.Running
import TaintFlow.Proofs.Data.Assoc
import TaintFlow.Proofs.Data.Except
import TaintFlow.Proofs.Fanout.Calls
import TaintFlow.Proofs.Fanout.Outcome
import TaintFlow.Proofs.Folder
import TaintFlow.Proofs.Harness.Accounting
import TaintFlow.Proofs.Harness.Attempt
import TaintFlow.Proofs.Harness.Definitions
import TaintFlow.Proofs.Harness.Foretelling
import TaintFlow.Proofs.Harness.Many
import TaintFlow.Proofs.Harness.Operation
import TaintFlow.Proofs.Harness.Refusal
import TaintFlow.Proofs.Harness.Session
import TaintFlow.Proofs.Harness.StoreCalls
import TaintFlow.Proofs.Insertion.Likeness
import TaintFlow.Proofs.Insertion.Place
import TaintFlow.Proofs.Insertion.Stepping
import TaintFlow.Proofs.Insertion.Transparency
import TaintFlow.Proofs.Invocations.Concert
import TaintFlow.Proofs.Invocations.Counting
import TaintFlow.Proofs.Invocations.Order
import TaintFlow.Proofs.Invocations.Stretch
import TaintFlow.Proofs.Invocations.Together
import TaintFlow.Proofs.Invocations.Turn
import TaintFlow.Proofs.Isolation.Abreast
import TaintFlow.Proofs.Isolation.Alone
import TaintFlow.Proofs.Isolation.Interleaving
import TaintFlow.Proofs.Isolation.Together
import TaintFlow.Proofs.Isolation.View
import TaintFlow.Proofs.Json.Ascii
import TaintFlow.Proofs.Json.Fidelity
import TaintFlow.Proofs.Json.Number
import TaintFlow.Proofs.Json.Reread
import TaintFlow.Proofs.Json.Text
import TaintFlow.Proofs.Labels
import TaintFlow.Proofs.Ledger.Agreement
import TaintFlow.Proofs.Ledger.Record
import TaintFlow.Proofs.Lineage.Delivery
import TaintFlow.Proofs.Lineage.Drawing
import TaintFlow.Proofs.Lineage.Graph
import TaintFlow.Proofs.Logging.Line
import TaintFlow.Proofs.Logging.Nesting
import TaintFlow.Proofs.Number.Decimal
import TaintFlow.Proofs.Number.Digits
import TaintFlow.Proofs.Number.Notation
import TaintFlow.Proofs.Payload.Plain
import TaintFlow.Proofs.Payload.Reading
import TaintFlow.Proofs.Payload.Tidy
import TaintFlow.Proofs.Provenance.Independence
import TaintFlow.Proofs.Provenance.Likeness
import TaintFlow.Proofs.Provenance.Sketch
import TaintFlow.Proofs.Relay.Contract
import TaintFlow.Proofs.Relay.Engine
import TaintFlow.Proofs.Relay.Exact
import TaintFlow.Proofs.Relay.Grouping
import TaintFlow.Proofs.Relay.Interpolation
import TaintFlow.Proofs.Relay.Library
import TaintFlow.Proofs.Relay.Loss
import TaintFlow.Proofs.Relay.Recording
import TaintFlow.Proofs.Relay.RoundTrip
import TaintFlow.Proofs.Relay.Sending
import TaintFlow.Proofs.Relay.Wire
import TaintFlow.Proofs.Run.Account
import TaintFlow.Proofs.Run.Application
import TaintFlow.Proofs.Run.Course
import TaintFlow.Proofs.Run.Coverage
import TaintFlow.Proofs.Run.Crossing
import TaintFlow.Proofs.Run.Deed
import TaintFlow.Proofs.Run.Delivery
import TaintFlow.Proofs.Run.Depth
import TaintFlow.Proofs.Run.Edits
import TaintFlow.Proofs.Run.Effect
import TaintFlow.Proofs.Run.Ending
import TaintFlow.Proofs.Run.Handlers
import TaintFlow.Proofs.Run.Hearing
import TaintFlow.Proofs.Run.Ideal
import TaintFlow.Proofs.Run.Journal
import TaintFlow.Proofs.Run.Loop
import TaintFlow.Proofs.Run.Move
import TaintFlow.Proofs.Run.Progress
import TaintFlow.Proofs.Run.Raising
import TaintFlow.Proofs.Run.Reading
import TaintFlow.Proofs.Run.Recasting
import TaintFlow.Proofs.Run.Trace
import TaintFlow.Proofs.Run.Transparency
import TaintFlow.Proofs.Run.Turn
import TaintFlow.Proofs.Run.Turns
import TaintFlow.Proofs.Run.Validity
import TaintFlow.Proofs.Run.Verification
import TaintFlow.Proofs.Settings.Agreement
import TaintFlow.Proofs.Settings.Escape
import TaintFlow.Proofs.Settings.Layers
import TaintFlow.Proofs.Settings.Override
import TaintFlow.Proofs.Store.History
import TaintFlow.Proofs.Store.Slots
import TaintFlow.Proofs.Summary
import TaintFlow.Proofs.Text.Case
import TaintFlow.Proofs.Text.Encoding
import TaintFlow.Proofs.Timeouts
import TaintFlow.Proofs.World
import TaintFlow.Proofs.Yaml.Nodes
import TaintFlow.Proofs.Yaml.Reading
import TaintFlow.Proofs.Yaml.Refusal
import TaintFlow.Registry.Capability
import TaintFlow.Registry.Sink
import TaintFlow.Registry.Source
import TaintFlow.Relay.Boundary
import TaintFlow.Relay.Builtin
import TaintFlow.Relay.Engine
import TaintFlow.Relay.Operator
import TaintFlow.Relay.Wire
import TaintFlow.Settings
import TaintFlow.SinkCategory
import TaintFlow.Store.Basic
import TaintFlow.Template.Fault
import TaintFlow.Template.Field
import TaintFlow.Template.Fill
import TaintFlow.Template.Percent
import TaintFlow.Template.Spec
import TaintFlow.Template.Subject
import TaintFlow.Text.Base64
import TaintFlow.Text.Blank
import TaintFlow.Text.Case
import TaintFlow.Text.CodePoints
import TaintFlow.Text.Quoted
import TaintFlow.Text.Utf8
import TaintFlow.Tracing
import TaintFlow.Value
import TaintFlow.Wait
import TaintFlow.World
import TaintFlow.Yaml.Cursor
import TaintFlow.Yaml.Document
import TaintFlow.Yaml.Failure
import TaintFlow.Yaml.Node
import TaintFlow.Yaml.Scalar.Conversion
import TaintFlow.Yaml.Scalar.Pattern
import TaintFlow.Yaml.Scalar.Time
import TaintFlow.Yaml.Token
import TaintFlow.Yaml.Token.Lexer
import TaintFlow.Yaml.Token.Mark
import TaintFlow.Yaml.Token.Scalar
