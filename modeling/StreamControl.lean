import StreamControl.Bytes
import StreamControl.Column
import StreamControl.Command.Filter
import StreamControl.Command.Options
import StreamControl.Command.Run
import StreamControl.Dispatch.Builder
import StreamControl.Dispatch.Command
import StreamControl.Dispatch.Config
import StreamControl.Dispatch.Event
import StreamControl.Dispatch.Processor
import StreamControl.Dispatch.Registry
import StreamControl.Dispatch.Report
import StreamControl.Dispatch.Sink
import StreamControl.Dispatch.Standard
import StreamControl.Dispatch.Step
import StreamControl.Dispatch.Validation
import StreamControl.Double.Basic
import StreamControl.Double.Rounding
import StreamControl.Double.Shortest
import StreamControl.Double.Text
import StreamControl.Failure
import StreamControl.Json.Fault
import StreamControl.Json.Number
import StreamControl.Json.Passing
import StreamControl.Json.Reader
import StreamControl.Json.Record
import StreamControl.Json.Scalar
import StreamControl.Json.Text
import StreamControl.Json.Text.ReadBack
import StreamControl.Main
import StreamControl.Message
import StreamControl.Operation
import StreamControl.Pattern.Basic
import StreamControl.Pattern.Mode
import StreamControl.Pattern.Set
import StreamControl.Pattern.Symbol
import StreamControl.Proofs.Command.Printing
import StreamControl.Proofs.Dispatch.Accounts
import StreamControl.Proofs.Dispatch.Alarms
import StreamControl.Proofs.Dispatch.Calls
import StreamControl.Proofs.Dispatch.Causes
import StreamControl.Proofs.Dispatch.Concatenation
import StreamControl.Proofs.Dispatch.Conduct
import StreamControl.Proofs.Dispatch.Decisions
import StreamControl.Proofs.Dispatch.Frontier
import StreamControl.Proofs.Dispatch.Guard
import StreamControl.Proofs.Dispatch.Invariants
import StreamControl.Proofs.Dispatch.Policies
import StreamControl.Proofs.Dispatch.Registrations
import StreamControl.Proofs.Dispatch.Runs
import StreamControl.Proofs.Dispatch.Sinks
import StreamControl.Proofs.Dispatch.Trails
import StreamControl.Proofs.Dispatch.Turns
import StreamControl.Proofs.Double.Rounding
import StreamControl.Proofs.Double.Shortest
import StreamControl.Proofs.Double.Values
import StreamControl.Proofs.Json.Members
import StreamControl.Proofs.Json.Numerals
import StreamControl.Proofs.Json.Reals
import StreamControl.Proofs.Json.Records
import StreamControl.Proofs.Json.Respelling
import StreamControl.Proofs.Json.Scaling
import StreamControl.Proofs.Json.Spellings
import StreamControl.Proofs.Json.Steady
import StreamControl.Proofs.Json.Tokens
import StreamControl.Proofs.Json.Values
import StreamControl.Proofs.Standard.Acknowledgments
import StreamControl.Proofs.Standard.Batches
import StreamControl.Proofs.Standard.Definitions
import StreamControl.Proofs.Standard.Insertions
import StreamControl.Proofs.Standard.Isolation
import StreamControl.Proofs.Standard.LetterCase
import StreamControl.Proofs.Standard.Lifecycles
import StreamControl.Proofs.Standard.Locality
import StreamControl.Proofs.Standard.Reach
import StreamControl.Proofs.Standard.Recording
import StreamControl.Proofs.Standard.Redelivery
import StreamControl.Proofs.Standard.Reordering
import StreamControl.Proofs.Standard.Reserved
import StreamControl.Proofs.Standard.Totals
import StreamControl.Proofs.Standard.Undoing
import StreamControl.Proofs.Standard.Verdicts
import StreamControl.Proofs.Standard.Wiring
import StreamControl.Proofs.Store.Histories
import StreamControl.Proofs.Store.Ledger
import StreamControl.Proofs.Store.Listing
import StreamControl.Proofs.Store.Paths
import StreamControl.Proofs.Streams.Histories
import StreamControl.Proofs.Streams.Payloads
import StreamControl.Proofs.Streams.Provenance
import StreamControl.Proofs.Wire.Batches
import StreamControl.Proofs.Wire.Columns
import StreamControl.Proofs.Wire.Documents
import StreamControl.Proofs.Wire.Doubles
import StreamControl.Proofs.Wire.Integers
import StreamControl.Proofs.Wire.ReadBack
import StreamControl.Proofs.Wire.Spellings
import StreamControl.Reply
import StreamControl.Schema
import StreamControl.Store.Acknowledgment
import StreamControl.Store.Basic
import StreamControl.Store.Path
import StreamControl.Streams.Basic
import StreamControl.Streams.Service
import StreamControl.Text.Alphanumeric
import StreamControl.Text.Blank
import StreamControl.Text.Quoted
import StreamControl.Text.Ranges
import StreamControl.Text.Unprintable
import StreamControl.Wire.Column
import StreamControl.Wire.Message
import StreamControl.Wire.Reply
import StreamControl.Wire.Schema
