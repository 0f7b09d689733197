import Relay.Effect.Prog
import Relay.Effect.Pool
import Relay.Effect.Trace
import Relay.Effect.Lockstep
import Relay.Effect.Calls
import Relay.Dynamo.Table
import Relay.Sqs.Queue
import Relay.Sqs.Shelf
import Relay.Sqs.Tray
import Relay.Json.Number
import Relay.Json.Value
import Relay.Json.Scan
import Relay.Json.Steps
import Relay.Json.Print
import Relay.Json.RoundTrip
import Relay.Calendar.Date
import Relay.Calendar.DateTime
import Relay.Calendar.Order
import Relay.Python.Decimal
import Relay.Numeric.Binary64
import Relay.Numeric.Nearest
import Relay.Numeric.Shortest
import Relay.Python.Float
import Relay.Python.Value
import Relay.Python.Exceptions
import Relay.Python.Json
import Relay.Erp.Schema
import Relay.Salesforce.Org
import Relay.Salesforce.Soql
import Relay.Platform.Interface
import Relay.Erp.Writer
import Relay.Platform.World
import Relay.Erp.Ledger
import Relay.Erp.Tables
import Relay.Erp.Agreement
import Relay.Erp.Convergence
import Relay.Worker.Mapping
import Relay.Data.Checks
import Relay.Worker.Schema
import Relay.Python.Datetime
import Relay.Worker.Classify
import Relay.Worker.Backoff
import Relay.Erp.Verdict
import Relay.Worker.App
import Relay.Worker.Parts
import Relay.Worker.Script
import Relay.Worker.Unmappable
import Relay.Worker.PartialResponse
import Relay.Delivery.EventSource
import Relay.Relayctl.Dlq
import Relay.Relayctl.Desk
import Relay.Relayctl.Ack
import Relay.Relayctl.Redrive
import Relay.Relayctl.Receipts
import Relay.Relayctl.Stops
import Relay.Delivery.Accounting
import Relay.Delivery.Origins
import Relay.Delivery.NoLoss
import Relay.Delivery.Provenance
import Relay.Delivery.Triage
import Relay.Delivery.DefaultRedrive
import Relay.Salesforce.Datetime
import Relay.Salesforce.Stamp
import Relay.Salesforce.Client
import Relay.Events.Event
import Relay.Reconciler.Events
import Relay.Reconciler.Stamps
import Relay.Reconciler.Versions
import Relay.Events.Builders
import Relay.Events.Keys
import Relay.Data.Batches
import Relay.Reconciler.Salesforce
import Relay.Events.Shape
import Relay.Worker.Messages
import Relay.Events.Amounts
import Relay.Reconciler.Reconcile
import Relay.Reconciler.App
import Relay.Reconciler.Messages
import Relay.Reconciler.Comparison
import Relay.Reconciler.Repair
import Relay.Reconciler.Lookup
import Relay.Reconciler.Accusations
import Relay.Reconciler.Scan
import Relay.Reconciler.Classification
import Relay.Ingest.Publisher
import Relay.Ingest.Watermark
import Relay.Ingest.Poller
import Relay.Ingest.Sends
import Relay.Events.Depicts
import Relay.Ingest.NoSkip
import Relay.Ingest.Windows
import Relay.Ingest.Report
import Relay.Ingest.Confirmed
import Relay.Delivery.Mirror
import Relay.FakeSalesforce.Tokens
import Relay.FakeSalesforce.Soql
import Relay.FakeSalesforce.Lexemes
import Relay.FakeSalesforce.Print
import Relay.FakeSalesforce.Literals
import Relay.FakeSalesforce.RoundTrip
import Relay.FakeSalesforce.Queries
import Relay.Reconciler.StageQueries
import Relay.Data.StableSort
import Relay.FakeSalesforce.Store
import Relay.FakeSalesforce.Semantics
import Relay.Ingest.WindowQuery
import Relay.FakeSalesforce.Errors
import Relay.FakeSalesforce.Server
import Relay.FakeSalesforce.Cursors
import Relay.Salesforce.Pages
import Relay.FakeSalesforce.Paging
import Relay.Worker.Flags
import Relay.Delivery.Requests
import Relay.Effect.Joint
import Relay.Delivery.EndToEnd
import Relay.Delivery.Settled
import Relay.Delivery.Drain
import Relay.Delivery.CatchUp
import Relay.Delivery.SafetyNet
import Relay.Delivery.Bracket
import Relay.Data.Dict
import Relay.FakeSalesforce.Writes
import Relay.FakeSalesforce.Upkeep
import Relay.FakeSalesforce.Site
import Relay.FakeSalesforce.Deals
import Relay.FakeSalesforce.Answers
import Relay.FakeSalesforce.Edits
import Relay.Effect.Sum
import Relay.Ingest.Network
import Relay.Go.Strconv
import Relay.Relayctl.Stats
import Relay.Relayctl.Switches
import Relay.Delivery.Redelivery
