import RecordService.Bytes
import RecordService.Document.Basic
import RecordService.Document.Json.Number
import RecordService.Document.Json.Printer
import RecordService.Document.Json.Reader
import RecordService.Document.MessagePack.Printer
import RecordService.Document.MessagePack.Reader
import RecordService.Filter.Check
import RecordService.Filter.Expression
import RecordService.Filter.Token
import RecordService.Gateway.Answer
import RecordService.Gateway.Basic
import RecordService.Gateway.Error
import RecordService.Gateway.Scan
import RecordService.Hash.Sha256
import RecordService.Http.Handler
import RecordService.Http.Message
import RecordService.Http.Negotiation
import RecordService.Http.Parameters
import RecordService.Http.Route
import RecordService.Http.Wire
import RecordService.Main
import RecordService.Number.Decimal
import RecordService.Number.Double
import RecordService.Ordered
import RecordService.Payload.Body
import RecordService.Payload.Fault
import RecordService.Payload.Media
import RecordService.Payload.Operation
import RecordService.Payload.Shape
import RecordService.Payload.Value
import RecordService.Payload.Wire
import RecordService.Proofs.Bytes
import RecordService.Proofs.Document.Delimited
import RecordService.Proofs.Document.Json.Number
import RecordService.Proofs.Document.Json.Text
import RecordService.Proofs.Document.Json.Tree
import RecordService.Proofs.Document.MessagePack
import RecordService.Proofs.Except
import RecordService.Proofs.Filter.Check
import RecordService.Proofs.Filter.Comparison
import RecordService.Proofs.Filter.Delimited
import RecordService.Proofs.Filter.Token
import RecordService.Proofs.Filter.Typing
import RecordService.Proofs.Gateway.Creation
import RecordService.Proofs.Gateway.FilteredReads
import RecordService.Proofs.Gateway.NaN
import RecordService.Proofs.Gateway.Patch
import RecordService.Proofs.Gateway.Responses
import RecordService.Proofs.Gateway.Traceless
import RecordService.Proofs.Http.BothFormats
import RecordService.Proofs.Http.ClientErrors
import RecordService.Proofs.Http.Doubt
import RecordService.Proofs.Http.Failures
import RecordService.Proofs.Http.HeadAsGet
import RecordService.Proofs.Http.RecordPath
import RecordService.Proofs.Http.Relayed
import RecordService.Proofs.Http.Replies
import RecordService.Proofs.Job.Accounts
import RecordService.Proofs.Job.Addition
import RecordService.Proofs.Job.Endings
import RecordService.Proofs.Job.History
import RecordService.Proofs.Job.Log
import RecordService.Proofs.Job.Newcomers
import RecordService.Proofs.Job.Numbers
import RecordService.Proofs.Job.Operates
import RecordService.Proofs.Job.Pass
import RecordService.Proofs.Job.Refusal
import RecordService.Proofs.Job.Submission
import RecordService.Proofs.Job.Tally
import RecordService.Proofs.Ordered
import RecordService.Proofs.Payload.Delimited
import RecordService.Proofs.Payload.Relayable
import RecordService.Proofs.Payload.RequestBody
import RecordService.Proofs.Payload.ResponseBody
import RecordService.Proofs.Payload.RoundTrip
import RecordService.Proofs.Payload.Value
import RecordService.Proofs.Record.Digest
import RecordService.Proofs.Record.NaN
import RecordService.Proofs.Record.Path
import RecordService.Proofs.Scan.Chain
import RecordService.Proofs.Scan.Frozen
import RecordService.Proofs.Scan.Page
import RecordService.Proofs.Settings.Check
import RecordService.Proofs.Store.Cell
import RecordService.Proofs.Store.Doubt
import RecordService.Proofs.Store.Expiry
import RecordService.Proofs.Store.Filed
import RecordService.Proofs.Store.Generation
import RecordService.Proofs.Store.Metadata
import RecordService.Proofs.Store.Naming
import RecordService.Proofs.Store.Purge
import RecordService.Proofs.Store.ResumeToken
import RecordService.Proofs.Store.Run
import RecordService.Proofs.Store.Values
import RecordService.Proofs.Store.WellFormed
import RecordService.Proofs.Store.Write
import RecordService.Proofs.Task.Lifecycle
import RecordService.Proofs.Task.Outcome
import RecordService.Proofs.Task.Pass
import RecordService.Proofs.Task.Service
import RecordService.Proofs.Task.Slots
import RecordService.Proofs.Task.StatusReads
import RecordService.Proofs.Task.Steps
import RecordService.Proofs.Task.Sweep
import RecordService.Proofs.Task.Tracking
import RecordService.Proofs.Text.Base64
import RecordService.Proofs.Text.Percent
import RecordService.Proofs.Text.Whole
import RecordService.Proofs.Value
import RecordService.Record.Key
import RecordService.Record.Operation
import RecordService.Record.Path
import RecordService.Session
import RecordService.Settings.Basic
import RecordService.Settings.CommandLine
import RecordService.Settings.File
import RecordService.Store.Basic
import RecordService.Store.Cell
import RecordService.Store.Error
import RecordService.Store.Info
import RecordService.Store.Job
import RecordService.Store.Scan
import RecordService.Task.Id
import RecordService.Task.Registry
import RecordService.Task.Status
import RecordService.Text.Base64
import RecordService.Text.Blank
import RecordService.Text.Invisible
import RecordService.Text.Percent
import RecordService.Text.Quoted
import RecordService.Text.Utf8
import RecordService.Text.Whole
import RecordService.Time.Calendar
import RecordService.Toml.Read
import RecordService.Toml.Scalar
import RecordService.Toml.Scan
import RecordService.Toml.Tree
import RecordService.Value
