import Backlog.Assessment
import Backlog.Batch
import Backlog.Cli.Arguments
import Backlog.Cli.Invocation
import Backlog.Cli.Report
import Backlog.Cli.Run
import Backlog.Cli.Session
import Backlog.Coordinator.ActiveSet
import Backlog.Coordinator.Command
import Backlog.Coordinator.Error
import Backlog.Coordinator.Rehearsal
import Backlog.Coordinator.Request
import Backlog.Coordinator.Serve
import Backlog.Description
import Backlog.Dict
import Backlog.Host.Call
import Backlog.Host.Files
import Backlog.Host.Machine
import Backlog.Host.Path
import Backlog.Item.Basic
import Backlog.Item.Change
import Backlog.Item.Field
import Backlog.Item.Stored
import Backlog.Item.Update
import Backlog.Json.Double
import Backlog.Json.Raw
import Backlog.Json.Record
import Backlog.Json.Value
import Backlog.Merge.Cycle
import Backlog.Merge.Items
import Backlog.Outcome
import Backlog.Pipeline
import Backlog.Progress
import Backlog.Project
import Backlog.Proofs.ActiveSet
import Backlog.Proofs.Cli.InFlight
import Backlog.Proofs.Coordinator.Accounts
import Backlog.Proofs.Coordinator.Answers
import Backlog.Proofs.Coordinator.Applied
import Backlog.Proofs.Coordinator.Artifacts
import Backlog.Proofs.Coordinator.Attempts
import Backlog.Proofs.Coordinator.Commands
import Backlog.Proofs.Coordinator.Commits
import Backlog.Proofs.Coordinator.Conservation
import Backlog.Proofs.Coordinator.Deeds
import Backlog.Proofs.Coordinator.Failure
import Backlog.Proofs.Coordinator.Frame
import Backlog.Proofs.Coordinator.Halting
import Backlog.Proofs.Coordinator.History
import Backlog.Proofs.Coordinator.Ingestion
import Backlog.Proofs.Coordinator.Interference
import Backlog.Proofs.Coordinator.Ledger
import Backlog.Proofs.Coordinator.Lone
import Backlog.Proofs.Coordinator.Mailbox
import Backlog.Proofs.Coordinator.OneItem
import Backlog.Proofs.Coordinator.Orderly
import Backlog.Proofs.Coordinator.Rehearsed
import Backlog.Proofs.Coordinator.Retries
import Backlog.Proofs.Coordinator.Rollback
import Backlog.Proofs.Coordinator.Route
import Backlog.Proofs.Coordinator.Saves
import Backlog.Proofs.Coordinator.Section
import Backlog.Proofs.Coordinator.SelfReference
import Backlog.Proofs.Coordinator.Staging
import Backlog.Proofs.Coordinator.Stamped
import Backlog.Proofs.Coordinator.StatusTable
import Backlog.Proofs.Coordinator.Transaction
import Backlog.Proofs.Coordinator.Turns
import Backlog.Proofs.Coordinator.Unblocking
import Backlog.Proofs.Coordinator.Working
import Backlog.Proofs.Dict
import Backlog.Proofs.Host.Files
import Backlog.Proofs.Host.Folders
import Backlog.Proofs.Item.Consistent
import Backlog.Proofs.Item.Course
import Backlog.Proofs.Item.Entries
import Backlog.Proofs.Item.Identity
import Backlog.Proofs.Item.InStep
import Backlog.Proofs.Item.Lenses
import Backlog.Proofs.Item.Lives
import Backlog.Proofs.Item.Moments
import Backlog.Proofs.Item.Moves
import Backlog.Proofs.Item.Readers
import Backlog.Proofs.Item.Refusals
import Backlog.Proofs.Item.Standing
import Backlog.Proofs.Item.Stored
import Backlog.Proofs.Item.Writes
import Backlog.Proofs.Json.Sorted
import Backlog.Proofs.Json.Written
import Backlog.Proofs.Merge.Descent
import Backlog.Proofs.Merge.Graph
import Backlog.Proofs.Merge.Order
import Backlog.Proofs.Merge.Result
import Backlog.Proofs.Merge.Search
import Backlog.Proofs.Merge.Waiting
import Backlog.Proofs.Pipeline.Validated
import Backlog.Proofs.Schedule.Accounting
import Backlog.Proofs.Schedule.Agreement
import Backlog.Proofs.Schedule.Order
import Backlog.Proofs.Schedule.Plans
import Backlog.Proofs.Schedule.Retirement
import Backlog.Proofs.Schedule.Safety
import Backlog.Proofs.Schedule.Slots
import Backlog.Proofs.Script.Ensures
import Backlog.Proofs.Script.Paths
import Backlog.Proofs.Store.Contents
import Backlog.Proofs.Store.Folder
import Backlog.Proofs.Store.FreshIds
import Backlog.Proofs.Store.Numbers
import Backlog.Proofs.Store.Shared
import Backlog.Proofs.Store.Texts
import Backlog.Proofs.Text.Digits
import Backlog.Proofs.Text.Rows
import Backlog.Proofs.Time.Stamps
import Backlog.Proofs.Tracker.Repository
import Backlog.Schedule.Action
import Backlog.Schedule.Tick
import Backlog.Script
import Backlog.Settings
import Backlog.Status
import Backlog.Store.Error
import Backlog.Store.Folder
import Backlog.Store.Id
import Backlog.Store.Snapshot
import Backlog.Text.Blank
import Backlog.Text.Digits
import Backlog.Text.Word
import Backlog.Time.Calendar
import Backlog.Time.Stamp
import Backlog.Toml.Document
import Backlog.Toml.Scalar
import Backlog.Toml.Text
import Backlog.Toml.Value
import Backlog.Main
