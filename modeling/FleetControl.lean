import FleetControl.Word
import FleetControl.KeyMap
import FleetControl.Text.Quoted
import FleetControl.Text.Utf8
import FleetControl.Instant.Text
import FleetControl.Json.Parser
import FleetControl.Json.Printer
import FleetControl.Json.Reader
import FleetControl.Digest
import FleetControl.Cron
import FleetControl.Workflow.Validation
import FleetControl.Plan
import FleetControl.Status
import FleetControl.Placement
import FleetControl.Store.Memory
import FleetControl.Store.Table
import FleetControl.Reconcile.Report
import FleetControl.Controller.Backoff
import FleetControl.Repository
import FleetControl.Cache.Sweep
import FleetControl.Informer.Pass
import FleetControl.Controller.Loop
import FleetControl.Reconcile.Callbacks
import FleetControl.Simulation.Act
import FleetControl.Simulation.Arena
import FleetControl.Simulation.Agents
import FleetControl.Simulation.Handlers
import FleetControl.Simulation.Script
import FleetControl.Simulation.Machine
import FleetControl.ControlPlane.Settings
import FleetControl.Simulation.Directory
import FleetControl.Simulation.Planes
import FleetControl.Simulation.Storage
import FleetControl.Proofs.Instant.Calendar
import FleetControl.Proofs.Instant.Text
import FleetControl.Proofs.Text.Digits
import FleetControl.Proofs.Text.Utf8
import FleetControl.Proofs.Json.RoundTrip
import FleetControl.Proofs.Json.Reader
import FleetControl.Proofs.KeyMap
import FleetControl.Proofs.Workflow.Codec
import FleetControl.Proofs.Workflow.Fingerprint
import FleetControl.Proofs.Workflow.Resolved
import FleetControl.Proofs.Workflow.Manifest
import FleetControl.Proofs.Workflow.Cycles
import FleetControl.Proofs.Workflow.WellFormed
import FleetControl.Proofs.Status
import FleetControl.Proofs.Plan
import FleetControl.Proofs.Store.Memory
import FleetControl.Proofs.Store.Scan
import FleetControl.Proofs.Store.Agreement
import FleetControl.Proofs.Store.Histories
import FleetControl.Proofs.Site.Basic
import FleetControl.Proofs.Interleaving
import FleetControl.Proofs.Site.Status
import FleetControl.Proofs.Site.Host
import FleetControl.Proofs.Reconcile.Attempt
import FleetControl.Proofs.Reconcile.Pass
import FleetControl.Proofs.Reconcile.Retry
import FleetControl.Proofs.Fleet.Basic
import FleetControl.Proofs.Reconcile.Fixpoint
import FleetControl.Proofs.Site.Documents
import FleetControl.Proofs.Reconcile.Trials
import FleetControl.Proofs.Reconcile.Folding
import FleetControl.Proofs.Asked
import FleetControl.Proofs.Reconcile.Duties
import FleetControl.Proofs.Fleet.Dispatch
import FleetControl.Proofs.Fleet.Told
import FleetControl.Proofs.Fleet.Accounts
import FleetControl.Proofs.Fleet.Calls
import FleetControl.Proofs.Fleet.Drift
import FleetControl.Proofs.Fleet.Claims
import FleetControl.Proofs.Fleet.Stepwise
import FleetControl.Proofs.Fleet.Record
import FleetControl.Proofs.Fleet.Overlap
import FleetControl.Proofs.Fleet.Overtaken
import FleetControl.Proofs.Station.Basic
import FleetControl.Proofs.Station.Turn
import FleetControl.Proofs.Station.Teardown
import FleetControl.Proofs.Store.Reads
import FleetControl.Proofs.Store.Outcomes
import FleetControl.Proofs.Repository
import FleetControl.Proofs.Store.Revision
import FleetControl.Proofs.Store.Ledger
import FleetControl.Proofs.Store.Lifetimes
import FleetControl.Proofs.Lookout.Basic
import FleetControl.Proofs.Lookout.Chronicle
import FleetControl.Proofs.Lookout.Truth
import FleetControl.Proofs.Lookout.Confined
import FleetControl.Proofs.Lookout.Sharing
import FleetControl.Proofs.Controller.Lifecycle
import FleetControl.Proofs.Simulation.Alone
import FleetControl.Proofs.Simulation.Rounds
import FleetControl.Proofs.Simulation.History
import FleetControl.Proofs.Simulation.Steady
import FleetControl.Proofs.Simulation.Courses
import FleetControl.Proofs.Simulation.Watches
import FleetControl.Proofs.Simulation.Registrations
import FleetControl.Proofs.Reconcile.Apart
import FleetControl.Proofs.Plan.Difference
import FleetControl.Proofs.Exchanges
import FleetControl.Proofs.Scheduler.Course
import FleetControl.Proofs.Scheduler.Executor
import FleetControl.Proofs.Reconcile.Courses
import FleetControl.Proofs.Reconcile.Unanswered
import FleetControl.Proofs.Reconcile.Removals
import FleetControl.Proofs.Reconcile.Orphans
import FleetControl.Proofs.Controller.Stopping
import FleetControl.Proofs.Controller.Waits
import FleetControl.Proofs.Controller.Sweeps
import FleetControl.Proofs.Placement
import FleetControl.Proofs.Scheduler.Routing
import FleetControl.Proofs.Store.Expiry
import FleetControl.Proofs.Lookout.Nesting
import FleetControl.Proofs.Simulation.Polling
import FleetControl.Proofs.Reconcile.Inputs
import FleetControl.Proofs.Controller.Delays
import FleetControl.Proofs.Workflow.Downstream
import FleetControl.Proofs.Scheduler.Documents
import FleetControl.Proofs.Store.Unnoticed
import FleetControl.Proofs.Text.ByteOrder
import FleetControl.Proofs.Simulation.Watchers
import FleetControl.Proofs.Simulation.Bystanders
