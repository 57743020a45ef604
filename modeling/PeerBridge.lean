import PeerBridge.Lib.Checked
import PeerBridge.Lib.Rows
import PeerBridge.Lib.Machine
import PeerBridge.Lib.Lease
import PeerBridge.Lib.Chain
import PeerBridge.Lib.JsonText
import PeerBridge.Lib.Frontier
import PeerBridge.Text
import PeerBridge.Store
import PeerBridge.Audit
import PeerBridge.Routes
import PeerBridge.Rooms
import PeerBridge.Messages
import PeerBridge.Dispatch
import PeerBridge.Completion
import PeerBridge.Discussion
import PeerBridge.Reconcile
import PeerBridge.Supervisor
import PeerBridge.Canonical
import PeerBridge.Opening
import PeerBridge.Mailbox
import PeerBridge.Scenario
import PeerBridge.Leases
import PeerBridge.ExactlyOnce
import PeerBridge.Invariants
import PeerBridge.Preservation
import PeerBridge.Effects
import PeerBridge.Progress
import PeerBridge.Fencing
import PeerBridge.Triggers
import PeerBridge.Budget
import PeerBridge.AuditChain
import PeerBridge.Writes
import PeerBridge.Cursors
import PeerBridge.Storage
import PeerBridge.Operations
import PeerBridge.Guided
import PeerBridge.ControlRoom
import PeerBridge.Transitions
import PeerBridge.QueueSafety
import PeerBridge.GuidedCleanup
import PeerBridge.Closing
import PeerBridge.Routing
import PeerBridge.Gateway
import PeerBridge.Idempotency
import PeerBridge.Evidence
import PeerBridge.Provenance
import PeerBridge.Lib.Tenure
import PeerBridge.Support.Notification
import PeerBridge.Support.NotificationClaims
import PeerBridge.Support.FeedbackCases
import PeerBridge.Support.FeedbackStorage
import PeerBridge.Support.ClientImages
import PeerBridge.Support.WorkerImages
import PeerBridge.Sessions.Registry
import PeerBridge.Sessions.Runs
import PeerBridge.Sessions.Exclusion
import PeerBridge.Lib.Window
import PeerBridge.Sessions.Retention
import PeerBridge.Governance.SingleUse
import PeerBridge.Support.RelayDelivery
import PeerBridge.Lib.JsonAscii
import PeerBridge.Imports.Export
import PeerBridge.Imports.Records
import PeerBridge.Imports.Store
import PeerBridge.Imports.Readable
import PeerBridge.UsageTotals
import PeerBridge.Lib.Blind
import PeerBridge.Imports.Hidden
import PeerBridge.OneDiscussion
import PeerBridge.Seats
import PeerBridge.Lib.Components
import PeerBridge.Tasks.Paths
import PeerBridge.Tasks.Review
import PeerBridge.Tasks.Proof
import PeerBridge.Tasks.Board
import PeerBridge.Tasks.Exclusion
import PeerBridge.Tasks.Gate
import PeerBridge.Tasks.Approval
import PeerBridge.Tasks.SelfApproval
import PeerBridge.Tasks.Drift
import PeerBridge.Tasks.Vouching
import PeerBridge.Lib.History
import PeerBridge.Approvals.OnceOnly
import PeerBridge.Schedules.Timetable
import PeerBridge.Schedules.Materialization
import PeerBridge.Schedules.Runs
import PeerBridge.Schedules.Poisoned
import PeerBridge.Starvation
import PeerBridge.Flood
import PeerBridge.Lib.Acyclic
import PeerBridge.Memories.Records
import PeerBridge.Memories.Runs
import PeerBridge.Memories.Binding
import PeerBridge.Memories.Queries
import PeerBridge.Memories.Listing
import PeerBridge.Memories.Supersession
import PeerBridge.Context.Snapshot
import PeerBridge.Context.Spending
import PeerBridge.Context.Isolation
import PeerBridge.Lib.Attempt
import PeerBridge.Runner.Tools
import PeerBridge.Runner.Loop
import PeerBridge.Runner.Ledger
import PeerBridge.Runner.Budgets
import PeerBridge.Runner.Accounting
import PeerBridge.Continuity.HighWater
import PeerBridge.Support.RelayRefusals
import PeerBridge.Memories.Briefing
import PeerBridge.Lib.Frames
import PeerBridge.Governance.GitSource
import PeerBridge.Lib.Tiling
import PeerBridge.Support.ZipBundle
import PeerBridge.Support.ZipTiling
import PeerBridge.Trust.Timeline
import PeerBridge.Trust.Completion
import PeerBridge.Trust.Readable
import PeerBridge.Lib.JsonDocument
import PeerBridge.Lib.JsonLayout
import PeerBridge.Continuity.Capture
import PeerBridge.Continuity.Preserved
import PeerBridge.Lib.Lines
import PeerBridge.Server.Frames
import PeerBridge.Lib.Paging
import PeerBridge.Permanence
import PeerBridge.Inbox
import PeerBridge.Lib.Throttle
import PeerBridge.Server.Session
import PeerBridge.EventEnvelopes
import PeerBridge.Memories.Lifetime
