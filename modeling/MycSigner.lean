import MycSigner.Lib.Transaction
import MycSigner.Lib.Table
import MycSigner.Lib.Traverse
import MycSigner.Lib.Sha256
import MycSigner.Base
import MycSigner.Store
import MycSigner.Delivery.Tables
import MycSigner.Delivery.Operations
import MycSigner.Delivery.Invariant
import MycSigner.Delivery.Steps
import MycSigner.Delivery.Preservation
import MycSigner.Delivery.Refinement
import MycSigner.Lib.Run
import MycSigner.Delivery.Runs
import MycSigner.Delivery.Evidence
import MycSigner.Delivery.Representation
import MycSigner.Lib.History
import MycSigner.Delivery.History
import MycSigner.Delivery.Finalization
import MycSigner.Delivery.Progress
import MycSigner.Delivery.Creation
import MycSigner.Configuration
import MycSigner.Requests
import MycSigner.Governance
import MycSigner.Connections.Tables
import MycSigner.Connections.Operations
import MycSigner.Events
import MycSigner.Completion
import MycSigner.Responses
import MycSigner.Discovery
import MycSigner.Recovery
import MycSigner.ConfigurationApply
import MycSigner.System
import MycSigner.Lib.Process
import MycSigner.Sessions.Frames
import MycSigner.Sessions.Steps
import MycSigner.Sessions.Refinement
import MycSigner.Sessions.Invariant
import MycSigner.Sessions.SoleSession
import MycSigner.Sessions.Ceiling
import MycSigner.Sessions.Revocation
import MycSigner.Sessions.Challenges
import MycSigner.Sessions.Decisions
import MycSigner.Sessions.Readable
import MycSigner.Sessions.Lifecycle
import MycSigner.Dispatch.Work
import MycSigner.Configuration.Document
import MycSigner.Configuration.Policies
import MycSigner.Dispatch.Redelivery
import MycSigner.Dispatch.Denial
import MycSigner.Dispatch.Expiry
import MycSigner.Dispatch.Coordinator
import MycSigner.Dispatch.Failures
import MycSigner.Dispatch.Poison
import MycSigner.Dispatch.Operators
import MycSigner.Configuration.Agreement
import MycSigner.Dispatch.Authorization
import MycSigner.Sessions.Resolution
import MycSigner.Dispatch.Boundary
import MycSigner.Outbox.Frames
import MycSigner.Configuration.Publication
import MycSigner.Dispatch.Verification
import MycSigner.Configuration.Endpoint
import MycSigner.Outbox.Loop
import MycSigner.Lib.Machine
import MycSigner.Outbox.Leases
import MycSigner.Outbox.Recovered
import MycSigner.Outbox.Idle
import MycSigner.Outbox.Backoff
import MycSigner.Outbox.Workers
import MycSigner.Outbox.Moves
import MycSigner.Outbox.Promotion
import MycSigner.Lib.Ignores
import MycSigner.Outbox.Reconfiguration
import MycSigner.Outbox.Applied
import MycSigner.Outbox.Selection
import MycSigner.Outbox.Pages
import MycSigner.Outbox.Generations
import MycSigner.Outbox.Refresh
import MycSigner.Outbox.Related
import MycSigner.Outbox.Recovering
import MycSigner.Outbox.Batches
import MycSigner.Encoding
import MycSigner.Requests.Deduplication
import MycSigner.Requests.Admissions
import MycSigner.Configuration.History
import MycSigner.Admin.Journal
import MycSigner.Admin.Invariant
import MycSigner.Admin.Runs
import MycSigner.Admin.Idempotency
import MycSigner.Admin.Capacity
import MycSigner.Outbox.Service
import MycSigner.Responses.Atomicity
import MycSigner.Providers.Executor
import MycSigner.Lib.Window
import MycSigner.Governance.Windows
import MycSigner.Governance.Attempts
import MycSigner.Governance.Audit
import MycSigner.Governance.Limits
import MycSigner.Governance.Reachable
import MycSigner.Governance.Invariant
import MycSigner.Governance.Compaction
import MycSigner.Governance.Healing
import MycSigner.Governance.Refusals
import MycSigner.Governance.Retention
import MycSigner.Admission.JsonString
import MycSigner.Admission.Bounds
import MycSigner.Lib.Search
import MycSigner.Connections.Permissions
import MycSigner.Providers.Binding
import MycSigner.Providers.Ciphertext
import MycSigner.Providers.WrappedKey
import MycSigner.Lib.Keyset
import MycSigner.Admin.Cursors
import MycSigner.Governance.AuditPages
import MycSigner.Admin.ConnectionPages
