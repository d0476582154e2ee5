import MycSigner.Base
import MycSigner.Lib.Table

/-!
# The persisted tables

One structure per table of the state catalogue, with the columns in the catalogue's order.
A text column with a closed vocabulary is an inductive type, so a spelling outside the
vocabulary cannot be stored; a time column holds a valid time.  Row constraints that relate
columns are predicates next to the operations that insert or update the row.
-/

namespace MycSigner

/-! ## NIP-46 requests -/

/-- Exact supported NIP-46 method identity. -/
inductive Method where
  | connect
  | getPublicKey
  | getSessionCapability
  | signEvent
  | nip04Encrypt
  | nip04Decrypt
  | nip44Encrypt
  | nip44Decrypt
  | ping
  | switchRelays
  | logout
deriving DecidableEq

/-- `nip46_requests` -/
structure RequestRow where
  operationId : Id32
  correlationId : Id32
  operationNonce : Id32
  requestIdentitySha256 : Id32
  clientPublicKey : PublicKey
  requestId : RequestId
  firstEventId : Id32
  method : Method
  requestSha256 : Id32
  receivedAt : TimeUnixMs
deriving DecidableEq

inductive DedupKind where
  | request
  | event
deriving DecidableEq

/-- `nip46_request_dedup` -/
structure DedupRow where
  dedupKind : DedupKind
  identitySha256 : Id32
  requestSha256 : Id32
  operationId : Id32
  replayCount : ℕ
  conflictCount : ℕ
  firstSeenAt : TimeUnixMs
  lastSeenAt : TimeUnixMs
deriving DecidableEq

/-! ## Connections -/

/-- One closed connection permission. -/
inductive Permission where
  | getPublicKey
  | getSessionCapability
  | signEvent (kind : UInt32)
  | nip04Encrypt
  | nip04Decrypt
  | nip44Encrypt
  | nip44Decrypt
  | ping
  | switchRelays
  | logout
deriving DecidableEq

inductive ConnectionStatus where
  | pending
  | active
  | denied
  | expired
deriving DecidableEq

/-- `connections` -/
structure ConnectionRow where
  connectionId : Id32
  connectionNonce : Id32
  clientPublicKey : PublicKey
  requestedPermissionsSha256 : Id32
  policyGeneration : PolicyGeneration
  status : ConnectionStatus
  createdAt : TimeUnixMs
  updatedAt : TimeUnixMs
  authorizedUntil : Option TimeUnixMs
deriving DecidableEq

inductive PermissionScope where
  | requested
  | granted
deriving DecidableEq

/-- `connection_permissions` -/
structure PermissionRow where
  connectionId : Id32
  permissionScope : PermissionScope
  permission : Permission
deriving DecidableEq

inductive Decision where
  | pendingApproval
  | challenged
  | allowed
  | denied
deriving DecidableEq

/-- The reason codes of a request decision. -/
inductive DecisionReason where
  | explicitApprovalRequired
  | trustedClient
  | policyDenied
  | operatorApproved
  | operatorDenied
  | authorizationChallengeRequired
  | authorizationChallengeAuthorized
  | authorizationChallengeExpired
deriving DecidableEq

/-- `nip46_request_decisions` -/
structure DecisionRow where
  operationId : Id32
  connectionId : Option Id32
  decision : Decision
  reasonCode : DecisionReason
  policyGeneration : PolicyGeneration
  requestedPermissionsSha256 : Id32
  challengeId : Option Id32
  decidedAt : TimeUnixMs
deriving DecidableEq

inductive ChallengeState where
  | pending
  | authorized
  | expired
deriving DecidableEq

/-- `connection_auth_challenges` -/
structure ChallengeRow where
  challengeId : Id32
  challengeNonce : Id32
  connectionId : Id32
  operationId : Id32
  policyGeneration : PolicyGeneration
  challengeUrl : ChallengeUrl
  state : ChallengeState
  issuedAt : TimeUnixMs
  expiresAt : TimeUnixMs
  resolvedAt : Option TimeUnixMs
deriving DecidableEq

/-! ## Governance -/

inductive AuditKind where
  | connectionAdmission
  | connectionOperatorDecision
  | connectionExpiry
  | challengeCreation
  | challengeAuthorization
  | governanceCompaction
deriving DecidableEq

inductive AuditOutcome where
  | succeeded
  | rejected
  | failed
deriving DecidableEq

inductive AuditReason where
  | trusted
  | approvalRequired
  | policyDenied
  | operatorApproved
  | operatorDenied
  | connectionExpired
  | challengeRequired
  | challengeAuthorized
  | challengeExpired
  | rateLimited
  | compacted
deriving DecidableEq

/-- `operation_audit` -/
structure AuditRow where
  auditSequence : ℕ
  auditId : Id32
  correlationId : Id32
  auditKind : AuditKind
  outcome : AuditOutcome
  reasonCode : AuditReason
  occurredAt : TimeUnixMs
deriving DecidableEq

/-- `nip46_request_audit` -/
structure RequestAuditRow where
  operationId : Id32
  auditKind : AuditKind
  auditSequence : ℕ
deriving DecidableEq

inductive RateLimitClass where
  | connectionAdmission
  | challengeCreation
  | challengeAuthorization
deriving DecidableEq

inductive SubjectScope where
  | global
  | relay
  | connection
deriving DecidableEq

/-- `connection_rate_windows` -/
structure RateWindowRow where
  rateKind : RateLimitClass
  subjectScope : SubjectScope
  subjectSha256 : Id32
  windowStartedAt : ℕ
  windowEndsAt : ℕ
  acceptedCount : ℕ
  rejectedCount : ℕ
  lifetimeAcceptedCount : ℕ
  lifetimeRejectedCount : ℕ
  lastObservedAt : ℕ
  retentionExpiresAt : ℕ
deriving DecidableEq

/-! ## Completions and responses -/

inductive SessionEffect where
  | none
  | connectionAdmitted
  | connectionRevoked
deriving DecidableEq

inductive CommitReason where
  | completed
  | connectionAdmitted
  | connectionDenied
  | sessionRevoked
deriving DecidableEq

/-- `nip46_operation_commits`; the artifact kind is `signed_event` exactly when the artifact
is present. -/
structure CommitRow where
  operationId : Id32
  correlationId : Id32
  method : Method
  connectionId : Option Id32
  sessionEffect : SessionEffect
  providerOperationId : Option Id32
  artifactSha256 : Option Id32
  artifact : Option Bytes
  reasonCode : CommitReason
  completedAt : TimeUnixMs
deriving DecidableEq

/-- `nip46_signed_responses` -/
structure SignedResponseRow where
  operationId : Id32
  responseProviderOperationId : Id32
  responseEventId : Id32
  responseSha256 : Id32
  responseBytes : Bytes
  authoredAtUnixS : ℕ
  committedAt : TimeUnixMs
deriving DecidableEq

/-- `nip46_pending_responses`; the response kind is always `pending_approval`. -/
structure PendingResponseRow where
  operationId : Id32
  connectionId : Id32
  responseProviderOperationId : Id32
  responseEventId : Id32
  responseSha256 : Id32
  responseBytes : Bytes
  authoredAtUnixS : ℕ
  committedAt : TimeUnixMs
deriving DecidableEq

/-! ## Delivery -/

/-- Closed authority that produced the exact bytes retained by a delivery job. -/
inductive SourceKind where
  | signerResponse
  | discoveryHandler
deriving DecidableEq

inductive PolicyMode where
  | atLeastOneRequired
  | allRequired
  | requiredQuorum
deriving DecidableEq

inductive JobStatus where
  | pending
  | active
  | delivered
  | failed
  | unknown
deriving DecidableEq

inductive TargetStatus where
  | pending
  | leased
  | submitted
  | delivered
  | retryable
  | unknown
  | exhausted
deriving DecidableEq

/-- Durable attempt state; `unknown` is distinct from proof of failure. -/
inductive AttemptStatus where
  | leased
  | submitted
  | delivered
  | failed
  | unknown
deriving DecidableEq

inductive AttemptReason where
  | accepted
  | relayRejected
  | transportFailed
  | leaseExpiredBeforeSubmit
  | acknowledgementLost
deriving DecidableEq

/-- `delivery_jobs` -/
structure JobRow where
  jobId : Id32
  sourceKind : SourceKind
  sourceId : Id32
  artifactSha256 : Id32
  policyMode : PolicyMode
  requiredAcknowledgements : ℕ
  maxAttempts : ℕ
  initialBackoffMs : ℕ
  maximumBackoffMs : ℕ
  attemptDeadlineMs : ℕ
  status : JobStatus
  createdAt : TimeUnixMs
  updatedAt : TimeUnixMs
  finalizedAt : Option TimeUnixMs
deriving DecidableEq

/-- `delivery_targets` -/
structure TargetRow where
  jobId : Id32
  targetIndex : ℕ
  relayId : RelayId
  required : Bool
  attemptCount : ℕ
  status : TargetStatus
  activeAttemptId : Option Id32
  nextAttemptAt : Option TimeUnixMs
  updatedAt : TimeUnixMs
deriving DecidableEq

/-- `delivery_attempts` -/
structure AttemptRow where
  attemptId : Id32
  jobId : Id32
  targetIndex : ℕ
  attemptNumber : ℕ
  attemptNonce : Id32
  status : AttemptStatus
  leasedAt : TimeUnixMs
  leaseExpiresAt : TimeUnixMs
  submittedAt : Option TimeUnixMs
  resolvedAt : Option TimeUnixMs
  reasonCode : Option AttemptReason
deriving DecidableEq

/-! ## Discovery -/

/-- `discovery_desired_state` -/
structure DesiredRow where
  generationId : Id32
  normalizedConfigSha256 : Id32
  desiredSha256 : Id32
  createdAt : TimeUnixMs
deriving DecidableEq

/-- `discovery_documents` -/
structure DocumentRow where
  generationId : Id32
  eventId : Id32
  eventSha256 : Id32
  eventBytes : Bytes
  nip05ProjectionSha256 : Id32
  nip05ProjectionBytes : Bytes
deriving DecidableEq

/-- `discovery_publication_state`, a singleton. -/
structure PublicationStateRow where
  desiredGenerationId : Id32
  desiredJobId : Id32
  currentGenerationId : Option Id32
  currentJobId : Option Id32
  updatedAt : TimeUnixMs
deriving DecidableEq

/-! ## Configuration bindings -/

/-- The identities and digest that bind a store to a configuration.  The contract versions
are constants of one build and are left out. -/
structure PersistedMetadata where
  normalizedConfigSha256 : Id32
  transportPublicKey : PublicKey
  userPublicKey : PublicKey
  discoveryPublicKey : Option PublicKey
deriving DecidableEq

/-- `myc_config_bindings` -/
structure ConfigBindingRow where
  generation : ℕ
  metadata : PersistedMetadata
  appliedAtUnixS : ℕ
deriving DecidableEq

/-! ## The store -/

/-- The whole persisted state; each table is the list of its rows in insertion order. -/
structure Store where
  configBindings : List ConfigBindingRow
  requests : List RequestRow
  dedup : List DedupRow
  connections : List ConnectionRow
  permissions : List PermissionRow
  decisions : List DecisionRow
  challenges : List ChallengeRow
  /-- `myc_audit_state.next_sequence` -/
  nextAuditSequence : ℕ
  audit : List AuditRow
  requestAudit : List RequestAuditRow
  rateWindows : List RateWindowRow
  commits : List CommitRow
  signedResponses : List SignedResponseRow
  pendingResponses : List PendingResponseRow
  jobs : List JobRow
  targets : List TargetRow
  attempts : List AttemptRow
  desired : List DesiredRow
  documents : List DocumentRow
  publicationState : Option PublicationStateRow
deriving DecidableEq

/-- A freshly migrated store bound to one configuration. -/
def Store.initial (metadata : PersistedMetadata) (appliedAtUnixS : ℕ) : Store where
  configBindings := [⟨1, metadata, appliedAtUnixS⟩]
  requests := []
  dedup := []
  connections := []
  permissions := []
  decisions := []
  challenges := []
  nextAuditSequence := 0
  audit := []
  requestAudit := []
  rateWindows := []
  commits := []
  signedResponses := []
  pendingResponses := []
  jobs := []
  targets := []
  attempts := []
  desired := []
  documents := []
  publicationState := none

/-- A transaction over the store. -/
abbrev Tx := Transaction Store OperationError

end MycSigner
