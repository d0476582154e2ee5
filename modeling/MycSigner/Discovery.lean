import MycSigner.Events
import MycSigner.Connections.Tables

/-!
# Discovery documents

The desired discovery document, its event bytes and its delivery job are committed
together.  A pointer row names the desired generation and job; the current pair follows it
only after the desired job is delivered.
-/

namespace MycSigner

open Transaction

/-! ## The tables -/

def desiredInsertAllowed (s : Store) (row : DesiredRow) : Bool :=
  s.desired.all fun other => other.generationId != row.generationId &&
    other.desiredSha256 != row.desiredSha256

def documentInsertAllowed (s : Store) (row : DocumentRow) : Bool :=
  (1 ≤ row.eventBytes.length && row.eventBytes.length ≤ 524288) &&
    (1 ≤ row.nip05ProjectionBytes.length && row.nip05ProjectionBytes.length ≤ 524288) &&
    s.documents.all fun other => other.generationId != row.generationId &&
      other.eventId != row.eventId && other.eventSha256 != row.eventSha256

/-- The `CHECK` that pairs the two columns of the current generation. -/
def publicationCheck (row : PublicationStateRow) : Bool :=
  row.currentGenerationId.isSome == row.currentJobId.isSome

/-- The `discovery_publication_state_guard_update` trigger with the `CHECK`. -/
def publicationUpdateAllowed (old new : PublicationStateRow) : Bool :=
  decide (old.updatedAt ≤ new.updatedAt) &&
    ((new.desiredGenerationId != old.desiredGenerationId &&
        new.desiredJobId != old.desiredJobId &&
        new.currentGenerationId == old.currentGenerationId &&
        new.currentJobId == old.currentJobId) ||
      (new.desiredGenerationId == old.desiredGenerationId &&
        new.desiredJobId == old.desiredJobId &&
        new.currentGenerationId == some old.desiredGenerationId &&
        new.currentJobId == some old.desiredJobId)) &&
    publicationCheck new

def desiredTable : TableRef Store DesiredRow :=
  ⟨Store.desired, fun rows s => { s with desired := rows }⟩

def documentsTable : TableRef Store DocumentRow :=
  ⟨Store.documents, fun rows s => { s with documents := rows }⟩

/-- The pointer is a table of at most one row. -/
def publicationTable : TableRef Store PublicationStateRow :=
  ⟨fun s => s.publicationState.toList, fun rows s => { s with publicationState := rows.head? }⟩

def insertDesiredRow (row : DesiredRow) : Tx Unit :=
  desiredTable.insert desiredInsertAllowed .storage row

def insertDocumentRow (row : DocumentRow) : Tx Unit :=
  documentsTable.insert documentInsertAllowed .storage row

def insertPublicationState (row : PublicationStateRow) : Tx Unit :=
  publicationTable.insert (fun s row => publicationCheck row && s.publicationState.isNone)
    .storage row

def updatePublicationState :
    (PublicationStateRow → Bool) → (PublicationStateRow → PublicationStateRow) → Tx ℕ :=
  publicationTable.update publicationUpdateAllowed .storage

/-! ## Commit requests -/

/-- Exact signature-verified discovery generation. -/
structure DiscoveryCommitRequest where
  configurationDigest : Id32
  eventId : Id32
  eventBytes : Bytes
  projectionBytes : Bytes
  createdAt : TimeUnixMs
deriving DecidableEq

namespace DiscoveryCommitRequest

/-- `MycDiscoveryCommitRequest::new` -/
def new (codec : EventCodec) (config : Configuration) (eventBytes : Bytes)
    (createdAt : TimeUnixMs) : Option DiscoveryCommitRequest := do
  let policy ← config.discovery
  guard (1 ≤ eventBytes.length ∧ eventBytes.length ≤ policy.eventMaxBytes)
  let event ← codec.canonical eventBytes
  guard (policy.validateEvent event = true)
  guard (1 ≤ policy.projectionBytes.length ∧ policy.projectionBytes.length ≤ 524288)
  return { configurationDigest := config.metadata.normalizedConfigSha256, eventId := event.id,
           eventBytes, projectionBytes := policy.projectionBytes, createdAt }

def eventDigest (request : DiscoveryCommitRequest) : Id32 := Sha256.digest request.eventBytes

def projectionDigest (request : DiscoveryCommitRequest) : Id32 :=
  Sha256.digest request.projectionBytes

/-- The digest that binds configuration, event and projection. -/
def desiredDigest (request : DiscoveryCommitRequest) : Id32 :=
  Sha256.digest (domain "radroots.myc.discovery_desired.v1" ++ request.configurationDigest.bytes ++
    request.eventDigest.bytes ++ request.projectionDigest.bytes)

def generationId (request : DiscoveryCommitRequest) : Id32 :=
  Sha256.digest (domain "radroots.myc.discovery_generation.v1" ++ request.desiredDigest.bytes)

/-- The row of the desired generation. -/
def desiredRow (request : DiscoveryCommitRequest) : DesiredRow where
  generationId := request.generationId
  normalizedConfigSha256 := request.configurationDigest
  desiredSha256 := request.desiredDigest
  createdAt := request.createdAt

/-- The row of the document. -/
def documentRow (request : DiscoveryCommitRequest) : DocumentRow where
  generationId := request.generationId
  eventId := request.eventId
  eventSha256 := request.eventDigest
  eventBytes := request.eventBytes
  nip05ProjectionSha256 := request.projectionDigest
  nip05ProjectionBytes := request.projectionBytes

end DiscoveryCommitRequest

/-! ## Readers -/

/-- `read_desired` -/
def readDesired (s : Store) (generation : Id32) : Except OperationError (Option DesiredRow) :=
  atMostOneRow (s.desired.filter fun row => row.generationId = generation)

/-- What `parse_document` accepts under a policy. -/
def documentReadable (codec : EventCodec) (policy : DiscoveryPolicies) (row : DocumentRow) : Bool :=
  (1 ≤ row.eventBytes.length && row.eventBytes.length ≤ 524288) &&
    (1 ≤ row.nip05ProjectionBytes.length && row.nip05ProjectionBytes.length ≤ 524288) &&
    Sha256.digest row.eventBytes == row.eventSha256 &&
    Sha256.digest row.nip05ProjectionBytes == row.nip05ProjectionSha256 &&
    (codec.canonical row.eventBytes).any (fun event => event.id == row.eventId &&
      policy.validateEvent event) &&
    policy.projectionBytes == row.nip05ProjectionBytes

/-- `read_document` -/
def readDocument (codec : EventCodec) (policy : DiscoveryPolicies) (s : Store)
    (generation : Id32) : Except OperationError (Option DocumentRow) := do
  match ← atMostOneRow (s.documents.filter fun row => row.generationId = generation) with
  | some row => do
      .require (documentReadable codec policy row = true) .binding
      .ok (some row)
  | none => .ok none

/-- `read_state` -/
def readPublicationState (s : Store) : Except OperationError (Option PublicationStateRow) :=
  match s.publicationState with
  | some row => do
      .require (publicationCheck row = true) .binding
      .ok (some row)
  | none => .ok none

/-- `discovery_generation_for_job` -/
def discoveryGenerationForJob (s : Store) (jobId : Id32) : Except OperationError (Option Id32) := do
  let job ← atMostOneRow (s.jobs.filter fun row => row.jobId = jobId ∧
    row.sourceKind = .discoveryHandler)
  .ok (job.map JobRow.sourceId)

/-- `verify_document_for_delivery_job` -/
def verifyDocumentForDeliveryJob (codec : EventCodec) (policy : Option DiscoveryPolicies)
    (s : Store) (job : JobRecord) : Except OperationError Unit := do
  .require (job.sourceKind = .discoveryHandler) .binding
  let generation ← discoveryGenerationForJob s job.jobId
  let generation ← .ofOption .binding generation
  .require (generation = job.sourceId) .binding
  let policy ← .ofOption .binding policy
  let document ← readDocument codec policy s generation
  let document ← .ofOption .binding document
  .require (document.eventSha256 = job.artifactSha256) .binding

/-! ## Committing the desired state -/

inductive DiscoveryCommitAdmission where
  | created
  | exactReplay
deriving DecidableEq

/-- Whether the generation is already committed exactly as requested. -/
def exactExisting (request : DiscoveryCommitRequest) :
    Option DesiredRow → Option DocumentRow → Except OperationError Bool
  | some desired, some document => do
      .require (desired.normalizedConfigSha256 = request.configurationDigest ∧
        desired.desiredSha256 = request.desiredDigest ∧ desired.createdAt = request.createdAt ∧
        document = request.documentRow) .binding
      .ok true
  | none, none => .ok false
  | _, _ => .error .binding

/-- Points the desired columns at a generation and its job. -/
def replaceDesired (request : DiscoveryCommitRequest) (jobId : Id32)
    (state : PublicationStateRow) : Tx Unit := do
  require (state.updatedAt < request.createdAt) .binding
  requireOne (← updatePublicationState
    (fun row => row.updatedAt ≤ request.createdAt ∧
      row.desiredGenerationId = state.desiredGenerationId ∧
      row.desiredJobId = state.desiredJobId)
    (fun row => { row with
      desiredGenerationId := request.generationId, desiredJobId := jobId,
      updatedAt := request.createdAt }))

/-- The end of `commit_desired`: only a new generation may move the pointer. -/
def confirmDesired (codec : EventCodec) (request : DiscoveryCommitRequest)
    (policy : DiscoveryPolicies) (created : Bool) : Tx DiscoveryCommitAdmission := do
  let state ← query readPublicationState
  let _ ← orFail state .binding
  let document ← query (readDocument codec policy · request.generationId)
  let _ ← orFail document .binding
  require (created = true) .binding
  return .created

/-- Inserts a generation and its document unless they are there already. -/
def insertGeneration (request : DiscoveryCommitRequest) (existing : Bool) : Tx Unit :=
  if existing then pure ()
  else do
    insertDesiredRow request.desiredRow
    insertDocumentRow request.documentRow

/-- Points the desired columns at the generation and its job, for the first time or again. -/
def pointDesired (codec : EventCodec) (request : DiscoveryCommitRequest)
    (policy : DiscoveryPolicies) (existing : Bool) (jobId : Id32) :
    Tx DiscoveryCommitAdmission := do
  match ← query readPublicationState with
  | none => do
      insertPublicationState
        { desiredGenerationId := request.generationId, desiredJobId := jobId,
          currentGenerationId := none, currentJobId := none, updatedAt := request.createdAt }
      confirmDesired codec request policy !existing
  | some state =>
      if state.desiredGenerationId = request.generationId ∧ state.desiredJobId = jobId then do
        require (existing = true) .binding
        return .exactReplay
      else do
        replaceDesired request jobId state
        confirmDesired codec request policy !existing

/-- `commit_desired` -/
def commitDesired (codec : EventCodec) (request : DiscoveryCommitRequest)
    (deliveryPolicy : DeliveryPolicies) (policy : DiscoveryPolicies) :
    Tx DiscoveryCommitAdmission := do
  let desired ← query (readDesired · request.generationId)
  let document ← query (readDocument codec policy · request.generationId)
  let existing ← query fun _ => exactExisting request desired document
  insertGeneration request existing
  let job ← createJob ⟨.discoveryHandler, request.generationId⟩ request.eventDigest
    request.createdAt deliveryPolicy
  pointDesired codec request policy existing job.record.jobId

/-- The transaction of `commit_discovery_desired_state`. -/
def commitDiscoveryDesiredState (codec : EventCodec) (config : Configuration)
    (request : DiscoveryCommitRequest) : Tx DiscoveryCommitAdmission :=
  withBinding config do
    let policy ← orFail config.discovery .binding
    commitDesired codec request config.delivery policy

/-! ## Promotion -/

/-- `promote_current` -/
def promoteCurrent (jobId : Id32) (observedAt : TimeUnixMs) : Tx Unit := do
  let state ← query readPublicationState
  let state ← orFail state .binding
  require (state.desiredJobId = jobId ∧ state.updatedAt ≤ observedAt) .binding
  let job ← query fun s => oneRow (s.jobs.filter fun row => row.jobId = jobId ∧
    row.sourceKind = .discoveryHandler ∧ row.sourceId = state.desiredGenerationId)
  require (job.status = .delivered) .binding
  if state.currentGenerationId = some state.desiredGenerationId ∧
      state.currentJobId = some state.desiredJobId then
    pure ()
  else do
    requireOne (← updatePublicationState
      (fun row => row.desiredGenerationId = state.desiredGenerationId ∧
        row.desiredJobId = jobId ∧ row.updatedAt ≤ observedAt ∧
        (row.currentGenerationId ≠ some row.desiredGenerationId ∨
          row.currentJobId ≠ some row.desiredJobId))
      (fun row => { row with
        currentGenerationId := some row.desiredGenerationId,
        currentJobId := some row.desiredJobId, updatedAt := observedAt }))
    let state ← query readPublicationState
    let _ ← orFail state .binding

/-- The transaction of `promote_delivered_discovery_state`. -/
def promoteDeliveredDiscoveryState (config : Configuration) (jobId : Id32)
    (observedAt : TimeUnixMs) : Tx Unit :=
  withBinding config (promoteCurrent jobId observedAt)

/-- `promote_current_if_desired` -/
def promoteCurrentIfDesired (jobId : Id32) (observedAt : TimeUnixMs) : Tx Bool := do
  let state ← query readPublicationState
  let state ← orFail state .binding
  if state.desiredJobId = jobId then do
    promoteCurrent jobId observedAt
    return true
  else
    return false

end MycSigner
