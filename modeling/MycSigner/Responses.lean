import MycSigner.Completion
import MycSigner.Events

/-!
# Responses

A response is the exact signed event that answers an operation.  A terminal response is
committed together with the completion and its delivery job; a pending response tells the
client that the operator has not decided yet, and is committed with a delivery job while
the decision is pending.
-/

namespace MycSigner

open Transaction

/-! ## The tables -/

def signedResponseInsertAllowed (s : Store) (row : SignedResponseRow) : Bool :=
  (1 ≤ row.responseBytes.length && row.responseBytes.length ≤ 1048576) &&
    (1 ≤ row.authoredAtUnixS && row.authoredAtUnixS ≤ i64Max) &&
    (s.signedResponses.all fun other => other.operationId != row.operationId &&
      other.responseProviderOperationId != row.responseProviderOperationId &&
      other.responseEventId != row.responseEventId) &&
    -- the `nip46_signed_responses_guard_pending_insert` trigger
    s.pendingResponses.all fun other => other.operationId != row.operationId &&
      other.responseProviderOperationId != row.responseProviderOperationId &&
      other.responseEventId != row.responseEventId

/-- The decision, connection and request that a pending response needs. -/
def pendingAuthority (s : Store) (operationId connectionId : Id32) : Bool :=
  s.decisions.any fun decision => decision.operationId == operationId &&
    decision.connectionId == some connectionId && decision.decision == .pendingApproval &&
    decision.reasonCode == .explicitApprovalRequired &&
    s.connections.any fun connection => connection.connectionId == connectionId &&
      connection.status == .pending &&
      connection.policyGeneration == decision.policyGeneration &&
      connection.requestedPermissionsSha256 == decision.requestedPermissionsSha256 &&
      s.requests.any fun request => request.operationId == operationId &&
        request.clientPublicKey == connection.clientPublicKey && request.method == .connect

def pendingResponseInsertAllowed (s : Store) (row : PendingResponseRow) : Bool :=
  (1 ≤ row.responseBytes.length && row.responseBytes.length ≤ 1048576) &&
    (1 ≤ row.authoredAtUnixS && row.authoredAtUnixS ≤ i64Max) &&
    (s.pendingResponses.all fun other => other.operationId != row.operationId &&
      other.responseProviderOperationId != row.responseProviderOperationId &&
      other.responseEventId != row.responseEventId) &&
    -- the `nip46_pending_responses_guard_insert` trigger
    pendingAuthority s row.operationId row.connectionId &&
    s.signedResponses.all fun other => other.operationId != row.operationId &&
      other.responseProviderOperationId != row.responseProviderOperationId &&
      other.responseEventId != row.responseEventId

def signedResponsesTable : TableRef Store SignedResponseRow :=
  ⟨Store.signedResponses, fun rows s => { s with signedResponses := rows }⟩

def pendingResponsesTable : TableRef Store PendingResponseRow :=
  ⟨Store.pendingResponses, fun rows s => { s with pendingResponses := rows }⟩

def insertSignedResponse (row : SignedResponseRow) : Tx Unit :=
  signedResponsesTable.insert signedResponseInsertAllowed .storage row

def insertPendingResponseRow (row : PendingResponseRow) : Tx Unit :=
  pendingResponsesTable.insert pendingResponseInsertAllowed .storage row

/-! ## Reading a response -/

inductive AuthorityKind where
  | terminal
  | pendingApproval
deriving DecidableEq

/-- A row of `response_authority`, the union of the two response tables. -/
structure ResponseAuthority where
  authorityKind : AuthorityKind
  operationId : Id32
  responseProviderOperationId : Id32
  responseEventId : Id32
  responseSha256 : Id32
  responseBytes : Bytes
  authoredAtUnixS : ℕ
  committedAt : TimeUnixMs
deriving DecidableEq

def SignedResponseRow.authority (row : SignedResponseRow) : ResponseAuthority where
  authorityKind := .terminal
  operationId := row.operationId
  responseProviderOperationId := row.responseProviderOperationId
  responseEventId := row.responseEventId
  responseSha256 := row.responseSha256
  responseBytes := row.responseBytes
  authoredAtUnixS := row.authoredAtUnixS
  committedAt := row.committedAt

def PendingResponseRow.authority (row : PendingResponseRow) : ResponseAuthority where
  authorityKind := .pendingApproval
  operationId := row.operationId
  responseProviderOperationId := row.responseProviderOperationId
  responseEventId := row.responseEventId
  responseSha256 := row.responseSha256
  responseBytes := row.responseBytes
  authoredAtUnixS := row.authoredAtUnixS
  committedAt := row.committedAt

/-- `response_authority` -/
def responseAuthorities (s : Store) : List ResponseAuthority :=
  s.signedResponses.map SignedResponseRow.authority ++
    s.pendingResponses.map PendingResponseRow.authority

/-- Immutable exact signed response with its delivery job. -/
structure ResponseRecord extends ResponseAuthority where
  deliveryJob : JobRecord
deriving DecidableEq

/-- A response joined with its request and its delivery job. -/
structure ResponseMatch where
  authority : ResponseAuthority
  request : RequestRow
  job : JobRow

/-- The joins of both response queries. -/
def responseMatches (s : Store) (matching : ResponseAuthority → JobRow → Bool) :
    List ResponseMatch :=
  (responseAuthorities s).flatMap fun authority =>
    (s.requests.filter fun request => request.operationId = authority.operationId).flatMap
      fun request =>
        (s.jobs.filter fun job => job.sourceKind = .signerResponse ∧
          job.sourceId = authority.operationId ∧ matching authority job = true).map fun job =>
            ⟨authority, request, job⟩

/-- What `read_response` checks of the stored bytes. -/
def responseReadable (codec : EventCodec) (found : ResponseMatch) : Bool :=
  0 < found.authority.authoredAtUnixS &&
    Sha256.digest found.authority.responseBytes == found.authority.responseSha256 &&
    (validateResponseEvent codec found.authority.responseBytes found.request.clientPublicKey
      none).any fun event => event.id == found.authority.responseEventId &&
        event.createdAt == found.authority.authoredAtUnixS

/-- `read_response` -/
def readResponse (codec : EventCodec) (s : Store) (rows : List ResponseMatch) :
    Except OperationError (Option ResponseRecord) := do
  match ← atMostOneRow rows with
  | none => .ok none
  | some found => do
      .require (responseReadable codec found = true) .binding
      let job ← readJob s found.job.jobId
      let job ← .ofOption .binding job
      .require (job.sourceKind = .signerResponse ∧ job.sourceId = found.authority.operationId ∧
        job.artifactSha256 = found.authority.responseSha256 ∧
        job.createdAt = found.authority.committedAt) .binding
      .ok (some { found.authority with deliveryJob := job })

/-- `read_response_by_operation` -/
def readResponseByOperation (codec : EventCodec) (s : Store) (operationId : Id32) :
    Except OperationError (Option ResponseRecord) :=
  readResponse codec s
    (responseMatches s fun authority _ => decide (authority.operationId = operationId))

/-- `read_response_by_job` -/
def readResponseByJob (codec : EventCodec) (s : Store) (jobId : Id32) :
    Except OperationError (Option ResponseRecord) :=
  readResponse codec s (responseMatches s fun _ job => decide (job.jobId = jobId))

/-- `verify_response_for_delivery_job` -/
def verifyResponseForDeliveryJob (codec : EventCodec) (s : Store) (jobId : Id32) :
    Except OperationError Unit := do
  let response ← readResponseByJob codec s jobId
  .require (response.isSome = true) .binding

/-! ## Terminal responses -/

/-- Exact independently verified response and completion. -/
structure ResponseCommitRequest where
  completion : CommitRequest
  responseProviderOperationId : Id32
  responseEventId : Id32
  responseDigest : Id32
  responseBytes : Bytes
  authoredAtUnixS : ℕ
  committedAt : TimeUnixMs
deriving DecidableEq

/-- The response row of a request. -/
def ResponseCommitRequest.row (request : ResponseCommitRequest) : SignedResponseRow where
  operationId := request.completion.request.operationId
  responseProviderOperationId := request.responseProviderOperationId
  responseEventId := request.responseEventId
  responseSha256 := request.responseDigest
  responseBytes := request.responseBytes
  authoredAtUnixS := request.authoredAtUnixS
  committedAt := request.committedAt

inductive ResponseCommitAdmission where
  | committed (response : ResponseRecord)
  | exactReplay (response : ResponseRecord)

/-- Creates the delivery job of a response; an existing job is an error. -/
def createResponseJob (operationId digest : Id32) (committedAt : TimeUnixMs)
    (policy : DeliveryPolicies) : Tx Unit := do
  match ← createJob ⟨.signerResponse, operationId⟩ digest committedAt policy with
  | .created _ => pure ()
  | .exactReplay _ => fail .binding

/-- Reads a response back and requires it to be exactly the given authority. -/
def readExactResponse (codec : EventCodec) (authority : ResponseAuthority) :
    Tx ResponseRecord := do
  let response ← query (readResponseByOperation codec · authority.operationId)
  let response ← orFail response .binding
  require (response.toResponseAuthority = authority) .binding
  return response

/-- The transaction of `commit_nip46_response`. -/
def commitNip46Response (codec : EventCodec) (config : Configuration)
    (request : ResponseCommitRequest) : Tx ResponseCommitAdmission :=
  withBinding config do
    match ← commitOperation request.completion with
    | .exactReplay => return .exactReplay (← readExactResponse codec request.row.authority)
    | .committed => do
        insertSignedResponse request.row
        createResponseJob request.completion.request.operationId request.responseDigest
          request.committedAt config.delivery
        return .committed (← readExactResponse codec request.row.authority)

/-! ## Pending responses -/

/-- Exact response for a connect request that waits for the operator. -/
structure PendingResponseCommitRequest where
  operationId : Id32
  connectionId : Id32
  policyGeneration : PolicyGeneration
  clientPublicKey : PublicKey
  decidedAt : TimeUnixMs
  responseProviderOperationId : Id32
  responseEventId : Id32
  responseDigest : Id32
  responseBytes : Bytes
  authoredAtUnixS : ℕ
  committedAt : TimeUnixMs
deriving DecidableEq

/-- The response row of a pending request. -/
def PendingResponseCommitRequest.row (request : PendingResponseCommitRequest) :
    PendingResponseRow where
  operationId := request.operationId
  connectionId := request.connectionId
  responseProviderOperationId := request.responseProviderOperationId
  responseEventId := request.responseEventId
  responseSha256 := request.responseDigest
  responseBytes := request.responseBytes
  authoredAtUnixS := request.authoredAtUnixS
  committedAt := request.committedAt

/-- `READ_PENDING_BINDING_SQL` -/
def pendingBindings (s : Store) (operationId : Id32) : List (DecisionRow × ConnectionRow) :=
  (s.decisions.filter fun decision => decision.operationId = operationId).flatMap fun decision =>
    (s.connections.filter fun connection => some connection.connectionId = decision.connectionId ∧
      connection.policyGeneration = decision.policyGeneration ∧
      connection.requestedPermissionsSha256 = decision.requestedPermissionsSha256).flatMap
        fun connection =>
          (s.requests.filter fun request => request.operationId = operationId ∧
            connection.clientPublicKey = request.clientPublicKey ∧
            request.method = .connect).map fun _ => (decision, connection)

/-- `require_pending_binding` -/
def requirePendingBinding (request : PendingResponseCommitRequest) : Tx Unit := do
  let (decision, connection) ← query fun s => oneRow (pendingBindings s request.operationId)
  require (decision.connectionId = some request.connectionId ∧
    decision.policyGeneration = request.policyGeneration ∧
    decision.decidedAt = request.decidedAt ∧ decision.decision = .pendingApproval ∧
    decision.reasonCode = .explicitApprovalRequired ∧ connection.status = .pending ∧
    connection.clientPublicKey = request.clientPublicKey) .binding

/-- The transaction of `commit_nip46_pending_response`. -/
def commitNip46PendingResponse (codec : EventCodec) (config : Configuration)
    (request : PendingResponseCommitRequest) : Tx ResponseRecord :=
  withBinding config do
    requirePendingBinding request
    match ← query (readResponseByOperation codec · request.operationId) with
    | some response => do
        require (response.toResponseAuthority = request.row.authority) .binding
        return response
    | none => do
        insertPendingResponseRow request.row
        createResponseJob request.operationId request.responseDigest request.committedAt
          config.delivery
        readExactResponse codec request.row.authority

end MycSigner
