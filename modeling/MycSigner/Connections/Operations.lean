import MycSigner.Connections.Tables

/-!
# The connection operations

Admission of a connect request, the operator's decisions in both their paths, expiry,
and the authorization challenges of a session, each the body of one transaction.  The order
of the checks, the reads between the writes and the error of every refusal are those of the
source.
-/

namespace MycSigner

open Transaction

/-! ## Admission -/

/-- Immutable connect-admission input; only a trusted admission may carry a limit, and the
limit lies after the observation. -/
structure AdmissionRequest where
  operationId : Id32
  clientPublicKey : PublicKey
  requestedPermissions : PermissionSet
  policyGeneration : PolicyGeneration
  nonce : Id32
  observedAt : TimeUnixMs
  authorizedUntil : Option TimeUnixMs
  policy : AdmissionPolicy
  relayId : RelayId
  trusted_limit : ∀ limit ∈ authorizedUntil, policy = .trusted ∧ observedAt < limit

/-- New or replayed connection-admission result. -/
inductive ConnectionAdmission where
  | admitted (record : DecisionRecord)
  | exactReplay (record : DecisionRecord)
  | rateLimited
deriving DecidableEq

def ConnectionAdmission.record : ConnectionAdmission → Option DecisionRecord
  | .admitted record | .exactReplay record => some record
  | .rateLimited => none

def AdmissionPolicy.decision : AdmissionPolicy → Decision
  | .trusted => .allowed
  | .explicitApproval => .pendingApproval
  | .denied => .denied

def AdmissionPolicy.reason : AdmissionPolicy → DecisionReason
  | .trusted => .trustedClient
  | .explicitApproval => .explicitApprovalRequired
  | .denied => .policyDenied

def AdmissionPolicy.audit : AdmissionPolicy → AuditOutcome × AuditReason
  | .trusted => (.succeeded, .trusted)
  | .explicitApproval => (.succeeded, .approvalRequired)
  | .denied => (.rejected, .policyDenied)

/-- `admits_connection_request` -/
def ConnectionPolicies.admitsConnectionRequest (policies : ConnectionPolicies)
    (request : AdmissionRequest) : Bool :=
  let expected := policies.expectedAdmission request.clientPublicKey
  request.policy == expected &&
    match expected with
    | .denied => true
    | .trusted =>
        request.requestedPermissions.isSubsetOf policies.permissionCeiling &&
          policies.admitsAuthorizedUntil request.observedAt request.authorizedUntil
    | .explicitApproval =>
        request.requestedPermissions.isSubsetOf policies.permissionCeiling &&
          request.authorizedUntil.isNone

/-- `insert_permissions` -/
def insertPermissions (connectionId : Id32) (scope : PermissionScope) (set : PermissionSet) :
    Tx Unit :=
  set.permissions.forM fun permission => insertPermission ⟨connectionId, scope, permission⟩

/-- The row that an admission inserts. -/
def newConnectionRow (request : AdmissionRequest) (status : ConnectionStatus) : ConnectionRow where
  connectionId := deriveConnectionId request.clientPublicKey request.nonce
  connectionNonce := request.nonce
  clientPublicKey := request.clientPublicKey
  requestedPermissionsSha256 := request.requestedPermissions.digest
  policyGeneration := request.policyGeneration
  status := status
  createdAt := request.observedAt
  updatedAt := request.observedAt
  authorizedUntil := request.authorizedUntil

/-- `insert_connection` under the policy: trusted is active with all it requested, explicit
approval is pending, and denial leaves no connection. -/
def insertConnection (request : AdmissionRequest) : Tx (Option Id32) :=
  let id := deriveConnectionId request.clientPublicKey request.nonce
  match request.policy with
  | .trusted => do
      insertConnectionRow (newConnectionRow request .active)
      insertPermissions id .requested request.requestedPermissions
      insertPermissions id .granted request.requestedPermissions
      return some id
  | .explicitApproval => do
      insertConnectionRow (newConnectionRow request .pending)
      insertPermissions id .requested request.requestedPermissions
      return some id
  | .denied => return none

/-- Counts the admission in the global and the relay window unless it is a direct denial. -/
def governAdmission (policy : RateLimitPolicy) (request : AdmissionRequest)
    (evidence : AuditEvidence) : Tx Bool :=
  if request.policy = .denied then
    return true
  else
    governRateAttempt policy .connectionAdmission [.global, relaySubject request.relayId] evidence
      .connectionAdmission

/-- The decision that an admission records. -/
def newAdmissionDecision (request : AdmissionRequest) (connectionId : Option Id32) :
    DecisionRow where
  operationId := request.operationId
  connectionId := connectionId
  decision := request.policy.decision
  reasonCode := request.policy.reason
  policyGeneration := request.policyGeneration
  requestedPermissionsSha256 := request.requestedPermissions.digest
  challengeId := none
  decidedAt := request.observedAt

/-- The replay of an admission that is already decided. -/
def replayAdmission (request : AdmissionRequest) (existing : DecisionRow) : Tx DecisionRecord := do
  require (existing.policyGeneration = request.policyGeneration ∧
    existing.reasonCode.admissionPolicy = some request.policy ∧
    existing.requestedPermissionsSha256 = request.requestedPermissions.digest) .binding
  let record ← query (decisionRecord · request.operationId existing)
  require (record.connection.all (·.clientPublicKey == request.clientPublicKey) = true) .binding
  return record

/-- The first admission of a request that is not decided. -/
def decideAdmission (policy : RateLimitPolicy) (request : AdmissionRequest)
    (evidence : AuditEvidence) : Tx ConnectionAdmission := do
  if ← governAdmission policy request evidence then do
    let connectionId ← insertConnection request
    insertDecision (newAdmissionDecision request connectionId)
    let persisted ← query (readDecision · request.operationId)
    let persisted ← orFail persisted .binding
    let record ← query (decisionRecord · request.operationId persisted)
    let (outcome, reason) := request.policy.audit
    recordAudit evidence .connectionAdmission outcome reason
    return .admitted record
  else
    return .rateLimited

/-- `admit_connection` -/
def admitConnectionBody (policy : RateLimitPolicy) (request : AdmissionRequest) :
    Tx ConnectionAdmission := do
  let binding ← query (readRequestBinding · request.operationId)
  require (binding.clientPublicKey = request.clientPublicKey ∧ binding.method = .connect ∧
    binding.receivedAt ≤ request.observedAt) .binding
  match ← query (readDecision · request.operationId) with
  | some existing => return .exactReplay (← replayAdmission request existing)
  | none =>
      decideAdmission policy request
        ⟨binding.correlationId, request.observedAt, some request.operationId⟩

/-- The repository's `admit_connection`: the configuration admits the request first. -/
def admitConnection (config : Configuration) (request : AdmissionRequest) :
    Tx ConnectionAdmission := do
  require (config.governance.admitsRelay request.relayId = true ∧
    config.connection.admitsConnectionRequest request = true) .binding
  withBinding config (admitConnectionBody config.governance.connectionAdmission request)

/-! ## Operator decisions -/

/-- Operator decision for a pending explicit-approval connection. -/
inductive OperatorDecision where
  | approve (granted : PermissionSet) (authorizedUntil : Option TimeUnixMs)
  | deny

/-- `admits_operator_decision` -/
def ConnectionPolicies.admitsOperatorDecision (policies : ConnectionPolicies)
    (observedAt : TimeUnixMs) : OperatorDecision → Bool
  | .approve granted authorizedUntil =>
      granted.isSubsetOf policies.permissionCeiling &&
        policies.admitsAuthorizedUntil observedAt authorizedUntil
  | .deny => true

/-- `APPROVE_CONNECTION_SQL` -/
def approveConnectionRow (connectionId : Id32) (generation : PolicyGeneration)
    (observedAt : TimeUnixMs) (authorizedUntil : Option TimeUnixMs) : Tx ℕ :=
  updateConnections
    (fun row => row.connectionId = connectionId ∧ row.status = .pending ∧
      row.policyGeneration = generation)
    (fun row => { row with status := .active, updatedAt := observedAt, authorizedUntil })

/-- `DENY_CONNECTION_SQL` -/
def denyConnectionRow (connectionId : Id32) (generation : PolicyGeneration)
    (observedAt : TimeUnixMs) : Tx ℕ :=
  updateConnections
    (fun row => row.connectionId = connectionId ∧ row.status = .pending ∧
      row.policyGeneration = generation)
    (fun row => { row with status := .denied, updatedAt := observedAt, authorizedUntil := none })

/-- `REVOKE_CONNECTION_SQL` -/
def revokeConnectionRow (connectionId : Id32) (generation : PolicyGeneration)
    (observedAt : TimeUnixMs) : Tx ℕ :=
  updateConnections
    (fun row => row.connectionId = connectionId ∧ row.status = .active ∧
      row.policyGeneration = generation)
    (fun row => { row with status := .expired, updatedAt := observedAt, authorizedUntil := none })

/-- `EXPIRE_CONNECTION_SQL` -/
def expireConnectionRow (connectionId : Id32) (generation : PolicyGeneration)
    (observedAt : TimeUnixMs) : Tx ℕ :=
  updateConnections
    (fun row => row.connectionId = connectionId ∧ row.status = .active ∧
      row.policyGeneration = generation ∧
      row.authorizedUntil.any (fun limit => decide (limit < observedAt)) = true)
    (fun row => { row with status := .expired, updatedAt := observedAt, authorizedUntil := none })

/-- `update_approval_decision` -/
def updateApprovalDecision (operationId connectionId : Id32) (generation : PolicyGeneration)
    (observedAt : TimeUnixMs) (decision : Decision) (reason : DecisionReason) : Tx Unit := do
  requireOne (← updateDecisions
    (fun row => row.operationId = operationId ∧ row.connectionId = some connectionId ∧
      row.decision = .pendingApproval ∧ row.policyGeneration = generation)
    (fun row => { row with decision, reasonCode := reason, decidedAt := observedAt }))

/-- `record_operator_audit` -/
def recordOperatorAudit (correlation : Id32) (occurredAt : TimeUnixMs) (outcome : AuditOutcome)
    (reason : AuditReason) : Tx Unit :=
  recordAudit ⟨correlation, occurredAt, none⟩ .connectionOperatorDecision outcome reason

/-- The approval branch of `decide_connection`. -/
def approveConnection (operationId connectionId : Id32) (generation : PolicyGeneration)
    (observedAt : TimeUnixMs) (correlation : Id32) (existing : DecisionRow)
    (connection : ConnectionRecord) (granted : PermissionSet)
    (authorizedUntil : Option TimeUnixMs) : Tx ConnectionRecord := do
  require (granted.isSubsetOf connection.requestedPermissions = true ∧
    ∀ limit ∈ authorizedUntil, observedAt < limit) .binding
  if connection.status = .active ∧ existing.decision = .allowed then do
    require (connection.grantedPermissions = granted ∧
      connection.authorizedUntil = authorizedUntil) .binding
    recordOperatorAudit correlation connection.updatedAt .succeeded .operatorApproved
    return connection
  else do
    require (connection.status = .pending ∧ existing.decision = .pendingApproval ∧
      connection.updatedAt ≤ observedAt) .binding
    insertPermissions connectionId .granted granted
    requireOne (← approveConnectionRow connectionId generation observedAt authorizedUntil)
    updateApprovalDecision operationId connectionId generation observedAt .allowed
      .operatorApproved
    let record ← query (readConnection · connectionId)
    recordOperatorAudit correlation observedAt .succeeded .operatorApproved
    return record

/-- The denial branch of `decide_connection`. -/
def denyConnection (operationId connectionId : Id32) (generation : PolicyGeneration)
    (observedAt : TimeUnixMs) (correlation : Id32) (existing : DecisionRow)
    (connection : ConnectionRecord) : Tx ConnectionRecord := do
  if connection.status = .denied ∧ existing.decision = .denied then do
    recordOperatorAudit correlation connection.updatedAt .rejected .operatorDenied
    return connection
  else do
    require (connection.status = .pending ∧ existing.decision = .pendingApproval ∧
      connection.updatedAt ≤ observedAt) .binding
    requireOne (← denyConnectionRow connectionId generation observedAt)
    updateApprovalDecision operationId connectionId generation observedAt .denied .operatorDenied
    let record ← query (readConnection · connectionId)
    recordOperatorAudit correlation observedAt .rejected .operatorDenied
    return record

/-- `decide_connection` -/
def decideConnection (operationId connectionId : Id32) (generation : PolicyGeneration)
    (observedAt : TimeUnixMs) (correlation : Id32) (decision : OperatorDecision) :
    Tx ConnectionRecord := do
  let existing ← query (readDecision · operationId)
  let existing ← orFail existing .binding
  require (existing.connectionId = some connectionId ∧ existing.policyGeneration = generation)
    .binding
  let connection ← query (readConnection · connectionId)
  require (connection.policyGeneration = generation) .binding
  match decision with
  | .approve granted authorizedUntil =>
      approveConnection operationId connectionId generation observedAt correlation existing
        connection granted authorizedUntil
  | .deny =>
      denyConnection operationId connectionId generation observedAt correlation existing connection

/-- The repository's `decide_pending_connection`: the configuration admits the decision
first. -/
def decidePendingConnection (config : Configuration) (operationId connectionId : Id32)
    (generation : PolicyGeneration) (observedAt : TimeUnixMs) (correlation : Id32)
    (decision : OperatorDecision) : Tx ConnectionRecord := do
  require (config.connection.admitsOperatorDecision observedAt decision = true) .binding
  withBinding config
    (decideConnection operationId connectionId generation observedAt correlation decision)

/-! ## The administrator's path -/

/-- A connection mutation of the administrator. -/
inductive AdminAction where
  | approve (permissions : PermissionSet) (authorizedUntil : Option TimeUnixMs)
  | reject
  | revoke

/-- `read_pending_decision_operation` -/
def readPendingDecisionOperation (s : Store) (connectionId : Id32)
    (generation : PolicyGeneration) : Except OperationError Id32 :=
  (oneRow (s.decisions.filter fun row => row.connectionId = some connectionId ∧
    row.decision = .pendingApproval ∧ row.policyGeneration = generation)).map
      DecisionRow.operationId

/-- The revocation branch of `apply_admin_connection_mutation`. -/
def revokeConnection (connectionId : Id32) (generation : PolicyGeneration)
    (observedAt : TimeUnixMs) (correlation : Id32) (before : ConnectionRecord) :
    Tx ConnectionRecord := do
  if before.status = .expired then
    return before
  else do
    require (before.status = .active ∧ before.updatedAt ≤ observedAt) .conflict
    requireOne (← revokeConnectionRow connectionId generation observedAt)
    let record ← query (readConnection · connectionId)
    recordOperatorAudit correlation observedAt .succeeded .connectionExpired
    return record

/-- `apply_admin_connection_mutation`; this path consults no ceiling. -/
def applyAdminConnectionMutation (connectionId : Id32) (generation : PolicyGeneration)
    (observedAt : TimeUnixMs) (correlation : Id32) (action : AdminAction) :
    Tx (ConnectionRecord × ConnectionRecord) := do
  let before ← query (readConnection · connectionId)
  require (before.policyGeneration = generation) .conflict
  match action with
  | .approve permissions authorizedUntil => do
      let operationId ← query (readPendingDecisionOperation · connectionId generation)
      let after ← decideConnection operationId connectionId generation observedAt correlation
        (.approve permissions authorizedUntil)
      return (before, after)
  | .reject => do
      let operationId ← query (readPendingDecisionOperation · connectionId generation)
      let after ← decideConnection operationId connectionId generation observedAt correlation .deny
      return (before, after)
  | .revoke => do
      let after ← revokeConnection connectionId generation observedAt correlation before
      return (before, after)

/-! ## Expiry and session lookup -/

/-- `record_connection_expiry_audit` -/
def recordConnectionExpiryAudit (correlation : Id32) (occurredAt : TimeUnixMs) : Tx Unit :=
  recordAudit ⟨correlation, occurredAt, none⟩ .connectionExpiry .succeeded .connectionExpired

/-- `expire_connection` -/
def expireConnection (connectionId : Id32) (generation : PolicyGeneration)
    (observedAt : TimeUnixMs) (correlation : Id32) : Tx ConnectionRecord := do
  let before ← query (readConnection · connectionId)
  require (before.policyGeneration = generation) .binding
  if before.status = .expired then do
    recordConnectionExpiryAudit correlation before.updatedAt
    return before
  else do
    require (before.status = .active ∧
      before.authorizedUntil.any (fun limit => decide (limit < observedAt)) = true) .binding
    requireOne (← expireConnectionRow connectionId generation observedAt)
    let record ← query (readConnection · connectionId)
    recordConnectionExpiryAudit correlation observedAt
    return record

/-- A connection that the session lookup of a client at a time selects. -/
def ConnectionRow.servesAt (row : ConnectionRow) (client : PublicKey) (observedAt : TimeUnixMs) :
    Bool :=
  row.clientPublicKey == client && row.status == .active &&
    row.authorizedUntil.all (fun limit => decide (observedAt ≤ limit))

/-- `read_active_connection_for_client`: the sole session, and a failure when it is not
sole. -/
def readActiveConnectionForClient (s : Store) (client : PublicKey) (observedAt : TimeUnixMs) :
    Except OperationError (Option ConnectionRecord) :=
  match s.connections.filter (·.servesAt client observedAt) with
  | [] => .ok none
  | [row] => (readConnection s row.connectionId).map some
  | _ :: _ :: _ => .error .binding

/-! ## Authorization challenges -/

/-- Immutable authorization-challenge creation input. -/
structure ChallengeRequest where
  operationId : Id32
  connectionId : Id32
  policyGeneration : PolicyGeneration
  url : ChallengeUrl
  nonce : Id32
  issuedAt : TimeUnixMs
  expiresAt : TimeUnixMs
  lifetime : issuedAt < expiresAt

/-- New or replayed challenge creation result. -/
inductive ChallengeAdmission where
  | created (record : ChallengeRow)
  | exactReplay (record : ChallengeRow)
  | rateLimited
deriving DecidableEq

/-- `admits_challenge_request` -/
def ConnectionPolicies.admitsChallengeRequest (policies : ConnectionPolicies)
    (request : ChallengeRequest) : Bool :=
  policies.challenge.any fun policy => request.url == policy.url &&
    request.expiresAt.get - request.issuedAt.get ≤ policy.pendingLifetimeMs

/-- The row that `issue_challenge` inserts. -/
def newChallengeRow (request : ChallengeRequest) : ChallengeRow where
  challengeId := deriveChallengeId request.operationId request.connectionId request.nonce
  challengeNonce := request.nonce
  connectionId := request.connectionId
  operationId := request.operationId
  policyGeneration := request.policyGeneration
  challengeUrl := request.url
  state := .pending
  issuedAt := request.issuedAt
  expiresAt := request.expiresAt
  resolvedAt := none

/-- The decision that `issue_challenge` records. -/
def newChallengeDecision (request : ChallengeRequest) (connection : ConnectionRecord) :
    DecisionRow where
  operationId := request.operationId
  connectionId := some request.connectionId
  decision := .challenged
  reasonCode := .authorizationChallengeRequired
  policyGeneration := request.policyGeneration
  requestedPermissionsSha256 := connection.requestedPermissions.digest
  challengeId := some (newChallengeRow request).challengeId
  decidedAt := request.issuedAt

/-- The first challenge of an operation. -/
def createChallenge (policy : RateLimitPolicy) (request : ChallengeRequest)
    (binding : RequestRow) (connection : ConnectionRecord) : Tx ChallengeAdmission := do
  require (binding.receivedAt ≤ request.issuedAt ∧ connection.updatedAt ≤ request.issuedAt ∧
    connection.status = .active ∧
    ∀ limit ∈ connection.authorizedUntil, request.issuedAt ≤ limit) .binding
  let decision ← query (readDecision · request.operationId)
  require (decision = none) .binding
  let evidence := ⟨binding.correlationId, request.issuedAt, some request.operationId⟩
  if ← governRateAttempt policy .challengeCreation [.connection request.connectionId] evidence
      .challengeCreation then do
    insertChallenge (newChallengeRow request)
    insertDecision (newChallengeDecision request connection)
    let record ← query (readChallenge · request.operationId)
    let record ← orFail record .binding
    recordAudit evidence .challengeCreation .succeeded .challengeRequired
    return .created record
  else
    return .rateLimited

/-- `issue_challenge` -/
def issueChallenge (policy : RateLimitPolicy) (request : ChallengeRequest) :
    Tx ChallengeAdmission := do
  let binding ← query (readRequestBinding · request.operationId)
  require (binding.method ≠ .connect) .binding
  let connection ← query (readConnection · request.connectionId)
  require (connection.clientPublicKey = binding.clientPublicKey ∧
    connection.policyGeneration = request.policyGeneration) .binding
  match ← query (readChallenge · request.operationId) with
  | some existing => do
      require (existing.connectionId = request.connectionId ∧
        existing.policyGeneration = request.policyGeneration ∧
        existing.challengeUrl = request.url ∧ existing.issuedAt = request.issuedAt ∧
        existing.expiresAt = request.expiresAt) .binding
      return .exactReplay existing
  | none => createChallenge policy request binding connection

/-- The repository's `issue_authorization_challenge`. -/
def issueAuthorizationChallenge (config : Configuration) (request : ChallengeRequest) :
    Tx ChallengeAdmission := do
  require (config.connection.admitsChallengeRequest request = true) .binding
  withBinding config (issueChallenge config.governance.challengeCreation request)

/-- New, replayed, or rate-limited authorization result. -/
inductive ChallengeAuthorization where
  | resolved (record : ChallengeRow)
  | exactReplay (record : ChallengeRow)
  | rateLimited
deriving DecidableEq

/-- `RESOLVE_CHALLENGE_SQL` -/
def resolveChallengeRow (challengeId connectionId operationId : Id32)
    (generation : PolicyGeneration) (state : ChallengeState) (observedAt : TimeUnixMs) : Tx ℕ :=
  updateChallenges
    (fun row => row.challengeId = challengeId ∧ row.connectionId = connectionId ∧
      row.operationId = operationId ∧ row.policyGeneration = generation ∧ row.state = .pending)
    (fun row => { row with state, resolvedAt := some observedAt })

/-- `UPDATE_CHALLENGE_DECISION_SQL` -/
def updateChallengeDecision (challengeId connectionId operationId : Id32)
    (generation : PolicyGeneration) (decision : Decision) (reason : DecisionReason)
    (observedAt : TimeUnixMs) : Tx ℕ :=
  updateDecisions
    (fun row => row.operationId = operationId ∧ row.connectionId = some connectionId ∧
      row.challengeId = some challengeId ∧ row.policyGeneration = generation ∧
      row.decision = .challenged)
    (fun row => { row with decision, reasonCode := reason, decidedAt := observedAt })

/-- Resolves a pending challenge: authorized in time on a live session, expired otherwise. -/
def resolveChallenge (before : ChallengeRow) (connection : ConnectionRecord)
    (evidence : AuditEvidence) (observedAt : TimeUnixMs) : Tx ChallengeAuthorization := do
  let expired := before.expiresAt < observedAt ∨ connection.status ≠ .active ∨
    connection.authorizedUntil.any (fun limit => decide (limit < observedAt)) = true
  let state : ChallengeState := if expired then .expired else .authorized
  let decision : Decision := if expired then .denied else .allowed
  let reason : DecisionReason :=
    if expired then .authorizationChallengeExpired else .authorizationChallengeAuthorized
  requireOne (← resolveChallengeRow before.challengeId before.connectionId before.operationId
    before.policyGeneration state observedAt)
  requireOne (← updateChallengeDecision before.challengeId before.connectionId before.operationId
    before.policyGeneration decision reason observedAt)
  let record ← query (readChallenge · before.operationId)
  let record ← orFail record .binding
  if expired then recordAudit evidence .challengeAuthorization .rejected .challengeExpired
  else recordAudit evidence .challengeAuthorization .succeeded .challengeAuthorized
  return .resolved record

/-- `authorize_challenge` -/
def authorizeChallengeBody (policy : RateLimitPolicy) (challengeId connectionId operationId : Id32)
    (generation : PolicyGeneration) (observedAt : TimeUnixMs) : Tx ChallengeAuthorization := do
  let before ← query (readChallenge · operationId)
  let before ← orFail before .binding
  require (before.challengeId = challengeId ∧ before.connectionId = connectionId ∧
    before.operationId = operationId ∧ before.policyGeneration = generation) .binding
  let binding ← query (readRequestBinding · operationId)
  let connection ← query (readConnection · connectionId)
  require (binding.method ≠ .connect ∧ binding.clientPublicKey = connection.clientPublicKey ∧
    connection.policyGeneration = generation ∧ before.issuedAt ≤ observedAt) .binding
  if before.state ≠ .pending then
    return .exactReplay before
  else do
    let evidence := ⟨binding.correlationId, observedAt, some operationId⟩
    if ← governRateAttempt policy .challengeAuthorization [.connection connectionId] evidence
        .challengeAuthorization then
      resolveChallenge before connection evidence observedAt
    else
      return .rateLimited

/-- The repository's `authorize_challenge`; its check of the result comes after the commit and
is part of the caller's answer only. -/
def authorizeChallenge (config : Configuration) (challengeId connectionId operationId : Id32)
    (generation : PolicyGeneration) (observedAt : TimeUnixMs) : Tx ChallengeAuthorization :=
  withBinding config (authorizeChallengeBody config.governance.challengeAuthorization challengeId
    connectionId operationId generation observedAt)

/-- `apply_admin_challenge_require`: a rate-limited challenge is an error and is rolled back. -/
def applyAdminChallengeRequire (policy : RateLimitPolicy) (request : ChallengeRequest) :
    Tx ChallengeRow := do
  match ← issueChallenge policy request with
  | .created record | .exactReplay record => return record
  | .rateLimited => fail .resourceExhausted

/-- `apply_admin_challenge_authorize` -/
def applyAdminChallengeAuthorize (policy : RateLimitPolicy) (challengeId : Id32)
    (generation : PolicyGeneration) (observedAt : TimeUnixMs) : Tx ChallengeRow := do
  let operationId ← query fun s =>
    (oneRow (s.challenges.filter fun row => row.challengeId = challengeId)).map
      ChallengeRow.operationId
  let before ← query (readChallenge · operationId)
  let before ← orFail before .binding
  require (before.policyGeneration = generation) .conflict
  match ← authorizeChallengeBody policy challengeId before.connectionId before.operationId
      generation observedAt with
  | .resolved record | .exactReplay record => return record
  | .rateLimited => fail .resourceExhausted

end MycSigner
