import MycSigner.Governance

/-!
# The connection tables: constraints and readers

The `CHECK`s, unique indexes and update triggers of `connections`,
`connection_permissions`, `nip46_request_decisions` and `connection_auth_challenges`, and
the readers that turn rows back into validated records.
-/

namespace MycSigner

/-! ## Row constraints -/

/-- The `CHECK`s of `connections`. -/
def connectionCheck (row : ConnectionRow) : Bool :=
  decide (row.createdAt ≤ row.updatedAt) &&
    row.authorizedUntil.all (fun limit => decide (row.createdAt < limit)) &&
    (row.status == .active || row.authorizedUntil.isNone)

def connectionInsertAllowed (s : Store) (row : ConnectionRow) : Bool :=
  connectionCheck row && s.connections.all fun other => other.connectionId != row.connectionId

/-- The `connections_guard_update` trigger with the `CHECK`s. -/
def connectionUpdateAllowed (old new : ConnectionRow) : Bool :=
  decide ({ new with
    status := old.status, updatedAt := old.updatedAt,
    authorizedUntil := old.authorizedUntil } = old) &&
    decide (old.updatedAt ≤ new.updatedAt) &&
    ((old.status == .pending && new.status == .active &&
        new.authorizedUntil.all (fun limit => decide (new.updatedAt < limit))) ||
      (old.status == .pending && new.status == .denied && new.authorizedUntil.isNone) ||
      (old.status == .active && new.status == .expired && new.authorizedUntil.isNone)) &&
    connectionCheck new

def permissionInsertAllowed (s : Store) (row : PermissionRow) : Bool := row ∉ s.permissions

/-- The combination of columns that a decision may have. -/
def decisionCheck (row : DecisionRow) : Bool :=
  match row.decision, row.reasonCode with
  | .denied, .policyDenied => row.connectionId.isNone && row.challengeId.isNone
  | .pendingApproval, .explicitApprovalRequired | .allowed, .trustedClient
  | .allowed, .operatorApproved | .denied, .operatorDenied =>
      row.connectionId.isSome && row.challengeId.isNone
  | .challenged, .authorizationChallengeRequired
  | .allowed, .authorizationChallengeAuthorized
  | .denied, .authorizationChallengeExpired => row.connectionId.isSome && row.challengeId.isSome
  | _, _ => false

def decisionInsertAllowed (s : Store) (row : DecisionRow) : Bool :=
  decisionCheck row && s.decisions.all fun other => other.operationId != row.operationId &&
    !(row.challengeId.isSome && other.challengeId == row.challengeId)

/-- The `nip46_request_decisions_guard_update` trigger with the `CHECK`s. -/
def decisionUpdateAllowed (old new : DecisionRow) : Bool :=
  decide ({ new with
    decision := old.decision, reasonCode := old.reasonCode, decidedAt := old.decidedAt } = old) &&
    decide (old.decidedAt ≤ new.decidedAt) &&
    ((old.decision == .pendingApproval && new.decision == .allowed &&
        new.reasonCode == .operatorApproved) ||
      (old.decision == .pendingApproval && new.decision == .denied &&
        new.reasonCode == .operatorDenied) ||
      (old.decision == .challenged && new.decision == .allowed &&
        new.reasonCode == .authorizationChallengeAuthorized) ||
      (old.decision == .challenged && new.decision == .denied &&
        new.reasonCode == .authorizationChallengeExpired)) &&
    decisionCheck new

/-- The `CHECK`s of `connection_auth_challenges`. -/
def challengeCheck (row : ChallengeRow) : Bool :=
  decide (row.issuedAt < row.expiresAt) &&
    row.resolvedAt.all (fun resolved => decide (row.issuedAt ≤ resolved)) &&
    ((row.state == .pending) == row.resolvedAt.isNone)

def challengeInsertAllowed (s : Store) (row : ChallengeRow) : Bool :=
  challengeCheck row && s.challenges.all fun other =>
    other.challengeId != row.challengeId && other.operationId != row.operationId

/-- The `connection_auth_challenges_guard_update` trigger with the `CHECK`s. -/
def challengeUpdateAllowed (old new : ChallengeRow) : Bool :=
  decide ({ new with state := old.state, resolvedAt := old.resolvedAt } = old) &&
    (old.state == .pending && (new.state == .authorized || new.state == .expired) &&
      new.resolvedAt.any (fun resolved => decide (old.issuedAt ≤ resolved))) &&
    challengeCheck new

/-! ## The tables in the store -/

def connectionsTable : TableRef Store ConnectionRow :=
  ⟨Store.connections, fun rows s => { s with connections := rows }⟩

def permissionsTable : TableRef Store PermissionRow :=
  ⟨Store.permissions, fun rows s => { s with permissions := rows }⟩

def decisionsTable : TableRef Store DecisionRow :=
  ⟨Store.decisions, fun rows s => { s with decisions := rows }⟩

def challengesTable : TableRef Store ChallengeRow :=
  ⟨Store.challenges, fun rows s => { s with challenges := rows }⟩

def insertConnectionRow (row : ConnectionRow) : Tx Unit :=
  connectionsTable.insert connectionInsertAllowed .storage row

def insertPermission (row : PermissionRow) : Tx Unit :=
  permissionsTable.insert permissionInsertAllowed .storage row

def insertDecision (row : DecisionRow) : Tx Unit :=
  decisionsTable.insert decisionInsertAllowed .storage row

def insertChallenge (row : ChallengeRow) : Tx Unit :=
  challengesTable.insert challengeInsertAllowed .storage row

def updateConnections : (ConnectionRow → Bool) → (ConnectionRow → ConnectionRow) → Tx ℕ :=
  connectionsTable.update connectionUpdateAllowed .storage

def updateDecisions : (DecisionRow → Bool) → (DecisionRow → DecisionRow) → Tx ℕ :=
  decisionsTable.update decisionUpdateAllowed .storage

def updateChallenges : (ChallengeRow → Bool) → (ChallengeRow → ChallengeRow) → Tx ℕ :=
  challengesTable.update challengeUpdateAllowed .storage

/-! ## Identities -/

/-- `derive_connection_id` -/
def deriveConnectionId (client : PublicKey) (nonce : Id32) : Id32 :=
  Sha256.digest (domain "radroots.myc.connection.v1" ++ client.asHex ++ nonce.bytes)

/-- `derive_challenge_id` -/
def deriveChallengeId (operationId connectionId nonce : Id32) : Id32 :=
  Sha256.digest (domain "radroots.myc.authorization_challenge.v1" ++ operationId.bytes ++
    connectionId.bytes ++ nonce.bytes)

/-! ## Readers -/

/-- The row that a query by a primary key must find. -/
def oneRow {α : Type} (rows : List α) : Except OperationError α :=
  match rows with
  | [row] => .ok row
  | _ => .error .binding

/-- The row that a query by a primary key may find. -/
def atMostOneRow {α : Type} (rows : List α) : Except OperationError (Option α) :=
  match rows with
  | [] => .ok none
  | [row] => .ok (some row)
  | _ :: _ :: _ => .error .binding

/-- `read_request_binding` -/
def readRequestBinding (s : Store) (operationId : Id32) : Except OperationError RequestRow :=
  oneRow (s.requests.filter fun row => row.operationId = operationId)

/-- The permissions of a connection in one scope. -/
def permissionsOf (s : Store) (connectionId : Id32) (scope : PermissionScope) : List Permission :=
  (s.permissions.filter fun row => row.connectionId = connectionId ∧
    row.permissionScope = scope).map PermissionRow.permission

/-- `read_permissions`; the query stops at one row more than the maximum. -/
def readPermissions (s : Store) (connectionId : Id32) (scope : PermissionScope) :
    Except OperationError PermissionSet := do
  let rows := (permissionsOf s connectionId scope).take 65
  .require (rows.length ≤ 64) .binding
  .ofOption .binding (PermissionSet.new rows)

/-- Validated durable connection record. -/
structure ConnectionRecord where
  id : Id32
  clientPublicKey : PublicKey
  requestedPermissions : PermissionSet
  grantedPermissions : PermissionSet
  policyGeneration : PolicyGeneration
  status : ConnectionStatus
  createdAt : TimeUnixMs
  updatedAt : TimeUnixMs
  authorizedUntil : Option TimeUnixMs
deriving DecidableEq

/-- What `read_connection` accepts of a row and its permissions. -/
def connectionReadable (row : ConnectionRow) (requested granted : PermissionSet) : Bool :=
  !(deriveConnectionId row.clientPublicKey row.connectionNonce != row.connectionId ||
    requested.digest != row.requestedPermissionsSha256 || !granted.isSubsetOf requested ||
    decide (row.updatedAt < row.createdAt) ||
    ((row.status == .pending || row.status == .denied) && !granted.permissions.isEmpty) ||
    (row.status == .active &&
      row.authorizedUntil.any (fun limit => decide (limit ≤ row.updatedAt))) ||
    ((row.status == .denied || row.status == .expired) && row.authorizedUntil.isSome))

/-- The record of a row. -/
def ConnectionRow.record (row : ConnectionRow) (requested granted : PermissionSet) :
    ConnectionRecord where
  id := row.connectionId
  clientPublicKey := row.clientPublicKey
  requestedPermissions := requested
  grantedPermissions := granted
  policyGeneration := row.policyGeneration
  status := row.status
  createdAt := row.createdAt
  updatedAt := row.updatedAt
  authorizedUntil := row.authorizedUntil

/-- `read_connection` -/
def readConnection (s : Store) (id : Id32) : Except OperationError ConnectionRecord := do
  let row ← oneRow (s.connections.filter fun row => row.connectionId = id)
  let requested ← readPermissions s id .requested
  let granted ← readPermissions s id .granted
  .require (connectionReadable row requested granted = true) .binding
  .ok (row.record requested granted)

/-- The admission policy behind a reason; a challenge decision has none. -/
def DecisionReason.admissionPolicy : DecisionReason → Option AdmissionPolicy
  | .trustedClient => some .trusted
  | .explicitApprovalRequired | .operatorApproved | .operatorDenied => some .explicitApproval
  | .policyDenied => some .denied
  | .authorizationChallengeRequired | .authorizationChallengeAuthorized
  | .authorizationChallengeExpired => none

/-- `read_decision` -/
def readDecision (s : Store) (operationId : Id32) : Except OperationError (Option DecisionRow) := do
  match ← atMostOneRow (s.decisions.filter fun row => row.operationId = operationId) with
  | some row => do
      .require (decisionCheck row = true) .binding
      .ok (some row)
  | none => .ok none

/-- Durable result for initial connection admission. -/
structure DecisionRecord where
  operationId : Id32
  connection : Option ConnectionRecord
  decision : Decision
  policyGeneration : PolicyGeneration
  decidedAt : TimeUnixMs
deriving DecidableEq

/-- The status that a connection must have beside its decision. -/
def decisionStateMatches (policy : Option AdmissionPolicy) (decision : Decision)
    (connection : Option ConnectionRecord) : Bool :=
  match policy, decision, connection with
  | some .denied, .denied, none => true
  | some .trusted, .allowed, some connection =>
      connection.status == .active || connection.status == .expired
  | some .explicitApproval, .pendingApproval, some connection => connection.status == .pending
  | some .explicitApproval, .allowed, some connection =>
      connection.status == .active || connection.status == .expired
  | some .explicitApproval, .denied, some connection => connection.status == .denied
  | _, _, _ => false

/-- The connection that a decision names. -/
def decisionConnection (s : Store) (decision : DecisionRow) :
    Except OperationError (Option ConnectionRecord) :=
  match decision.connectionId with
  | some id => (readConnection s id).map some
  | none => .ok none

/-- `decision_record` -/
def decisionRecord (s : Store) (operationId : Id32) (decision : DecisionRow) :
    Except OperationError DecisionRecord := do
  let connection ← decisionConnection s decision
  .require (¬ (connection.any (fun value =>
      value.requestedPermissions.digest != decision.requestedPermissionsSha256) = true ∨
    decision.challengeId.isSome = true)) .binding
  .require (decisionStateMatches decision.reasonCode.admissionPolicy decision.decision
    connection = true) .binding
  .ok { operationId, connection, decision := decision.decision,
        policyGeneration := decision.policyGeneration, decidedAt := decision.decidedAt }

/-- What `parse_challenge` accepts. -/
def challengeReadable (row : ChallengeRow) : Bool :=
  !(deriveChallengeId row.operationId row.connectionId row.challengeNonce != row.challengeId ||
    decide (row.expiresAt ≤ row.issuedAt) ||
    (row.state == .pending && row.resolvedAt.isSome) ||
    (row.state != .pending &&
      row.resolvedAt.all (fun resolved => decide (resolved < row.issuedAt))))

/-- `read_challenge`; the record is the row. -/
def readChallenge (s : Store) (operationId : Id32) :
    Except OperationError (Option ChallengeRow) := do
  match ← atMostOneRow (s.challenges.filter fun row => row.operationId = operationId) with
  | some row => do
      .require (challengeReadable row = true) .binding
      .ok (some row)
  | none => .ok none

end MycSigner
