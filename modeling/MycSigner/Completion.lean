import MycSigner.Connections.Operations

/-!
# Completion of an operation

The completion of an admitted operation is one row, written once.  Its session must be
active at that moment, and a logout ends the session in the same transaction.
-/

namespace MycSigner

open Transaction

/-- One sealed NIP-46 completion request. -/
structure CommitRequest where
  request : RequestRecord
  connectionId : Option Id32
  connectionGeneration : Option PolicyGeneration
  connectDecision : Option Decision
  sessionEffect : SessionEffect
  providerOperationId : Option Id32
  artifact : Option Bytes
  reasonCode : CommitReason
  completedAt : TimeUnixMs
deriving DecidableEq

/-- The row that `commit_operation` inserts. -/
def CommitRequest.row (request : CommitRequest) : CommitRow where
  operationId := request.request.operationId
  correlationId := request.request.correlationId
  method := request.request.method
  connectionId := request.connectionId
  sessionEffect := request.sessionEffect
  providerOperationId := request.providerOperationId
  artifactSha256 := request.artifact.map Sha256.digest
  artifact := request.artifact
  reasonCode := request.reasonCode
  completedAt := request.completedAt

/-- The methods that a provider performs. -/
def Method.usesProvider : Method → Bool
  | .signEvent | .nip04Encrypt | .nip04Decrypt | .nip44Encrypt | .nip44Decrypt => true
  | .connect | .getPublicKey | .getSessionCapability | .ping | .switchRelays | .logout => false

/-- The `CHECK`s of `nip46_operation_commits`. -/
def commitCheck (row : CommitRow) : Bool :=
  row.artifact.all (fun bytes => 1 ≤ bytes.length && bytes.length ≤ 1048576) &&
    (match row.method with
    | .connect =>
        (row.sessionEffect == .connectionAdmitted && row.connectionId.isSome &&
            row.reasonCode == .connectionAdmitted) ||
          (row.sessionEffect == .none && row.connectionId.isNone &&
            row.reasonCode == .connectionDenied)
    | .logout =>
        row.sessionEffect == .connectionRevoked && row.connectionId.isSome &&
          row.reasonCode == .sessionRevoked
    | _ =>
        row.sessionEffect == .none && row.connectionId.isSome && row.reasonCode == .completed) &&
    (row.method.usesProvider == row.providerOperationId.isSome) &&
    ((row.method == .signEvent) == row.artifactSha256.isSome) &&
    ((row.method == .signEvent) == row.artifact.isSome)

def commitInsertAllowed (s : Store) (row : CommitRow) : Bool :=
  commitCheck row && s.commits.all fun other => other.operationId != row.operationId &&
    other.correlationId != row.correlationId &&
    !(row.providerOperationId.isSome && other.providerOperationId == row.providerOperationId)

def commitsTable : TableRef Store CommitRow :=
  ⟨Store.commits, fun rows s => { s with commits := rows }⟩

def insertCommit (row : CommitRow) : Tx Unit := commitsTable.insert commitInsertAllowed .storage row

/-- New or exact-replayed completion result. -/
inductive CommitAdmission where
  | committed
  | exactReplay
deriving DecidableEq

/-- `verify_request` -/
def verifyRequest (request : CommitRequest) : Tx Unit := do
  let row ← query (readRequestBinding · request.request.operationId)
  require (row.correlationId = request.request.correlationId ∧
    row.method = request.request.method ∧ row.receivedAt = request.request.receivedAt ∧
    row.receivedAt ≤ request.completedAt) .binding

/-- `read_commit`: the retained completion must be the requested one. -/
def readCommit (s : Store) (request : CommitRequest) :
    Except OperationError (Option CommitRow) := do
  match ← atMostOneRow (s.commits.filter fun row =>
      row.operationId = request.request.operationId) with
  | some row => do
      .require (row = request.row) .binding
      .ok (some row)
  | none => .ok none

/-- `verify_connect_decision` -/
def verifyConnectDecision (request : CommitRequest) : Tx Unit :=
  match request.connectDecision with
  | none => pure ()
  | some expected => do
      let row ← query fun s =>
        oneRow (s.decisions.filter fun row => row.operationId = request.request.operationId)
      require ((expected = .allowed ∨ expected = .denied) ∧ row.decision = expected ∧
        row.connectionId = request.connectionId) .binding

/-- `verify_or_apply_session_effect` -/
def verifyOrApplySessionEffect (request : CommitRequest) : Tx Unit :=
  match request.connectionId with
  | none => require (request.connectionGeneration = none ∧ request.sessionEffect = .none) .binding
  | some connectionId => do
      let generation ← orFail request.connectionGeneration .binding
      let row ← query fun s =>
        oneRow (s.connections.filter fun row => row.connectionId = connectionId)
      require (row.policyGeneration = generation ∧ row.updatedAt ≤ request.completedAt) .binding
      require (row.status = .active) .binding
      if request.sessionEffect = .connectionRevoked then
        requireOne (← revokeConnectionRow connectionId generation request.completedAt)
      else
        pure ()

/-- `commit_operation` -/
def commitOperation (request : CommitRequest) : Tx CommitAdmission := do
  verifyRequest request
  match ← query (readCommit · request) with
  | some _ => return .exactReplay
  | none => do
      verifyConnectDecision request
      verifyOrApplySessionEffect request
      insertCommit request.row
      let row ← query (readCommit · request)
      let _ ← orFail row .binding
      return .committed

end MycSigner
