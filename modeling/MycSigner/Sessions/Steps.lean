import MycSigner.Delivery.Refinement
import MycSigner.Sessions.Frames
import MycSigner.System

/-!
# What an operation can do to the sessions

A committed operation leaves the tables of sessions, decisions, challenges and completions
as they were, or performs one of the steps below.  Each step is a guard on the store before
it and the exact tables after it; the audit trail and the rate windows, which no guard reads,
are left open.  Every later result about sessions is proved from `SessionStep` and never
takes an operation apart again.
-/

namespace MycSigner

open Transaction

/-! ## The rows a step writes -/

/-- The rows of a permission set. -/
def permissionRows (connectionId : Id32) (scope : PermissionScope) (set : PermissionSet) :
    List PermissionRow :=
  set.permissions.map fun permission => ⟨connectionId, scope, permission⟩

namespace AdmissionRequest

/-- The identity of the connection that the request may create. -/
def connectionId (request : AdmissionRequest) : Id32 :=
  deriveConnectionId request.clientPublicKey request.nonce

/-- The connection that the admission inserts. -/
def connectionRows (request : AdmissionRequest) : List ConnectionRow :=
  match request.policy with
  | .trusted => [newConnectionRow request .active]
  | .explicitApproval => [newConnectionRow request .pending]
  | .denied => []

/-- The permissions that the admission inserts. -/
def permissionRows (request : AdmissionRequest) : List PermissionRow :=
  match request.policy with
  | .trusted =>
      MycSigner.permissionRows request.connectionId .requested request.requestedPermissions ++
        MycSigner.permissionRows request.connectionId .granted request.requestedPermissions
  | .explicitApproval =>
      MycSigner.permissionRows request.connectionId .requested request.requestedPermissions
  | .denied => []

/-- The connection that the decision names. -/
def decidedConnection (request : AdmissionRequest) : Option Id32 :=
  match request.policy with
  | .trusted | .explicitApproval => some request.connectionId
  | .denied => none

end AdmissionRequest

/-! ## The stores a step leaves -/

def Store.admitted (s : Store) (request : AdmissionRequest) : Store :=
  { s with
    connections := s.connections ++ request.connectionRows
    permissions := s.permissions ++ request.permissionRows
    decisions := s.decisions ++ [newAdmissionDecision request request.decidedConnection] }

/-- The decision of a pending approval. -/
def Store.decided (s : Store) (operationId connectionId : Id32) (generation : PolicyGeneration)
    (observedAt : TimeUnixMs) (decision : Decision) (reason : DecisionReason) : Store :=
  { s with
    decisions := Table.update
      (fun row => row.operationId = operationId ∧ row.connectionId = some connectionId ∧
        row.decision = .pendingApproval ∧ row.policyGeneration = generation)
      (fun row => { row with decision, reasonCode := reason, decidedAt := observedAt })
      s.decisions }

/-- A pending connection in a new status. -/
def Store.settled (s : Store) (connectionId : Id32) (generation : PolicyGeneration)
    (observedAt : TimeUnixMs) (status : ConnectionStatus) (authorizedUntil : Option TimeUnixMs) :
    Store :=
  { s with
    connections := Table.update
      (fun row => row.connectionId = connectionId ∧ row.status = .pending ∧
        row.policyGeneration = generation)
      (fun row => { row with status, updatedAt := observedAt, authorizedUntil })
      s.connections }

def Store.granted (s : Store) (connectionId : Id32) (set : PermissionSet) : Store :=
  { s with permissions := s.permissions ++ permissionRows connectionId .granted set }

def Store.approved (s : Store) (operationId connectionId : Id32) (generation : PolicyGeneration)
    (observedAt : TimeUnixMs) (set : PermissionSet) (authorizedUntil : Option TimeUnixMs) : Store :=
  ((s.granted connectionId set).settled connectionId generation observedAt .active
    authorizedUntil).decided operationId connectionId generation observedAt .allowed
      .operatorApproved

def Store.denied (s : Store) (operationId connectionId : Id32) (generation : PolicyGeneration)
    (observedAt : TimeUnixMs) : Store :=
  (s.settled connectionId generation observedAt .denied none).decided operationId connectionId
    generation observedAt .denied .operatorDenied

/-- An active session ends; expiry asks for a passed limit besides. -/
def endSession (connectionId : Id32) (generation : PolicyGeneration) (observedAt : TimeUnixMs)
    (limited : ConnectionRow → Bool) (connections : List ConnectionRow) : List ConnectionRow :=
  Table.update
    (fun row => row.connectionId = connectionId ∧ row.status = .active ∧
      row.policyGeneration = generation ∧ limited row = true)
    (fun row => { row with status := .expired, updatedAt := observedAt, authorizedUntil := none })
    connections

def Store.ended (s : Store) (connectionId : Id32) (generation : PolicyGeneration)
    (observedAt : TimeUnixMs) (limited : ConnectionRow → Bool) : Store :=
  { s with connections := endSession connectionId generation observedAt limited s.connections }

def Store.challenged (s : Store) (request : ChallengeRequest) (connection : ConnectionRecord) :
    Store :=
  { s with
    challenges := s.challenges ++ [newChallengeRow request]
    decisions := s.decisions ++ [newChallengeDecision request connection] }

/-- A pending challenge and its decision are resolved together. -/
def Store.challengeResolved (s : Store) (challenge : ChallengeRow) (state : ChallengeState)
    (decision : Decision) (reason : DecisionReason) (observedAt : TimeUnixMs) : Store :=
  { s with
    challenges := Table.update
      (fun row => row.challengeId = challenge.challengeId ∧
        row.connectionId = challenge.connectionId ∧ row.operationId = challenge.operationId ∧
        row.policyGeneration = challenge.policyGeneration ∧ row.state = .pending)
      (fun row => { row with state, resolvedAt := some observedAt }) s.challenges
    decisions := Table.update
      (fun row => row.operationId = challenge.operationId ∧
        row.connectionId = some challenge.connectionId ∧
        row.challengeId = some challenge.challengeId ∧
        row.policyGeneration = challenge.policyGeneration ∧ row.decision = .challenged)
      (fun row => { row with decision, reasonCode := reason, decidedAt := observedAt })
      s.decisions }

/-- The connections after a completion: a logout ends its session. -/
def CommitRequest.effect (request : CommitRequest) (connections : List ConnectionRow) :
    List ConnectionRow :=
  match request.connectionId, request.connectionGeneration, request.sessionEffect with
  | some connectionId, some generation, .connectionRevoked =>
      endSession connectionId generation request.completedAt (fun _ => true) connections
  | _, _, _ => connections

def Store.effected (s : Store) (request : CommitRequest) : Store :=
  { s with connections := request.effect s.connections }

def Store.completed (s : Store) (request : ResponseCommitRequest) (policy : DeliveryPolicies) :
    Store :=
  Store.created
    { s.effected request.completion with
      commits := s.commits ++ [request.completion.row]
      signedResponses := s.signedResponses ++ [request.row] }
    ⟨.signerResponse, request.completion.request.operationId⟩ request.responseDigest
    request.committedAt policy

def Store.answeredPending (s : Store) (request : PendingResponseCommitRequest)
    (policy : DeliveryPolicies) : Store :=
  Store.created { s with pendingResponses := s.pendingResponses ++ [request.row] }
    ⟨.signerResponse, request.operationId⟩ request.responseDigest request.committedAt policy

/-- Every session ends and every pending request is refused. -/
def Store.identitiesEnded (s : Store) (appliedAtUnixS : ℕ) : Store :=
  { s with
    connections := Table.update (fun row => row.status = .pending)
      (ConnectionRow.endedAs .denied appliedAtUnixS)
      (Table.update (fun row => row.status = .active)
        (ConnectionRow.endedAs .expired appliedAtUnixS) s.connections)
    challenges := Table.update (fun row => row.state = .pending)
      (ChallengeRow.expiredAt appliedAtUnixS) s.challenges }

/-- The sessions whose grants exceed a ceiling end. -/
def Store.narrowed (s : Store) (appliedAtUnixS : ℕ) (ceiling : PermissionSet) : Store :=
  { s with
    connections := Table.update
      (fun row => row.status = .active ∧ exceedsCeiling s ceiling .granted row.connectionId = true)
      (ConnectionRow.endedAs .expired appliedAtUnixS) s.connections
    challenges := Table.update
      (fun row => row.state = .pending ∧
        exceedsCeiling s ceiling .requested row.connectionId = true)
      (ChallengeRow.expiredAt appliedAtUnixS) s.challenges }

/-- The store under a new configuration, its binding left open. -/
def Store.reconfigured (s : Store) (current candidate : Configuration) (appliedAtUnixS : ℕ) :
    Store :=
  if identitiesChanged current.metadata candidate.metadata then s.identitiesEnded appliedAtUnixS
  else if permissionsNarrowed current candidate then
    s.narrowed appliedAtUnixS candidate.connection.permissionCeiling
  else s

/-! ## The guards of a step -/

/-- A connect request may be decided for the first time. -/
structure Admits (config : Configuration) (s : Store) (request : AdmissionRequest) : Prop where
  admitted : config.connection.admitsConnectionRequest request = true
  binding : ∃ row ∈ s.requests, row.operationId = request.operationId ∧
    row.clientPublicKey = request.clientPublicKey ∧ row.method = .connect
  undecided : ∀ row ∈ s.decisions, row.operationId ≠ request.operationId
  fresh : request.policy ≠ .denied →
    ∀ row ∈ s.connections, row.connectionId ≠ request.connectionId
  reads : ∃ record, decisionRecord (s.admitted request) request.operationId
    (newAdmissionDecision request request.decidedConnection) = .ok record

/-- A pending connection may be decided by the operator. -/
structure Decides (s : Store) (operationId connectionId : Id32) (generation : PolicyGeneration)
    (observedAt : TimeUnixMs) : Prop where
  connection : ∃ row ∈ s.connections, row.connectionId = connectionId ∧ row.status = .pending ∧
    row.policyGeneration = generation ∧ row.updatedAt ≤ observedAt
  only : ∀ row ∈ s.connections, ∀ other ∈ s.connections,
    row.connectionId = connectionId → other.connectionId = connectionId → row = other
  ungranted : permissionsOf s connectionId .granted = []
  decision : ∃ row ∈ s.decisions, row.operationId = operationId ∧
    row.connectionId = some connectionId ∧ row.decision = .pendingApproval ∧
    row.policyGeneration = generation

/-- The operation is an approval; the repository's path has consulted the ceiling. -/
inductive Approves (config : Configuration) (connectionId : Id32) (generation : PolicyGeneration)
    (observedAt : TimeUnixMs) (granted : PermissionSet) (authorizedUntil : Option TimeUnixMs) :
    Operation → Prop
  | operator {operationId correlation : Id32}
      (ceiling : granted.isSubsetOf config.connection.permissionCeiling = true) :
      Approves config connectionId generation observedAt granted authorizedUntil
        (.decidePending operationId connectionId generation observedAt correlation
          (.approve granted authorizedUntil))
  | admin {correlation : Id32} :
      Approves config connectionId generation observedAt granted authorizedUntil
        (.adminConnection connectionId generation observedAt correlation
          (.approve granted authorizedUntil))

/-- An active session may be ended. -/
def Ends (s : Store) (connectionId : Id32) (generation : PolicyGeneration) : Prop :=
  ∃ row ∈ s.connections, row.connectionId = connectionId ∧ row.status = .active ∧
    row.policyGeneration = generation

/-- A challenge may be issued for an operation. -/
structure Issues (s : Store) (request : ChallengeRequest) : Prop where
  binding : ∃ row ∈ s.requests, row.operationId = request.operationId ∧ row.method ≠ .connect
  connection : ∃ row ∈ s.connections, row.connectionId = request.connectionId ∧
    row.status = .active
  unchallenged : ∀ row ∈ s.challenges, row.operationId ≠ request.operationId ∧
    row.challengeId ≠ (newChallengeRow request).challengeId
  undecided : ∀ row ∈ s.decisions, row.operationId ≠ request.operationId

/-- A pending challenge may be resolved; the states of both rows agree. -/
structure Resolvable (s : Store) (challenge : ChallengeRow) (state : ChallengeState)
    (decision : Decision) (reason : DecisionReason) : Prop where
  challenge_mem : challenge ∈ s.challenges
  pending : challenge.state = .pending
  states : (state = .authorized ∧ decision = .allowed ∧
      reason = .authorizationChallengeAuthorized) ∨
    (state = .expired ∧ decision = .denied ∧ reason = .authorizationChallengeExpired)

/-- The session of a completion is active, or the completion is a refused connect without one. -/
def sessionActive (s : Store) (request : CommitRequest) : Prop :=
  match request.connectionId with
  | some connectionId => ∃ row ∈ s.connections, row.connectionId = connectionId ∧
      row.status = .active ∧ some row.policyGeneration = request.connectionGeneration
  | none => request.sessionEffect = .none

/-- An operation may be completed. -/
structure Completes (s : Store) (request : ResponseCommitRequest) : Prop where
  binding : ∃ row ∈ s.requests, row.operationId = request.completion.request.operationId ∧
    row.method = request.completion.request.method
  first : ∀ row ∈ s.commits, row.operationId ≠ request.completion.request.operationId
  checked : commitCheck request.completion.row = true
  decided : ∀ expected ∈ request.completion.connectDecision,
    ∃ row ∈ s.decisions, row.operationId = request.completion.request.operationId ∧
      row.decision = expected ∧ (expected = .allowed ∨ expected = .denied)
  active : sessionActive s request.completion
  unanswered : ∀ row ∈ s.signedResponses, row.operationId ≠ request.completion.request.operationId
  unpended : ∀ row ∈ s.pendingResponses, row.operationId ≠ request.completion.request.operationId
  later : ∀ connectionId ∈ request.completion.connectionId, ∀ row ∈ s.connections,
    row.connectionId = connectionId → row.updatedAt ≤ request.completion.completedAt

/-- A connect request and its connection wait for the operator. -/
structure AwaitsDecision (s : Store) (operationId connectionId : Id32) : Prop where
  decision : ∃ row ∈ s.decisions, row.operationId = operationId ∧
    row.connectionId = some connectionId ∧ row.decision = .pendingApproval
  connection : ∃ row ∈ s.connections, row.connectionId = connectionId ∧ row.status = .pending

/-- A connect request may be answered while its decision is pending. -/
structure AnswersPending (s : Store) (request : PendingResponseCommitRequest) : Prop where
  awaits : AwaitsDecision s request.operationId request.connectionId
  unanswered : ∀ row ∈ s.pendingResponses, row.operationId ≠ request.operationId
  uncompleted : ∀ row ∈ s.signedResponses, row.operationId ≠ request.operationId

/-! ## The steps -/

/-- The operations of delivery, of discovery and of their recovery. -/
def Operation.ofOutbox : Operation → Bool
  | .commitDiscovery .. | .promoteDiscovery .. | .claimDelivery .. | .markSubmitted ..
  | .recordOutcome .. | .recoverExpired .. | .recoverBatch .. => true
  | _ => false

/-- What a committed operation can do, the audit trail and the rate windows left open. -/
inductive SessionStep (config : Configuration) (s : Store) : Operation → Store → Prop
  | quiet (operation : Operation) : SessionStep config s operation s
  | requests {request : SignerRequest} {s₁ : Store} (admits : AdmitsRequests s s₁) :
      SessionStep config s (.admitRequest request) s₁
  | outbox {operation : Operation} {s₁ : Store} (outside : s₁.withoutOutbox = s.withoutOutbox)
      (label : operation.ofOutbox = true) : SessionStep config s operation s₁
  | connect {request : AdmissionRequest} (guard : Admits config s request) :
      SessionStep config s (.admitConnection request) (s.admitted request)
  | approve {operation : Operation} {operationId connectionId : Id32}
      {generation : PolicyGeneration} {observedAt : TimeUnixMs} {set : PermissionSet}
      {authorizedUntil : Option TimeUnixMs}
      (label : Approves config connectionId generation observedAt set authorizedUntil operation)
      (guard : Decides s operationId connectionId generation observedAt)
      (reads : ∃ record, readConnection (s.approved operationId connectionId generation observedAt
        set authorizedUntil) connectionId = .ok record) :
      SessionStep config s operation
        (s.approved operationId connectionId generation observedAt set authorizedUntil)
  | deny {operation : Operation} {operationId connectionId : Id32} {generation : PolicyGeneration}
      {observedAt : TimeUnixMs} (guard : Decides s operationId connectionId generation observedAt)
      (reads : ∃ record, readConnection (s.denied operationId connectionId generation observedAt)
        connectionId = .ok record) :
      SessionStep config s operation (s.denied operationId connectionId generation observedAt)
  | finish {operation : Operation} {connectionId : Id32} {generation : PolicyGeneration}
      {observedAt : TimeUnixMs} {limited : ConnectionRow → Bool}
      (guard : Ends s connectionId generation)
      (later : ∀ row ∈ s.connections, row.connectionId = connectionId → row.updatedAt ≤ observedAt) :
      SessionStep config s operation (s.ended connectionId generation observedAt limited)
  | issue {operation : Operation} {request : ChallengeRequest} {connection : ConnectionRecord}
      (guard : Issues s request) :
      SessionStep config s operation (s.challenged request connection)
  | resolve {operation : Operation} {challenge : ChallengeRow} {state : ChallengeState}
      {decision : Decision} {reason : DecisionReason} {observedAt : TimeUnixMs}
      (guard : Resolvable s challenge state decision reason)
      (later : challenge.issuedAt ≤ observedAt) :
      SessionStep config s operation (s.challengeResolved challenge state decision reason observedAt)
  | complete {request : ResponseCommitRequest} (guard : Completes s request) :
      SessionStep config s (.commitResponse request) (s.completed request config.delivery)
  | answerPending {request : PendingResponseCommitRequest} (guard : AnswersPending s request) :
      SessionStep config s (.commitPendingResponse request)
        (s.answeredPending request config.delivery)

end MycSigner
