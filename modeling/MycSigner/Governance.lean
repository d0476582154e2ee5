import MycSigner.Requests

/-!
# Rate windows and audit evidence

An attempt is counted in one window per subject; it is admitted when every window has room.
Each governed operation leaves one audit record per correlation and kind, and replaying the
operation finds that record.  Compaction removes old audit records and expired windows.
-/

namespace MycSigner

open Transaction

/-! ## Subjects and audit identities -/

/-- `hash_framed` -/
def hashFramed (separator : Bytes) (value : Bytes) : Id32 :=
  Sha256.digest (separator ++ lengthPrefixed value)

/-- What a rate window counts. -/
inductive RateSubject where
  | global
  | relay (digest : Id32)
  | connection (connectionId : Id32)
deriving DecidableEq

def relaySubject (relay : RelayId) : RateSubject :=
  .relay (hashFramed (domain "radroots.myc.rate_subject.relay.v1") relay.bytes)

namespace RateSubject

def scope : RateSubject → SubjectScope
  | .global => .global
  | .relay _ => .relay
  | .connection _ => .connection

/-- `subject_parts` -/
def digest : RateSubject → Id32
  | .global => hashFramed (domain "radroots.myc.rate_subject.global.v1") (ascii "global")
  | .relay digest => digest
  | .connection connectionId =>
      hashFramed (domain "radroots.myc.rate_subject.connection.v1") connectionId.bytes

end RateSubject

def AuditKind.asStr : AuditKind → String
  | .connectionAdmission => "connection_admission"
  | .connectionOperatorDecision => "connection_operator_decision"
  | .connectionExpiry => "connection_expiry"
  | .challengeCreation => "challenge_creation"
  | .challengeAuthorization => "challenge_authorization"
  | .governanceCompaction => "governance_compaction"

/-- The kinds that are bound to a request. -/
def AuditKind.requestBound : AuditKind → Bool
  | .connectionAdmission | .challengeCreation | .challengeAuthorization => true
  | .connectionOperatorDecision | .connectionExpiry | .governanceCompaction => false

/-- `derive_audit_id` -/
def deriveAuditId (correlation : Id32) (kind : AuditKind) : Id32 :=
  Sha256.digest (domain "radroots.myc.operation_audit.v1" ++ correlation.bytes ++
    lengthPrefixed (ascii kind.asStr))

/-! ## The tables -/

def auditInsertAllowed (s : Store) (row : AuditRow) : Bool :=
  (1 ≤ row.auditSequence && row.auditSequence ≤ i64Max) &&
    s.audit.all fun other => other.auditSequence != row.auditSequence &&
      other.auditId != row.auditId &&
      !(other.correlationId == row.correlationId && other.auditKind == row.auditKind)

/-- A link names a request and an audit record. -/
def requestAuditInsertAllowed (s : Store) (row : RequestAuditRow) : Bool :=
  row.auditKind.requestBound && s.requests.any (·.operationId == row.operationId) &&
    s.audit.any (·.auditSequence == row.auditSequence) && s.requestAudit.all fun other =>
      other.auditSequence != row.auditSequence &&
        !(other.operationId == row.operationId && other.auditKind == row.auditKind)

/-- The `CHECK`s of `connection_rate_windows`. -/
def rateWindowCheck (row : RateWindowRow) : Bool :=
  1 ≤ row.windowStartedAt && row.windowStartedAt ≤ row.windowEndsAt &&
    row.windowEndsAt ≤ i64Max && row.acceptedCount ≤ 10000 && row.rejectedCount ≤ i64Max &&
    row.acceptedCount ≤ row.lifetimeAcceptedCount && row.lifetimeAcceptedCount ≤ i64Max &&
    row.rejectedCount ≤ row.lifetimeRejectedCount && row.lifetimeRejectedCount ≤ i64Max &&
    row.windowStartedAt ≤ row.lastObservedAt && row.lastObservedAt ≤ i64Max &&
    row.lastObservedAt ≤ row.retentionExpiresAt && row.retentionExpiresAt ≤ i64Max &&
    match row.rateKind with
    | .connectionAdmission => row.subjectScope != .connection
    | .challengeCreation | .challengeAuthorization => row.subjectScope == .connection

def rateWindowInsertAllowed (s : Store) (row : RateWindowRow) : Bool :=
  rateWindowCheck row && s.rateWindows.all fun other =>
    !(other.rateKind == row.rateKind && other.subjectScope == row.subjectScope &&
      other.subjectSha256 == row.subjectSha256)

/-- The `connection_rate_windows_guard_update` trigger with the `CHECK`s. -/
def rateWindowUpdateAllowed (old new : RateWindowRow) : Bool :=
  new.rateKind == old.rateKind && new.subjectScope == old.subjectScope &&
    new.subjectSha256 == old.subjectSha256 && old.windowStartedAt ≤ new.windowStartedAt &&
    new.windowStartedAt ≤ new.windowEndsAt &&
    old.lifetimeAcceptedCount ≤ new.lifetimeAcceptedCount &&
    old.lifetimeRejectedCount ≤ new.lifetimeRejectedCount &&
    old.lastObservedAt ≤ new.lastObservedAt && new.lastObservedAt ≤ new.retentionExpiresAt &&
    ((new.windowStartedAt == old.windowStartedAt && new.windowEndsAt == old.windowEndsAt &&
        ((new.acceptedCount == old.acceptedCount + 1 && new.rejectedCount == old.rejectedCount &&
            new.lifetimeAcceptedCount == old.lifetimeAcceptedCount + 1 &&
            new.lifetimeRejectedCount == old.lifetimeRejectedCount) ||
          (new.acceptedCount == old.acceptedCount && new.rejectedCount == old.rejectedCount + 1 &&
            new.lifetimeAcceptedCount == old.lifetimeAcceptedCount &&
            new.lifetimeRejectedCount == old.lifetimeRejectedCount + 1))) ||
      (old.windowEndsAt < new.windowStartedAt && new.windowStartedAt < new.windowEndsAt &&
        ((new.acceptedCount == 1 && new.rejectedCount == 0) ||
          (new.acceptedCount == 0 && new.rejectedCount == 1)) &&
        new.lifetimeAcceptedCount == old.lifetimeAcceptedCount + new.acceptedCount &&
        new.lifetimeRejectedCount == old.lifetimeRejectedCount + new.rejectedCount)) &&
    rateWindowCheck new

def auditTable : TableRef Store AuditRow := ⟨Store.audit, fun rows s => { s with audit := rows }⟩

def requestAuditTable : TableRef Store RequestAuditRow :=
  ⟨Store.requestAudit, fun rows s => { s with requestAudit := rows }⟩

def rateWindowsTable : TableRef Store RateWindowRow :=
  ⟨Store.rateWindows, fun rows s => { s with rateWindows := rows }⟩

def insertAudit (row : AuditRow) : Tx Unit := auditTable.insert auditInsertAllowed .storage row

def insertRequestAudit (row : RequestAuditRow) : Tx Unit :=
  requestAuditTable.insert requestAuditInsertAllowed .storage row

def insertRateWindow (row : RateWindowRow) : Tx Unit :=
  rateWindowsTable.insert rateWindowInsertAllowed .storage row

def updateRateWindows : (RateWindowRow → Bool) → (RateWindowRow → RateWindowRow) → Tx ℕ :=
  rateWindowsTable.update rateWindowUpdateAllowed .storage

/-! ## Audit records -/

/-- What an operation knows of itself when it leaves evidence. -/
structure AuditEvidence where
  correlation : Id32
  occurredAt : TimeUnixMs
  operationId : Option Id32

/-- Validated audit record. -/
structure AuditRecord where
  sequence : ℕ
  correlationId : Id32
  operationId : Option Id32
  kind : AuditKind
  outcome : AuditOutcome
  reason : AuditReason
  occurredAt : TimeUnixMs
deriving DecidableEq

/-- One row of the two left joins of `READ_AUDIT_BY_ID_SQL`. -/
structure AuditMatch where
  audit : AuditRow
  link : Option RequestAuditRow
  request : Option RequestRow

/-- `READ_AUDIT_BY_ID_SQL` -/
def auditMatches (s : Store) (auditId : Id32) : List AuditMatch :=
  (s.audit.filter fun row => row.auditId = auditId).flatMap fun audit =>
    match s.requestAudit.filter fun link => link.auditSequence = audit.auditSequence with
    | [] => [⟨audit, none, none⟩]
    | links => links.flatMap fun link =>
        match s.requests.filter fun request => request.operationId = link.operationId with
        | [] => [⟨audit, some link, none⟩]
        | requests => requests.map fun request => ⟨audit, some link, some request⟩

/-- `decode_audit` -/
def decodeAudit (found : AuditMatch) : Except OperationError AuditRecord := do
  let kind := found.audit.auditKind
  .require (kind.requestBound = (found.link.isSome &&
    (found.link.map RequestAuditRow.auditKind == some kind) &&
    (found.request.map RequestRow.correlationId == some found.audit.correlationId))) .binding
  .require (kind.requestBound = true ∨ (found.link = none ∧ found.request = none)) .binding
  .ok { sequence := found.audit.auditSequence, correlationId := found.audit.correlationId,
        operationId := found.link.map RequestAuditRow.operationId, kind := kind,
        outcome := found.audit.outcome, reason := found.audit.reasonCode,
        occurredAt := found.audit.occurredAt }

/-- `read_audit_by_id` -/
def readAuditById (s : Store) (auditId : Id32) : Except OperationError (Option AuditRecord) :=
  match auditMatches s auditId with
  | [] => .ok none
  | [found] => (decodeAudit found).map some
  | _ :: _ :: _ => .error .binding

/-- `ADVANCE_AUDIT_STATE_SQL` and the guard on the sequence. -/
def advanceAuditState : Tx ℕ := do
  let current ← query fun s => .ok s.nextAuditSequence
  require (current + 1 ≤ i64Max) .binding
  modify fun s => { s with nextAuditSequence := current + 1 }
  return current + 1

/-- Links an audit record to its request. -/
def linkRequestAudit (operationId : Option Id32) (kind : AuditKind) (sequence : ℕ) : Tx Unit :=
  match operationId with
  | some operationId =>
      insertRequestAudit { operationId, auditKind := kind, auditSequence := sequence }
  | none => pure ()

/-- `record_audit` -/
def recordAudit (evidence : AuditEvidence) (kind : AuditKind) (outcome : AuditOutcome)
    (reason : AuditReason) : Tx Unit := do
  let auditId := deriveAuditId evidence.correlation kind
  match ← query (readAuditById · auditId) with
  | some existing =>
      require (existing.correlationId = evidence.correlation ∧
        existing.operationId = evidence.operationId ∧ existing.kind = kind ∧
        existing.outcome = outcome ∧ existing.reason = reason ∧
        existing.occurredAt = evidence.occurredAt) .binding
  | none => do
      let sequence ← advanceAuditState
      insertAudit
        { auditSequence := sequence, auditId, correlationId := evidence.correlation,
          auditKind := kind, outcome, reasonCode := reason, occurredAt := evidence.occurredAt }
      linkRequestAudit evidence.operationId kind sequence

/-! ## Rate windows -/

/-- A window as an attempt sees it. -/
structure RateState where
  subject : RateSubject
  existingLast : Option ℕ
  windowStarted : ℕ
  windowEnds : ℕ
  accepted : ℕ
  rejected : ℕ
  lifetimeAccepted : ℕ
  lifetimeRejected : ℕ
deriving DecidableEq

def RateState.canAccept (state : RateState) (policy : RateLimitPolicy) : Bool :=
  state.accepted < policy.maxAttempts

/-- `checked_time_add` -/
def checkedTimeAdd (left right : ℕ) : Except OperationError ℕ :=
  if left + right ≤ i64Max then .ok (left + right) else .error .binding

/-- The window of a subject that has no row. -/
def freshRateState (s : Store) (policy : RateLimitPolicy) (subject : RateSubject) (now : ℕ) :
    Except OperationError RateState := do
  .require (subject.scope = .global ∨
    (s.rateWindows.filter fun row => row.rateKind = policy.rateClass ∧
      row.subjectScope = subject.scope).length < policy.maximumTrackedSubjects) .binding
  let windowEnds ← checkedTimeAdd now policy.windowMs
  .ok { subject, existingLast := none, windowStarted := now, windowEnds, accepted := 0,
        rejected := 0, lifetimeAccepted := 0, lifetimeRejected := 0 }

/-- The window of a subject that has a row; an ended window starts again. -/
def existingRateState (row : RateWindowRow) (policy : RateLimitPolicy) (subject : RateSubject)
    (now : ℕ) : Except OperationError RateState := do
  let last := row.lastObservedAt
  .require (last ≤ now ∧ row.windowStartedAt ≤ last ∧ last ≤ row.windowEndsAt ∧
    last ≤ row.retentionExpiresAt ∧ row.acceptedCount ≤ policy.maxAttempts) .binding
  if row.windowEndsAt < now then do
    let windowEnds ← checkedTimeAdd now policy.windowMs
    .ok { subject, existingLast := some last, windowStarted := now, windowEnds, accepted := 0,
          rejected := 0, lifetimeAccepted := row.lifetimeAcceptedCount,
          lifetimeRejected := row.lifetimeRejectedCount }
  else
    .ok { subject, existingLast := some last, windowStarted := row.windowStartedAt,
          windowEnds := row.windowEndsAt, accepted := row.acceptedCount,
          rejected := row.rejectedCount, lifetimeAccepted := row.lifetimeAcceptedCount,
          lifetimeRejected := row.lifetimeRejectedCount }

/-- `load_rate_state` -/
def loadRateState (s : Store) (policy : RateLimitPolicy) (subject : RateSubject)
    (observedAt : TimeUnixMs) : Except OperationError RateState :=
  match s.rateWindows.filter fun row => row.rateKind = policy.rateClass ∧
      row.subjectScope = subject.scope ∧ row.subjectSha256 = subject.digest with
  | [] => freshRateState s policy subject observedAt.get
  | [row] => existingRateState row policy subject observedAt.get
  | _ :: _ :: _ => .error .binding

/-- The row that `persist_rate_state` writes. -/
def RateState.row (state : RateState) (policy : RateLimitPolicy) (observedAt : TimeUnixMs)
    (admitted : Bool) (retentionExpires : ℕ) : RateWindowRow where
  rateKind := policy.rateClass
  subjectScope := state.subject.scope
  subjectSha256 := state.subject.digest
  windowStartedAt := state.windowStarted
  windowEndsAt := state.windowEnds
  acceptedCount := state.accepted + admitted.toNat
  rejectedCount := state.rejected + (!admitted).toNat
  lifetimeAcceptedCount := state.lifetimeAccepted + admitted.toNat
  lifetimeRejectedCount := state.lifetimeRejected + (!admitted).toNat
  lastObservedAt := observedAt.get
  retentionExpiresAt := retentionExpires

/-- `persist_rate_state`; here a missing row is a binding error. -/
def persistRateState (policy : RateLimitPolicy) (observedAt : TimeUnixMs) (admitted : Bool)
    (state : RateState) : Tx Unit := do
  require (state.accepted + admitted.toNat ≤ i64Max ∧
    state.rejected + (!admitted).toNat ≤ i64Max ∧
    state.lifetimeAccepted + admitted.toNat ≤ i64Max ∧
    state.lifetimeRejected + (!admitted).toNat ≤ i64Max) .binding
  let retentionExpires ← query fun _ => checkedTimeAdd observedAt.get policy.retentionMs
  let new := state.row policy observedAt admitted retentionExpires
  match state.existingLast with
  | some last => do
      let rows ← updateRateWindows
        (fun row => row.rateKind = new.rateKind ∧ row.subjectScope = new.subjectScope ∧
          row.subjectSha256 = new.subjectSha256 ∧ row.lastObservedAt = last) (fun _ => new)
      require (rows = 1) .binding
  | none => insertRateWindow new

/-- `govern_rate_attempt` -/
def governRateAttempt (policy : RateLimitPolicy) (expectedClass : RateLimitClass)
    (subjects : List RateSubject) (evidence : AuditEvidence) (auditKind : AuditKind) :
    Tx Bool := do
  require (policy.rateClass = expectedClass ∧ subjects ≠ [] ∧ subjects.length ≤ 2) .binding
  match ← query (readAuditById · (deriveAuditId evidence.correlation auditKind)) with
  | some existing => do
      require (existing.correlationId = evidence.correlation ∧
        existing.operationId = evidence.operationId ∧ existing.kind = auditKind ∧
        existing.outcome = .rejected ∧ existing.reason = .rateLimited) .binding
      return false
  | none => do
      let states ← query fun s =>
        subjects.mapM (loadRateState s policy · evidence.occurredAt)
      let admitted := states.all (·.canAccept policy)
      states.forM (persistRateState policy evidence.occurredAt admitted)
      if admitted then
        return true
      else do
        recordAudit evidence auditKind .rejected .rateLimited
        return false

/-! ## Compaction -/

/-- The order of the stored class names. -/
def RateLimitClass.textOrder : RateLimitClass → ℕ
  | .challengeAuthorization => 0
  | .challengeCreation => 1
  | .connectionAdmission => 2

/-- The order of the stored scope names. -/
def SubjectScope.textOrder : SubjectScope → ℕ
  | .connection => 0
  | .global => 1
  | .relay => 2

/-- The order in which compaction retires windows. -/
def RateWindowRow.retiresBefore (left right : RateWindowRow) : Bool :=
  ((compare left.retentionExpiresAt right.retentionExpiresAt).then <|
    (compare left.rateKind.textOrder right.rateKind.textOrder).then <|
    (compare left.subjectScope.textOrder right.subjectScope.textOrder).then <|
    compare left.subjectSha256.toNat right.subjectSha256.toNat).isLE

/-- Deletes the rows of the two audit tables with one of the sequences. -/
def deleteAudit (sequences : List ℕ) : Tx Unit :=
  modify fun s => { s with
    requestAudit := s.requestAudit.filter fun row => row.auditSequence ∉ sequences
    audit := s.audit.filter fun row => row.auditSequence ∉ sequences }

/-- Deletes rate windows. -/
def deleteRateWindows (rows : List RateWindowRow) : Tx Unit :=
  modify fun s => { s with rateWindows := s.rateWindows.filter fun row => row ∉ rows }

/-- `compact_governance` -/
def compactGovernance (observedAt : TimeUnixMs) (auditRetentionMs maximumRowsPerClass : ℕ)
    (correlation : Id32) : Tx Unit := do
  match ← query (readAuditById · (deriveAuditId correlation .governanceCompaction)) with
  | some existing =>
      require (existing.correlationId = correlation ∧ existing.operationId = none ∧
        existing.kind = .governanceCompaction ∧ existing.outcome = .succeeded ∧
        existing.reason = .compacted ∧ existing.occurredAt = observedAt) .binding
  | none => do
      let cutoff := observedAt.get - auditRetentionMs
      let sequences ← query fun s => .ok
        (((Table.ordered (fun left right => left.auditSequence ≤ right.auditSequence)
          (s.audit.filter fun row => row.occurredAt.get < cutoff)).take maximumRowsPerClass).map
            AuditRow.auditSequence)
      let windows ← query fun s => .ok
        ((Table.ordered RateWindowRow.retiresBefore
          (s.rateWindows.filter fun row => row.retentionExpiresAt < observedAt.get)).take
            maximumRowsPerClass)
      deleteAudit sequences
      deleteRateWindows windows
      require (sequences.length < 65536 ∧ windows.length < 65536) .binding
      recordAudit ⟨correlation, observedAt, none⟩ .governanceCompaction .succeeded .compacted

end MycSigner
