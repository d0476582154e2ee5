import MycSigner.Store

/-!
# The delivery tables: constraints and readers

The `CHECK`s, unique indexes and update triggers of `delivery_jobs`, `delivery_targets` and
`delivery_attempts`, and the readers that turn rows back into records.  A reader returns the
row itself or refuses it, so a record is a row together with the rows below it.
-/

namespace MycSigner

/-! ## Status vocabulary -/

/-- `is_terminal` -/
def JobStatus.isTerminal : JobStatus → Bool
  | .delivered | .failed | .unknown => true
  | .pending | .active => false

/-- `status IN ('pending', 'active')` -/
def JobStatus.isOpen (status : JobStatus) : Bool := !status.isTerminal

/-- A target that holds a lease. -/
def TargetStatus.isActive : TargetStatus → Bool
  | .leased | .submitted => true
  | _ => false

/-- An attempt that has not been resolved. -/
def AttemptStatus.isLive : AttemptStatus → Bool
  | .leased | .submitted => true
  | _ => false

/-! ## Row constraints -/

/-- The `CHECK`s of `delivery_jobs`. -/
def jobCheck (row : JobRow) : Bool :=
  (1 ≤ row.requiredAcknowledgements && row.requiredAcknowledgements ≤ 32) &&
    (1 ≤ row.maxAttempts && row.maxAttempts ≤ 32) &&
    (1 ≤ row.initialBackoffMs && row.initialBackoffMs ≤ 30000) &&
    (row.initialBackoffMs ≤ row.maximumBackoffMs && row.maximumBackoffMs ≤ 300000) &&
    (1 ≤ row.attemptDeadlineMs && row.attemptDeadlineMs ≤ 30000) &&
    decide (row.createdAt ≤ row.updatedAt) &&
    row.finalizedAt.all (fun finalized => decide (row.createdAt ≤ finalized)) &&
    (row.status.isTerminal == row.finalizedAt.isSome)

/-- The `delivery_jobs_guard_insert` trigger. -/
def jobSourceKnown (s : Store) (row : JobRow) : Bool :=
  match row.sourceKind with
  | .signerResponse => s.requests.any fun request => request.operationId == row.sourceId
  | .discoveryHandler => s.desired.any fun desired => desired.generationId == row.sourceId

def jobInsertAllowed (s : Store) (row : JobRow) : Bool :=
  jobCheck row && jobSourceKnown s row &&
    s.jobs.all fun other => other.jobId != row.jobId &&
      !(other.sourceKind == row.sourceKind && other.sourceId == row.sourceId)

/-- The `delivery_jobs_guard_update` trigger with the `CHECK`s. -/
def jobUpdateAllowed (old new : JobRow) : Bool :=
  decide ({ new with
    status := old.status, updatedAt := old.updatedAt, finalizedAt := old.finalizedAt } = old) &&
    decide (old.updatedAt ≤ new.updatedAt) &&
    ((old.status == .pending && new.status == .active && new.finalizedAt.isNone) ||
      (old.status.isOpen && new.status.isTerminal && new.finalizedAt.isSome)) &&
    jobCheck new

/-- The `CHECK`s of `delivery_targets`. -/
def targetCheck (row : TargetRow) : Bool :=
  row.targetIndex ≤ 31 && row.attemptCount ≤ 32 &&
    match row.status with
    | .leased | .submitted => row.activeAttemptId.isSome && row.nextAttemptAt.isNone
    | .retryable => row.activeAttemptId.isNone && row.nextAttemptAt.isSome
    | .unknown => row.activeAttemptId.isNone
    | .pending | .delivered | .exhausted => row.activeAttemptId.isNone && row.nextAttemptAt.isNone

def targetInsertAllowed (s : Store) (row : TargetRow) : Bool :=
  targetCheck row &&
    s.targets.all fun other => !(other.jobId == row.jobId &&
      (other.targetIndex == row.targetIndex || other.relayId == row.relayId))

/-- The `delivery_targets_guard_update` trigger with the `CHECK`s. -/
def targetUpdateAllowed (old new : TargetRow) : Bool :=
  new.jobId == old.jobId && new.targetIndex == old.targetIndex &&
    new.relayId == old.relayId && new.required == old.required &&
    decide (old.updatedAt ≤ new.updatedAt) &&
    (((old.status == .pending || old.status == .retryable || old.status == .unknown) &&
        new.status == .leased && new.attemptCount == old.attemptCount + 1 &&
        new.activeAttemptId.isSome && new.nextAttemptAt.isNone) ||
      (old.status == .leased && new.status == .submitted &&
        new.attemptCount == old.attemptCount && new.activeAttemptId == old.activeAttemptId &&
        new.nextAttemptAt.isNone) ||
      (old.status.isActive && new.attemptCount == old.attemptCount &&
        new.activeAttemptId.isNone &&
        match new.status with
        | .retryable => new.nextAttemptAt.isSome
        | .unknown => true
        | .delivered | .exhausted => new.nextAttemptAt.isNone
        | .pending | .leased | .submitted => false)) &&
    targetCheck new

/-- The part of the `CHECK`s of `delivery_attempts` that fixes the shape of each status. -/
def attemptShape (row : AttemptRow) : Bool :=
  match row.status with
  | .leased => row.submittedAt.isNone && row.resolvedAt.isNone && row.reasonCode.isNone
  | .submitted => row.submittedAt.isSome && row.resolvedAt.isNone && row.reasonCode.isNone
  | .delivered =>
      row.submittedAt.isSome && row.resolvedAt.isSome && row.reasonCode == some .accepted
  | .failed =>
      row.resolvedAt.isSome &&
        (row.reasonCode == some .relayRejected || row.reasonCode == some .transportFailed ||
          row.reasonCode == some .leaseExpiredBeforeSubmit)
  | .unknown =>
      row.submittedAt.isSome && row.resolvedAt.isSome &&
        row.reasonCode == some .acknowledgementLost

/-- The `CHECK`s of `delivery_attempts`. -/
def attemptCheck (row : AttemptRow) : Bool :=
  row.targetIndex ≤ 31 && (1 ≤ row.attemptNumber && row.attemptNumber ≤ 32) &&
    decide (row.leasedAt < row.leaseExpiresAt) &&
    row.submittedAt.all (fun submitted =>
      decide (row.leasedAt ≤ submitted) && decide (submitted ≤ row.leaseExpiresAt)) &&
    row.resolvedAt.all (fun resolved => decide (row.leasedAt ≤ resolved)) &&
    attemptShape row

def attemptInsertAllowed (s : Store) (row : AttemptRow) : Bool :=
  attemptCheck row &&
    s.attempts.all fun other => other.attemptId != row.attemptId &&
      !(other.jobId == row.jobId && other.targetIndex == row.targetIndex &&
        (other.attemptNumber == row.attemptNumber || other.attemptNonce == row.attemptNonce))

/-- The `delivery_attempts_guard_update` trigger with the `CHECK`s. -/
def attemptUpdateAllowed (old new : AttemptRow) : Bool :=
  decide ({ new with
    status := old.status, submittedAt := old.submittedAt,
    resolvedAt := old.resolvedAt, reasonCode := old.reasonCode } = old) &&
    ((old.status == .leased && new.status == .submitted && new.submittedAt.isSome &&
        new.resolvedAt.isNone && new.reasonCode.isNone) ||
      (old.status == .leased && new.status == .failed && new.submittedAt.isNone &&
        new.resolvedAt.isSome &&
        (new.reasonCode == some .transportFailed ||
          new.reasonCode == some .leaseExpiredBeforeSubmit)) ||
      (old.status == .submitted && new.submittedAt == old.submittedAt &&
        new.resolvedAt.isSome &&
        ((new.status == .delivered && new.reasonCode == some .accepted) ||
          (new.status == .failed &&
            (new.reasonCode == some .relayRejected || new.reasonCode == some .transportFailed)) ||
          (new.status == .unknown && new.reasonCode == some .acknowledgementLost)))) &&
    attemptCheck new

/-! ## The tables in the store -/

def jobsTable : TableRef Store JobRow := ⟨Store.jobs, fun rows s => { s with jobs := rows }⟩

def targetsTable : TableRef Store TargetRow :=
  ⟨Store.targets, fun rows s => { s with targets := rows }⟩

def attemptsTable : TableRef Store AttemptRow :=
  ⟨Store.attempts, fun rows s => { s with attempts := rows }⟩

def insertJob (row : JobRow) : Tx Unit := jobsTable.insert jobInsertAllowed .storage row

def insertTarget (row : TargetRow) : Tx Unit :=
  targetsTable.insert targetInsertAllowed .storage row

def insertAttempt (row : AttemptRow) : Tx Unit :=
  attemptsTable.insert attemptInsertAllowed .storage row

def updateJobs : (JobRow → Bool) → (JobRow → JobRow) → Tx ℕ :=
  jobsTable.update jobUpdateAllowed .storage

def updateTargets : (TargetRow → Bool) → (TargetRow → TargetRow) → Tx ℕ :=
  targetsTable.update targetUpdateAllowed .storage

def updateAttempts : (AttemptRow → Bool) → (AttemptRow → AttemptRow) → Tx ℕ :=
  attemptsTable.update attemptUpdateAllowed .storage

/-- `require_one` -/
def requireOne (rows : ℕ) : Tx Unit := .require (rows = 1) .storage

/-! ## Readers -/

/-- A job row with its target rows in index order. -/
structure JobRecord extends JobRow where
  targets : List TargetRow
deriving DecidableEq

/-- What `parse_target` accepts. -/
def targetReadable (row : TargetRow) : Bool :=
  row.attemptCount ≤ 32 &&
    !(row.status.isActive != row.activeAttemptId.isSome ||
      (row.status == .retryable && row.nextAttemptAt.isNone) ||
      (row.status != .retryable && row.status != .unknown && row.nextAttemptAt.isSome))

def parseTarget : TargetRow → Except OperationError TargetRow := .validate targetReadable .binding

/-- What `parse_attempt` accepts. -/
def attemptReadable (row : AttemptRow) : Bool :=
  (1 ≤ row.attemptNumber && row.attemptNumber ≤ 32) && decide (row.leasedAt < row.leaseExpiresAt) &&
    match row.status with
    | .leased => row.submittedAt.isNone && row.resolvedAt.isNone && row.reasonCode.isNone
    | .submitted => row.submittedAt.isSome && row.resolvedAt.isNone && row.reasonCode.isNone
    | .delivered =>
        row.submittedAt.isSome && row.resolvedAt.isSome && row.reasonCode == some .accepted
    | .failed => row.resolvedAt.isSome && row.reasonCode.isSome
    | .unknown =>
        row.submittedAt.isSome && row.resolvedAt.isSome &&
          row.reasonCode == some .acknowledgementLost

def parseAttempt : AttemptRow → Except OperationError AttemptRow :=
  .validate attemptReadable .binding

/-- The target rows of a job. -/
def targetsOf (s : Store) (jobId : Id32) : List TargetRow :=
  s.targets.filter fun row => row.jobId = jobId

/-- The attempt rows of a target. -/
def attemptsOf (s : Store) (jobId : Id32) (targetIndex : ℕ) : List AttemptRow :=
  s.attempts.filter fun row => row.jobId = jobId ∧ row.targetIndex = targetIndex

/-- `read_targets`; the query stops at one row more than the maximum. -/
def readTargets (s : Store) (jobId : Id32) : Except OperationError (List TargetRow) := do
  let rows := (Table.ordered (fun left right => left.targetIndex ≤ right.targetIndex)
    (targetsOf s jobId)).take 33
  .require (rows.length ≤ 32) .binding
  rows.mapM parseTarget

/-- `read_attempts`; the query stops at one row more than the maximum. -/
def readAttempts (s : Store) (jobId : Id32) (targetIndex : ℕ) :
    Except OperationError (List AttemptRow) := do
  let rows := (Table.ordered (fun left right => left.attemptNumber ≤ right.attemptNumber)
    (attemptsOf s jobId targetIndex)).take 33
  .require (rows.length ≤ 32) .binding
  rows.mapM parseAttempt

/-- What `read_job_rows` accepts of the job row alone. -/
def jobReadable (row : JobRow) : Bool :=
  row.requiredAcknowledgements != 0 && row.maxAttempts != 0 && row.maxAttempts ≤ 32 &&
    row.initialBackoffMs != 0 && row.maximumBackoffMs != 0 && row.attemptDeadlineMs != 0 &&
    !(row.maximumBackoffMs < row.initialBackoffMs || 300000 < row.maximumBackoffMs ||
      30000 < row.attemptDeadlineMs)

/-- What `read_job_rows` accepts of a job row and its targets together. -/
def jobTargetsReadable (row : JobRow) (targets : List TargetRow) : Bool :=
  !targets.isEmpty && targets.length ≤ 32 &&
    decide (targets.map TargetRow.targetIndex = List.range targets.length) &&
    (row.status.isTerminal == row.finalizedAt.isSome) &&
    targets.all fun target => target.status != .unknown || target.nextAttemptAt.isSome ||
      target.attemptCount == row.maxAttempts

/-- `read_job_rows` -/
def readJobRows (s : Store) (rows : List JobRow) : Except OperationError (Option JobRecord) :=
  match rows with
  | [] => .ok none
  | [row] => do
      .require (jobReadable row = true) .binding
      let targets ← readTargets s row.jobId
      .require (jobTargetsReadable row targets = true) .binding
      .ok (some { row with targets })
  | _ :: _ :: _ => .error .binding

/-- `read_job` -/
def readJob (s : Store) (jobId : Id32) : Except OperationError (Option JobRecord) :=
  readJobRows s (s.jobs.filter fun row => row.jobId = jobId)

/-- The source of a job. -/
structure Source where
  kind : SourceKind
  id : Id32
deriving DecidableEq

/-- `read_job_by_source` -/
def readJobBySource (s : Store) (source : Source) : Except OperationError (Option JobRecord) :=
  readJobRows s (s.jobs.filter fun row => row.sourceKind = source.kind ∧ row.sourceId = source.id)

/-- `one_attempt` -/
def oneAttempt (rows : List AttemptRow) : Except OperationError (Option AttemptRow) :=
  match rows with
  | [] => .ok none
  | [row] => (parseAttempt row).map some
  | _ :: _ :: _ => .error .binding

/-- `read_attempt` -/
def readAttempt (s : Store) (jobId : Id32) (targetIndex : ℕ) (attemptId : Id32) :
    Except OperationError (Option AttemptRow) :=
  oneAttempt ((attemptsOf s jobId targetIndex).filter fun row => row.attemptId = attemptId)

/-- `read_attempt_by_nonce` -/
def readAttemptByNonce (s : Store) (jobId : Id32) (targetIndex : ℕ) (nonce : Id32) :
    Except OperationError (Option AttemptRow) :=
  oneAttempt ((attemptsOf s jobId targetIndex).filter fun row => row.attemptNonce = nonce)

/-- `target_by_relay` -/
def targetByRelay (job : JobRecord) (relayId : RelayId) : Except OperationError TargetRow :=
  .ofOption .binding (job.targets.find? fun target => target.relayId = relayId)

end MycSigner
