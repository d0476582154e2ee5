import MycSigner.Discovery
import MycSigner.Responses

/-!
# Restart recovery of delivery work

Recovery walks over the open jobs in batches, checks the global relationships of the
outbox and the attempt history of each job, and resolves every attempt whose lease has
expired.  The jitter of a rescheduled target comes from injected entropy and the attempt.
-/

namespace MycSigner

open Transaction

/-! ## Global relationships -/

/-- A job that the bytes it delivers are missing for. -/
def jobSourceInvalid (s : Store) (job : JobRow) : Bool :=
  match job.sourceKind with
  | .signerResponse =>
      !(s.signedResponses.any fun row => row.operationId == job.sourceId &&
        row.responseSha256 == job.artifactSha256) &&
      !(s.pendingResponses.any fun row => row.operationId == job.sourceId &&
        row.responseSha256 == job.artifactSha256)
  | .discoveryHandler =>
      !(s.documents.any fun row => row.generationId == job.sourceId &&
        row.eventSha256 == job.artifactSha256)

/-- A source without a delivery job. -/
def sourceOrphaned (s : Store) (kind : SourceKind) (id : Id32) : Bool :=
  !(s.jobs.any fun job => job.sourceKind == kind && job.sourceId == id)

/-- `READ_INVARIANTS_SQL` has nothing but zeros to report. -/
def outboxRelated (s : Store) : Bool :=
  (s.jobs.all fun job => !jobSourceInvalid s job) &&
    (s.signedResponses.all fun row => !sourceOrphaned s .signerResponse row.operationId) &&
    (s.pendingResponses.all fun row => !sourceOrphaned s .signerResponse row.operationId) &&
    (s.documents.all fun row => !sourceOrphaned s .discoveryHandler row.generationId) &&
    (s.targets.all fun target => s.jobs.any fun job => job.jobId == target.jobId) &&
    s.attempts.all fun attempt => s.targets.any fun target =>
      target.jobId == attempt.jobId && target.targetIndex == attempt.targetIndex

/-- `verify_global_invariants` -/
def verifyGlobalInvariants (outboxMaximum : ℕ) (s : Store) : Except OperationError Unit :=
  .require (outboxRelated s = true ∧ activeJobCount s ≤ outboxMaximum) .binding

/-! ## Batches -/

/-- A job that recovery examines: open, or delivered and waiting for promotion. -/
def needsRecovery (s : Store) (job : JobRow) : Bool :=
  job.status.isOpen ||
    (job.status == .delivered && job.sourceKind == .discoveryHandler &&
      s.publicationState.any fun state => state.desiredJobId == job.jobId &&
        state.currentJobId != some state.desiredJobId)

/-- `read_job_ids` without its limit. -/
def recoveryJobIds (s : Store) (cursor : Option Id32) : List Id32 :=
  Table.ordered (fun left right => left ≤ right)
    ((s.jobs.filter fun job => needsRecovery s job && cursor.all (· < job.jobId)).map JobRow.jobId)

/-- Bounded, identity-free result of one restart-recovery transaction. -/
structure RecoveryReport where
  examinedJobs : ℕ
  recoveredExpiredAttempts : ℕ
  finalizedJobs : ℕ
  promotedDiscoveryGenerations : ℕ
  readyTargets : ℕ
  scheduledTargets : ℕ
  activeTargets : ℕ
deriving DecidableEq

def RecoveryReport.empty : RecoveryReport := ⟨0, 0, 0, 0, 0, 0, 0⟩

/-- `increment`: the counters are `u32`. -/
def increment (value : ℕ) : Except OperationError ℕ :=
  if value + 1 < 2 ^ 32 then .ok (value + 1) else .error .binding

/-- `add` -/
def addCounters (left right : ℕ) : Except OperationError ℕ :=
  if left + right < 2 ^ 32 then .ok (left + right) else .error .binding

/-- `merge` -/
def RecoveryReport.merge (left right : RecoveryReport) : Except OperationError RecoveryReport := do
  .ok { examinedJobs := ← addCounters left.examinedJobs right.examinedJobs
        recoveredExpiredAttempts :=
          ← addCounters left.recoveredExpiredAttempts right.recoveredExpiredAttempts
        finalizedJobs := ← addCounters left.finalizedJobs right.finalizedJobs
        promotedDiscoveryGenerations :=
          ← addCounters left.promotedDiscoveryGenerations right.promotedDiscoveryGenerations
        readyTargets := ← addCounters left.readyTargets right.readyTargets
        scheduledTargets := ← addCounters left.scheduledTargets right.scheduledTargets
        activeTargets := ← addCounters left.activeTargets right.activeTargets }

/-! ## Attempt histories -/

/-- What `validate_attempt_histories` requires of a target and its attempts. -/
def historyValid (target : TargetRow) (attempts : List AttemptRow) : Bool :=
  target.attemptCount == attempts.length &&
    decide (attempts.map AttemptRow.attemptNumber = (List.range attempts.length).map (· + 1)) &&
    if target.status.isActive then
      attempts.getLast?.any fun attempt => target.activeAttemptId == some attempt.attemptId &&
        attempt.status.asTarget == some target.status
    else
      !attempts.getLast?.any fun attempt => attempt.status.isLive

/-- `validate_attempt_histories` -/
def validateAttemptHistories (s : Store) (job : JobRecord) : Except OperationError Unit :=
  job.targets.forM fun target => do
    let attempts ← readAttempts s job.jobId target.targetIndex
    .require (historyValid target attempts = true) .binding

/-! ## Expired leases -/

/-- The first eight bytes of a digest as a number. -/
def leadingU64 (digest : Id32) : ℕ := digest.toNat / 2 ^ 192

/-- `recovery_jitter`: full jitter up to the backoff of the attempt. -/
def recoveryJitter (job : JobRow) (attemptId : Id32) (attemptNumber : ℕ) (entropy : Id32) :
    Except OperationError RetryJitter :=
  .ofOption .binding (RetryJitter.new
    (leadingU64 (Sha256.digest (domain "radroots.myc.delivery_recovery_jitter.v1" ++
      entropy.bytes ++ attemptId.bytes)) % (backoffBound job attemptNumber + 1)))

/-- Recovers one target of a job when its lease has expired. -/
def recoverTarget (entropy : Id32) (observedAt : TimeUnixMs) (before : JobRecord)
    (progress : JobRecord × RecoveryReport) (target : TargetRow) :
    Tx (JobRecord × RecoveryReport) :=
  match target.activeAttemptId with
  | none => return progress
  | some attemptId => do
      let attempts ← query (readAttempts · before.jobId target.targetIndex)
      let attempt ← orFail
        (attempts.getLast?.filter fun attempt => attempt.attemptId = attemptId) .binding
      if attempt.leaseExpiresAt < observedAt then do
        let jitter ← query fun _ =>
          recoveryJitter progress.1.toJobRow attempt.attemptId attempt.attemptNumber entropy
        let current ← recoverExpired before.jobId target.relayId attempt.attemptId jitter observedAt
        let recovered ← query fun _ => increment progress.2.recoveredExpiredAttempts
        return (current, { progress.2 with recoveredExpiredAttempts := recovered })
      else
        return progress

/-- Counts one target into the report. -/
def classifyTarget (observedAt : TimeUnixMs) (report : RecoveryReport) (target : TargetRow) :
    Except OperationError RecoveryReport :=
  match target.status with
  | .pending => return { report with readyTargets := ← increment report.readyTargets }
  | .retryable | .unknown =>
      match target.nextAttemptAt with
      | some next =>
          if observedAt < next then
            return { report with scheduledTargets := ← increment report.scheduledTargets }
          else
            return { report with readyTargets := ← increment report.readyTargets }
      | none => .ok report
  | .leased | .submitted =>
      return { report with activeTargets := ← increment report.activeTargets }
  | .delivered | .exhausted => .ok report

/-- `classify_targets` -/
def classifyTargets (observedAt : TimeUnixMs) (job : JobRecord) (report : RecoveryReport) :
    Except OperationError RecoveryReport :=
  job.targets.foldlM (classifyTarget observedAt) report

/-- The bytes that a job delivers are retained and valid. -/
def verifySource (codec : EventCodec) (policy : Option DiscoveryPolicies) (s : Store)
    (job : JobRecord) : Except OperationError Unit :=
  match job.sourceKind with
  | .signerResponse => verifyResponseForDeliveryJob codec s job.jobId
  | .discoveryHandler => verifyDocumentForDeliveryJob codec policy s job

/-- Promotes the discovery generation of a delivered job. -/
def promoteRecovered (observedAt : TimeUnixMs) (current : JobRecord) (report : RecoveryReport) :
    Tx RecoveryReport := do
  if current.status = .delivered ∧ current.sourceKind = .discoveryHandler then do
    if ← promoteCurrentIfDesired current.jobId observedAt then do
      let promoted ← query fun _ => increment report.promotedDiscoveryGenerations
      return { report with promotedDiscoveryGenerations := promoted }
    else
      return report
  else
    return report

/-- The body of the loop of `recover_batch`. -/
def recoverJob (codec : EventCodec) (policy : Option DiscoveryPolicies) (entropy : Id32)
    (observedAt : TimeUnixMs) (report : RecoveryReport) (jobId : Id32) : Tx RecoveryReport := do
  let before ← query (readJob · jobId)
  let before ← orFail before .binding
  query (verifySource codec policy · before)
  query (validateAttemptHistories · before)
  let (_, report) ← before.targets.foldlM (recoverTarget entropy observedAt before) (before, report)
  let current ← finalizeJobIfTerminal before.jobId observedAt
  let finalized ← query fun _ =>
    if before.status.isOpen && current.status.isTerminal then increment report.finalizedJobs
    else .ok report.finalizedJobs
  let report ← promoteRecovered observedAt current { report with finalizedJobs := finalized }
  let verified ← query (readJob · current.jobId)
  let verified ← orFail verified .binding
  query (validateAttemptHistories · verified)
  let report ← query fun _ => classifyTargets observedAt verified report
  let examined ← query fun _ => increment report.examinedJobs
  return { report with examinedJobs := examined }

/-- `recover_batch`: at most 128 jobs, and where to continue. -/
def recoverBatch (codec : EventCodec) (policy : Option DiscoveryPolicies) (outboxMaximum : ℕ)
    (entropy : Id32) (observedAt : TimeUnixMs) (cursor : Option Id32) :
    Tx (RecoveryReport × Option Id32) := do
  query (verifyGlobalInvariants outboxMaximum)
  let found ← query fun s => .ok ((recoveryJobIds s cursor).take 129)
  let jobIds := found.take 128
  let continuation := if 128 < found.length then jobIds.getLast? else none
  let report ← jobIds.foldlM (recoverJob codec policy entropy observedAt) .empty
  return (report, continuation)

/-- The loop of `recover_delivery_state`; each batch is one transaction, and `none` says that
the fuel ran out. -/
def recoverDeliveryStateFrom (codec : EventCodec) (config : Configuration) (entropy : Id32)
    (observedAt : TimeUnixMs) :
    ℕ → Option Id32 → RecoveryReport → Store → Option (Except OperationError RecoveryReport) × Store
  | 0, _, _, s => (none, s)
  | fuel + 1, cursor, aggregate, s =>
      match (withBinding config (recoverBatch codec config.discovery config.delivery.outboxMaximum
          entropy observedAt cursor)).atomically s with
      | (.error e, s') => (some (.error e), s')
      | (.ok (batch, continuation), s') =>
          match aggregate.merge batch, continuation with
          | .error e, _ => (some (.error e), s')
          | .ok aggregate, none => (some (.ok aggregate), s')
          | .ok aggregate, some next =>
              recoverDeliveryStateFrom codec config entropy observedAt fuel (some next) aggregate s'

/-- `recover_delivery_state` -/
def recoverDeliveryState (codec : EventCodec) (config : Configuration) (entropy : Id32)
    (observedAt : TimeUnixMs) (fuel : ℕ) (s : Store) :
    Option (Except OperationError RecoveryReport) × Store :=
  recoverDeliveryStateFrom codec config entropy observedAt fuel none .empty s

end MycSigner
