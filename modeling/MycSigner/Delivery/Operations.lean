import MycSigner.Delivery.Tables

/-!
# The delivery operations

Creation, claim, submission, outcome and expired-lease recovery of delivery work, each the
body of one transaction.  The order of the checks, the reads between the writes and the
error of every refusal are those of the source.
-/

namespace MycSigner

open Transaction

/-! ## Policy -/

/-- Immutable configured target identity. -/
structure TargetPolicy where
  relayId : RelayId
  required : Bool
deriving DecidableEq

/-- `MycDeliveryPolicies::new` refuses everything else. -/
def deliveryPolicyValid (requiredAcknowledgements maxAttempts initialBackoffMs maximumBackoffMs
    attemptDeadlineMs outboxMaximum : ℕ) (targets : List TargetPolicy) : Bool :=
  !targets.isEmpty && targets.length ≤ 32 &&
    decide (targets.map TargetPolicy.relayId).Nodup &&
    requiredAcknowledgements != 0 && requiredAcknowledgements ≤ targets.length &&
    requiredAcknowledgements ≤ (targets.filter TargetPolicy.required).length &&
    (1 ≤ maxAttempts && maxAttempts ≤ 32) &&
    initialBackoffMs != 0 && initialBackoffMs ≤ maximumBackoffMs && maximumBackoffMs ≤ 300000 &&
    attemptDeadlineMs != 0 && attemptDeadlineMs ≤ 30000 &&
    (1 ≤ outboxMaximum && outboxMaximum ≤ 65536)

/-- Immutable configured delivery and retry authority. -/
structure DeliveryPolicies where
  mode : PolicyMode
  requiredAcknowledgements : ℕ
  maxAttempts : ℕ
  initialBackoffMs : ℕ
  maximumBackoffMs : ℕ
  attemptDeadlineMs : ℕ
  outboxMaximum : ℕ
  targets : List TargetPolicy
  valid : deliveryPolicyValid requiredAcknowledgements maxAttempts initialBackoffMs
    maximumBackoffMs attemptDeadlineMs outboxMaximum targets = true
deriving DecidableEq

/-- `MycDeliveryPolicies::new`: orders the targets by relay and derives the number of
acknowledgements from the mode.  In the ordered list a repeated relay has a neighbour. -/
def DeliveryPolicies.new (mode : PolicyMode) (configuredQuorum : Option ℕ)
    (maxAttempts initialBackoffMs maximumBackoffMs attemptDeadlineMs outboxMaximum : ℕ)
    (targets : List TargetPolicy) : Option DeliveryPolicies :=
  let targets := Table.ordered (fun left right => left.relayId.bytes ≤ right.relayId.bytes) targets
  let requiredCount := (targets.filter TargetPolicy.required).length
  let requiredAcknowledgements :=
    match mode with
    | .atLeastOneRequired => 1
    | .allRequired => requiredCount
    | .requiredQuorum => configuredQuorum.getD 0
  if valid : deliveryPolicyValid requiredAcknowledgements maxAttempts initialBackoffMs
      maximumBackoffMs attemptDeadlineMs outboxMaximum targets = true then
    some { mode, requiredAcknowledgements, maxAttempts, initialBackoffMs, maximumBackoffMs,
           attemptDeadlineMs, outboxMaximum, targets, valid }
  else none

/-- Caller-injected full-jitter delay, later relationship-checked against a job. -/
structure RetryJitter where
  get : ℕ
  bounded : get ≤ 300000
deriving DecidableEq

/-- Validates one injected full-jitter delay. -/
def RetryJitter.new (valueMs : ℕ) : Option RetryJitter :=
  if h : valueMs ≤ 300000 then some ⟨valueMs, h⟩ else none

/-! ## Identities -/

def deriveJobId (source : Source) (artifact : Id32) : Id32 :=
  Sha256.digest (domain "radroots.myc.delivery_job.v1" ++
    (if source.kind = .discoveryHandler then domain "discovery_handler" else []) ++
    source.id.bytes ++ artifact.bytes)

def deriveAttemptId (jobId : Id32) (targetIndex attemptNumber : ℕ) (nonce : Id32) : Id32 :=
  Sha256.digest (domain "radroots.myc.delivery_attempt.v1" ++ jobId.bytes ++
    u32Bytes targetIndex ++ u32Bytes attemptNumber ++ nonce.bytes)

/-! ## Creation -/

/-- `exact_job` -/
def exactJob (job : JobRecord) (source : Source) (artifact : Id32) (createdAt : TimeUnixMs)
    (policy : DeliveryPolicies) : Bool :=
  job.sourceKind == source.kind && job.sourceId == source.id && job.artifactSha256 == artifact &&
    job.policyMode == policy.mode &&
    job.requiredAcknowledgements == policy.requiredAcknowledgements &&
    job.maxAttempts == policy.maxAttempts && job.initialBackoffMs == policy.initialBackoffMs &&
    job.maximumBackoffMs == policy.maximumBackoffMs &&
    job.attemptDeadlineMs == policy.attemptDeadlineMs && job.createdAt == createdAt &&
    decide (job.targets.map (fun target => TargetPolicy.mk target.relayId target.required) =
      policy.targets)

/-- New or idempotently replayed delivery-job creation. -/
inductive JobAdmission where
  | created (record : JobRecord)
  | exactReplay (record : JobRecord)

def JobAdmission.record : JobAdmission → JobRecord
  | .created record | .exactReplay record => record

/-- `READ_ACTIVE_JOB_COUNT_SQL` -/
def activeJobCount (s : Store) : ℕ := (s.jobs.filter fun row => row.status.isOpen).length

/-- The row that `create_job` inserts. -/
def newJobRow (source : Source) (artifact : Id32) (createdAt : TimeUnixMs)
    (policy : DeliveryPolicies) : JobRow where
  jobId := deriveJobId source artifact
  sourceKind := source.kind
  sourceId := source.id
  artifactSha256 := artifact
  policyMode := policy.mode
  requiredAcknowledgements := policy.requiredAcknowledgements
  maxAttempts := policy.maxAttempts
  initialBackoffMs := policy.initialBackoffMs
  maximumBackoffMs := policy.maximumBackoffMs
  attemptDeadlineMs := policy.attemptDeadlineMs
  status := .pending
  createdAt := createdAt
  updatedAt := createdAt
  finalizedAt := none

def newTargetRow (jobId : Id32) (createdAt : TimeUnixMs) (index : ℕ) (target : TargetPolicy) :
    TargetRow where
  jobId := jobId
  targetIndex := index
  relayId := target.relayId
  required := target.required
  attemptCount := 0
  status := .pending
  activeAttemptId := none
  nextAttemptAt := none
  updatedAt := createdAt

/-- Inserts the targets one after the other, counting the index up. -/
def insertTargets (jobId : Id32) (createdAt : TimeUnixMs) : ℕ → List TargetPolicy → Tx Unit
  | _, [] => pure ()
  | index, target :: rest => do
      insertTarget (newTargetRow jobId createdAt index target)
      insertTargets jobId createdAt (index + 1) rest

/-- `create_job` -/
def createJob (source : Source) (artifact : Id32) (createdAt : TimeUnixMs)
    (policy : DeliveryPolicies) : Tx JobAdmission := do
  match ← query (readJobBySource · source) with
  | some existing => do
      require (exactJob existing source artifact createdAt policy = true) .binding
      pure (.exactReplay existing)
  | none => do
      let activeJobs ← query fun s => .ok (activeJobCount s)
      require (activeJobs < policy.outboxMaximum) .binding
      insertJob (newJobRow source artifact createdAt policy)
      insertTargets (deriveJobId source artifact) createdAt 0 policy.targets
      let record ← query (readJob · (deriveJobId source artifact))
      let record ← orFail record .binding
      pure (.created record)

/-! ## Claim -/

/-- Result of attempting to claim one target. -/
inductive Claim where
  | claimed (attempt : AttemptRow)
  | exactReplay (attempt : AttemptRow)
  | notReady
  | terminal

/-- The row that `claim_target` inserts. -/
def newAttemptRow (job : JobRecord) (target : TargetRow) (nonce : Id32)
    (claimedAt leaseExpires : TimeUnixMs) : AttemptRow where
  attemptId := deriveAttemptId job.jobId target.targetIndex (target.attemptCount + 1) nonce
  jobId := job.jobId
  targetIndex := target.targetIndex
  attemptNumber := target.attemptCount + 1
  attemptNonce := nonce
  status := .leased
  leasedAt := claimedAt
  leaseExpiresAt := leaseExpires
  submittedAt := none
  resolvedAt := none
  reasonCode := none

/-- `CLAIM_TARGET_SQL` -/
def claimTargetRow (target : TargetRow) (attempt : AttemptRow) (claimedAt : TimeUnixMs) : Tx ℕ :=
  updateTargets
    (fun row => row.jobId = target.jobId ∧ row.targetIndex = target.targetIndex ∧
      row.attemptCount = target.attemptCount ∧
      (row.status = .pending ∨ row.status = .retryable ∨ row.status = .unknown) ∧
      row.activeAttemptId = none)
    (fun row => { row with
      attemptCount := attempt.attemptNumber, status := .leased,
      activeAttemptId := some attempt.attemptId, nextAttemptAt := none, updatedAt := claimedAt })

/-- `MARK_JOB_ACTIVE_SQL` -/
def markJobActive (jobId : Id32) (claimedAt : TimeUnixMs) : Tx ℕ :=
  updateJobs (fun row => row.jobId = jobId ∧ row.status = .pending)
    (fun row => { row with status := .active, updatedAt := claimedAt })

/-- `claim_target` -/
def claimTarget (jobId : Id32) (relayId : RelayId) (nonce : Id32) (claimedAt : TimeUnixMs) :
    Tx Claim := do
  let job ← query (readJob · jobId)
  let job ← orFail job .binding
  if job.status.isTerminal then
    pure .terminal
  else do
    let target ← query fun _ => targetByRelay job relayId
    match ← query (readAttemptByNonce · jobId target.targetIndex nonce) with
    | some existing => pure (.exactReplay existing)
    | none =>
        if target.activeAttemptId.isSome ∨ target.nextAttemptAt.any (claimedAt < ·) then
          pure .notReady
        else if target.status = .delivered ∨ target.status = .exhausted ∨
            job.maxAttempts ≤ target.attemptCount then
          pure .terminal
        else do
          let leaseExpires ← orFail (TimeUnixMs.new (claimedAt.get + job.attemptDeadlineMs)) .binding
          let attempt := newAttemptRow job target nonce claimedAt leaseExpires
          insertAttempt attempt
          requireOne (← claimTargetRow target attempt claimedAt)
          let marked ← markJobActive jobId claimedAt
          require (marked ≤ 1) .storage
          let stored ← query (readAttempt · jobId target.targetIndex attempt.attemptId)
          let stored ← orFail stored .binding
          pure (.claimed stored)

/-! ## Submission -/

/-- `MARK_ATTEMPT_SUBMITTED_SQL` -/
def markAttemptSubmitted (jobId : Id32) (targetIndex : ℕ) (attemptId : Id32)
    (submittedAt : TimeUnixMs) : Tx ℕ :=
  updateAttempts
    (fun row => row.attemptId = attemptId ∧ row.jobId = jobId ∧ row.targetIndex = targetIndex ∧
      row.status = .leased ∧ submittedAt ≤ row.leaseExpiresAt)
    (fun row => { row with status := .submitted, submittedAt := some submittedAt })

/-- `MARK_TARGET_SUBMITTED_SQL` -/
def markTargetSubmitted (jobId : Id32) (targetIndex : ℕ) (attemptId : Id32)
    (submittedAt : TimeUnixMs) : Tx ℕ :=
  updateTargets
    (fun row => row.jobId = jobId ∧ row.targetIndex = targetIndex ∧
      row.activeAttemptId = some attemptId ∧ row.status = .leased)
    (fun row => { row with status := .submitted, updatedAt := submittedAt })

/-- `mark_submitted` -/
def markSubmitted (jobId : Id32) (relayId : RelayId) (attemptId : Id32)
    (submittedAt : TimeUnixMs) : Tx AttemptRow := do
  let job ← query (readJob · jobId)
  let job ← orFail job .binding
  let target ← query fun _ => targetByRelay job relayId
  let attempt ← query (readAttempt · jobId target.targetIndex attemptId)
  let attempt ← orFail attempt .binding
  if attempt.status = .submitted then do
    require (attempt.submittedAt = some submittedAt) .binding
    pure attempt
  else do
    require (attempt.status = .leased ∧ attempt.leasedAt ≤ submittedAt ∧
      submittedAt ≤ attempt.leaseExpiresAt ∧ target.activeAttemptId = some attemptId ∧
      target.status = .leased) .binding
    requireOne (← markAttemptSubmitted jobId target.targetIndex attemptId submittedAt)
    requireOne (← markTargetSubmitted jobId target.targetIndex attemptId submittedAt)
    let stored ← query (readAttempt · jobId target.targetIndex attemptId)
    orFail stored .binding

/-! ## Resolution -/

/-- `next_attempt_time`'s bound; the shift amount stays below 32. -/
def backoffBound (job : JobRow) (attemptNumber : ℕ) : ℕ :=
  min (job.initialBackoffMs * 2 ^ min (attemptNumber - 1) 31) job.maximumBackoffMs

/-- `next_attempt_time` -/
def nextAttemptTime (job : JobRow) (attemptNumber : ℕ) (jitter : RetryJitter)
    (observedAt : TimeUnixMs) : Except OperationError TimeUnixMs := do
  .require (jitter.get ≤ backoffBound job attemptNumber) .binding
  .ofOption .binding (TimeUnixMs.new (observedAt.get + jitter.get))

/-- The target status and the next attempt time that a terminal attempt leaves. -/
def resolvedTarget (job : JobRow) (target : TargetRow) (attemptNumber : ℕ)
    (terminal : AttemptStatus) (jitter : RetryJitter) (observedAt : TimeUnixMs) :
    Except OperationError (TargetStatus × Option TimeUnixMs) :=
  let attemptsRemaining := target.attemptCount < job.maxAttempts
  match terminal with
  | .delivered => .ok (.delivered, none)
  | .failed =>
      if attemptsRemaining then do
        let next ← nextAttemptTime job attemptNumber jitter observedAt
        .ok (.retryable, some next)
      else .ok (.exhausted, none)
  | .unknown =>
      if attemptsRemaining then do
        let next ← nextAttemptTime job attemptNumber jitter observedAt
        .ok (.unknown, some next)
      else .ok (.unknown, none)
  | .leased | .submitted => .error .binding

/-- `RESOLVE_ATTEMPT_SQL` -/
def resolveAttemptRow (jobId : Id32) (targetIndex : ℕ) (attemptId : Id32)
    (prior terminal : AttemptStatus) (reason : AttemptReason) (observedAt : TimeUnixMs) : Tx ℕ :=
  updateAttempts
    (fun row => row.attemptId = attemptId ∧ row.jobId = jobId ∧ row.targetIndex = targetIndex ∧
      row.status = prior)
    (fun row => { row with
      status := terminal, resolvedAt := some observedAt, reasonCode := some reason })

/-- `RESOLVE_TARGET_SQL` -/
def resolveTargetRow (jobId : Id32) (targetIndex : ℕ) (attemptId : Id32) (prior : TargetStatus)
    (status : TargetStatus) (next : Option TimeUnixMs) (observedAt : TimeUnixMs) : Tx ℕ :=
  updateTargets
    (fun row => row.jobId = jobId ∧ row.targetIndex = targetIndex ∧
      row.activeAttemptId = some attemptId ∧ row.status = prior)
    (fun row => { row with
      status := status, activeAttemptId := none, nextAttemptAt := next, updatedAt := observedAt })

/-- The target status that belongs to a live attempt status. -/
def AttemptStatus.asTarget : AttemptStatus → Option TargetStatus
  | .leased => some .leased
  | .submitted => some .submitted
  | .delivered | .failed | .unknown => none

/-- `resolve_attempt_and_target` -/
def resolveAttemptAndTarget (job : JobRecord) (target : TargetRow) (attempt : AttemptRow)
    (prior terminal : AttemptStatus) (reason : AttemptReason) (jitter : RetryJitter)
    (observedAt : TimeUnixMs) : Tx Unit := do
  requireOne (← resolveAttemptRow job.jobId target.targetIndex attempt.attemptId prior terminal
    reason observedAt)
  let schedulesRetry := target.attemptCount < job.maxAttempts ∧
    (terminal = .failed ∨ terminal = .unknown)
  require (schedulesRetry ∨ jitter.get = 0) .binding
  let (status, next) ← query fun _ =>
    resolvedTarget job.toJobRow target attempt.attemptNumber terminal jitter observedAt
  let priorTarget ← orFail prior.asTarget .binding
  requireOne (← resolveTargetRow job.jobId target.targetIndex attempt.attemptId priorTarget status
    next observedAt)

/-! ## Finalization -/

/-- A required target that can still deliver or has delivered. -/
def TargetRow.mayDeliver (maxAttempts : ℕ) (target : TargetRow) : Bool :=
  target.required && target.status != .exhausted &&
    !(target.status == .unknown && maxAttempts ≤ target.attemptCount)

/-- A required target whose last permitted attempt is recorded unknown. -/
def TargetRow.endsUnknown (maxAttempts : ℕ) (target : TargetRow) : Bool :=
  target.required && target.status == .unknown && maxAttempts ≤ target.attemptCount

def deliveredRequired (targets : List TargetRow) : ℕ :=
  (targets.filter fun target => target.required && target.status == .delivered).length

def possibleRequired (maxAttempts : ℕ) (targets : List TargetRow) : ℕ :=
  (targets.filter (TargetRow.mayDeliver maxAttempts)).length

/-- The terminal status that the targets of a job force, if any; the three policy modes
compare the same two counts. -/
def terminalStatus (job : JobRecord) : Option JobStatus :=
  if job.requiredAcknowledgements ≤ deliveredRequired job.targets then some .delivered
  else if job.requiredAcknowledgements ≤ possibleRequired job.maxAttempts job.targets then none
  else if job.targets.any (TargetRow.endsUnknown job.maxAttempts) then some .unknown
  else some .failed

/-- `FINALIZE_JOB_SQL` -/
def finalizeJobRow (jobId : Id32) (status : JobStatus) (observedAt : TimeUnixMs) : Tx ℕ :=
  updateJobs (fun row => row.jobId = jobId ∧ row.status.isOpen)
    (fun row => { row with
      status := status, updatedAt := observedAt, finalizedAt := some observedAt })

/-- `finalize_job_if_terminal` -/
def finalizeJobIfTerminal (jobId : Id32) (observedAt : TimeUnixMs) : Tx JobRecord := do
  let job ← query (readJob · jobId)
  let job ← orFail job .binding
  match terminalStatus job with
  | some status => do
      let rows ← finalizeJobRow jobId status observedAt
      require (rows ≤ 1) .storage
  | none => pure ()
  let job ← query (readJob · jobId)
  orFail job .binding

/-! ## Outcomes and expired leases -/

/-- Closed evidence for a terminal attempt observation. -/
inductive AttemptOutcome where
  | delivered
  | relayRejected
  | transportFailed
  | unknownAcknowledgement
deriving DecidableEq

def AttemptOutcome.status : AttemptOutcome → AttemptStatus
  | .delivered => .delivered
  | .relayRejected | .transportFailed => .failed
  | .unknownAcknowledgement => .unknown

def AttemptOutcome.reason : AttemptOutcome → AttemptReason
  | .delivered => .accepted
  | .relayRejected => .relayRejected
  | .transportFailed => .transportFailed
  | .unknownAcknowledgement => .acknowledgementLost

/-- The attempt status an outcome may follow. -/
def AttemptOutcome.requiredPrior (outcome : AttemptOutcome) (status : AttemptStatus) :
    AttemptStatus :=
  match outcome with
  | .delivered | .unknownAcknowledgement | .relayRejected => .submitted
  | .transportFailed => status

/-- `record_outcome` -/
def recordOutcome (jobId : Id32) (relayId : RelayId) (attemptId : Id32) (outcome : AttemptOutcome)
    (jitter : RetryJitter) (observedAt : TimeUnixMs) : Tx JobRecord := do
  let job ← query (readJob · jobId)
  let job ← orFail job .binding
  let target ← query fun _ => targetByRelay job relayId
  let attempt ← query (readAttempt · jobId target.targetIndex attemptId)
  let attempt ← orFail attempt .binding
  if attempt.status.isLive then do
    let prior := outcome.requiredPrior attempt.status
    require (attempt.status = prior ∧ prior.isLive ∧ target.activeAttemptId = some attemptId ∧
      attempt.leasedAt ≤ observedAt ∧
      (∀ submitted ∈ attempt.submittedAt, submitted ≤ observedAt) ∧
      observedAt ≤ attempt.leaseExpiresAt) .binding
    resolveAttemptAndTarget job target attempt prior outcome.status outcome.reason jitter observedAt
    finalizeJobIfTerminal jobId observedAt
  else do
    require (attempt.status = outcome.status ∧ attempt.reasonCode = some outcome.reason ∧
      attempt.resolvedAt = some observedAt) .binding
    pure job

/-- The evidence an expired lease leaves: failure before submission, unknown after it. -/
def expiredEvidence : AttemptStatus → AttemptStatus × AttemptReason
  | .leased => (.failed, .leaseExpiredBeforeSubmit)
  | _ => (.unknown, .acknowledgementLost)

/-- `recover_expired` -/
def recoverExpired (jobId : Id32) (relayId : RelayId) (attemptId : Id32) (jitter : RetryJitter)
    (observedAt : TimeUnixMs) : Tx JobRecord := do
  let job ← query (readJob · jobId)
  let job ← orFail job .binding
  let target ← query fun _ => targetByRelay job relayId
  let attempt ← query (readAttempt · jobId target.targetIndex attemptId)
  let attempt ← orFail attempt .binding
  if attempt.status.isLive then do
    require (attempt.leaseExpiresAt < observedAt ∧ target.activeAttemptId = some attemptId) .binding
    let (terminal, reason) := expiredEvidence attempt.status
    resolveAttemptAndTarget job target attempt attempt.status terminal reason jitter observedAt
    finalizeJobIfTerminal jobId observedAt
  else
    pure job

end MycSigner
