import MycSigner.Delivery.Invariant

/-!
# What a delivery transaction can do

A delivery transaction that commits either leaves the store as it was (an exact replay, a
claim that is not ready, a job that is already terminal) or performs one of four steps:
it creates a job with its targets, leases a target, records a submission, or resolves the
live attempt of a target and finalizes the job when its targets force it.  Every later
result about runs of the delivery operations is proved from `DeliveryStep` and never takes
an operation apart again.
-/

namespace MycSigner

open Transaction

/-! ## The rows a step writes -/

/-- The rows that `insertTargets` inserts. -/
def newTargetRows (jobId : Id32) (createdAt : TimeUnixMs) : ℕ → List TargetPolicy → List TargetRow
  | _, [] => []
  | index, target :: rest =>
      newTargetRow jobId createdAt index target :: newTargetRows jobId createdAt (index + 1) rest

def TargetRow.claimed (target : TargetRow) (attempt : AttemptRow) (claimedAt : TimeUnixMs) :
    TargetRow :=
  { target with
    attemptCount := attempt.attemptNumber, status := .leased,
    activeAttemptId := some attempt.attemptId, nextAttemptAt := none, updatedAt := claimedAt }

/-- A pending job becomes active with its first claim. -/
def JobRow.activated (job : JobRow) (claimedAt : TimeUnixMs) : JobRow :=
  if job.status = .pending then { job with status := .active, updatedAt := claimedAt } else job

def AttemptRow.submitted (attempt : AttemptRow) (submittedAt : TimeUnixMs) : AttemptRow :=
  { attempt with status := .submitted, submittedAt := some submittedAt }

def TargetRow.submitted (target : TargetRow) (submittedAt : TimeUnixMs) : TargetRow :=
  { target with status := .submitted, updatedAt := submittedAt }

def AttemptRow.resolved (attempt : AttemptRow) (terminal : AttemptStatus) (reason : AttemptReason)
    (observedAt : TimeUnixMs) : AttemptRow :=
  { attempt with status := terminal, resolvedAt := some observedAt, reasonCode := some reason }

def TargetRow.resolved (target : TargetRow) (status : TargetStatus) (next : Option TimeUnixMs)
    (observedAt : TimeUnixMs) : TargetRow :=
  { target with
    status := status, activeAttemptId := none, nextAttemptAt := next, updatedAt := observedAt }

def JobRow.finalized (job : JobRow) (status : JobStatus) (observedAt : TimeUnixMs) : JobRow :=
  { job with status := status, updatedAt := observedAt, finalizedAt := some observedAt }

/-! ## The stores a step leaves -/

def Store.created (s : Store) (source : Source) (artifact : Id32) (createdAt : TimeUnixMs)
    (policy : DeliveryPolicies) : Store :=
  { s with
    jobs := s.jobs ++ [newJobRow source artifact createdAt policy]
    targets := s.targets ++
      newTargetRows (deriveJobId source artifact) createdAt 0 policy.targets }

def Store.claimed (s : Store) (job : JobRow) (target : TargetRow) (attempt : AttemptRow)
    (claimedAt : TimeUnixMs) : Store :=
  { s with
    attempts := s.attempts ++ [attempt]
    targets := Table.replace target (target.claimed attempt claimedAt) s.targets
    jobs := Table.replace job (job.activated claimedAt) s.jobs }

def Store.submitted (s : Store) (target : TargetRow) (attempt : AttemptRow)
    (submittedAt : TimeUnixMs) : Store :=
  { s with
    attempts := Table.replace attempt (attempt.submitted submittedAt) s.attempts
    targets := Table.replace target (target.submitted submittedAt) s.targets }

def Store.resolved (s : Store) (target : TargetRow) (attempt : AttemptRow)
    (terminal : AttemptStatus) (reason : AttemptReason) (status : TargetStatus)
    (next : Option TimeUnixMs) (observedAt : TimeUnixMs) : Store :=
  { s with
    attempts := Table.replace attempt (attempt.resolved terminal reason observedAt) s.attempts
    targets := Table.replace target (target.resolved status next observedAt) s.targets }

/-- The terminal status that the stored targets force on an open job. -/
def Store.verdict (s : Store) (job : JobRow) : Option JobStatus :=
  if job.status.isOpen then terminalStatus { job with targets := targetsOf s job.jobId } else none

def Store.finalized (s : Store) (job : JobRow) (observedAt : TimeUnixMs) : Store :=
  match s.verdict job with
  | some status => { s with jobs := Table.replace job (job.finalized status observedAt) s.jobs }
  | none => s

/-! ## The guards of a step -/

/-- A target of an open job may be leased. -/
structure Claims (s : Store) (job : JobRow) (target : TargetRow) (attempt : AttemptRow)
    (claimedAt : TimeUnixMs) : Prop where
  job_mem : job ∈ s.jobs
  job_open : job.status.isOpen = true
  target_mem : target ∈ targetsOf s job.jobId
  free : target.activeAttemptId = none
  ready : target.nextAttemptAt.any (claimedAt < ·) = false
  unsettled : target.status ≠ .delivered ∧ target.status ≠ .exhausted
  remaining : target.attemptCount < job.maxAttempts
  attempt_row : ∃ nonce leaseExpires,
    attempt = newAttemptRow { job with targets := targetsOf s job.jobId } target nonce claimedAt
      leaseExpires
  attempt_allowed : attemptInsertAllowed s attempt = true
  job_allowed : job.status = .pending → jobUpdateAllowed job (job.activated claimedAt) = true

/-- A leased attempt may be recorded as submitted. -/
structure Submits (s : Store) (job : JobRow) (target : TargetRow) (attempt : AttemptRow)
    (submittedAt : TimeUnixMs) : Prop where
  job_mem : job ∈ s.jobs
  target_mem : target ∈ targetsOf s job.jobId
  attempt_mem : attempt ∈ attemptsOf s job.jobId target.targetIndex
  active : target.activeAttemptId = some attempt.attemptId
  target_leased : target.status = .leased
  attempt_leased : attempt.status = .leased
  attempt_allowed : attemptUpdateAllowed attempt (attempt.submitted submittedAt) = true

/-- The retry that a resolution schedules. -/
def schedulesRetry (job : JobRow) (target : TargetRow) (terminal : AttemptStatus) : Prop :=
  target.attemptCount < job.maxAttempts ∧ (terminal = .failed ∨ terminal = .unknown)

/-- The live attempt of a target may be resolved. -/
structure Resolves (s : Store) (job : JobRow) (target : TargetRow) (attempt : AttemptRow)
    (terminal : AttemptStatus) (reason : AttemptReason) (jitter : RetryJitter)
    (status : TargetStatus) (next : Option TimeUnixMs) (observedAt : TimeUnixMs) : Prop where
  job_mem : job ∈ s.jobs
  target_mem : target ∈ targetsOf s job.jobId
  attempt_mem : attempt ∈ attemptsOf s job.jobId target.targetIndex
  live : attempt.status.isLive = true
  jitter_used : schedulesRetry job target terminal ∨ jitter.get = 0
  outcome : resolvedTarget job target attempt.attemptNumber terminal jitter observedAt =
    .ok (status, next)
  attempt_allowed :
    attemptUpdateAllowed attempt (attempt.resolved terminal reason observedAt) = true
  target_allowed : targetUpdateAllowed target (target.resolved status next observedAt) = true
  job_allowed : ∀ verdict,
    (s.resolved target attempt terminal reason status next observedAt).verdict job =
      some verdict → jobUpdateAllowed job (job.finalized verdict observedAt) = true

/-- What a delivery transaction can do to the store. -/
inductive DeliveryStep (s : Store) : Store → Prop where
  | create {source : Source} {artifact : Id32} {createdAt : TimeUnixMs} {policy : DeliveryPolicies}
      (capacity : activeJobCount s < policy.outboxMaximum)
      (allowed : jobInsertAllowed s (newJobRow source artifact createdAt policy) = true) :
      DeliveryStep s (s.created source artifact createdAt policy)
  | claim {job : JobRow} {target : TargetRow} {attempt : AttemptRow} {claimedAt : TimeUnixMs}
      (h : Claims s job target attempt claimedAt) :
      DeliveryStep s (s.claimed job target attempt claimedAt)
  | submit {job : JobRow} {target : TargetRow} {attempt : AttemptRow} {submittedAt : TimeUnixMs}
      (h : Submits s job target attempt submittedAt) :
      DeliveryStep s (s.submitted target attempt submittedAt)
  | resolve {job : JobRow} {target : TargetRow} {attempt : AttemptRow} {terminal : AttemptStatus}
      {reason : AttemptReason} {jitter : RetryJitter} {status : TargetStatus}
      {next : Option TimeUnixMs} {observedAt : TimeUnixMs}
      (h : Resolves s job target attempt terminal reason jitter status next observedAt) :
      DeliveryStep s
        ((s.resolved target attempt terminal reason status next observedAt).finalized job observedAt)

end MycSigner
