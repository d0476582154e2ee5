import MycSigner.Outbox.Frames
import MycSigner.Lib.Run

/-!
# The delivery task

The daemon recovers the delivery state when it starts and then runs the delivery loop: look for
a ready target, claim it, submit the exact event bytes, and record what the relay answered.
Every durable step is a step of its own, so that a crash may fall between any two of them.  Jobs
and discovery generations are created by the other tasks in between, and what those write
outside the delivery and discovery tables is left open.
-/

namespace MycSigner

open Transaction

/-! ## The next target -/

/-- A target that the loop may claim, with its open job. -/
def targetReady (observedAt : TimeUnixMs) (job : JobRow) (target : TargetRow) : Bool :=
  job.status.isOpen && (target.status == .pending || target.status == .retryable ||
    target.status == .unknown) && decide (target.attemptCount < job.maxAttempts) &&
    target.activeAttemptId.isNone && target.nextAttemptAt.all fun next => decide (next ≤ observedAt)

/-- The order of the ready targets: by creation of the job, by job, by index. -/
def readyBefore (left right : JobRow × TargetRow) : Bool :=
  left.1.createdAt.get < right.1.createdAt.get ||
    (left.1.createdAt.get == right.1.createdAt.get &&
      (left.1.jobId < right.1.jobId ||
        (left.1.jobId == right.1.jobId && left.2.targetIndex ≤ right.2.targetIndex)))

/-- `READ_NEXT_READY_TARGET_SQL` -/
def nextReadyTarget (s : Store) (observedAt : TimeUnixMs) : Option (Id32 × RelayId) :=
  ((Table.ordered readyBefore (s.targets.flatMap fun target =>
    (s.jobs.filter fun job => job.jobId = target.jobId ∧ targetReady observedAt job target).map
      fun job => (job, target))).head?).map fun found => (found.1.jobId, found.2.relayId)

/-- The transaction of `next_ready_delivery_target`. -/
def nextReadyDeliveryTarget (config : Configuration) (observedAt : TimeUnixMs) :
    Tx (Option (Id32 × RelayId)) :=
  withBinding config (query fun s => .ok (nextReadyTarget s observedAt))

/-! ## One attempt -/

/-- `delivery_retry_jitter` -/
def deliveryRetryJitter (job : JobRow) (attemptNumber : ℕ) (outcome : AttemptOutcome)
    (retryEntropy : ℕ) : Option RetryJitter :=
  if outcome = .delivered ∨ job.maxAttempts ≤ attemptNumber then RetryJitter.new 0
  else RetryJitter.new (retryEntropy % (backoffBound job attemptNumber + 1))

/-- `read_exact_event` -/
def readExactEvent (codec : EventCodec) (policy : Option DiscoveryPolicies) (job : JobRecord)
    (s : Store) : Except OperationError Bytes := do
  let bytes ← match job.sourceKind with
    | .signerResponse => do
        let response ← readResponseByJob codec s job.jobId
        let response ← .ofOption .binding
          (response.filter fun response => response.deliveryJob.jobId = job.jobId)
        .ok response.responseBytes
    | .discoveryHandler => do
        let generation ← discoveryGenerationForJob s job.jobId
        let generation ← .ofOption .binding generation
        let policy ← .ofOption .binding policy
        let document ← readDocument codec policy s generation
        let document ← .ofOption .binding document
        .ok document.eventBytes
  .require (Sha256.digest bytes = job.artifactSha256) .binding
  .ok bytes

/-- What the worker holds between its steps. -/
structure Hold where
  jobId : Id32
  relayId : RelayId
  attempt : AttemptRow
  now : TimeUnixMs
  retryEntropy : ℕ

/-- `persist_outcome` -/
def persistOutcome (config : Configuration) (hold : Hold) (job : JobRecord)
    (outcome : AttemptOutcome) : Tx JobRecord := do
  let jitter ← orFail
    (deliveryRetryJitter job.toJobRow hold.attempt.attemptNumber outcome hold.retryEntropy) .binding
  withBinding config
    (recordOutcome job.jobId hold.relayId hold.attempt.attemptId outcome jitter hold.now)

/-- The step of `run_with_adapter` after the claim: the event is prepared and submitted, or the
attempt fails without a submission. -/
def submitPrepared (codec : EventCodec) (config : Configuration) (hold : Hold)
    (prepared : Bool) : Tx (Option JobRecord) := do
  let job ← withBinding config (query (readJob · hold.jobId))
  let job ← orFail job .binding
  let _ ← withBinding config (query (readExactEvent codec config.discovery job))
  if prepared then do
    let _ ← withBinding config
      (markSubmitted hold.jobId hold.relayId hold.attempt.attemptId hold.now)
    return some job
  else do
    let _ ← persistOutcome config hold job .transportFailed
    return none

/-! ## The daemon -/

/-- Where the delivery task stands. -/
inductive Worker where
  | stopped
  | recovering (entropy : Id32) (observedAt : TimeUnixMs) (cursor : Option Id32)
      (aggregate : RecoveryReport)
  | looping
  | found (jobId : Id32) (relayId : RelayId) (now : TimeUnixMs)
  | claimed (hold : Hold)
  | submitted (hold : Hold) (job : JobRecord)

structure Daemon where
  store : Store
  worker : Worker

/-- A step of the daemon, of the world around it, or of another task. -/
inductive OutboxEvent where
  | start (observedAt : TimeUnixMs) (entropy : Id32)
  | recover
  /-- The top of the loop, with the clock's reading. -/
  | poll (cancelled : Bool) (now : TimeUnixMs)
  | claim (cancelled : Bool) (nonce : Id32) (retryEntropy : ℕ)
  /-- The relay adapter prepares the event, unless it fails or the task is cancelled. -/
  | submit (prepared : Bool)
  | record (outcome : AttemptOutcome)
  /-- A crash, or a failure that ends the task. -/
  | crash
  | createJob (operationId artifact : Id32) (createdAt : TimeUnixMs)
  | commitDiscovery (request : DiscoveryCommitRequest)
  | promoteDiscovery (jobId : Id32) (observedAt : TimeUnixMs)
  | elsewhere (other : Store)

namespace Daemon

variable (codec : EventCodec) (config : Configuration)

/-- One transaction of the task; a failure ends the task. -/
def transact {α : Type} (daemon : Daemon) (body : Tx α) (next : α → Worker) : Daemon :=
  match body.atomically daemon.store with
  | (.ok a, store) => ⟨store, next a⟩
  | (.error _, store) => ⟨store, .stopped⟩

/-- One batch of the recovery; after the last one the invariants are verified once more. -/
def recoverStep (daemon : Daemon) (entropy : Id32) (observedAt : TimeUnixMs)
    (cursor : Option Id32) (aggregate : RecoveryReport) : Daemon :=
  match (withBinding config (recoverBatch codec config.discovery config.delivery.outboxMaximum
      entropy observedAt cursor)).atomically daemon.store with
  | (.error _, store) => ⟨store, .stopped⟩
  | (.ok (batch, continuation), store) =>
      match aggregate.merge batch, continuation with
      | .error _, _ => ⟨store, .stopped⟩
      | .ok aggregate, some next => ⟨store, .recovering entropy observedAt (some next) aggregate⟩
      | .ok _, none => transact ⟨store, .stopped⟩
          (withBinding config (query (verifyGlobalInvariants config.delivery.outboxMaximum)))
          fun _ => .looping

/-- The worker after a look for a ready target. -/
def pollNext (now : TimeUnixMs) : Option (Id32 × RelayId) → Worker
  | some (jobId, relayId) => .found jobId relayId now
  | none => .looping

/-- The worker after a claim. -/
def claimNext (jobId : Id32) (relayId : RelayId) (now : TimeUnixMs) (retryEntropy : ℕ) :
    Claim → Worker
  | .claimed attempt => .claimed ⟨jobId, relayId, attempt, now, retryEntropy⟩
  | .exactReplay _ | .notReady | .terminal => .looping

/-- The worker after a submission, or after an attempt that failed before it. -/
def submitNext (hold : Hold) : Option JobRecord → Worker
  | some job => .submitted hold job
  | none => .looping

/-- The effect of another task on the store. -/
def others {α : Type} (daemon : Daemon) (body : Tx α) : Daemon :=
  { daemon with store := (body.atomically daemon.store).2 }

/-- The daemon after an event; an event that does not fit its state changes nothing. -/
def perform (daemon : Daemon) (event : OutboxEvent) : Daemon :=
  match event, daemon.worker with
  | .start observedAt entropy, .stopped =>
      { daemon with worker := .recovering entropy observedAt none .empty }
  | .recover, .recovering entropy observedAt cursor aggregate =>
      daemon.recoverStep codec config entropy observedAt cursor aggregate
  | .poll cancelled now, .looping =>
      if cancelled then { daemon with worker := .stopped }
      else daemon.transact (nextReadyDeliveryTarget config now) (pollNext now)
  | .claim cancelled nonce retryEntropy, .found jobId relayId now =>
      if cancelled then { daemon with worker := .looping }
      else daemon.transact (withBinding config (claimTarget jobId relayId nonce now))
        (claimNext jobId relayId now retryEntropy)
  | .submit prepared, .claimed hold =>
      daemon.transact (submitPrepared codec config hold prepared) (submitNext hold)
  | .record outcome, .submitted hold job =>
      daemon.transact (persistOutcome config hold job outcome) fun _ => .looping
  | .crash, _ => { daemon with worker := .stopped }
  | .createJob operationId artifact createdAt, _ => daemon.others (withBinding config
      (MycSigner.createJob ⟨.signerResponse, operationId⟩ artifact createdAt config.delivery))
  | .commitDiscovery request, _ =>
      daemon.others (commitDiscoveryDesiredState codec config request)
  | .promoteDiscovery jobId observedAt, _ =>
      daemon.others (promoteDeliveredDiscoveryState config jobId observedAt)
  | .elsewhere other, _ =>
      { daemon with store := { other with
          jobs := daemon.store.jobs, targets := daemon.store.targets,
          attempts := daemon.store.attempts, desired := daemon.store.desired,
          documents := daemon.store.documents,
          publicationState := daemon.store.publicationState } }
  | _, _ => daemon

/-- The daemon before its first start. -/
def initial (appliedAtUnixS : ℕ) : Daemon :=
  ⟨Store.initial config.metadata appliedAtUnixS, .stopped⟩

end Daemon

end MycSigner
