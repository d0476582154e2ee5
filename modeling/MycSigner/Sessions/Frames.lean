import MycSigner.ConfigurationApply
import MycSigner.Recovery

/-!
# Which tables an operation leaves alone

A projection forgets the tables of one part of the program; an operation of that part keeps
the projection, so every other table is as it was.  The frame of a single table follows by
reading that table off the kept projection.
-/

namespace MycSigner

open Transaction

/-- The store without the audit trail and the rate windows. -/
def Store.withoutGovernance (s : Store) : Store :=
  { s with nextAuditSequence := 0, audit := [], requestAudit := [], rateWindows := [] }

/-- The store without the request tables. -/
def Store.withoutRequests (s : Store) : Store := { s with requests := [], dedup := [] }

/-- The job before any delivery. -/
def JobRow.asCreated (row : JobRow) : JobRow :=
  { row with status := .pending, updatedAt := row.createdAt, finalizedAt := none }

/-- The jobs of responses, as they were created. -/
def Store.responseJobs (s : Store) : List JobRow :=
  (s.jobs.filter fun row => row.sourceKind = .signerResponse).map JobRow.asCreated

/-- The store without the progress of delivery: only the creation of response jobs is left. -/
def Store.withoutDelivery (s : Store) : Store :=
  { s with jobs := s.responseJobs, targets := [], attempts := [] }

/-- The store without the delivery and the discovery tables. -/
def Store.withoutOutbox (s : Store) : Store :=
  { s.withoutDelivery with desired := [], documents := [], publicationState := none }

/-- What keeps everything outside delivery keeps everything outside the outbox. -/
theorem keeps_outbox {α : Type} {body : Tx α} (h : Keeps Store.withoutDelivery body) :
    Keeps Store.withoutOutbox body := by
  intro s a s' hrun
  have hkept := h hrun
  unfold Store.withoutOutbox
  rw [hkept]

/-! ## Governance -/

theorem advanceAuditState_keeps : Keeps Store.withoutGovernance advanceAuditState := by
  unfold advanceAuditState
  refine .bind (.query _) fun current => .bind (.require _ _) fun _ => .bind (.modify ?_) fun _ =>
    .pure _
  intro s
  rfl

theorem linkRequestAudit_keeps (operationId : Option Id32) (kind : AuditKind) (sequence : ℕ) :
    Keeps Store.withoutGovernance (linkRequestAudit operationId kind sequence) := by
  cases operationId with
  | none => exact .pure _
  | some operationId => exact requestAuditTable.respects_insert fun s _ => rfl

theorem recordAudit_keeps (evidence : AuditEvidence) (kind : AuditKind) (outcome : AuditOutcome)
    (reason : AuditReason) :
    Keeps Store.withoutGovernance (recordAudit evidence kind outcome reason) := by
  unfold recordAudit
  refine .bind (.query _) fun existing => ?_
  cases existing with
  | some existing => exact .require _ _
  | none =>
      exact .bind advanceAuditState_keeps fun sequence =>
        .bind (auditTable.respects_insert fun s _ => rfl) fun _ =>
          linkRequestAudit_keeps evidence.operationId kind sequence

theorem persistRateState_keeps (policy : RateLimitPolicy) (observedAt : TimeUnixMs)
    (admitted : Bool) (state : RateState) :
    Keeps Store.withoutGovernance (persistRateState policy observedAt admitted state) := by
  unfold persistRateState
  refine .bind (.require _ _) fun _ => .bind (.query _) fun retention => ?_
  cases state.existingLast with
  | none => exact rateWindowsTable.respects_insert fun s _ => rfl
  | some last =>
      exact .bind (rateWindowsTable.respects_update fun s _ => rfl) fun rows => .require _ _

theorem governRateAttempt_keeps (policy : RateLimitPolicy) (expectedClass : RateLimitClass)
    (subjects : List RateSubject) (evidence : AuditEvidence) (auditKind : AuditKind) :
    Keeps Store.withoutGovernance
      (governRateAttempt policy expectedClass subjects evidence auditKind) := by
  unfold governRateAttempt
  refine .bind (.require _ _) fun _ => .bind (.query _) fun existing => ?_
  cases existing with
  | some existing => exact .bind (.require _ _) fun _ => .pure _
  | none =>
      refine .bind (.query _) fun states => .bind (.forM _ fun state =>
        persistRateState_keeps policy evidence.occurredAt _ state) fun _ => ?_
      split
      next => exact .pure _
      next => exact .bind (recordAudit_keeps evidence auditKind _ _) fun _ => .pure _

theorem compactGovernance_keeps (observedAt : TimeUnixMs)
    (auditRetentionMs maximumRowsPerClass : ℕ) (correlation : Id32) :
    Keeps Store.withoutGovernance
      (compactGovernance observedAt auditRetentionMs maximumRowsPerClass correlation) := by
  unfold compactGovernance
  refine .bind (.query _) fun existing => ?_
  cases existing with
  | some existing => exact .require _ _
  | none =>
      exact .bind (.query _) fun sequences => .bind (.query _) fun windows =>
        .bind (.modify fun s => rfl) fun _ => .bind (.modify fun s => rfl) fun _ =>
          .bind (.require _ _) fun _ => recordAudit_keeps _ _ _ _

/-! ## Requests -/

/-- Request rows are never changed or removed, and a new one has a new operation and a new
logical identity. -/
structure RequestsGrow (s s' : Store) : Prop where
  kept : ∀ row ∈ s.requests, row ∈ s'.requests
  unique : Table.Unique RequestRow.operationId s.requests →
    Table.Unique RequestRow.operationId s'.requests
  identified : Table.Unique RequestRow.requestIdentitySha256 s.requests →
    Table.Unique RequestRow.requestIdentitySha256 s'.requests

instance : Std.Refl RequestsGrow := ⟨fun _ => ⟨fun _ h => h, fun h => h, fun h => h⟩⟩

instance : IsTrans Store RequestsGrow :=
  ⟨fun _ _ _ first second =>
    ⟨fun row h => second.kept row (first.kept row h), fun h => second.unique (first.unique h),
      fun h => second.identified (first.identified h)⟩⟩

theorem RequestsGrow.of_eq {s s' : Store} (h : s'.requests = s.requests) : RequestsGrow s s' where
  kept := by rw [h]; exact fun _ hrow => hrow
  unique := by rw [h]; exact fun hunique => hunique
  identified := by rw [h]; exact fun hunique => hunique

theorem insertRequest_grows (row : RequestRow) : Respects RequestsGrow (insertRequest row) := by
  refine requestsTable.respects_insert fun s hallowed => ?_
  unfold requestInsertAllowed at hallowed
  have hnew := fun other hother => List.all_eq_true.mp hallowed other hother
  refine ⟨fun old hold => List.mem_append_left _ hold, ?_, ?_⟩
  · intro hunique
    refine hunique.append_row fun other hother heq => ?_
    have hne := hnew other hother
    simp [heq] at hne
  · intro hunique
    refine hunique.append_row fun other hother heq => ?_
    have hne := hnew other hother
    simp [heq] at hne

/-- What an admission may do: grow the requests and rewrite the deduplication rows. -/
structure AdmitsRequests (s s' : Store) : Prop where
  outside : s'.withoutRequests = s.withoutRequests
  grows : RequestsGrow s s'

instance : Std.Refl AdmitsRequests := ⟨fun s => ⟨rfl, Std.Refl.refl s⟩⟩

instance : IsTrans Store AdmitsRequests :=
  ⟨fun _ _ _ first second =>
    ⟨second.outside.trans first.outside, IsTrans.trans _ _ _ first.grows second.grows⟩⟩

theorem insertDedup_admits (kind : DedupKind) (identity requestDigest operationId : Id32)
    (receivedAt : TimeUnixMs) :
    Respects AdmitsRequests (insertDedup kind identity requestDigest operationId receivedAt) :=
  dedupTable.respects_insert fun _ _ => ⟨rfl, .of_eq rfl⟩

theorem recordReplay_admits (kind : DedupKind) (identity : Id32) (receivedAt : TimeUnixMs) :
    Respects AdmitsRequests (recordReplay kind identity receivedAt) :=
  .bind (dedupTable.respects_update fun _ _ => ⟨rfl, .of_eq rfl⟩) fun _ => .require _ _

theorem recordConflict_admits (kind : DedupKind) (identity : Id32) (receivedAt : TimeUnixMs) :
    Respects AdmitsRequests (recordConflict kind identity receivedAt) :=
  .bind (dedupTable.respects_update fun _ _ => ⟨rfl, .of_eq rfl⟩) fun _ => .require _ _

theorem insertRequest_admits (row : RequestRow) : Respects AdmitsRequests (insertRequest row) := by
  intro s u s' hrun
  refine ⟨?_, insertRequest_grows row hrun⟩
  obtain ⟨-, rfl⟩ := requestsTable.run_insert_eq_ok.mp hrun
  rfl

theorem readOutcome_admits (kind : DedupKind) (identity : Id32) :
    Respects AdmitsRequests (readOutcome kind identity) :=
  .bind (.query _) fun _ => .orFail _ _

theorem insertNewRequest_admits (request : SignerRequest) :
    Respects AdmitsRequests (insertNewRequest request) :=
  .bind (insertRequest_admits _) fun _ => .bind (insertDedup_admits _ _ _ _ _) fun _ =>
    .bind (insertDedup_admits _ _ _ _ _) fun _ => .bind (readOutcome_admits _ _) fun _ => .pure _

theorem recordEvent_admits (request : SignerRequest) (operationId : Id32) (eventKnown : Bool) :
    Respects AdmitsRequests (recordEvent request operationId eventKnown) := by
  cases eventKnown with
  | true => exact recordReplay_admits _ _ _
  | false => exact insertDedup_admits _ _ _ _ _

theorem admitRequest_admits (request : SignerRequest) :
    Respects AdmitsRequests (admitRequest request) := by
  unfold admitRequest
  refine .bind (.query _) fun requestMatch => .bind (.query _) fun eventMatch => ?_
  cases requestMatch with
  | some existing =>
      dsimp only
      split
      next =>
        exact .bind (recordEvent_admits _ _ _) fun _ => .bind (recordReplay_admits _ _ _) fun _ =>
          .bind (readOutcome_admits _ _) fun _ => .pure _
      next =>
        exact .bind (recordConflict_admits _ _ _) fun _ => .bind (readOutcome_admits _ _) fun _ =>
          .pure _
  | none =>
      cases eventMatch with
      | none => exact insertNewRequest_admits request
      | some _ =>
          exact .bind (recordConflict_admits _ _ _) fun _ => .bind (readOutcome_admits _ _) fun _ =>
            .pure _

/-! ## Delivery -/

theorem responseJobs_update {matching : JobRow → Bool} {set : JobRow → JobRow}
    (hset : ∀ row, (set row).asCreated = row.asCreated) (s : Store) :
    Store.responseJobs { s with jobs := Table.update matching set s.jobs } = s.responseJobs := by
  unfold Store.responseJobs Table.update
  dsimp only
  induction s.jobs with
  | nil => rfl
  | cons row rows ih =>
      have hrow : ∀ other : JobRow, (if matching other = true then set other else other).asCreated =
          other.asCreated := by
        intro other
        split
        next => exact hset other
        next => rfl
      have hsame : ∀ other : JobRow, (if matching other = true then set other else other).sourceKind =
          other.sourceKind := fun other => (congrArg JobRow.sourceKind (hrow other) :)
      simp only [List.map_cons, List.filter_cons, hsame]
      split
      next => rw [List.map_cons, List.map_cons, ih, hrow]
      next => exact ih

theorem updateJobs_keeps {matching : JobRow → Bool} {set : JobRow → JobRow}
    (hset : ∀ row, (set row).asCreated = row.asCreated) :
    Keeps Store.withoutDelivery (updateJobs matching set) := by
  refine jobsTable.respects_update fun s _ => ?_
  unfold Store.withoutDelivery
  exact congrArg (fun jobs => { s with jobs := jobs, targets := [], attempts := [] })
    (responseJobs_update hset s)

theorem updateTargets_keeps (matching : TargetRow → Bool) (set : TargetRow → TargetRow) :
    Keeps Store.withoutDelivery (updateTargets matching set) :=
  targetsTable.respects_update fun _ _ => rfl

theorem updateAttempts_keeps (matching : AttemptRow → Bool) (set : AttemptRow → AttemptRow) :
    Keeps Store.withoutDelivery (updateAttempts matching set) :=
  attemptsTable.respects_update fun _ _ => rfl

theorem insertTargets_keeps (jobId : Id32) (createdAt : TimeUnixMs) (index : ℕ)
    (targets : List TargetPolicy) :
    Keeps Store.withoutDelivery (insertTargets jobId createdAt index targets) := by
  induction targets generalizing index with
  | nil => exact .pure _
  | cons target rest ih =>
      exact .bind (targetsTable.respects_insert fun _ _ => rfl) fun _ => ih (index + 1)

theorem insertJob_keeps {row : JobRow} (hkind : row.sourceKind ≠ .signerResponse) :
    Keeps Store.withoutDelivery (insertJob row) := by
  refine jobsTable.respects_insert fun s _ => ?_
  have hjobs : Store.responseJobs { s with jobs := s.jobs ++ [row] } = s.responseJobs := by
    simp [Store.responseJobs, List.filter_append, hkind]
  unfold Store.withoutDelivery
  exact congrArg (fun jobs => { s with jobs := jobs, targets := [], attempts := [] }) hjobs

theorem createJob_keeps {source : Source} (hkind : source.kind ≠ .signerResponse) (artifact : Id32)
    (createdAt : TimeUnixMs) (policy : DeliveryPolicies) :
    Keeps Store.withoutDelivery (createJob source artifact createdAt policy) := by
  unfold createJob
  refine .bind (.query _) fun existing => ?_
  cases existing with
  | some existing => exact .bind (.require _ _) fun _ => .pure _
  | none =>
      exact .bind (.query _) fun _ => .bind (.require _ _) fun _ =>
        .bind (insertJob_keeps hkind) fun _ =>
          .bind (insertTargets_keeps _ _ _ _) fun _ => .bind (.query _) fun _ =>
            .bind (.orFail _ _) fun _ => .pure _

theorem claimTarget_keeps (jobId : Id32) (relayId : RelayId) (nonce : Id32)
    (claimedAt : TimeUnixMs) :
    Keeps Store.withoutDelivery (claimTarget jobId relayId nonce claimedAt) := by
  unfold claimTarget
  refine .bind (.query _) fun _ => .bind (.orFail _ _) fun job => ?_
  split
  next => exact .pure _
  next =>
    refine .bind (.query _) fun target => .bind (.query _) fun existing => ?_
    cases existing with
    | some existing => exact .pure _
    | none =>
        dsimp only
        split
        next => exact .pure _
        next =>
          split
          next => exact .pure _
          next =>
            exact .bind (.orFail _ _) fun _ =>
              .bind (attemptsTable.respects_insert fun _ _ => rfl) fun _ =>
                .bind (updateTargets_keeps _ _) fun _ => .bind (.require _ _) fun _ =>
                  .bind (updateJobs_keeps fun _ => rfl) fun _ => .bind (.require _ _) fun _ =>
                    .bind (.query _) fun _ => .bind (.orFail _ _) fun _ => .pure _

theorem markSubmitted_keeps (jobId : Id32) (relayId : RelayId) (attemptId : Id32)
    (submittedAt : TimeUnixMs) :
    Keeps Store.withoutDelivery (markSubmitted jobId relayId attemptId submittedAt) := by
  unfold markSubmitted
  refine .bind (.query _) fun _ => .bind (.orFail _ _) fun job => .bind (.query _) fun target =>
    .bind (.query _) fun _ => .bind (.orFail _ _) fun attempt => ?_
  split
  next => exact .bind (.require _ _) fun _ => .pure _
  next =>
    exact .bind (.require _ _) fun _ => .bind (updateAttempts_keeps _ _) fun _ =>
      .bind (.require _ _) fun _ => .bind (updateTargets_keeps _ _) fun _ =>
        .bind (.require _ _) fun _ => .bind (.query _) fun _ => .orFail _ _

theorem resolveAttemptAndTarget_keeps (job : JobRecord) (target : TargetRow) (attempt : AttemptRow)
    (prior terminal : AttemptStatus) (reason : AttemptReason) (jitter : RetryJitter)
    (observedAt : TimeUnixMs) :
    Keeps Store.withoutDelivery (resolveAttemptAndTarget job target attempt prior terminal reason
      jitter observedAt) :=
  .bind (updateAttempts_keeps _ _) fun _ => .bind (.require _ _) fun _ =>
    .bind (.require _ _) fun _ => .bind (.query _) fun _ => .bind (.orFail _ _) fun _ =>
      .bind (updateTargets_keeps _ _) fun _ => .require _ _

theorem finalizeJobIfTerminal_keeps (jobId : Id32) (observedAt : TimeUnixMs) :
    Keeps Store.withoutDelivery (finalizeJobIfTerminal jobId observedAt) := by
  unfold finalizeJobIfTerminal
  refine .bind (.query _) fun _ => .bind (.orFail _ _) fun job => ?_
  cases terminalStatus job with
  | none => exact .bind (.query _) fun _ => .orFail _ _
  | some status =>
      exact .bind (updateJobs_keeps fun _ => rfl) fun _ => .bind (.require _ _) fun _ =>
        .bind (.query _) fun _ => .orFail _ _

theorem recordOutcome_keeps (jobId : Id32) (relayId : RelayId) (attemptId : Id32)
    (outcome : AttemptOutcome) (jitter : RetryJitter) (observedAt : TimeUnixMs) :
    Keeps Store.withoutDelivery (recordOutcome jobId relayId attemptId outcome jitter observedAt) := by
  unfold recordOutcome
  refine .bind (.query _) fun _ => .bind (.orFail _ _) fun job => .bind (.query _) fun target =>
    .bind (.query _) fun _ => .bind (.orFail _ _) fun attempt => ?_
  split
  next =>
    exact .bind (.require _ _) fun _ => .bind (resolveAttemptAndTarget_keeps _ _ _ _ _ _ _ _) fun _ =>
      finalizeJobIfTerminal_keeps _ _
  next => exact .bind (.require _ _) fun _ => .pure _

theorem recoverExpired_keeps (jobId : Id32) (relayId : RelayId) (attemptId : Id32)
    (jitter : RetryJitter) (observedAt : TimeUnixMs) :
    Keeps Store.withoutDelivery (recoverExpired jobId relayId attemptId jitter observedAt) := by
  unfold recoverExpired
  refine .bind (.query _) fun _ => .bind (.orFail _ _) fun job => .bind (.query _) fun target =>
    .bind (.query _) fun _ => .bind (.orFail _ _) fun attempt => ?_
  split
  next =>
    exact .bind (.require _ _) fun _ => .bind (resolveAttemptAndTarget_keeps _ _ _ _ _ _ _ _) fun _ =>
      finalizeJobIfTerminal_keeps _ _
  next => exact .pure _

/-! ## Discovery and recovery -/

theorem updatePublicationState_keeps (matching : PublicationStateRow → Bool)
    (set : PublicationStateRow → PublicationStateRow) :
    Keeps Store.withoutOutbox (updatePublicationState matching set) :=
  publicationTable.respects_update fun _ _ => rfl

theorem confirmDesired_keeps (codec : EventCodec) (request : DiscoveryCommitRequest)
    (policy : DiscoveryPolicies) (created : Bool) :
    Keeps Store.withoutOutbox (confirmDesired codec request policy created) :=
  .bind (.query _) fun _ => .bind (.orFail _ _) fun _ => .bind (.query _) fun _ =>
    .bind (.orFail _ _) fun _ => .bind (.require _ _) fun _ => .pure _

theorem replaceDesired_keeps (request : DiscoveryCommitRequest) (jobId : Id32)
    (state : PublicationStateRow) :
    Keeps Store.withoutOutbox (replaceDesired request jobId state) :=
  .bind (.require _ _) fun _ => .bind (updatePublicationState_keeps _ _) fun _ => .require _ _

theorem insertGeneration_keeps (request : DiscoveryCommitRequest) (existing : Bool) :
    Keeps Store.withoutOutbox (insertGeneration request existing) := by
  cases existing with
  | true => exact .pure _
  | false =>
      exact .bind (desiredTable.respects_insert fun _ _ => rfl) fun _ =>
        documentsTable.respects_insert fun _ _ => rfl

theorem pointDesired_keeps (codec : EventCodec) (request : DiscoveryCommitRequest)
    (policy : DiscoveryPolicies) (existing : Bool) (jobId : Id32) :
    Keeps Store.withoutOutbox (pointDesired codec request policy existing jobId) := by
  unfold pointDesired
  refine .bind (.query _) fun state => ?_
  cases state with
  | none =>
      exact .bind (publicationTable.respects_insert fun _ _ => rfl) fun _ =>
        confirmDesired_keeps _ _ _ _
  | some state =>
      dsimp only
      split
      next => exact .bind (.require _ _) fun _ => .pure _
      next => exact .bind (replaceDesired_keeps _ _ _) fun _ => confirmDesired_keeps _ _ _ _

theorem commitDesired_keeps (codec : EventCodec) (request : DiscoveryCommitRequest)
    (deliveryPolicy : DeliveryPolicies) (policy : DiscoveryPolicies) :
    Keeps Store.withoutOutbox (commitDesired codec request deliveryPolicy policy) :=
  .bind (.query _) fun _ => .bind (.query _) fun _ => .bind (.query _) fun existing =>
    .bind (insertGeneration_keeps request existing) fun _ =>
      .bind (keeps_outbox (createJob_keeps (by simp) _ _ _)) fun _ => pointDesired_keeps _ _ _ _ _

theorem promoteCurrent_keeps (jobId : Id32) (observedAt : TimeUnixMs) :
    Keeps Store.withoutOutbox (promoteCurrent jobId observedAt) := by
  unfold promoteCurrent
  refine .bind (.query _) fun _ => .bind (.orFail _ _) fun state => .bind (.require _ _) fun _ =>
    .bind (.query _) fun job => .bind (.require _ _) fun _ => ?_
  split
  next => exact .pure _
  next =>
    exact .bind (updatePublicationState_keeps _ _) fun _ => .bind (.require _ _) fun _ =>
      .bind (.query _) fun _ => .bind (.orFail _ _) fun _ => .pure _

theorem promoteCurrentIfDesired_keeps (jobId : Id32) (observedAt : TimeUnixMs) :
    Keeps Store.withoutOutbox (promoteCurrentIfDesired jobId observedAt) := by
  unfold promoteCurrentIfDesired
  refine .bind (.query _) fun _ => .bind (.orFail _ _) fun state => ?_
  split
  next => exact .bind (promoteCurrent_keeps _ _) fun _ => .pure _
  next => exact .pure _

theorem recoverTarget_keeps (entropy : Id32) (observedAt : TimeUnixMs) (before : JobRecord)
    (progress : JobRecord × RecoveryReport) (target : TargetRow) :
    Keeps Store.withoutDelivery (recoverTarget entropy observedAt before progress target) := by
  unfold recoverTarget
  cases target.activeAttemptId with
  | none => exact .pure _
  | some attemptId =>
      refine .bind (.query _) fun attempts => .bind (.orFail _ _) fun attempt => ?_
      split
      next =>
        exact .bind (.query _) fun _ => .bind (recoverExpired_keeps _ _ _ _ _) fun _ =>
          .bind (.query _) fun _ => .pure _
      next => exact .pure _

theorem promoteRecovered_keeps (observedAt : TimeUnixMs) (current : JobRecord)
    (report : RecoveryReport) :
    Keeps Store.withoutOutbox (promoteRecovered observedAt current report) := by
  unfold promoteRecovered
  split
  next =>
    refine .bind (promoteCurrentIfDesired_keeps _ _) fun promoted => ?_
    split
    next => exact .bind (.query _) fun _ => .pure _
    next => exact .pure _
  next => exact .pure _

theorem recoverJob_keeps (codec : EventCodec) (policy : Option DiscoveryPolicies) (entropy : Id32)
    (observedAt : TimeUnixMs) (report : RecoveryReport) (jobId : Id32) :
    Keeps Store.withoutOutbox (recoverJob codec policy entropy observedAt report jobId) :=
  .bind (.query _) fun _ => .bind (.orFail _ _) fun before => .bind (.query _) fun _ =>
    .bind (.query _) fun _ =>
      .bind (keeps_outbox (.foldlM _ _ fun progress target =>
        recoverTarget_keeps entropy observedAt before progress target)) fun _ =>
        .bind (keeps_outbox (finalizeJobIfTerminal_keeps _ _)) fun _ => .bind (.query _) fun _ =>
          .bind (promoteRecovered_keeps _ _ _) fun _ => .bind (.query _) fun _ =>
            .bind (.orFail _ _) fun _ => .bind (.query _) fun _ => .bind (.query _) fun _ =>
              .bind (.query _) fun _ => .pure _

theorem recoverBatch_keeps (codec : EventCodec) (policy : Option DiscoveryPolicies)
    (outboxMaximum : ℕ) (entropy : Id32) (observedAt : TimeUnixMs) (cursor : Option Id32) :
    Keeps Store.withoutOutbox
      (recoverBatch codec policy outboxMaximum entropy observedAt cursor) :=
  .bind (.query _) fun _ => .bind (.query _) fun _ =>
    .bind (.foldlM _ _ fun report jobId => recoverJob_keeps _ _ _ _ report jobId) fun _ => .pure _

end MycSigner
