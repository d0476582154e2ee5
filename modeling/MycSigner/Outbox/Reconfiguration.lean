import MycSigner.Lib.Ignores
import MycSigner.Outbox.Recovered
import MycSigner.Sessions.Refinement

/-!
# Recovery under another configuration

Recovery reads the configuration in two places: the ceiling of the outbox, which bounds the open
jobs before every batch, and the discovery policies, under which the document of every discovery
job is parsed again.  An application of a configuration compares the relays of open jobs and
nothing else, and it writes no table that recovery reads.  Recovery under the candidate is
therefore the recovery under the current configuration, step by step, as long as these two agree
with what is stored.
-/

namespace MycSigner

open Transaction

/-! ## The tables that an application writes -/

/-- The store with the tables of an application taken from another one. -/
def Store.rebase (other s : Store) : Store :=
  { s with
    configBindings := other.configBindings
    connections := other.connections
    challenges := other.challenges }

/-- The stores differ in the tables of an application only. -/
def Rebased (s s' : Store) : Prop := s'.rebase s = s'

theorem reconfigured_rebased (s : Store) (current candidate : Configuration) (appliedAtUnixS : ℕ)
    (bindings : List ConfigBindingRow) :
    Rebased s
      { s.reconfigured current candidate appliedAtUnixS with configBindings := bindings } := by
  unfold Rebased Store.reconfigured
  split
  next => rfl
  next =>
    split
    next => rfl
    next => rfl

/-- The configuration that a store is bound to. -/
def Bound (config : Configuration) (s : Store) : Prop :=
  (latestBinding s).map ConfigBindingRow.metadata = some config.metadata

theorem Bound.rebase {config : Configuration} {other : Store} (h : Bound config other) (s : Store) :
    Bound config (other.rebase s) := h

theorem run_requireExpectedMetadata {config : Configuration} {s s' : Store} {u : Unit} :
    (requireExpectedMetadata config).run s = .ok (u, s') ↔ Bound config s ∧ s' = s := by
  unfold requireExpectedMetadata Bound
  rw [run_query_bind_eq_ok]
  cases hlatest : latestBinding s with
  | none => simp [run_orFail_bind_eq_ok]
  | some latest =>
      simp [run_orFail_bind_eq_ok, run_require_eq_ok, eq_comm (a := s)]

theorem run_withBinding {α : Type} {config : Configuration} {body : Tx α} {s s' : Store} {a : α} :
    (withBinding config body).run s = .ok (a, s') ↔
      Bound config s ∧ body.run s = .ok (a, s') := by
  unfold withBinding
  rw [run_bind_eq_ok]
  constructor
  · rintro ⟨_, s₁, hbinding, hbody⟩
    obtain ⟨hbound, rfl⟩ := run_requireExpectedMetadata.mp hbinding
    exact ⟨hbound, hbody⟩
  · rintro ⟨hbound, hbody⟩
    exact ⟨(), s, run_requireExpectedMetadata.mpr ⟨hbound, rfl⟩, hbody⟩

theorem applyConfiguration_binds {current candidate : Configuration} {appliedAtUnixS : ℕ}
    {outcome : ConfigApplyOutcome} {s s' : Store}
    (h : (applyConfiguration current candidate appliedAtUnixS).run s = .ok (outcome, s')) :
    Bound candidate s' := by
  unfold applyConfiguration at h
  obtain ⟨_, s₁, hcurrent, h⟩ := run_bind_eq_ok.mp h
  obtain ⟨hbound, hsame⟩ := run_requireExpectedMetadata.mp hcurrent
  obtain ⟨latest, s₂, hlatest, h⟩ := run_bind_eq_ok.mp h
  rw [← run_readLatestHeader hlatest, hsame] at h
  split at h
  next hmetadata =>
    obtain ⟨-, rfl⟩ := run_pure_eq_ok.mp h
    rw [Bound, hmetadata]
    exact hbound
  next =>
    obtain ⟨-, h⟩ := run_require_bind_eq_ok.mp h
    obtain ⟨-, h⟩ := run_require_bind_eq_ok.mp h
    obtain ⟨_, -, h⟩ := run_query_bind_eq_ok.mp h
    obtain ⟨-, h⟩ := run_require_bind_eq_ok.mp h
    obtain ⟨_, _, -, h⟩ := run_bind_eq_ok.mp h
    obtain ⟨_, _, -, h⟩ := run_bind_eq_ok.mp h
    obtain ⟨_, s₅, hcandidate, h⟩ := run_bind_eq_ok.mp h
    obtain ⟨hbound', hsame'⟩ := run_requireExpectedMetadata.mp hcandidate
    obtain ⟨_, s₆, hactual, h⟩ := run_bind_eq_ok.mp h
    obtain ⟨-, h⟩ := run_require_bind_eq_ok.mp h
    obtain ⟨-, rfl⟩ := run_pure_eq_ok.mp h
    rw [← run_readLatestHeader hactual, hsame']
    exact hbound'

/-- A successful application binds the store to the candidate and writes its own tables only. -/
theorem applyConfiguration_rebased {current candidate : Configuration} {appliedAtUnixS : ℕ}
    {outcome : ConfigApplyOutcome} {s s' : Store}
    (h : (applyConfiguration current candidate appliedAtUnixS).run s = .ok (outcome, s')) :
    Rebased s s' ∧ Bound candidate s' := by
  refine ⟨?_, applyConfiguration_binds h⟩
  rcases applyConfiguration_cases h with ⟨-, rfl⟩ | ⟨-, bindings, rfl⟩
  · rfl
  · exact reconfigured_rebased s current candidate appliedAtUnixS bindings

/-! ## Recovery reads none of these tables -/

section

variable (other : Store)

theorem finalizeJobIfTerminal_ignores (jobId : Id32) (observedAt : TimeUnixMs) :
    Ignores other.rebase (finalizeJobIfTerminal jobId observedAt) := by
  unfold finalizeJobIfTerminal
  refine .bind (.query fun _ => rfl) fun _ => .bind (.orFail _ _) fun job => ?_
  split
  next =>
    exact .bind (jobsTable.ignores_update (fun _ => rfl) fun _ _ => rfl) fun _ =>
      .bind (.require _ _) fun _ => .bind (.query fun _ => rfl) fun _ => .orFail _ _
  next => exact .bind (.query fun _ => rfl) fun _ => .orFail _ _

theorem recoverExpired_ignores (jobId : Id32) (relayId : RelayId) (attemptId : Id32)
    (jitter : RetryJitter) (observedAt : TimeUnixMs) :
    Ignores other.rebase (recoverExpired jobId relayId attemptId jitter observedAt) := by
  unfold recoverExpired
  refine .bind (.query fun _ => rfl) fun _ => .bind (.orFail _ _) fun _ =>
    .bind (.query fun _ => rfl) fun _ => .bind (.query fun _ => rfl) fun _ =>
      .bind (.orFail _ _) fun attempt => ?_
  split
  next =>
    refine .bind (.require _ _) fun _ => .bind ?_ fun _ => finalizeJobIfTerminal_ignores other _ _
    exact .bind (attemptsTable.ignores_update (fun _ => rfl) fun _ _ => rfl) fun _ =>
      .bind (.require _ _) fun _ => .bind (.require _ _) fun _ => .bind (.query fun _ => rfl) fun _ =>
        .bind (.orFail _ _) fun _ =>
          .bind (targetsTable.ignores_update (fun _ => rfl) fun _ _ => rfl) fun _ => .require _ _
  next => exact .pure _

theorem recoverTarget_ignores (entropy : Id32) (observedAt : TimeUnixMs) (before : JobRecord)
    (progress : JobRecord × RecoveryReport) (target : TargetRow) :
    Ignores other.rebase (recoverTarget entropy observedAt before progress target) := by
  unfold recoverTarget
  split
  next => exact .pure _
  next =>
    refine .bind (.query fun _ => rfl) fun _ => .bind (.orFail _ _) fun _ => ?_
    split
    next =>
      exact .bind (.query fun _ => rfl) fun _ => .bind (recoverExpired_ignores other _ _ _ _ _)
        fun _ => .bind (.query fun _ => rfl) fun _ => .pure _
    next => exact .pure _

theorem promoteCurrent_ignores (jobId : Id32) (observedAt : TimeUnixMs) :
    Ignores other.rebase (promoteCurrent jobId observedAt) := by
  unfold promoteCurrent
  refine .bind (.query fun _ => rfl) fun _ => .bind (.orFail _ _) fun state =>
    .bind (.require _ _) fun _ => .bind (.query fun _ => rfl) fun job => .bind (.require _ _)
      fun _ => ?_
  split
  next => exact .pure _
  next =>
    exact .bind (publicationTable.ignores_update (fun _ => rfl) fun _ _ => rfl) fun _ =>
      .bind (.require _ _) fun _ => .bind (.query fun _ => rfl) fun _ => .bind (.orFail _ _)
        fun _ => .pure _

theorem promoteRecovered_ignores (observedAt : TimeUnixMs) (current : JobRecord)
    (report : RecoveryReport) :
    Ignores other.rebase (promoteRecovered observedAt current report) := by
  unfold promoteRecovered promoteCurrentIfDesired
  split
  next =>
    refine .bind (.bind (.query fun _ => rfl) fun _ => .bind (.orFail _ _) fun state => ?_)
      fun promoted => ?_
    · split
      next => exact .bind (promoteCurrent_ignores other _ _) fun _ => .pure _
      next => exact .pure _
    · split
      next => exact .bind (.query fun _ => rfl) fun _ => .pure _
      next => exact .pure _
  next => exact .pure _

theorem recoverJob_ignores (codec : EventCodec) (policy : Option DiscoveryPolicies)
    (entropy : Id32) (observedAt : TimeUnixMs) (report : RecoveryReport) (jobId : Id32) :
    Ignores other.rebase (recoverJob codec policy entropy observedAt report jobId) :=
  .bind (.query fun _ => rfl) fun _ => .bind (.orFail _ _) fun before =>
    .bind (.query fun _ => rfl) fun _ => .bind (.query fun _ => rfl) fun _ =>
      .bind (.foldlM _ _ (recoverTarget_ignores other _ _ before)) fun _ =>
        .bind (finalizeJobIfTerminal_ignores other _ _) fun _ => .bind (.query fun _ => rfl) fun _ =>
          .bind (promoteRecovered_ignores other _ _ _) fun _ => .bind (.query fun _ => rfl) fun _ =>
            .bind (.orFail _ _) fun _ => .bind (.query fun _ => rfl) fun _ =>
              .bind (.query fun _ => rfl) fun _ => .bind (.query fun _ => rfl) fun _ => .pure _

theorem recoverBatch_ignores (codec : EventCodec) (policy : Option DiscoveryPolicies)
    (outboxMaximum : ℕ) (entropy : Id32) (observedAt : TimeUnixMs) (cursor : Option Id32) :
    Ignores other.rebase
      (recoverBatch codec policy outboxMaximum entropy observedAt cursor) :=
  .bind (.query fun _ => rfl) fun _ => .bind (.query fun _ => rfl) fun _ =>
    .bind (.foldlM _ _ (recoverJob_ignores other _ _ _ _)) fun _ => .pure _

end

/-! ## What the walk leaves for later -/

/-- What never changes of the jobs and their documents. -/
def Store.sources (s : Store) : List (Id32 × SourceKind × Id32) × List DocumentRow :=
  (s.jobs.map fun job => (job.jobId, job.sourceKind, job.sourceId), s.documents)

/-- A job with this id waits for recovery. -/
def NeedsJob (s : Store) (id : Id32) : Prop :=
  ∃ job ∈ s.jobs, job.jobId = id ∧ needsRecovery s job = true

theorem mem_recoveryJobIds_iff {s : Store} {cursor : Option Id32} {id : Id32} :
    id ∈ recoveryJobIds s cursor ↔ NeedsJob s id ∧ cursor.all (· < id) = true := by
  unfold recoveryJobIds NeedsJob
  rw [(Table.ordered_perm _ _).mem_iff, List.mem_map]
  constructor
  · rintro ⟨job, hjob, rfl⟩
    obtain ⟨hmem, hneeds⟩ := List.mem_filter.mp hjob
    rw [Bool.and_eq_true] at hneeds
    exact ⟨⟨job, hmem, rfl, hneeds.1⟩, hneeds.2⟩
  · rintro ⟨⟨job, hjob, rfl, hneeds⟩, hcursor⟩
    exact ⟨job, List.mem_filter.mpr ⟨hjob, by rw [hneeds, hcursor]; rfl⟩, rfl⟩

/-- What recovering one job does to the rest of the outbox. -/
structure Examines (jobId : Id32) (s s' : Store) : Prop where
  sources : s'.sources = s.sources
  count : activeJobCount s' ≤ activeJobCount s
  needs : ∀ id, NeedsJob s' id → NeedsJob s id
  rest : ∀ id, id ≠ jobId → NeedsJob s id → NeedsJob s' id

instance (jobId : Id32) : Std.Refl (Examines jobId) :=
  ⟨fun _ => ⟨rfl, Nat.le_refl _, fun _ h => h, fun _ _ h => h⟩⟩

instance (jobId : Id32) : IsTrans Store (Examines jobId) :=
  ⟨fun _ _ _ h₁ h₂ => ⟨h₂.sources.trans h₁.sources, Nat.le_trans h₂.count h₁.count,
    fun id h => h₁.needs id (h₂.needs id h), fun id hne h => h₂.rest id hne (h₁.rest id hne h)⟩⟩

section

variable {s : Store} {jobId : Id32} {observedAt : TimeUnixMs}

theorem resolveAttemptAndTarget_examines (job : JobRecord) (target : TargetRow)
    (attempt : AttemptRow) (prior terminal : AttemptStatus) (reason : AttemptReason)
    (jitter : RetryJitter) (observedAt : TimeUnixMs) : Respects (Examines jobId)
      (resolveAttemptAndTarget job target attempt prior terminal reason jitter observedAt) := by
  have hsame : ∀ s : Store, ∀ attempts targets, Examines jobId s { s with attempts, targets } :=
    fun _ _ _ => ⟨rfl, Nat.le_refl _, fun _ h => h, fun _ _ h => h⟩
  exact .bind (attemptsTable.respects_update fun s _ => hsame s _ s.targets) fun _ =>
    .bind (.require _ _) fun _ => .bind (.require _ _) fun _ => .bind (.query _) fun _ =>
      .bind (.orFail _ _) fun _ =>
        .bind (targetsTable.respects_update fun s _ => hsame s s.attempts _) fun _ => .require _ _

theorem terminalStatus_closed {job : JobRecord} {status : JobStatus}
    (h : terminalStatus job = some status) : status.isOpen = false := by
  unfold terminalStatus at h
  grind [JobStatus.isOpen, JobStatus.isTerminal]

theorem activeJobCount_update {matching : JobRow → Bool} {set : JobRow → JobRow}
    (hset : ∀ row, (set row).status.isOpen = false) :
    activeJobCount { s with jobs := Table.update matching set s.jobs } ≤ activeJobCount s := by
  unfold activeJobCount Table.update
  rw [← List.countP_eq_length_filter, ← List.countP_eq_length_filter, List.countP_map]
  refine List.countP_mono_left fun row _ hopen => ?_
  dsimp only [Function.comp_apply] at hopen
  split at hopen
  next => rw [hset row] at hopen; cases hopen
  next => exact hopen

theorem finalizeJobRow_examines {status : JobStatus} (hclosed : status.isOpen = false) :
    Respects (Examines jobId) (finalizeJobRow jobId status observedAt) := by
  refine jobsTable.respects_update fun s _ => ⟨?_, activeJobCount_update fun _ => hclosed, ?_, ?_⟩
  · refine Prod.ext ?_ rfl
    exact Table.map_update _ fun _ _ => rfl
  · rintro id ⟨row, hrow, hid, hneeds⟩
    obtain ⟨old, hold, rfl⟩ := Table.mem_update.mp hrow
    split at hid
    next hmatch =>
      refine ⟨old, hold, hid, ?_⟩
      rw [decide_eq_true_eq] at hmatch
      rw [needsRecovery, hmatch.2, Bool.true_or]
    next hmatch =>
      rw [if_neg hmatch] at hneeds
      exact ⟨old, hold, hid, hneeds⟩
  · rintro id hne ⟨row, hrow, hid, hneeds⟩
    refine ⟨row, Table.mem_update_of_not hrow ?_, hid, hneeds⟩
    rw [decide_eq_false_iff_not]
    rintro ⟨hsame, -⟩
    exact hne (hid.symm.trans hsame)

theorem finalizeJobIfTerminal_examines (jobId : Id32) (observedAt : TimeUnixMs) :
    Respects (Examines jobId) (finalizeJobIfTerminal jobId observedAt) := by
  unfold finalizeJobIfTerminal
  refine .bind (.query _) fun _ => .bind (.orFail _ _) fun job => ?_
  split
  next status hstatus =>
    exact .bind (finalizeJobRow_examines (terminalStatus_closed hstatus)) fun _ =>
      .bind (.require _ _) fun _ => .bind (.query _) fun _ => .orFail _ _
  next => exact .bind (.query _) fun _ => .orFail _ _

theorem recoverExpired_examines (jobId : Id32) (relayId : RelayId) (attemptId : Id32)
    (jitter : RetryJitter) (observedAt : TimeUnixMs) :
    Respects (Examines jobId) (recoverExpired jobId relayId attemptId jitter observedAt) := by
  unfold recoverExpired
  refine .bind (.query _) fun _ => .bind (.orFail _ _) fun _ => .bind (.query _) fun _ =>
    .bind (.query _) fun _ => .bind (.orFail _ _) fun attempt => ?_
  split
  next =>
    exact .bind (.require _ _) fun _ =>
      .bind (resolveAttemptAndTarget_examines _ _ _ _ _ _ _ _) fun _ =>
        finalizeJobIfTerminal_examines _ _
  next => exact .pure _

theorem recoverTarget_examines (entropy : Id32) (observedAt : TimeUnixMs) (before : JobRecord)
    (progress : JobRecord × RecoveryReport) (target : TargetRow) :
    Respects (Examines before.jobId) (recoverTarget entropy observedAt before progress target) := by
  unfold recoverTarget
  split
  next => exact .pure _
  next =>
    refine .bind (.query _) fun _ => .bind (.orFail _ _) fun _ => ?_
    split
    next =>
      exact .bind (.query _) fun _ => .bind (recoverExpired_examines _ _ _ _ _) fun _ =>
        .bind (.query _) fun _ => .pure _
    next => exact .pure _

/-- Whether a job waits for recovery depends on the pointer through this alone. -/
theorem needsRecovery_iff {job : JobRow} : needsRecovery s job = true ↔
    job.status.isOpen = true ∨ (job.status = .delivered ∧ job.sourceKind = .discoveryHandler ∧
      ∃ state, s.publicationState = some state ∧ state.desiredJobId = job.jobId ∧
        state.currentJobId ≠ some state.desiredJobId) := by
  simp only [needsRecovery, Bool.or_eq_true, Bool.and_eq_true, beq_iff_eq, Option.any_eq_true,
    bne_iff_ne, and_assoc, ne_eq]

/-- A promotion settles the job it promotes. -/
theorem promoted_examines {state state' : PublicationStateRow}
    (hstate : s.publicationState = some state)
    (hstate' : state' = state ∨
      (state.desiredJobId = jobId ∧ state'.currentJobId = some state'.desiredJobId)) :
    Examines jobId s { s with publicationState := some state' } := by
  refine ⟨rfl, Nat.le_refl _, ?_, ?_⟩
  · rintro id ⟨row, hrow, hid, hneeds⟩
    refine ⟨row, hrow, hid, ?_⟩
    rcases hstate' with rfl | ⟨-, hcurrent⟩
    · rw [← hstate] at hneeds
      exact hneeds
    · rcases needsRecovery_iff.mp hneeds with hopen | ⟨-, -, _, hsome, -, hpending⟩
      · exact needsRecovery_iff.mpr (.inl hopen)
      · obtain rfl := Option.some.inj hsome
        exact absurd hcurrent hpending
  · rintro id hne ⟨row, hrow, hid, hneeds⟩
    refine ⟨row, hrow, hid, ?_⟩
    rcases hstate' with rfl | ⟨hdesired, -⟩
    · rw [← hstate]
      exact hneeds
    · rcases needsRecovery_iff.mp hneeds with hopen | ⟨-, -, _, hsome, hpointer, -⟩
      · exact needsRecovery_iff.mpr (.inl hopen)
      · obtain rfl := Option.some.inj (hstate.symm.trans hsome)
        exact absurd (hid.symm.trans (hpointer.symm.trans hdesired)) hne

theorem updatePublicationState_examines {matching : PublicationStateRow → Bool}
    {set : PublicationStateRow → PublicationStateRow}
    (hmatch : ∀ row, matching row = true → row.desiredJobId = jobId)
    (hset : ∀ row, (set row).currentJobId = some (set row).desiredJobId) :
    Respects (Examines jobId) (updatePublicationState matching set) := by
  refine publicationTable.respects_update fun s _ => ?_
  cases hstate : s.publicationState with
  | none =>
      have hsame : publicationTable.set (Table.update matching set (publicationTable.get s)) s =
          s := by
        simp only [publicationTable, hstate]
        exact congrArg (fun state => { s with publicationState := state }) hstate.symm
      rw [hsame]
      exact Std.Refl.refl s
  | some state =>
      have hupdated : publicationTable.set (Table.update matching set (publicationTable.get s)) s =
          { s with publicationState := some (if matching state then set state else state) } := by
        simp only [publicationTable, hstate]
        rfl
      rw [hupdated]
      refine promoted_examines hstate ?_
      split
      next hmatches => exact .inr ⟨hmatch state hmatches, hset state⟩
      next => exact .inl rfl

theorem promoteCurrent_examines (jobId : Id32) (observedAt : TimeUnixMs) :
    Respects (Examines jobId) (promoteCurrent jobId observedAt) := by
  unfold promoteCurrent
  refine .bind (.query _) fun _ => .bind (.orFail _ _) fun state => .bind (.require _ _) fun _ =>
    .bind (.query _) fun job => .bind (.require _ _) fun _ => ?_
  split
  next => exact .pure _
  next =>
    refine .bind (updatePublicationState_examines ?_ fun _ => rfl) fun _ =>
      .bind (.require _ _) fun _ => .bind (.query _) fun _ => .bind (.orFail _ _) fun _ => .pure _
    intro row hrow
    rw [decide_eq_true_eq] at hrow
    exact hrow.2.1

theorem promoteRecovered_examines (observedAt : TimeUnixMs) (current : JobRecord)
    (report : RecoveryReport) :
    Respects (Examines current.jobId) (promoteRecovered observedAt current report) := by
  unfold promoteRecovered promoteCurrentIfDesired
  split
  next =>
    refine .bind (.bind (.query _) fun _ => .bind (.orFail _ _) fun state => ?_) fun promoted => ?_
    · split
      next => exact .bind (promoteCurrent_examines _ _) fun _ => .pure _
      next => exact .pure _
    · split
      next => exact .bind (.query _) fun _ => .pure _
      next => exact .pure _
  next => exact .pure _

/-! ## One job under two policies -/

theorem readJob_filter {record : JobRecord} (h : readJob s jobId = .ok (some record)) :
    (s.jobs.filter fun row => row.jobId = jobId) = [record.toJobRow] := by
  unfold readJob readJobRows at h
  split at h
  next => cases h
  next row hrows =>
    obtain ⟨_, -, h⟩ := Except.bind_eq_ok_iff.mp h
    obtain ⟨targets, -, h⟩ := Except.bind_eq_ok_iff.mp h
    obtain ⟨_, -, h⟩ := Except.bind_eq_ok_iff.mp h
    cases h
    exact hrows
  next => cases h

theorem readJob_jobId {record : JobRecord} (h : readJob s jobId = .ok (some record)) :
    record.jobId = jobId := by
  have hmem : record.toJobRow ∈ s.jobs.filter fun row => row.jobId = jobId := by
    rw [readJob_filter h]
    exact List.mem_singleton_self _
  simpa using (List.mem_filter.mp hmem).2

theorem finalizeJobIfTerminal_jobId {s' : Store} {record : JobRecord}
    (h : (finalizeJobIfTerminal jobId observedAt).run s = .ok (record, s')) :
    record.jobId = jobId := by
  unfold finalizeJobIfTerminal at h
  obtain ⟨_, -, h⟩ := run_query_bind_eq_ok.mp h
  obtain ⟨job, -, h⟩ := run_orFail_bind_eq_ok.mp h
  split at h
  next =>
    obtain ⟨_, s₁, -, h⟩ := run_bind_eq_ok.mp h
    obtain ⟨-, h⟩ := run_require_bind_eq_ok.mp h
    obtain ⟨_, hread, h⟩ := run_query_bind_eq_ok.mp h
    obtain ⟨rfl, -⟩ := run_orFail_eq_ok.mp h
    exact readJob_jobId hread
  next =>
    obtain ⟨_, hread, h⟩ := run_query_bind_eq_ok.mp h
    obtain ⟨rfl, -⟩ := run_orFail_eq_ok.mp h
    exact readJob_jobId hread

theorem recoverJob_examines {codec : EventCodec} {policy : Option DiscoveryPolicies}
    {entropy : Id32} {report : RecoveryReport} :
    Respects (Examines jobId) (recoverJob codec policy entropy observedAt report jobId) := by
  intro s result s' h
  unfold recoverJob at h
  obtain ⟨before?, hbefore, h⟩ := run_query_bind_eq_ok.mp h
  obtain ⟨before, rfl, h⟩ := run_orFail_bind_eq_ok.mp h
  obtain ⟨_, -, h⟩ := run_query_bind_eq_ok.mp h
  obtain ⟨_, -, h⟩ := run_query_bind_eq_ok.mp h
  obtain ⟨⟨_, report₁⟩, s₁, htargets, h⟩ := run_bind_eq_ok.mp h
  obtain ⟨current, s₂, hfinalize, h⟩ := run_bind_eq_ok.mp h
  obtain ⟨finalized, -, h⟩ := run_query_bind_eq_ok.mp h
  obtain ⟨report₂, s₃, hpromote, h⟩ := run_bind_eq_ok.mp h
  obtain ⟨_, -, h⟩ := run_query_bind_eq_ok.mp h
  obtain ⟨_, -, h⟩ := run_orFail_bind_eq_ok.mp h
  obtain ⟨_, -, h⟩ := run_query_bind_eq_ok.mp h
  obtain ⟨_, -, h⟩ := run_query_bind_eq_ok.mp h
  obtain ⟨_, -, h⟩ := run_query_bind_eq_ok.mp h
  obtain ⟨-, rfl⟩ := run_pure_eq_ok.mp h
  have hid := readJob_jobId hbefore
  have hcurrent := finalizeJobIfTerminal_jobId hfinalize
  have hwalk : Examines before.jobId s s₁ :=
    Respects.foldlM _ _ (recoverTarget_examines entropy observedAt before) htargets
  have hfinal : Examines before.jobId s₁ s₂ := finalizeJobIfTerminal_examines _ _ hfinalize
  have hpromoted : Examines current.jobId s₂ s₃ := promoteRecovered_examines _ _ _ hpromote
  rw [hcurrent] at hpromoted
  rw [← hid]
  exact IsTrans.trans _ _ _ (IsTrans.trans _ _ _ hwalk hfinal) hpromoted

/-- The document of a discovery job can be parsed under a policy. -/
def DocumentFits (codec : EventCodec) (policy : Option DiscoveryPolicies) (s : Store)
    (job : JobRow) : Prop :=
  job.sourceKind = .discoveryHandler → ∃ discovery, policy = some discovery ∧
    ∀ row ∈ s.documents, row.generationId = job.sourceId →
      documentReadable codec discovery row = true

/-- The documents of all jobs with an id can be parsed. -/
def JobFits (codec : EventCodec) (policy : Option DiscoveryPolicies) (s : Store)
    (jobId : Id32) : Prop :=
  ∀ job ∈ s.jobs, job.jobId = jobId → DocumentFits codec policy s job

variable {codec : EventCodec} {policy policy' : Option DiscoveryPolicies} {entropy : Id32}

theorem jobFits_iff_sources {id : Id32} : JobFits codec policy s id ↔
    ∀ source ∈ s.sources.1, source.1 = id → source.2.1 = .discoveryHandler →
      ∃ discovery, policy = some discovery ∧ ∀ row ∈ s.sources.2,
        row.generationId = source.2.2 → documentReadable codec discovery row = true := by
  unfold JobFits DocumentFits Store.sources
  simp only [List.forall_mem_map]

theorem jobFits_congr {s' : Store} (h : s'.sources = s.sources) {id : Id32} :
    JobFits codec policy s' id ↔ JobFits codec policy s id := by
  rw [jobFits_iff_sources, jobFits_iff_sources, h]

theorem readDocument_eq_some {discovery : DiscoveryPolicies} {generation : Id32}
    {row : DocumentRow} : readDocument codec discovery s generation = .ok (some row) ↔
      (s.documents.filter fun row => row.generationId = generation) = [row] ∧
        documentReadable codec discovery row = true := by
  unfold readDocument atMostOneRow
  cases hrows : s.documents.filter fun row => row.generationId = generation with
  | nil => simp [bind, Except.bind]
  | cons first rest =>
      cases rest with
      | nil =>
          by_cases hread : documentReadable codec discovery first = true
          · simp [bind, Except.bind, Except.require, hread]
            grind
          · simp [bind, Except.bind, Except.require, hread]
            grind
      | cons second rest => simp [bind, Except.bind]

/-- A job that is verified under one policy is verified under another when its document fits. -/
theorem verifySource_policy {record : JobRecord} (h : verifySource codec policy s record = .ok ()) :
    verifySource codec policy' s record = .ok () ↔
      DocumentFits codec policy' s record.toJobRow := by
  unfold verifySource at h ⊢
  cases hkind : record.sourceKind with
  | signerResponse =>
      rw [hkind] at h
      refine ⟨fun _ hdiscovery => ?_, fun _ => h⟩
      rw [hkind] at hdiscovery
      cases hdiscovery
  | discoveryHandler =>
      rw [hkind] at h
      dsimp only at h ⊢
      unfold verifyDocumentForDeliveryJob at h ⊢
      simp only [Except.bind_eq_ok_iff, Except.require_eq_ok, Except.ofOption_eq_ok] at h ⊢
      obtain ⟨_, -, generation?, hgeneration, generation, rfl, _, rfl, discovery, -, document?,
        hdocument, document, rfl, hdigest⟩ := h
      obtain ⟨hrows, -⟩ := readDocument_eq_some.mp hdocument
      have hmem : document ∈ s.documents.filter fun row => row.generationId = record.sourceId := by
        rw [hrows]
        exact List.mem_singleton_self _
      rw [List.mem_filter, decide_eq_true_eq] at hmem
      constructor
      · rintro ⟨_, -, _, -, _, -, _, rfl, discovery', hsome, _, hread, document', rfl, -⟩ -
        obtain ⟨hrows', hreadable⟩ := readDocument_eq_some.mp hread
        refine ⟨discovery', hsome, fun row hrow hid => ?_⟩
        have hmem' : row ∈ s.documents.filter fun row => row.generationId = record.sourceId :=
          List.mem_filter.mpr ⟨hrow, by simpa using hid⟩
        rw [hrows', List.mem_singleton] at hmem'
        rw [hmem']
        exact hreadable
      · intro hfits
        obtain ⟨discovery', hsome, hreadable⟩ := hfits hkind
        have hread := hreadable document hmem.1 hmem.2
        exact ⟨(), hkind, _, hgeneration, _, rfl, (), rfl, discovery', hsome, _,
          readDocument_eq_some.mpr ⟨hrows, hread⟩, document, rfl, hdigest⟩

/-- Recovering a job under another policy is the same recovery, when the document fits. -/
theorem recoverJob_policy (policy' : Option DiscoveryPolicies) {report result : RecoveryReport}
    {s' : Store}
    (h : (recoverJob codec policy entropy observedAt report jobId).run s = .ok (result, s')) :
    (JobFits codec policy' s jobId →
      (recoverJob codec policy' entropy observedAt report jobId).run s = .ok (result, s')) ∧
    ∀ {x}, (recoverJob codec policy' entropy observedAt report jobId).run s = .ok x →
      JobFits codec policy' s jobId := by
  unfold recoverJob at h ⊢
  obtain ⟨before?, hbefore, h⟩ := run_query_bind_eq_ok.mp h
  obtain ⟨before, rfl, h⟩ := run_orFail_bind_eq_ok.mp h
  obtain ⟨_, hverify, h⟩ := run_query_bind_eq_ok.mp h
  have honly : ∀ job ∈ s.jobs, job.jobId = jobId → job = before.toJobRow := by
    intro job hjob hid
    have hmem : job ∈ s.jobs.filter fun row => row.jobId = jobId :=
      List.mem_filter.mpr ⟨hjob, by simpa using hid⟩
    rw [readJob_filter hbefore] at hmem
    exact List.mem_singleton.mp hmem
  have hstored : before.toJobRow ∈ s.jobs ∧ before.jobId = jobId := by
    have hmem : before.toJobRow ∈ s.jobs.filter fun row => row.jobId = jobId := by
      rw [readJob_filter hbefore]
      exact List.mem_singleton_self _
    exact ⟨(List.mem_filter.mp hmem).1, readJob_jobId hbefore⟩
  constructor
  · intro hfits
    refine run_query_bind_eq_ok.mpr ⟨_, hbefore, run_orFail_bind_eq_ok.mpr ⟨before, rfl, ?_⟩⟩
    exact run_query_bind_eq_ok.mpr ⟨(), (verifySource_policy hverify).mpr
      (hfits before.toJobRow hstored.1 hstored.2), h⟩
  · intro x hother job hjob hid
    obtain ⟨_, hbefore', hother⟩ := run_query_bind_eq_ok.mp hother
    obtain ⟨before', hsome, hother⟩ := run_orFail_bind_eq_ok.mp hother
    obtain ⟨_, hverify', -⟩ := run_query_bind_eq_ok.mp hother
    obtain rfl : before' = before := by
      rw [hbefore] at hbefore'
      cases hbefore'
      exact (Option.some.inj hsome).symm
    rw [honly job hjob hid]
    exact (verifySource_policy hverify).mp hverify'

/-! ## Batches under two configurations -/

/-- What the batches of a walk keep. -/
theorem recoverJobs_examines {ids : List Id32} {report result : RecoveryReport} {s' : Store}
    (h : (ids.foldlM (recoverJob codec policy entropy observedAt) report).run s =
      .ok (result, s')) :
    s'.sources = s.sources ∧ activeJobCount s' ≤ activeJobCount s ∧
      (∀ id, NeedsJob s' id → NeedsJob s id) ∧
      ∀ id, id ∉ ids → NeedsJob s id → NeedsJob s' id := by
  induction ids generalizing s report with
  | nil =>
      obtain ⟨-, rfl⟩ := run_pure_eq_ok.mp h
      exact ⟨rfl, Nat.le_refl _, fun _ h => h, fun _ _ h => h⟩
  | cons jobId ids ih =>
      obtain ⟨report₁, s₁, hjob, hrest⟩ := run_bind_eq_ok.mp h
      have hfirst : Examines jobId s s₁ := recoverJob_examines hjob
      obtain ⟨hsources, hcount, hneeds, hkept⟩ := ih hrest
      refine ⟨hsources.trans hfirst.sources, Nat.le_trans hcount hfirst.count,
        fun id h => hfirst.needs id (hneeds id h), fun id hid h => ?_⟩
      rw [List.mem_cons, not_or] at hid
      exact hkept id hid.2 (hfirst.rest id hid.1 h)

theorem recoverJobs_policy (policy' : Option DiscoveryPolicies) {ids : List Id32}
    {report result : RecoveryReport} {s' : Store}
    (h : (ids.foldlM (recoverJob codec policy entropy observedAt) report).run s =
      .ok (result, s')) :
    ((∀ id ∈ ids, JobFits codec policy' s id) →
      (ids.foldlM (recoverJob codec policy' entropy observedAt) report).run s =
        .ok (result, s')) ∧
    ∀ {x}, (ids.foldlM (recoverJob codec policy' entropy observedAt) report).run s = .ok x →
      ∀ id ∈ ids, JobFits codec policy' s id := by
  induction ids generalizing s report with
  | nil => exact ⟨fun _ => h, fun _ _ hid => by cases hid⟩
  | cons jobId ids ih =>
      obtain ⟨report₁, s₁, hjob, hrest⟩ := run_bind_eq_ok.mp h
      obtain ⟨htransfer, hfits⟩ := recoverJob_policy policy' hjob
      obtain ⟨htransferRest, hfitsRest⟩ := ih hrest
      have hsources := (recoverJob_examines hjob).sources
      constructor
      · intro hall
        rw [List.forall_mem_cons] at hall
        refine run_bind_eq_ok.mpr ⟨report₁, s₁, htransfer hall.1, htransferRest fun id hid => ?_⟩
        exact (jobFits_congr hsources).mpr (hall.2 id hid)
      · intro x hother
        obtain ⟨report₂, s₂, hjob', hrest'⟩ := run_bind_eq_ok.mp hother
        have hfit := hfits hjob'
        have hsame := (htransfer hfit).symm.trans hjob'
        cases hsame
        rw [List.forall_mem_cons]
        exact ⟨hfit, fun id hid => (jobFits_congr hsources).mp (hfitsRest hrest' id hid)⟩

/-- What a batch needs of a configuration. -/
structure BatchFits (codec : EventCodec) (policy : Option DiscoveryPolicies) (outboxMaximum : ℕ)
    (s : Store) (ids : List Id32) : Prop where
  count : activeJobCount s ≤ outboxMaximum
  jobs : ∀ id ∈ ids, JobFits codec policy s id

theorem recoverBatch_config (policy' : Option DiscoveryPolicies) {maximum : ℕ} (maximum' : ℕ)
    {cursor continuation : Option Id32} {report : RecoveryReport} {s' : Store}
    (h : (recoverBatch codec policy maximum entropy observedAt cursor).run s =
      .ok ((report, continuation), s')) :
    (BatchFits codec policy' maximum' s (((recoveryJobIds s cursor).take 129).take 128) →
      (recoverBatch codec policy' maximum' entropy observedAt cursor).run s =
        .ok ((report, continuation), s')) ∧
    ∀ {x}, (recoverBatch codec policy' maximum' entropy observedAt cursor).run s = .ok x →
      BatchFits codec policy' maximum' s (((recoveryJobIds s cursor).take 129).take 128) := by
  unfold recoverBatch at h ⊢
  obtain ⟨_, hverify, h⟩ := run_query_bind_eq_ok.mp h
  obtain ⟨found, hfound, h⟩ := run_query_bind_eq_ok.mp h
  obtain rfl := Except.ok.inj hfound
  obtain ⟨report₁, s₁, hjobs, hdone⟩ := run_bind_eq_ok.mp h
  obtain ⟨htransfer, hfits⟩ := recoverJobs_policy policy' hjobs
  have hrelated := (Except.require_eq_ok.mp hverify).1
  constructor
  · intro hbatch
    refine run_query_bind_eq_ok.mpr ⟨(), Except.require_eq_ok.mpr ⟨hrelated, hbatch.count⟩, ?_⟩
    refine run_query_bind_eq_ok.mpr ⟨_, rfl, ?_⟩
    exact run_bind_eq_ok.mpr ⟨report₁, s₁, htransfer hbatch.jobs, hdone⟩
  · intro x hother
    obtain ⟨_, hverify', hother⟩ := run_query_bind_eq_ok.mp hother
    obtain ⟨found, hfound', hother⟩ := run_query_bind_eq_ok.mp hother
    obtain rfl := Except.ok.inj hfound'
    obtain ⟨_, _, hjobs', -⟩ := run_bind_eq_ok.mp hother
    exact ⟨(Except.require_eq_ok.mp hverify').2, hfits hjobs'⟩

/-- What a batch leaves for the next one. -/
theorem recoverBatch_examines {maximum : ℕ} {cursor continuation : Option Id32}
    {report : RecoveryReport} {s' : Store}
    (h : (recoverBatch codec policy maximum entropy observedAt cursor).run s =
      .ok ((report, continuation), s')) :
    s'.sources = s.sources ∧ activeJobCount s' ≤ activeJobCount s ∧
      (∀ next, continuation = some next → ∀ id ∈ recoveryJobIds s' (some next),
        id ∈ recoveryJobIds s cursor) ∧
      ∀ id ∈ recoveryJobIds s cursor, id ∉ ((recoveryJobIds s cursor).take 129).take 128 →
        ∃ next, continuation = some next ∧ id ∈ recoveryJobIds s' (some next) := by
  unfold recoverBatch at h
  obtain ⟨_, -, h⟩ := run_query_bind_eq_ok.mp h
  obtain ⟨found, hfound, h⟩ := run_query_bind_eq_ok.mp h
  obtain rfl := Except.ok.inj hfound
  obtain ⟨report₁, s₁, hjobs, hdone⟩ := run_bind_eq_ok.mp h
  obtain ⟨hresult, rfl⟩ := run_pure_eq_ok.mp hdone
  obtain ⟨-, hcontinuation⟩ := Prod.mk.inj hresult
  obtain ⟨hsources, hcount, hneeds, hkept⟩ := recoverJobs_examines hjobs
  refine ⟨hsources, hcount, ?_, ?_⟩
  · intro next hnext id hid
    obtain ⟨hneed, hafter⟩ := mem_recoveryJobIds_iff.mp hid
    refine mem_recoveryJobIds_iff.mpr ⟨hneeds id hneed, ?_⟩
    have hlisted : next ∈ recoveryJobIds s cursor := by
      rw [hnext] at hcontinuation
      split at hcontinuation
      next =>
        exact List.mem_of_mem_take (List.mem_of_mem_take (List.mem_of_getLast? hcontinuation))
      next => cases hcontinuation
    have hbefore := (mem_recoveryJobIds_iff.mp hlisted).2
    cases cursor with
    | none => rfl
    | some cursor =>
        simp only [Option.all_some, decide_eq_true_eq] at hbefore hafter ⊢
        exact BitVec.lt_trans hbefore hafter
  · intro id hid hrest
    obtain ⟨next, hnext, hlt⟩ := continuation_of_rest (recoveryJobIds_sorted s cursor) hid hrest
    refine ⟨next, hcontinuation.symm.trans hnext, mem_recoveryJobIds_iff.mpr ⟨?_, by simpa using hlt⟩⟩
    exact hkept id hrest (mem_recoveryJobIds_iff.mp hid).1

end

end MycSigner
