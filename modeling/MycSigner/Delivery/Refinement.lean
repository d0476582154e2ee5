import MycSigner.Delivery.Preservation

/-!
# The delivery transactions refine the delivery steps

Each operation, run from a store that satisfies the invariant, either leaves the store as it
was or performs the one step that is meant for it.  The statements about the parts that both
outcome recording and recovery share are equivalences, since recovery also needs to know
when they succeed.
-/

namespace MycSigner

open Transaction

variable {s s' : Store}

theorem run_requireOne_eq_ok {n : ℕ} {u : Unit} :
    (requireOne n).run s = .ok (u, s') ↔ n = 1 ∧ s = s' := by
  unfold requireOne
  exact run_require_eq_ok

/-! ## Finalization -/

theorem run_finalizeJobRow {job : JobRow} {status : JobStatus} {observedAt : TimeUnixMs} {n : ℕ}
    (wf : DeliveryWf s) (hjob : job ∈ s.jobs) (hopen : job.status.isOpen = true) :
    (finalizeJobRow job.jobId status observedAt).run s = .ok (n, s') ↔
      jobUpdateAllowed job (job.finalized status observedAt) = true ∧ n = 1 ∧
        s' = { s with jobs := Table.replace job (job.finalized status observedAt) s.jobs } := by
  have honly : ∀ row ∈ s.jobs, (row.jobId = job.jobId ∧ row.status.isOpen = true) → row = job :=
    fun row hrow hmatch => wf.jobs_unique.eq_of_key_eq hrow hjob hmatch.1
  rw [finalizeJobRow, updateJobs,
    jobsTable.run_update_only job wf.jobs_unique.nodup hjob (by simp [hopen])
      (fun row hrow hmatch => honly row hrow (by simpa using hmatch))]
  exact and_congr_right fun _ => and_congr_right fun _ => eq_comm

theorem run_finalizeJobRow_closed {job : JobRow} {status : JobStatus} {observedAt : TimeUnixMs}
    {n : ℕ} (wf : DeliveryWf s) (hjob : job ∈ s.jobs) (hclosed : ¬ job.status.isOpen = true) :
    (finalizeJobRow job.jobId status observedAt).run s = .ok (n, s') ↔ n = 0 ∧ s' = s := by
  have hnone : ∀ row ∈ s.jobs, ¬ (row.jobId = job.jobId ∧ row.status.isOpen = true) := by
    rintro row hrow ⟨hid, hopen⟩
    rw [wf.jobs_unique.eq_of_key_eq hrow hjob hid] at hopen
    exact hclosed hopen
  rw [finalizeJobRow, updateJobs,
    jobsTable.run_update_none (fun row hrow => by simpa using hnone row hrow)]
  exact and_congr_right fun _ => eq_comm

/-- Finalization rewrites the job exactly when its targets force a verdict. -/
theorem run_finalizeJobIfTerminal {job : JobRow} {record : JobRecord} {observedAt : TimeUnixMs}
    (wf : DeliveryWf s) (hjob : job ∈ s.jobs) :
    (finalizeJobIfTerminal job.jobId observedAt).run s = .ok (record, s') ↔
      (∀ verdict, s.verdict job = some verdict →
        jobUpdateAllowed job (job.finalized verdict observedAt) = true) ∧
      s' = s.finalized job observedAt ∧ readJob s' job.jobId = .ok (some record) := by
  unfold finalizeJobIfTerminal Store.finalized Store.verdict
  have hstored : (query (readJob · job.jobId)).run s =
      .ok (some { job with targets := targetsOf s job.jobId }, s) :=
    run_query_of_ok (wf.readJob_eq_some hjob)
  rw [run_bind_of_ok hstored, run_bind_of_ok (run_orFail_some ..)]
  cases hverdict : terminalStatus { job with targets := targetsOf s job.jobId } with
  | none =>
      simp only [ite_self, reduceCtorEq, false_implies, implies_true, true_and]
      simp only [run_bind_eq_ok, run_query_eq_ok, run_orFail_eq_ok]
      constructor
      · rintro ⟨a, s₁, ⟨hread, rfl⟩, rfl, rfl⟩
        exact ⟨rfl, hread⟩
      · rintro ⟨rfl, hread⟩
        exact ⟨_, _, ⟨hread, rfl⟩, rfl, rfl⟩
  | some verdict =>
      by_cases hopen : job.status.isOpen = true
      · simp only [hopen, if_true, Option.some.injEq, forall_eq']
        simp only [run_bind_eq_ok, run_finalizeJobRow wf hjob hopen, run_query_eq_ok,
          run_orFail_eq_ok, run_require_eq_ok]
        constructor
        · rintro ⟨n, s₁, ⟨hallowed, rfl, rfl⟩, -, s₂, ⟨-, rfl⟩, a, s₃, ⟨hread, rfl⟩, rfl, rfl⟩
          exact ⟨hallowed, rfl, hread⟩
        · rintro ⟨hallowed, rfl, hread⟩
          exact ⟨1, _, ⟨hallowed, rfl, rfl⟩, (), _, ⟨Nat.le_refl 1, rfl⟩, _, _, ⟨hread, rfl⟩, rfl,
            rfl⟩
      · simp only [hopen]
        simp only [run_bind_eq_ok, run_finalizeJobRow_closed wf hjob hopen, run_query_eq_ok,
          run_orFail_eq_ok, run_require_eq_ok]
        constructor
        · rintro ⟨n, s₁, ⟨rfl, rfl⟩, -, s₂, ⟨-, rfl⟩, a, s₃, ⟨hread, rfl⟩, rfl, rfl⟩
          exact ⟨by simp, rfl, hread⟩
        · rintro ⟨-, rfl, hread⟩
          exact ⟨0, _, ⟨rfl, rfl⟩, (), _, ⟨Nat.zero_le 1, rfl⟩, _, _, ⟨hread, rfl⟩, rfl, rfl⟩

/-! ## Resolution -/

theorem run_resolveAttemptRow {attempt : AttemptRow} (terminal : AttemptStatus)
    (reason : AttemptReason) (observedAt : TimeUnixMs) (n : ℕ) (s' : Store) (wf : DeliveryWf s)
    (hattempt : attempt ∈ s.attempts) :
    (resolveAttemptRow attempt.jobId attempt.targetIndex attempt.attemptId attempt.status terminal
      reason observedAt).run s = .ok (n, s') ↔
      attemptUpdateAllowed attempt (attempt.resolved terminal reason observedAt) = true ∧ n = 1 ∧
        s' = { s with
          attempts := Table.replace attempt (attempt.resolved terminal reason observedAt)
            s.attempts } := by
  rw [resolveAttemptRow, updateAttempts,
    attemptsTable.run_update_only attempt wf.attempts_unique.nodup hattempt (by simp)
      (fun row hrow hmatch => wf.attempts_unique.eq_of_key_eq hrow hattempt
        (by simp only [decide_eq_true_eq] at hmatch; exact hmatch.1))]
  exact and_congr_right fun _ => and_congr_right fun _ => eq_comm

theorem run_resolveTargetRow {target : TargetRow} {attemptId : Id32} (status : TargetStatus)
    (next : Option TimeUnixMs) (observedAt : TimeUnixMs) (n : ℕ) (s' : Store)
    (hunique : Table.Unique (fun target => (target.jobId, target.targetIndex)) s.targets)
    (htarget : target ∈ s.targets) (hactive : target.activeAttemptId = some attemptId) :
    (resolveTargetRow target.jobId target.targetIndex attemptId target.status status next
      observedAt).run s = .ok (n, s') ↔
      targetUpdateAllowed target (target.resolved status next observedAt) = true ∧ n = 1 ∧
        s' = { s with
          targets := Table.replace target (target.resolved status next observedAt) s.targets } := by
  rw [resolveTargetRow, updateTargets,
    targetsTable.run_update_only target hunique.nodup htarget (by simp [hactive])
      (fun row hrow hmatch => hunique.eq_of_key_eq hrow htarget (by
        simp only [decide_eq_true_eq] at hmatch
        rw [hmatch.1, hmatch.2.1]))]
  exact and_congr_right fun _ => and_congr_right fun _ => eq_comm

/-- When the resolver succeeds, and what it writes. -/
theorem run_resolveAttemptAndTarget {job : JobRow} {target : TargetRow} {attempt : AttemptRow}
    {terminal : AttemptStatus} {reason : AttemptReason} {jitter : RetryJitter}
    {observedAt : TimeUnixMs} {u : Unit} (wf : DeliveryWf s) (hjob : job ∈ s.jobs)
    (htarget : target ∈ targetsOf s job.jobId)
    (hattempt : attempt ∈ attemptsOf s job.jobId target.targetIndex)
    (hlive : attempt.status.isLive = true) :
    (resolveAttemptAndTarget { job with targets := targetsOf s job.jobId } target attempt
      attempt.status terminal reason jitter observedAt).run s = .ok (u, s') ↔
      attemptUpdateAllowed attempt (attempt.resolved terminal reason observedAt) = true ∧
      (schedulesRetry job target terminal ∨ jitter.get = 0) ∧
      ∃ status next,
        resolvedTarget job target attempt.attemptNumber terminal jitter observedAt =
          .ok (status, next) ∧
        targetUpdateAllowed target (target.resolved status next observedAt) = true ∧
        s' = s.resolved target attempt terminal reason status next observedAt := by
  obtain ⟨hattemptMem, hattemptJob, hattemptIndex⟩ := mem_attemptsOf.mp hattempt
  obtain ⟨htargetMem, htargetJob⟩ := mem_targetsOf.mp htarget
  obtain ⟨hprior, hactive⟩ := wf.live_target hjob htarget hattempt hlive
  have hattemptRow := fun n s₁ =>
    run_resolveAttemptRow terminal reason observedAt n s₁ wf hattemptMem
  rw [hattemptJob, hattemptIndex] at hattemptRow
  have htargetRow := fun status next n s₁ =>
    run_resolveTargetRow status next observedAt n s₁
      (s := { s with
        attempts := Table.replace attempt (attempt.resolved terminal reason observedAt)
          s.attempts })
      wf.targets_unique htargetMem hactive
  rw [htargetJob] at htargetRow
  unfold resolveAttemptAndTarget schedulesRetry
  simp only [run_bind_eq_ok, hattemptRow, run_requireOne_eq_ok, run_require_eq_ok,
    run_query_eq_ok, hprior, run_orFail_eq_ok]
  constructor
  · rintro ⟨n, s₁, ⟨hallowed, rfl, rfl⟩, -, s₂, ⟨-, rfl⟩, -, s₃, ⟨hjitter, rfl⟩, ⟨status, next⟩, s₄,
      ⟨houtcome, rfl⟩, prior, s₅, ⟨hpriorEq, rfl⟩, m, s₆, hrow, -, rfl⟩
    cases hpriorEq
    obtain ⟨htargetAllowed, -, rfl⟩ := (htargetRow status next m s₆).mp hrow
    exact ⟨hallowed, hjitter, status, next, houtcome, htargetAllowed, rfl⟩
  · rintro ⟨hallowed, hjitter, status, next, houtcome, htargetAllowed, rfl⟩
    exact ⟨1, _, ⟨hallowed, rfl, rfl⟩, (), _, ⟨rfl, rfl⟩, (), _, ⟨hjitter, rfl⟩, (status, next), _,
      ⟨houtcome, rfl⟩, target.status, _, ⟨rfl, rfl⟩, 1, _,
      (htargetRow status next 1 _).mpr ⟨htargetAllowed, rfl, rfl⟩, rfl, rfl⟩

/-- A resolution and the finalization after it are one step. -/
theorem resolves_iff_run {job : JobRow} {target : TargetRow} {attempt : AttemptRow}
    {terminal : AttemptStatus} {reason : AttemptReason} {jitter : RetryJitter}
    {observedAt : TimeUnixMs} (wf : DeliveryWf s) (hjob : job ∈ s.jobs)
    (htarget : target ∈ targetsOf s job.jobId)
    (hattempt : attempt ∈ attemptsOf s job.jobId target.targetIndex)
    (hlive : attempt.status.isLive = true) :
    (∃ u s₁ record,
      (resolveAttemptAndTarget { job with targets := targetsOf s job.jobId } target attempt
        attempt.status terminal reason jitter observedAt).run s = .ok (u, s₁) ∧
      (finalizeJobIfTerminal job.jobId observedAt).run s₁ = .ok (record, s')) ↔
    ∃ status next, Resolves s job target attempt terminal reason jitter status next observedAt ∧
      s' = (s.resolved target attempt terminal reason status next observedAt).finalized job
        observedAt := by
  constructor
  · rintro ⟨u, s₁, record, hresolve, hfinalize⟩
    rw [run_resolveAttemptAndTarget wf hjob htarget hattempt hlive] at hresolve
    obtain ⟨hallowed, hjitter, status, next, houtcome, htargetAllowed, rfl⟩ := hresolve
    have wf₁ := wf.resolved hjob htarget hattempt hlive hallowed houtcome
    rw [run_finalizeJobIfTerminal wf₁ hjob] at hfinalize
    obtain ⟨hjobAllowed, rfl, -⟩ := hfinalize
    exact ⟨status, next, ⟨hjob, htarget, hattempt, hlive, hjitter, houtcome, hallowed,
      htargetAllowed, hjobAllowed⟩, rfl⟩
  · rintro ⟨status, next, h, rfl⟩
    have wf₁ := wf.resolved hjob htarget hattempt hlive h.attempt_allowed h.outcome
    have wf₂ := wf₁.finalized h.job_allowed
    obtain ⟨row, hrow, hid⟩ : ∃ row ∈ ((s.resolved target attempt terminal reason status next
        observedAt).finalized job observedAt).jobs, row.jobId = job.jobId := by
      unfold Store.finalized
      split
      · exact ⟨_, Table.mem_replace.mpr (.inr ⟨hjob, rfl⟩), rfl⟩
      · exact ⟨job, hjob, rfl⟩
    have hread := wf₂.readJob_eq_some hrow
    rw [hid] at hread
    have hresolve := (run_resolveAttemptAndTarget (u := ()) wf hjob htarget hattempt hlive).mpr
      ⟨h.attempt_allowed, h.jitter_used, status, next, h.outcome, h.target_allowed, rfl⟩
    exact ⟨(), _, _, hresolve, (run_finalizeJobIfTerminal wf₁ hjob).mpr ⟨h.job_allowed, rfl, hread⟩⟩

/-! ## When a resolution succeeds -/

/-- The terminal evidence that may follow each live status. -/
def evidenceAllowed (prior terminal : AttemptStatus) (reason : AttemptReason) : Bool :=
  match prior, terminal, reason with
  | .leased, .failed, .transportFailed | .leased, .failed, .leaseExpiredBeforeSubmit => true
  | .submitted, .delivered, .accepted => true
  | .submitted, .failed, .relayRejected | .submitted, .failed, .transportFailed => true
  | .submitted, .unknown, .acknowledgementLost => true
  | _, _, _ => false

theorem attemptUpdateAllowed_resolved {attempt : AttemptRow} {terminal : AttemptStatus}
    {reason : AttemptReason} {observedAt : TimeUnixMs} (hcheck : attemptCheck attempt = true)
    (hevidence : evidenceAllowed attempt.status terminal reason = true)
    (hleased : attempt.leasedAt ≤ observedAt) :
    attemptUpdateAllowed attempt (attempt.resolved terminal reason observedAt) = true := by
  simp only [attemptCheck, Bool.and_eq_true] at hcheck
  obtain ⟨⟨⟨⟨hbounds, hlease⟩, hsubmitted⟩, -⟩, hshape⟩ := hcheck
  simp only [attemptUpdateAllowed, attemptCheck, AttemptRow.resolved, Bool.and_eq_true]
  refine ⟨⟨by simp, ?_⟩, ⟨⟨⟨hbounds, hlease⟩, hsubmitted⟩, decide_eq_true hleased⟩, ?_⟩
  all_goals
    unfold attemptShape at hshape
    try unfold attemptShape
    unfold evidenceAllowed at hevidence
    split at hevidence
    all_goals first
      | exact absurd hevidence (by decide)
      | next hstatus =>
          simp only [hstatus, Bool.and_eq_true, Option.isNone_iff_eq_none] at hshape
          simp [hstatus, hshape]

theorem targetUpdateAllowed_resolved {job : JobRow} {target : TargetRow} {number : ℕ}
    {terminal : AttemptStatus} {jitter : RetryJitter} {status : TargetStatus}
    {next : Option TimeUnixMs} {observedAt : TimeUnixMs}
    (hindex : target.targetIndex ≤ 31) (hcount : target.attemptCount ≤ 32)
    (hactive : target.status.isActive = true) (htime : target.updatedAt ≤ observedAt)
    (h : resolvedTarget job target number terminal jitter observedAt = .ok (status, next)) :
    targetUpdateAllowed target (target.resolved status next observedAt) = true := by
  unfold resolvedTarget at h
  cases terminal with
  | delivered =>
      cases h
      simp [targetUpdateAllowed, targetCheck, TargetRow.resolved, hindex, hcount, hactive, htime]
  | failed =>
      simp only at h
      split at h
      · obtain ⟨time, -, htimeEq⟩ := Except.bind_eq_ok_iff.mp h
        cases htimeEq
        simp [targetUpdateAllowed, targetCheck, TargetRow.resolved, hindex, hcount, hactive, htime]
      · cases h
        simp [targetUpdateAllowed, targetCheck, TargetRow.resolved, hindex, hcount, hactive, htime]
  | unknown =>
      simp only at h
      split at h
      · obtain ⟨time, -, htimeEq⟩ := Except.bind_eq_ok_iff.mp h
        cases htimeEq
        simp [targetUpdateAllowed, targetCheck, TargetRow.resolved, hindex, hcount, hactive, htime]
      · cases h
        simp [targetUpdateAllowed, targetCheck, TargetRow.resolved, hindex, hcount, hactive, htime]
  | leased | submitted => cases h

theorem terminalStatus_terminal {record : JobRecord} {status : JobStatus}
    (h : terminalStatus record = some status) : status.isTerminal = true := by
  unfold terminalStatus at h
  split at h
  · cases h
    rfl
  split at h
  · cases h
  split at h
  · cases h
    rfl
  · cases h
    rfl

theorem jobUpdateAllowed_finalized {job : JobRow} {status : JobStatus} {observedAt : TimeUnixMs}
    (hcheck : jobCheck job = true) (hopen : job.status.isOpen = true)
    (hterminal : status.isTerminal = true) (htime : job.updatedAt ≤ observedAt) :
    jobUpdateAllowed job (job.finalized status observedAt) = true := by
  have hcreated : job.createdAt ≤ observedAt := by
    simp only [jobCheck, Bool.and_eq_true, decide_eq_true_eq] at hcheck
    exact Nat.le_trans hcheck.1.1.2 htime
  simp only [jobCheck, Bool.and_eq_true] at hcheck
  simp only [jobUpdateAllowed, jobCheck, Bool.and_eq_true]
  refine ⟨⟨⟨decide_eq_true rfl, decide_eq_true htime⟩, ?_⟩,
    ⟨⟨hcheck.1.1.1, decide_eq_true hcreated⟩, decide_eq_true hcreated⟩, ?_⟩
  · simp [JobRow.finalized, hopen, hterminal]
  · simp [JobRow.finalized, hterminal]

/-- Allowed evidence at a time no earlier than the rows is a resolution. -/
theorem DeliveryWf.resolves {job : JobRow} {target : TargetRow} {attempt : AttemptRow}
    {terminal : AttemptStatus} {reason : AttemptReason} {jitter : RetryJitter}
    {status : TargetStatus} {next : Option TimeUnixMs} {observedAt : TimeUnixMs}
    (wf : DeliveryWf s) (hjob : job ∈ s.jobs) (htarget : target ∈ targetsOf s job.jobId)
    (hattempt : attempt ∈ attemptsOf s job.jobId target.targetIndex)
    (hlive : attempt.status.isLive = true)
    (hevidence : evidenceAllowed attempt.status terminal reason = true)
    (hleased : attempt.leasedAt ≤ observedAt) (htargetTime : target.updatedAt ≤ observedAt)
    (hjobTime : job.updatedAt ≤ observedAt)
    (hjitter : schedulesRetry job target terminal ∨ jitter.get = 0)
    (houtcome : resolvedTarget job target attempt.attemptNumber terminal jitter observedAt =
      .ok (status, next)) :
    Resolves s job target attempt terminal reason jitter status next observedAt := by
  have hok := wf.histories job hjob target htarget
  have hcheck := hok.checked attempt hattempt
  have hcount : target.attemptCount ≤ 32 := Nat.le_trans hok.bounded (wf.maxAttempts_le hjob).2
  have hindex : target.targetIndex ≤ 31 := by
    have hmem : target.targetIndex ∈ (targetsOf s job.jobId).map TargetRow.targetIndex :=
      List.mem_map_of_mem htarget
    rw [wf.indices job hjob, List.mem_range] at hmem
    have hlen := wf.targets_bounded job hjob
    omega
  have hactive : target.status.isActive = true :=
    AttemptStatus.asTarget_isActive (wf.live_target hjob htarget hattempt hlive).1
  refine ⟨hjob, htarget, hattempt, hlive, hjitter, houtcome,
    attemptUpdateAllowed_resolved hcheck hevidence hleased,
    targetUpdateAllowed_resolved hindex hcount hactive htargetTime houtcome, ?_⟩
  intro verdict hverdict
  unfold Store.verdict at hverdict
  split at hverdict
  next hopen =>
    exact jobUpdateAllowed_finalized (wf.job_checked job hjob) hopen
      (terminalStatus_terminal hverdict) hjobTime
  next => cases hverdict

/-! ## The operations -/

/-- The rows behind the reads that submission, outcome and recovery begin with. -/
theorem DeliveryWf.lookup {jobId attemptId : Id32} {relayId : RelayId} {record : JobRecord}
    {target : TargetRow} {attempt : AttemptRow} (wf : DeliveryWf s)
    (hjob : readJob s jobId = .ok (some record)) (htarget : targetByRelay record relayId = .ok target)
    (hattempt : readAttempt s jobId target.targetIndex attemptId = .ok (some attempt)) :
    ∃ job ∈ s.jobs, job.jobId = jobId ∧ record = { job with targets := targetsOf s job.jobId } ∧
      target ∈ targetsOf s job.jobId ∧ attempt ∈ attemptsOf s job.jobId target.targetIndex ∧
      attempt.attemptId = attemptId := by
  obtain ⟨hrecord, hid, htargets⟩ := wf.of_readJob hjob
  obtain ⟨htargetMem, -⟩ := DeliveryWf.of_targetByRelay htarget
  obtain ⟨hattemptMem, hattemptJob, hattemptIndex, hattemptId, -⟩ :=
    DeliveryWf.of_readAttempt hattempt
  refine ⟨record.toJobRow, hrecord, hid, ?_, ?_, ?_, hattemptId⟩
  · rw [hid, ← htargets]
  · rw [hid, ← htargets]
    exact htargetMem
  · exact mem_attemptsOf.mpr ⟨hattemptMem, hattemptJob.trans hid.symm, hattemptIndex⟩

theorem run_markAttemptSubmitted {attempt : AttemptRow} {submittedAt : TimeUnixMs} {n : ℕ}
    (wf : DeliveryWf s) (hattempt : attempt ∈ s.attempts) (hleased : attempt.status = .leased)
    (hexpiry : submittedAt ≤ attempt.leaseExpiresAt) :
    (markAttemptSubmitted attempt.jobId attempt.targetIndex attempt.attemptId submittedAt).run s =
        .ok (n, s') ↔
      attemptUpdateAllowed attempt (attempt.submitted submittedAt) = true ∧ n = 1 ∧
        s' = { s with
          attempts := Table.replace attempt (attempt.submitted submittedAt) s.attempts } := by
  rw [markAttemptSubmitted, updateAttempts,
    attemptsTable.run_update_only attempt wf.attempts_unique.nodup hattempt
      (by simp [hleased, hexpiry])
      (fun row hrow hmatch => wf.attempts_unique.eq_of_key_eq hrow hattempt
        (by simp only [decide_eq_true_eq] at hmatch; exact hmatch.1))]
  exact and_congr_right fun _ => and_congr_right fun _ => eq_comm

theorem run_markTargetSubmitted {target : TargetRow} {attemptId : Id32} {submittedAt : TimeUnixMs}
    {n : ℕ} (hunique : Table.Unique (fun target => (target.jobId, target.targetIndex)) s.targets)
    (htarget : target ∈ s.targets) (hactive : target.activeAttemptId = some attemptId)
    (hleased : target.status = .leased) :
    (markTargetSubmitted target.jobId target.targetIndex attemptId submittedAt).run s =
        .ok (n, s') ↔
      targetUpdateAllowed target (target.submitted submittedAt) = true ∧ n = 1 ∧
        s' = { s with
          targets := Table.replace target (target.submitted submittedAt) s.targets } := by
  rw [markTargetSubmitted, updateTargets,
    targetsTable.run_update_only target hunique.nodup htarget (by simp [hactive, hleased])
      (fun row hrow hmatch => hunique.eq_of_key_eq hrow htarget (by
        simp only [decide_eq_true_eq] at hmatch
        rw [hmatch.1, hmatch.2.1]))]
  exact and_congr_right fun _ => and_congr_right fun _ => eq_comm

/-- The attempt is recorded as submitted at the given time. -/
def SubmissionRecorded (s : Store) (attemptId : Id32) (submittedAt : TimeUnixMs) : Prop :=
  ∃ attempt ∈ s.attempts, attempt.attemptId = attemptId ∧ attempt.status = .submitted ∧
    attempt.submittedAt = some submittedAt

theorem markSubmitted_cases {jobId attemptId : Id32} {relayId : RelayId} {submittedAt : TimeUnixMs}
    {attempt : AttemptRow} (wf : DeliveryWf s)
    (h : (markSubmitted jobId relayId attemptId submittedAt).run s = .ok (attempt, s')) :
    (s' = s ∧ SubmissionRecorded s attemptId submittedAt) ∨
      ∃ job target attempt, attempt.attemptId = attemptId ∧
        Submits s job target attempt submittedAt ∧ s' = s.submitted target attempt submittedAt := by
  simp only [markSubmitted, run_bind_eq_ok, run_query_eq_ok, run_orFail_eq_ok] at h
  obtain ⟨record?, s₁, ⟨hjob, rfl⟩, record, s₂, ⟨rfl, rfl⟩, target, s₃, ⟨htarget, rfl⟩, attempt?, s₄,
    ⟨hattempt, rfl⟩, current, s₅, ⟨rfl, rfl⟩, h⟩ := h
  obtain ⟨job, hjobMem, rfl, rfl, htargetMem, hattemptMem, rfl⟩ := wf.lookup hjob htarget hattempt
  split at h
  next hsubmitted =>
    simp only [run_bind_eq_ok, run_require_eq_ok, run_pure_eq_ok] at h
    obtain ⟨-, s₆, ⟨htime, rfl⟩, -, rfl⟩ := h
    exact .inl ⟨rfl, current, (mem_attemptsOf.mp hattemptMem).1, rfl, hsubmitted, htime⟩
  next =>
    simp only [run_bind_eq_ok, run_require_eq_ok, run_requireOne_eq_ok, run_query_eq_ok,
      run_orFail_eq_ok] at h
    obtain ⟨-, s₆, ⟨⟨hleased, -, hexpiry, hactive, htargetLeased⟩, rfl⟩, n, s₇, hattemptRow, -, s₈,
      ⟨rfl, rfl⟩, m, s₉, htargetRow, -, s₁₀, ⟨rfl, rfl⟩, _, _, ⟨-, rfl⟩, -, rfl⟩ := h
    obtain ⟨hstored, hattemptJob, hattemptIndex⟩ := mem_attemptsOf.mp hattemptMem
    obtain ⟨htargetStored, htargetJob⟩ := mem_targetsOf.mp htargetMem
    rw [← hattemptJob, ← hattemptIndex, run_markAttemptSubmitted wf hstored hleased hexpiry]
      at hattemptRow
    obtain ⟨hattemptAllowed, -, rfl⟩ := hattemptRow
    rw [← htargetJob] at htargetRow
    obtain ⟨-, -, rfl⟩ := (run_markTargetSubmitted
      (s := { s with
        attempts := Table.replace current (current.submitted submittedAt) s.attempts })
      wf.targets_unique htargetStored hactive htargetLeased).mp htargetRow
    exact .inr ⟨job, target, current, rfl, ⟨hjobMem, htargetMem, hattemptMem, hactive,
      htargetLeased, hleased, hattemptAllowed⟩, rfl⟩

/-- The checks of `recordOutcome` on a live attempt. -/
structure OutcomeFits (attempt : AttemptRow) (outcome : AttemptOutcome) (observedAt : TimeUnixMs) :
    Prop where
  prior : attempt.status = outcome.requiredPrior attempt.status
  leased : attempt.leasedAt ≤ observedAt
  submitted : ∀ submitted ∈ attempt.submittedAt, submitted ≤ observedAt
  unexpired : observedAt ≤ attempt.leaseExpiresAt

/-- The attempt with this id is resolved. -/
def Settled (s : Store) (attemptId : Id32) : Prop :=
  ∃ attempt ∈ s.attempts, attempt.attemptId = attemptId ∧ attempt.status.isLive = false

theorem recordOutcome_cases {jobId attemptId : Id32} {relayId : RelayId} {outcome : AttemptOutcome}
    {jitter : RetryJitter} {observedAt : TimeUnixMs} {record : JobRecord} (wf : DeliveryWf s)
    (h : (recordOutcome jobId relayId attemptId outcome jitter observedAt).run s =
      .ok (record, s')) :
    (s' = s ∧ Settled s attemptId) ∨ ∃ job target attempt status next,
      job.jobId = jobId ∧ target.relayId = relayId ∧ attempt.attemptId = attemptId ∧
      OutcomeFits attempt outcome observedAt ∧
      Resolves s job target attempt outcome.status outcome.reason jitter status next observedAt ∧
      s' = (s.resolved target attempt outcome.status outcome.reason status next
        observedAt).finalized job observedAt := by
  simp only [recordOutcome, run_bind_eq_ok, run_query_eq_ok, run_orFail_eq_ok] at h
  obtain ⟨record?, s₁, ⟨hjob, rfl⟩, record, s₂, ⟨rfl, rfl⟩, target, s₃, ⟨htarget, rfl⟩, attempt?, s₄,
    ⟨hattempt, rfl⟩, current, s₅, ⟨rfl, rfl⟩, h⟩ := h
  have hrelay := (DeliveryWf.of_targetByRelay htarget).2
  obtain ⟨job, hjobMem, rfl, rfl, htargetMem, hattemptMem, rfl⟩ := wf.lookup hjob htarget hattempt
  split at h
  next hlive =>
    simp only [run_bind_eq_ok, run_require_eq_ok] at h
    obtain ⟨-, s₆, ⟨⟨hprior, -, -, hleased, hsubmitted, hunexpired⟩, rfl⟩, u, s₇, hresolve,
      hfinalize⟩ := h
    rw [← hprior] at hresolve
    obtain ⟨status, next, hresolves, rfl⟩ := (resolves_iff_run wf hjobMem htargetMem hattemptMem
      hlive).mp ⟨u, s₇, record, hresolve, hfinalize⟩
    exact .inr ⟨job, target, current, status, next, rfl, hrelay, rfl,
      ⟨hprior, hleased, hsubmitted, hunexpired⟩, hresolves, rfl⟩
  next hsettled =>
    simp only [run_bind_eq_ok, run_require_eq_ok, run_pure_eq_ok] at h
    obtain ⟨-, s₆, ⟨-, rfl⟩, -, rfl⟩ := h
    exact .inl ⟨rfl, current, (mem_attemptsOf.mp hattemptMem).1, rfl, by simpa using hsettled⟩

/-- A resolution is about a target that holds the lease of the attempt. -/
theorem Resolves.active {job : JobRow} {target : TargetRow} {attempt : AttemptRow}
    {terminal : AttemptStatus} {reason : AttemptReason} {jitter : RetryJitter}
    {status : TargetStatus} {next : Option TimeUnixMs} {observedAt : TimeUnixMs}
    (wf : DeliveryWf s)
    (h : Resolves s job target attempt terminal reason jitter status next observedAt) :
    target.status.isActive = true ∧ target.activeAttemptId = some attempt.attemptId := by
  obtain ⟨hstatus, hactive⟩ := wf.live_target h.job_mem h.target_mem h.attempt_mem h.live
  exact ⟨AttemptStatus.asTarget_isActive hstatus, hactive⟩

/-- The reads that submission, outcome and recovery begin with find the rows. -/
theorem run_lookup {α : Type} {job : JobRow} {target : TargetRow} {attempt : AttemptRow}
    (next : JobRecord → TargetRow → AttemptRow → Tx α) (wf : DeliveryWf s) (hjob : job ∈ s.jobs)
    (htarget : target ∈ targetsOf s job.jobId)
    (hattempt : attempt ∈ attemptsOf s job.jobId target.targetIndex) :
    (do
      let stored ← query (readJob · job.jobId)
      let record ← orFail stored .binding
      let row ← query fun _ => targetByRelay record target.relayId
      let stored ← query (readAttempt · job.jobId row.targetIndex attempt.attemptId)
      let current ← orFail stored .binding
      next record row current : Tx α).run s =
      (next { job with targets := targetsOf s job.jobId } target attempt).run s := by
  have hread : (query (readJob · job.jobId)).run s =
      .ok (some { job with targets := targetsOf s job.jobId }, s) :=
    run_query_of_ok (wf.readJob_eq_some hjob)
  have hattemptRead : (query (readAttempt · job.jobId target.targetIndex attempt.attemptId)).run s =
      .ok (some attempt, s) :=
    run_query_of_ok (wf.readAttempt_eq_some hjob htarget hattempt)
  rw [run_bind_of_ok hread, run_bind_of_ok (run_orFail_some ..),
    run_bind_of_ok (run_query_of_ok (s := s) (wf.targetByRelay_eq htarget)),
    run_bind_of_ok hattemptRead, run_bind_of_ok (run_orFail_some ..)]

/-- An outcome that fits a live attempt resolves it. -/
theorem run_recordOutcome {job : JobRow} {target : TargetRow} {attempt : AttemptRow}
    {outcome : AttemptOutcome} {jitter : RetryJitter} {status : TargetStatus}
    {next : Option TimeUnixMs} {observedAt : TimeUnixMs} (wf : DeliveryWf s)
    (hfits : OutcomeFits attempt outcome observedAt)
    (h : Resolves s job target attempt outcome.status outcome.reason jitter status next
      observedAt) :
    ∃ record, (recordOutcome job.jobId target.relayId attempt.attemptId outcome jitter
      observedAt).run s = .ok (record,
        (s.resolved target attempt outcome.status outcome.reason status next
          observedAt).finalized job observedAt) := by
  obtain ⟨u, s₁, record, hresolve, hfinalize⟩ :=
    (resolves_iff_run wf h.job_mem h.target_mem h.attempt_mem h.live).mpr ⟨status, next, h, rfl⟩
  have hpriorLive : (outcome.requiredPrior attempt.status).isLive = true := hfits.prior ▸ h.live
  refine ⟨record, ?_⟩
  unfold recordOutcome
  refine (run_lookup (fun job target attempt => _) wf h.job_mem h.target_mem h.attempt_mem).trans ?_
  rw [if_pos h.live, run_bind_of_ok (run_require_of ⟨hfits.prior, hpriorLive, (h.active wf).2,
    hfits.leased, hfits.submitted, hfits.unexpired⟩ s), ← hfits.prior]
  exact (run_bind_of_ok hresolve).trans hfinalize

theorem recoverExpired_cases {jobId attemptId : Id32} {relayId : RelayId} {jitter : RetryJitter}
    {observedAt : TimeUnixMs} {record : JobRecord} (wf : DeliveryWf s)
    (h : (recoverExpired jobId relayId attemptId jitter observedAt).run s = .ok (record, s')) :
    (s' = s ∧ Settled s attemptId) ∨ ∃ job target attempt status next,
      job.jobId = jobId ∧ target.relayId = relayId ∧ attempt.attemptId = attemptId ∧
      attempt.leaseExpiresAt < observedAt ∧
      Resolves s job target attempt (expiredEvidence attempt.status).1
        (expiredEvidence attempt.status).2 jitter status next observedAt ∧
      s' = (s.resolved target attempt (expiredEvidence attempt.status).1
        (expiredEvidence attempt.status).2 status next observedAt).finalized job observedAt := by
  simp only [recoverExpired, run_bind_eq_ok, run_query_eq_ok, run_orFail_eq_ok] at h
  obtain ⟨record?, s₁, ⟨hjob, rfl⟩, record, s₂, ⟨rfl, rfl⟩, target, s₃, ⟨htarget, rfl⟩, attempt?, s₄,
    ⟨hattempt, rfl⟩, current, s₅, ⟨rfl, rfl⟩, h⟩ := h
  have hrelay := (DeliveryWf.of_targetByRelay htarget).2
  obtain ⟨job, hjobMem, rfl, rfl, htargetMem, hattemptMem, rfl⟩ := wf.lookup hjob htarget hattempt
  split at h
  next hlive =>
    simp only [run_bind_eq_ok, run_require_eq_ok] at h
    obtain ⟨-, s₆, ⟨⟨hexpired, -⟩, rfl⟩, u, s₇, hresolve, hfinalize⟩ := h
    obtain ⟨status, next, hresolves, rfl⟩ := (resolves_iff_run wf hjobMem htargetMem hattemptMem
      hlive).mp ⟨u, s₇, record, hresolve, hfinalize⟩
    exact .inr ⟨job, target, current, status, next, rfl, hrelay, rfl, hexpired, hresolves, rfl⟩
  next hsettled =>
    exact .inl ⟨(run_pure_eq_ok.mp h).2.symm, current, (mem_attemptsOf.mp hattemptMem).1, rfl,
      by simpa using hsettled⟩

/-- An expired lease is resolved with the evidence it leaves. -/
theorem run_recoverExpired {job : JobRow} {target : TargetRow} {attempt : AttemptRow}
    {jitter : RetryJitter} {status : TargetStatus} {next : Option TimeUnixMs}
    {observedAt : TimeUnixMs} (wf : DeliveryWf s) (hexpired : attempt.leaseExpiresAt < observedAt)
    (h : Resolves s job target attempt (expiredEvidence attempt.status).1
      (expiredEvidence attempt.status).2 jitter status next observedAt) :
    ∃ record, (recoverExpired job.jobId target.relayId attempt.attemptId jitter
      observedAt).run s = .ok (record,
        (s.resolved target attempt (expiredEvidence attempt.status).1
          (expiredEvidence attempt.status).2 status next observedAt).finalized job observedAt) := by
  obtain ⟨u, s₁, record, hresolve, hfinalize⟩ :=
    (resolves_iff_run wf h.job_mem h.target_mem h.attempt_mem h.live).mpr ⟨status, next, h, rfl⟩
  refine ⟨record, ?_⟩
  unfold recoverExpired
  refine (run_lookup (fun job target attempt => _) wf h.job_mem h.target_mem h.attempt_mem).trans ?_
  rw [if_pos h.live, run_bind_of_ok (run_require_of ⟨hexpired, (h.active wf).2⟩ s)]
  exact (run_bind_of_ok hresolve).trans hfinalize

theorem run_markJobActive (job : JobRow) {claimedAt : TimeUnixMs} {n : ℕ}
    (hunique : Table.Unique JobRow.jobId s.jobs) (hjob : job ∈ s.jobs) :
    (markJobActive job.jobId claimedAt).run s = .ok (n, s') ↔
      (job.status = .pending → jobUpdateAllowed job (job.activated claimedAt) = true) ∧
        n = (if job.status = .pending then 1 else 0) ∧
        s' = { s with jobs := Table.replace job (job.activated claimedAt) s.jobs } := by
  have honly : ∀ row ∈ s.jobs, row.jobId = job.jobId → row = job :=
    fun row hrow hid => hunique.eq_of_key_eq hrow hjob hid
  by_cases hpending : job.status = .pending
  · rw [markJobActive, updateJobs,
      jobsTable.run_update_only job hunique.nodup hjob (by simp [hpending])
        (fun row hrow hmatch => honly row hrow (by simp at hmatch; exact hmatch.1))]
    simp only [hpending, JobRow.activated, if_true, true_implies]
    exact and_congr_right fun _ => and_congr_right fun _ => eq_comm
  · have hnone : ∀ row ∈ s.jobs, ¬ (row.jobId = job.jobId ∧ row.status = .pending) := by
      rintro row hrow ⟨hid, hstatus⟩
      rw [honly row hrow hid] at hstatus
      exact hpending hstatus
    rw [markJobActive, updateJobs,
      jobsTable.run_update_none (fun row hrow => by simpa using hnone row hrow)]
    simp only [hpending, JobRow.activated, if_false, false_implies, true_and, Table.replace_self]
    exact and_congr_right fun _ => eq_comm

/-- A free target that is neither delivered nor exhausted can be leased. -/
theorem TargetOk.claimable {job : JobRow} {target : TargetRow} {attempts : List AttemptRow}
    (h : TargetOk job target attempts) (hfree : target.activeAttemptId = none)
    (hunsettled : target.status ≠ .delivered ∧ target.status ≠ .exhausted) :
    target.status = .pending ∨ target.status = .retryable ∨ target.status = .unknown := by
  have hlast := h.last
  unfold LastOk at hlast
  cases hstatus : target.status with
  | pending | retryable | unknown => simp
  | delivered => exact absurd hstatus hunsettled.1
  | exhausted => exact absurd hstatus hunsettled.2
  | leased | submitted =>
      rw [hstatus] at hlast
      obtain ⟨attempt, -, -, hactive, -⟩ := hlast
      rw [hfree] at hactive
      cases hactive

theorem run_claimTargetRow {target : TargetRow} {attempt : AttemptRow} {claimedAt : TimeUnixMs}
    {n : ℕ} (hunique : Table.Unique (fun target => (target.jobId, target.targetIndex)) s.targets)
    (htarget : target ∈ s.targets) (hfree : target.activeAttemptId = none)
    (hstatus : target.status = .pending ∨ target.status = .retryable ∨ target.status = .unknown) :
    (claimTargetRow target attempt claimedAt).run s = .ok (n, s') ↔
      targetUpdateAllowed target (target.claimed attempt claimedAt) = true ∧ n = 1 ∧
        s' = { s with
          targets := Table.replace target (target.claimed attempt claimedAt) s.targets } := by
  rw [claimTargetRow, updateTargets,
    targetsTable.run_update_only target hunique.nodup htarget (by simp [hfree, hstatus])
      (fun row hrow hmatch => hunique.eq_of_key_eq hrow htarget (by
        simp only [decide_eq_true_eq] at hmatch
        rw [hmatch.1, hmatch.2.1]))]
  exact and_congr_right fun _ => and_congr_right fun _ => eq_comm

theorem claimTarget_cases {jobId nonce : Id32} {relayId : RelayId} {claimedAt : TimeUnixMs}
    {claim : Claim} (wf : DeliveryWf s)
    (h : (claimTarget jobId relayId nonce claimedAt).run s = .ok (claim, s')) :
    (s' = s ∧ ∀ attempt, claim ≠ .claimed attempt) ∨
      ∃ job target attempt, Claims s job target attempt claimedAt ∧
        s' = s.claimed job target attempt claimedAt ∧
        ∃ stored, claim = .claimed stored ∧ stored.attemptId = attempt.attemptId := by
  simp only [claimTarget, run_bind_eq_ok, run_query_eq_ok, run_orFail_eq_ok] at h
  obtain ⟨record?, s₁, ⟨hjob, rfl⟩, record, s₂, ⟨rfl, rfl⟩, h⟩ := h
  obtain ⟨hjobMem, rfl, htargets⟩ := wf.of_readJob hjob
  split at h
  next =>
    obtain ⟨rfl, rfl⟩ := run_pure_eq_ok.mp h
    exact .inl ⟨rfl, by simp⟩
  next hopen =>
  simp only [run_bind_eq_ok, run_query_eq_ok] at h
  obtain ⟨target, s₃, ⟨htarget, rfl⟩, existing, s₄, ⟨-, rfl⟩, h⟩ := h
  have htargetMem := (DeliveryWf.of_targetByRelay htarget).1
  rw [htargets] at htargetMem
  split at h
  next =>
    obtain ⟨rfl, rfl⟩ := run_pure_eq_ok.mp h
    exact .inl ⟨rfl, by simp⟩
  next =>
  split at h
  next =>
    obtain ⟨rfl, rfl⟩ := run_pure_eq_ok.mp h
    exact .inl ⟨rfl, by simp⟩
  next hready =>
  split at h
  next =>
    obtain ⟨rfl, rfl⟩ := run_pure_eq_ok.mp h
    exact .inl ⟨rfl, by simp⟩
  next hunsettled =>
  simp only [run_bind_eq_ok, run_query_eq_ok, run_orFail_eq_ok, run_requireOne_eq_ok,
    run_require_eq_ok, run_pure_eq_ok, insertAttempt, attemptsTable.run_insert_eq_ok] at h
  obtain ⟨leaseExpires, s₅, ⟨-, rfl⟩, -, s₆, ⟨hallowed, rfl⟩, n, s₇, hclaim, -, s₈, ⟨rfl, rfl⟩, m, s₉,
    hactive, -, s₁₀, ⟨-, rfl⟩, _, s₁₁, ⟨hstored, rfl⟩, stored, s₁₂, ⟨rfl, rfl⟩, rfl, rfl⟩ := h
  simp only [not_or, Option.isSome_iff_ne_none, ne_eq, not_not] at hready hunsettled
  have hclaimable := (wf.histories record.toJobRow hjobMem target htargetMem).claimable hready.1
    ⟨hunsettled.1, hunsettled.2.1⟩
  obtain ⟨-, -, rfl⟩ := (run_claimTargetRow
    (s := { s with attempts := s.attempts ++
      [newAttemptRow record target nonce claimedAt leaseExpires] })
    wf.targets_unique (mem_targetsOf.mp htargetMem).1 hready.1 hclaimable).mp hclaim
  obtain ⟨hjobAllowed, -, rfl⟩ := (run_markJobActive record.toJobRow
    (s := { s with
      attempts := s.attempts ++ [newAttemptRow record target nonce claimedAt leaseExpires]
      targets := Table.replace target
        (target.claimed (newAttemptRow record target nonce claimedAt leaseExpires) claimedAt)
        s.targets })
    wf.jobs_unique hjobMem).mp hactive
  refine .inr ⟨record.toJobRow, target,
    newAttemptRow record target nonce claimedAt leaseExpires,
    ⟨hjobMem, ?_, htargetMem, hready.1, ?_, ⟨hunsettled.1, hunsettled.2.1⟩, ?_, ?_, hallowed,
      hjobAllowed⟩, rfl, stored, rfl, (DeliveryWf.of_readAttempt hstored).2.2.2.1⟩
  · simpa [JobStatus.isOpen] using hopen
  · simpa using hready.2
  · exact Nat.lt_of_not_le hunsettled.2.2
  · exact ⟨nonce, leaseExpires, rfl⟩

theorem run_insertTargets {jobId : Id32} {createdAt : TimeUnixMs} {index : ℕ}
    {policies : List TargetPolicy} {u : Unit}
    (h : (insertTargets jobId createdAt index policies).run s = .ok (u, s')) :
    s' = { s with targets := s.targets ++ newTargetRows jobId createdAt index policies } := by
  induction policies generalizing index s with
  | nil =>
      obtain ⟨-, rfl⟩ := run_pure_eq_ok.mp h
      simp [newTargetRows]
  | cons target rest ih =>
      obtain ⟨_, s₁, hinsert, hrest⟩ := run_bind_eq_ok.mp h
      rw [insertTarget, targetsTable.run_insert_eq_ok] at hinsert
      obtain ⟨-, rfl⟩ := hinsert
      rw [ih hrest]
      simp [newTargetRows, targetsTable]

/-- Creating a job that has no source yet appends it with its targets. -/
theorem createJob_eq_ok {source : Source} {artifact : Id32} {createdAt : TimeUnixMs}
    {policy : DeliveryPolicies} {admission : JobAdmission}
    (h : (createJob source artifact createdAt policy).run s = .ok (admission, s')) :
    (s' = s ∧ ∃ record, readJobBySource s source = .ok (some record) ∧
        exactJob record source artifact createdAt policy = true ∧
        admission = .exactReplay record) ∨
      (readJobBySource s source = .ok none ∧ activeJobCount s < policy.outboxMaximum ∧
        jobInsertAllowed s (newJobRow source artifact createdAt policy) = true ∧
        s' = s.created source artifact createdAt policy ∧
        ∃ record, readJob s' (deriveJobId source artifact) = .ok (some record) ∧
          admission = .created record) := by
  simp only [createJob, run_bind_eq_ok, run_query_eq_ok] at h
  obtain ⟨existing, s₁, ⟨hread, rfl⟩, h⟩ := h
  split at h
  next record =>
    simp only [run_bind_eq_ok, run_require_eq_ok, run_pure_eq_ok] at h
    obtain ⟨-, s₂, ⟨hexact, rfl⟩, rfl, rfl⟩ := h
    exact .inl ⟨rfl, record, hread, hexact, rfl⟩
  next =>
    simp only [run_bind_eq_ok, run_query_eq_ok, run_require_eq_ok, run_orFail_eq_ok,
      run_pure_eq_ok, insertJob, jobsTable.run_insert_eq_ok, Except.ok.injEq] at h
    obtain ⟨-, s₂, ⟨rfl, rfl⟩, -, s₃, ⟨hcapacity, rfl⟩, -, s₄, ⟨hallowed, rfl⟩, u, s₅, htargets, _, s₆,
      ⟨hrecord, rfl⟩, record, s₇, ⟨rfl, rfl⟩, rfl, rfl⟩ := h
    have hstore : s₅ = s.created source artifact createdAt policy := run_insertTargets htargets
    exact .inr ⟨hread, hcapacity, hallowed, hstore, record, hrecord, rfl⟩

end MycSigner
