import MycSigner.Delivery.Runs

/-!
# Unknown outcomes and failed jobs

A lost acknowledgement is not proof of failure.  The resolver, however, judges a target by
its last attempt alone: a target whose last permitted attempt failed counts as exhausted
even when an earlier attempt of it is recorded unknown.  `Relabels` names the calls at which
this turns an unknown outcome into a failed job; every other step that fails a job does so
with no unknown outcome among the required targets that have used all their attempts.
-/

namespace MycSigner

/-- A required target that has used all its attempts has one recorded unknown. -/
def LostAcknowledgement (s : Store) (job : JobRow) : Prop :=
  ∃ target ∈ targetsOf s job.jobId, target.required = true ∧
    job.maxAttempts ≤ target.attemptCount ∧
    ∃ attempt ∈ attemptsOf s job.jobId target.targetIndex, attempt.status = .unknown

instance (s : Store) (job : JobRow) : Decidable (LostAcknowledgement s job) :=
  inferInstanceAs (Decidable (∃ target ∈ targetsOf s job.jobId, target.required = true ∧
    job.maxAttempts ≤ target.attemptCount ∧
    ∃ attempt ∈ attemptsOf s job.jobId target.targetIndex, attempt.status = .unknown))

/-- When the step finalizes an open job as failed, no required target of it that has used
all its attempts has an attempt recorded unknown. -/
def FailureProven (s s' : Store) : Prop :=
  ∀ job ∈ s.jobs, job.status.isOpen = true →
    ∀ job' ∈ s'.jobs, job'.jobId = job.jobId → job'.status = .failed →
      ¬ LostAcknowledgement s' job'

instance (s s' : Store) : Decidable (FailureProven s s') :=
  inferInstanceAs (Decidable (∀ job ∈ s.jobs, job.status.isOpen = true →
    ∀ job' ∈ s'.jobs, job'.jobId = job.jobId → job'.status = .failed →
      ¬ LostAcknowledgement s' job'))

/-- The event reports failure of a live attempt of the target, at a time and with a jitter
that the operation accepts when no retry is left. -/
def FailureEvidence (job : JobRow) (target : TargetRow) (attempt : AttemptRow) :
    DeliveryEvent → Prop
  | .recordOutcome jobId relayId attemptId outcome jitter observedAt =>
      (jobId = job.jobId ∧ relayId = target.relayId ∧ attemptId = attempt.attemptId) ∧
        outcome.status = .failed ∧ OutcomeFits attempt outcome observedAt ∧ jitter.get = 0 ∧
        target.updatedAt ≤ observedAt ∧ job.updatedAt ≤ observedAt
  | .recoverExpired jobId relayId attemptId jitter observedAt =>
      (jobId = job.jobId ∧ relayId = target.relayId ∧ attemptId = attempt.attemptId) ∧
        attempt.status = .leased ∧ attempt.leaseExpiresAt < observedAt ∧ jitter.get = 0 ∧
        target.updatedAt ≤ observedAt ∧ job.updatedAt ≤ observedAt
  | _ => False

/-- The targets of the job leave no room for another failure: no more than the required
number of required targets can still deliver, and none of the others ended unknown. -/
structure Decisive (s : Store) (job : JobRow) : Prop where
  no_spare : possibleRequired job.maxAttempts (targetsOf s job.jobId) ≤ job.requiredAcknowledgements
  none_unknown : ∀ target ∈ targetsOf s job.jobId, target.endsUnknown job.maxAttempts = false

/-- The event is evidence that the last permitted attempt of a required target failed, this
decides the open job, and an acknowledgement was lost before. -/
def Relabels (s : Store) (event : DeliveryEvent) : Prop :=
  ∃ job ∈ s.jobs, job.status.isOpen = true ∧ Decisive s job ∧ LostAcknowledgement s job ∧
    ∃ target ∈ targetsOf s job.jobId, target.required = true ∧
      target.attemptCount = job.maxAttempts ∧
      ∃ attempt ∈ attemptsOf s job.jobId target.targetIndex, attempt.status.isLive = true ∧
        FailureEvidence job target attempt event

/-! ## Steps that fail no job -/

theorem FailureProven.of_no_failure {s s' : Store}
    (h : ∀ job ∈ s.jobs, job.status.isOpen = true → ∀ job' ∈ s'.jobs, job'.jobId = job.jobId →
      job'.status ≠ .failed) : FailureProven s s' :=
  fun job hjob hopen job' hjob' hid hfailed =>
    absurd hfailed (h job hjob hopen job' hjob' hid)

theorem JobStatus.ne_failed_of_isOpen {status : JobStatus} (h : status.isOpen = true) :
    status ≠ .failed := by
  rintro rfl
  cases h

theorem FailureProven.of_jobs_eq {s s' : Store} (wf : DeliveryWf s) (h : s'.jobs = s.jobs) :
    FailureProven s s' := by
  refine .of_no_failure fun job hjob hopen job' hjob' hid => ?_
  rw [h] at hjob'
  rw [wf.jobs_unique.eq_of_key_eq hjob' hjob hid]
  exact JobStatus.ne_failed_of_isOpen hopen

theorem FailureProven.created {s : Store} {source : Source} {artifact : Id32}
    {createdAt : TimeUnixMs} {policy : DeliveryPolicies} (wf : DeliveryWf s) :
    FailureProven s (s.created source artifact createdAt policy) := by
  refine .of_no_failure fun job hjob hopen job' hjob' hid => ?_
  rcases List.mem_append.mp hjob' with hold | hnew
  · rw [wf.jobs_unique.eq_of_key_eq hold hjob hid]
    exact JobStatus.ne_failed_of_isOpen hopen
  · rw [List.mem_singleton.mp hnew]
    exact JobStatus.noConfusion

theorem FailureProven.claimed {s : Store} {job : JobRow} {target : TargetRow}
    {attempt : AttemptRow} {claimedAt : TimeUnixMs} (wf : DeliveryWf s)
    (h : Claims s job target attempt claimedAt) :
    FailureProven s (s.claimed job target attempt claimedAt) := by
  refine .of_no_failure fun row hrow hopen job' hjob' hid => ?_
  rcases Table.mem_replace.mp hjob' with ⟨hold, -⟩ | ⟨-, rfl⟩
  · rw [wf.jobs_unique.eq_of_key_eq hold hrow hid]
    exact JobStatus.ne_failed_of_isOpen hopen
  · unfold JobRow.activated
    split
    · exact JobStatus.noConfusion
    · exact JobStatus.ne_failed_of_isOpen h.job_open

/-! ## Resolutions -/

section Resolution

variable {s : Store} {job : JobRow} {target : TargetRow} {attempt : AttemptRow}
  {terminal : AttemptStatus} {reason : AttemptReason} {jitter : RetryJitter}
  {status : TargetStatus} {next : Option TimeUnixMs} {observedAt : TimeUnixMs}

theorem terminalStatus_eq_failed {record : JobRecord} (h : terminalStatus record = some .failed) :
    possibleRequired record.maxAttempts record.targets < record.requiredAcknowledgements ∧
      ∀ target ∈ record.targets, target.endsUnknown record.maxAttempts = false := by
  unfold terminalStatus at h
  split at h
  · cases h
  split at h
  · cases h
  next hpossible =>
  split at h
  · cases h
  next hnone =>
    refine ⟨Nat.lt_of_not_le hpossible, fun target htarget => ?_⟩
    by_contra hends
    exact hnone (List.any_eq_true.mpr ⟨target, htarget, by simpa using hends⟩)

/-- Only failure evidence without attempts left exhausts a target. -/
theorem resolvedTarget_exhausted {number : ℕ}
    (h : resolvedTarget job target number terminal jitter observedAt = .ok (.exhausted, next)) :
    terminal = .failed ∧ job.maxAttempts ≤ target.attemptCount := by
  unfold resolvedTarget at h
  cases terminal with
  | failed =>
      simp only at h
      split at h
      · obtain ⟨_, -, htime⟩ := Except.bind_eq_ok_iff.mp h
        cases htime
      next hremaining => exact ⟨rfl, Nat.le_of_not_lt hremaining⟩
  | delivered | leased | submitted => cases h
  | unknown =>
      simp only at h
      split at h
      · obtain ⟨_, -, htime⟩ := Except.bind_eq_ok_iff.mp h
        cases htime
      · cases h

/-- A resolution that fails the job is failure evidence for the last permitted attempt of a
required target, and the job was at its last spare target. -/
theorem Resolves.of_failed (inv : DeliveryInv s)
    (h : Resolves s job target attempt terminal reason jitter status next observedAt)
    (hverdict : (s.resolved target attempt terminal reason status next observedAt).verdict job =
      some .failed) :
    job.status.isOpen = true ∧ Decisive s job ∧ terminal = .failed ∧ target.required = true ∧
      target.attemptCount = job.maxAttempts := by
  have wf := inv.toDeliveryWf
  unfold Store.verdict at hverdict
  split at hverdict
  next hopen =>
    obtain ⟨hpossible, hnone⟩ := terminalStatus_eq_failed hverdict
    simp only [targetsOf_resolved] at hpossible hnone
    obtain ⟨-, hold⟩ := inv.undecided_counts h.job_mem hopen
    have hnodup : (targetsOf s job.jobId).Nodup :=
      List.Nodup.sublist List.filter_sublist wf.targets_unique.nodup
    have hcount := Table.length_filter_replace (TargetRow.mayDeliver job.maxAttempts)
      (target.resolved status next observedAt) hnodup h.target_mem
    unfold possibleRequired at hpossible hold
    -- the count drops, so the target could deliver before and cannot afterwards
    have hbefore : target.mayDeliver job.maxAttempts = true := by
      by_contra hno
      simp only [Bool.not_eq_true] at hno
      simp only [hno, Bool.toNat_false] at hcount
      omega
    have hafter : (target.resolved status next observedAt).mayDeliver job.maxAttempts = false := by
      by_contra hyes
      simp only [Bool.not_eq_false] at hyes
      simp only [hyes, hbefore, Bool.toNat_true] at hcount
      omega
    simp only [hbefore, hafter, Bool.toNat_true, Bool.toNat_false] at hcount
    have hrequired : target.required = true := by
      simp only [TargetRow.mayDeliver, Bool.and_eq_true] at hbefore
      exact hbefore.1.1
    have hends := hnone _ (Table.mem_replace.mpr (.inr ⟨h.target_mem, rfl⟩))
    have hexhausted : status = .exhausted := by
      simp only [TargetRow.mayDeliver, TargetRow.endsUnknown, TargetRow.resolved, hrequired,
        Bool.true_and] at hafter hends
      rw [hends] at hafter
      simpa using hafter
    subst hexhausted
    obtain ⟨hfailed, hspent⟩ := resolvedTarget_exhausted h.outcome
    refine ⟨hopen, ⟨?_, ?_⟩, hfailed, hrequired,
      Nat.le_antisymm (wf.histories job h.job_mem target h.target_mem).bounded hspent⟩
    · unfold possibleRequired
      omega
    · intro other hother
      by_cases heq : other = target
      · have hactive := (h.active wf).1
        rw [heq, TargetRow.endsUnknown]
        cases hstatus : target.status with
        | leased | submitted => simp
        | pending | delivered | retryable | unknown | exhausted =>
            rw [hstatus] at hactive
            cases hactive
      · exact hnone other (Table.mem_replace.mpr (.inl ⟨hother, heq⟩))
  next => cases hverdict

/-- Failure evidence for the last permitted attempt of a required target fails a decisive
job. -/
theorem Resolves.fails (inv : DeliveryInv s)
    (h : Resolves s job target attempt .failed reason jitter status next observedAt)
    (hopen : job.status.isOpen = true) (hdecisive : Decisive s job)
    (hrequired : target.required = true) (hspent : target.attemptCount = job.maxAttempts) :
    (s.resolved target attempt .failed reason status next observedAt).verdict job =
      some .failed := by
  have wf := inv.toDeliveryWf
  have hexhausted : status = .exhausted := by
    have houtcome := h.outcome
    simp only [resolvedTarget, hspent, Nat.lt_irrefl, if_false] at houtcome
    cases houtcome
    rfl
  subst hexhausted
  obtain ⟨hundelivered, -⟩ := inv.undecided_counts h.job_mem hopen
  have hnodup : (targetsOf s job.jobId).Nodup :=
    List.Nodup.sublist List.filter_sublist wf.targets_unique.nodup
  have hactive := (h.active wf).1
  have hmay : target.mayDeliver job.maxAttempts = true := by
    cases hstatus : target.status with
    | leased | submitted => simp [TargetRow.mayDeliver, hrequired, hstatus]
    | pending | delivered | retryable | unknown | exhausted =>
        rw [hstatus] at hactive
        cases hactive
  have hdeliveredBefore : (target.required && target.status == .delivered) = false := by
    cases hstatus : target.status with
    | leased | submitted => simp
    | pending | delivered | retryable | unknown | exhausted =>
        rw [hstatus] at hactive
        cases hactive
  have hpossible := Table.length_filter_replace (TargetRow.mayDeliver job.maxAttempts)
    (target.resolved .exhausted next observedAt) hnodup h.target_mem
  have hdelivered := Table.length_filter_replace
    (fun target : TargetRow => target.required && target.status == .delivered)
    (target.resolved .exhausted next observedAt) hnodup h.target_mem
  have hmayAfter : (target.resolved .exhausted next observedAt).mayDeliver job.maxAttempts =
      false := by
    simp [TargetRow.mayDeliver, TargetRow.resolved]
  have hdeliveredAfter : ((target.resolved .exhausted next observedAt).required &&
      (target.resolved .exhausted next observedAt).status == .delivered) = false := by
    simp [TargetRow.resolved]
  simp only [hmay, hmayAfter, Bool.toNat_true, Bool.toNat_false] at hpossible
  simp only [hdeliveredBefore, hdeliveredAfter] at hdelivered
  have hno_spare := hdecisive.no_spare
  unfold possibleRequired at hno_spare
  unfold deliveredRequired at hundelivered
  unfold Store.verdict
  rw [if_pos hopen, targetsOf_resolved]
  unfold terminalStatus deliveredRequired possibleRequired
  rw [if_neg (by simp only; omega), if_neg (by simp only; omega), if_neg]
  rw [List.any_eq_true]
  rintro ⟨other, hother, hends⟩
  rcases Table.mem_replace.mp hother with ⟨hmem, -⟩ | ⟨-, rfl⟩
  · simp only [hdecisive.none_unknown other hmem] at hends
    cases hends
  · simp [TargetRow.endsUnknown, TargetRow.resolved] at hends

/-- Failure evidence neither adds nor removes a lost acknowledgement. -/
theorem lostAcknowledgement_resolved {job' : JobRow} (hlive : attempt.status.isLive = true)
    (hid : job'.jobId = job.jobId) (hmax : job'.maxAttempts = job.maxAttempts) :
    LostAcknowledgement
      ((s.resolved target attempt .failed reason status next observedAt).finalized job observedAt)
      job' ↔ LostAcknowledgement s job := by
  have hunknown : ∀ jobId index,
      (∃ row ∈ Table.replace attempt (attempt.resolved .failed reason observedAt)
        (attemptsOf s jobId index), row.status = .unknown) ↔
      ∃ row ∈ attemptsOf s jobId index, row.status = .unknown := by
    intro jobId index
    constructor
    · rintro ⟨row, hrow, hstatus⟩
      rcases Table.mem_replace.mp hrow with ⟨hmem, -⟩ | ⟨-, rfl⟩
      · exact ⟨row, hmem, hstatus⟩
      · cases hstatus
    · rintro ⟨row, hrow, hstatus⟩
      refine ⟨row, Table.mem_replace.mpr (.inl ⟨hrow, ?_⟩), hstatus⟩
      rintro rfl
      rw [hstatus] at hlive
      cases hlive
  unfold LostAcknowledgement
  simp only [targetsOf_finalized, attemptsOf_finalized, targetsOf_resolved, attemptsOf_resolved,
    hunknown, hid, hmax]
  constructor
  · rintro ⟨row, hrow, hrequired, hspent, hlost⟩
    rcases Table.mem_replace.mp hrow with ⟨hmem, -⟩ | ⟨hmem, rfl⟩
    · exact ⟨row, hmem, hrequired, hspent, hlost⟩
    · exact ⟨target, hmem, hrequired, hspent, hlost⟩
  · rintro ⟨row, hrow, hrequired, hspent, hlost⟩
    by_cases heq : row = target
    · subst heq
      exact ⟨_, Table.mem_replace.mpr (.inr ⟨hrow, rfl⟩), hrequired, hspent, hlost⟩
    · exact ⟨row, Table.mem_replace.mpr (.inl ⟨hrow, heq⟩), hrequired, hspent, hlost⟩

/-- Whether a resolution relabels an unknown outcome. -/
theorem failureProven_resolved (inv : DeliveryInv s)
    (h : Resolves s job target attempt terminal reason jitter status next observedAt) :
    FailureProven s
      ((s.resolved target attempt terminal reason status next observedAt).finalized job
        observedAt) ↔
      ¬ (job.status.isOpen = true ∧ Decisive s job ∧ LostAcknowledgement s job ∧
        terminal = .failed ∧ target.required = true ∧
        target.attemptCount = job.maxAttempts) := by
  constructor
  · rintro hproven ⟨hopen, hdecisive, hlost, rfl, hrequired, hspent⟩
    have hverdict := h.fails inv hopen hdecisive hrequired hspent
    refine hproven job h.job_mem hopen (job.finalized .failed observedAt) ?_ rfl rfl
      ((lostAcknowledgement_resolved h.live rfl rfl).mpr hlost)
    unfold Store.finalized
    rw [hverdict]
    exact Table.mem_replace.mpr (.inr ⟨h.job_mem, rfl⟩)
  · intro hnot row hrow hopen job' hjob' hid hfailed hlost
    have hunique := inv.jobs_unique
    unfold Store.finalized at hjob'
    split at hjob'
    next verdict hverdict =>
      rcases Table.mem_replace.mp hjob' with ⟨hmem, -⟩ | ⟨-, rfl⟩
      · rw [hunique.eq_of_key_eq hmem hrow hid] at hfailed
        exact JobStatus.ne_failed_of_isOpen hopen hfailed
      · have hverdictFailed : verdict = .failed := hfailed
        subst hverdictFailed
        obtain ⟨hjobOpen, hdecisive, rfl, hrequired, hspent⟩ := h.of_failed inv hverdict
        exact hnot ⟨hjobOpen, hdecisive, (lostAcknowledgement_resolved h.live rfl rfl).mp hlost, rfl,
          hrequired, hspent⟩
    next =>
      rw [hunique.eq_of_key_eq hjob' hrow hid] at hfailed
      exact JobStatus.ne_failed_of_isOpen hopen hfailed

end Resolution

/-! ## Events -/

theorem OutcomeFits.evidence {attempt : AttemptRow} {outcome : AttemptOutcome}
    {observedAt : TimeUnixMs} (h : OutcomeFits attempt outcome observedAt)
    (hlive : attempt.status.isLive = true) :
    evidenceAllowed attempt.status outcome.status outcome.reason = true := by
  have hprior := h.prior
  cases outcome with
  | delivered | relayRejected | unknownAcknowledgement =>
      simp only [AttemptOutcome.requiredPrior] at hprior
      rw [hprior]
      rfl
  | transportFailed =>
      cases hstatus : attempt.status with
      | leased | submitted => rfl
      | delivered | failed | unknown => rw [hstatus] at hlive; cases hlive

theorem Resolves.times {s : Store} {job : JobRow} {target : TargetRow} {attempt : AttemptRow}
    {terminal : AttemptStatus} {reason : AttemptReason} {jitter : RetryJitter}
    {status : TargetStatus} {next : Option TimeUnixMs} {observedAt : TimeUnixMs}
    (h : Resolves s job target attempt terminal reason jitter status next observedAt)
    (hspent : target.attemptCount = job.maxAttempts)
    (hverdict : (s.resolved target attempt terminal reason status next observedAt).verdict job =
      some .failed) :
    jitter.get = 0 ∧ target.updatedAt ≤ observedAt ∧ job.updatedAt ≤ observedAt := by
  refine ⟨?_, ?_, ?_⟩
  · rcases h.jitter_used with hretry | hzero
    · exact absurd hretry.1 (by omega)
    · exact hzero
  · have hallowed := h.target_allowed
    simp only [targetUpdateAllowed, TargetRow.resolved, Bool.and_eq_true] at hallowed
    exact of_decide_eq_true hallowed.1.1.2
  · have hallowed := h.job_allowed .failed hverdict
    simp only [jobUpdateAllowed, JobRow.finalized, Bool.and_eq_true] at hallowed
    exact of_decide_eq_true hallowed.1.1.2

/-- A resolution by an event that does not relabel. -/
theorem Resolves.proven {s : Store} {job : JobRow} {target : TargetRow} {attempt : AttemptRow}
    {terminal : AttemptStatus} {reason : AttemptReason} {jitter : RetryJitter}
    {status : TargetStatus} {next : Option TimeUnixMs} {observedAt : TimeUnixMs}
    {event : DeliveryEvent} (inv : DeliveryInv s) (hnot : ¬ Relabels s event)
    (h : Resolves s job target attempt terminal reason jitter status next observedAt)
    (hevidence : terminal = .failed → jitter.get = 0 → target.updatedAt ≤ observedAt →
      job.updatedAt ≤ observedAt → FailureEvidence job target attempt event) :
    FailureProven s
      ((s.resolved target attempt terminal reason status next observedAt).finalized job
        observedAt) := by
  rw [failureProven_resolved inv h]
  rintro ⟨hopen, hdecisive, hlost, rfl, hrequired, hspent⟩
  have hverdict := h.fails inv hopen hdecisive hrequired hspent
  obtain ⟨hzero, htargetTime, hjobTime⟩ := h.times hspent hverdict
  exact hnot ⟨job, h.job_mem, hopen, hdecisive, hlost, target, h.target_mem, hrequired, hspent,
    attempt, h.attempt_mem, h.live, hevidence rfl hzero htargetTime hjobTime⟩

/-- The outcome of failure evidence for a target without attempts left. -/
theorem resolvedTarget_spent {job : JobRow} {target : TargetRow} {number : ℕ}
    {jitter : RetryJitter} {observedAt : TimeUnixMs} (h : target.attemptCount = job.maxAttempts) :
    resolvedTarget job target number .failed jitter observedAt = .ok (.exhausted, none) := by
  simp [resolvedTarget, h]

/-- A step meets the documented rule exactly when it is not a relabelling one. -/
theorem failureProven_iff {s : Store} (inv : DeliveryInv s) (event : DeliveryEvent) :
    FailureProven s (event.perform s) ↔ ¬ Relabels s event := by
  have wf := inv.toDeliveryWf
  have hsame : FailureProven s s := .of_jobs_eq wf rfl
  constructor
  · rintro hproven ⟨job, hjob, hopen, hdecisive, hlost, target, htarget, hrequired, hspent,
      attempt, hattempt, hlive, hevidence⟩
    cases event with
    | recordOutcome jobId relayId attemptId outcome jitter observedAt =>
        obtain ⟨⟨rfl, rfl, rfl⟩, hfailed, hfits, hzero, htargetTime, hjobTime⟩ := hevidence
        have hresolves := wf.resolves hjob htarget hattempt hlive (hfits.evidence hlive)
          hfits.leased htargetTime hjobTime (.inr hzero)
          (by rw [hfailed]; exact resolvedTarget_spent hspent)
        obtain ⟨record, hrun⟩ := run_recordOutcome wf hfits hresolves
        rw [DeliveryEvent.perform, Transaction.atomically_of_ok hrun,
          failureProven_resolved inv hresolves] at hproven
        exact hproven ⟨hopen, hdecisive, hlost, hfailed, hrequired, hspent⟩
    | recoverExpired jobId relayId attemptId jitter observedAt =>
        obtain ⟨⟨rfl, rfl, rfl⟩, hleased, hexpired, hzero, htargetTime, hjobTime⟩ := hevidence
        have hcheck := (wf.histories job hjob target htarget).checked attempt hattempt
        simp only [attemptCheck, Bool.and_eq_true, decide_eq_true_eq] at hcheck
        have hresolves : Resolves s job target attempt (expiredEvidence attempt.status).1
            (expiredEvidence attempt.status).2 jitter _ _ observedAt :=
          wf.resolves hjob htarget hattempt hlive
          (by rw [hleased]; rfl)
          (Nat.le_trans (Nat.le_of_lt hcheck.1.1.1.2) (Nat.le_of_lt hexpired)) htargetTime hjobTime
          (.inr hzero) (by rw [hleased]; exact resolvedTarget_spent hspent)
        obtain ⟨record, hrun⟩ := run_recoverExpired wf hexpired hresolves
        rw [DeliveryEvent.perform, Transaction.atomically_of_ok hrun,
          failureProven_resolved inv hresolves] at hproven
        exact hproven ⟨hopen, hdecisive, hlost, by rw [hleased]; rfl, hrequired, hspent⟩
    | createJob | claimTarget | markSubmitted | elsewhere => cases hevidence
  · intro hnot
    cases event with
    | createJob =>
        refine atomically_cases hsame fun h => ?_
        rcases createJob_eq_ok h with ⟨rfl, -⟩ | ⟨-, -, -, rfl, -⟩
        · exact .inl rfl
        · exact .inr (.created wf)
    | claimTarget =>
        refine atomically_cases hsame fun h => ?_
        rcases claimTarget_cases wf h with ⟨rfl, -⟩ | ⟨_, _, _, hclaims, rfl, -⟩
        · exact .inl rfl
        · exact .inr (.claimed wf hclaims)
    | markSubmitted =>
        refine atomically_cases hsame fun h => ?_
        rcases markSubmitted_cases wf h with ⟨rfl, -⟩ | ⟨_, _, _, -, -, rfl⟩
        · exact .inl rfl
        · exact .inr (.of_jobs_eq wf rfl)
    | recordOutcome jobId relayId attemptId outcome jitter observedAt =>
        refine atomically_cases hsame fun h => ?_
        rcases recordOutcome_cases wf h with ⟨rfl, -⟩ | ⟨job, target, attempt, status, next, rfl, rfl, rfl,
          hfits, hresolves, rfl⟩
        · exact .inl rfl
        · exact .inr (hresolves.proven inv hnot fun hfailed hzero htargetTime hjobTime =>
            ⟨⟨rfl, rfl, rfl⟩, hfailed, hfits, hzero, htargetTime, hjobTime⟩)
    | recoverExpired jobId relayId attemptId jitter observedAt =>
        refine atomically_cases hsame fun h => ?_
        rcases recoverExpired_cases wf h with ⟨rfl, -⟩ | ⟨job, target, attempt, status, next, rfl, rfl,
          rfl, hexpired, hresolves, rfl⟩
        · exact .inl rfl
        · refine .inr (hresolves.proven inv hnot fun hfailed hzero htargetTime hjobTime =>
            ⟨⟨rfl, rfl, rfl⟩, ?_, hexpired, hzero, htargetTime, hjobTime⟩)
          cases hstatus : attempt.status with
          | leased => rfl
          | submitted | delivered | failed | unknown => rw [hstatus] at hfailed; cases hfailed
    | elsewhere other => exact .of_jobs_eq wf rfl

/-! ## Runs -/

/-- Along every run that starts without delivery rows: each step that fails a job does so
with no unknown outcome among the required targets that have used all their attempts,
exactly when no step of the run relabels one. -/
theorem failures_proven_iff {s : Store} (h : NoDelivery s) (events : List DeliveryEvent) :
    Run.EveryStep DeliveryEvent.perform (fun s event => FailureProven s (event.perform s)) s
        events ↔
      Run.EveryStep DeliveryEvent.perform (fun s event => ¬ Relabels s event) s events :=
  Run.everyStep_congr (fun _ event inv => inv.perform event)
    (fun _ event inv => failureProven_iff inv event) h.inv

/-! ## What the sample runs are made of -/

theorem one_le_i64Max : 1 ≤ i64Max := by decide

/-- The instant after so many milliseconds. -/
def sampleTime (ms : ℕ) : TimeUnixMs := (TimeUnixMs.new ms).getD ⟨1, Nat.one_pos, one_le_i64Max⟩

theorem sampleTime_get {ms : ℕ} (hpos : 0 < ms) (hle : ms ≤ i64Max) : (sampleTime ms).get = ms := by
  rw [sampleTime, TimeUnixMs.new_of_le hpos hle]
  rfl

/-- The request identifier of one character. -/
def sampleId (char : Char) : RequestId :=
  if valid : requestIdValid [char] = true then ⟨[char], valid⟩ else ⟨['1'], by decide⟩

namespace LostAcknowledgement

def relay : RelayId := ⟨[97], by decide⟩

def noJitter : RetryJitter := ⟨0, by decide⟩

/-- One required relay and two attempts. -/
def policy : DeliveryPolicies where
  mode := .atLeastOneRequired
  requiredAcknowledgements := 1
  maxAttempts := 2
  initialBackoffMs := 1000
  maximumBackoffMs := 1000
  attemptDeadlineMs := 1000
  outboxMaximum := 16
  targets := [⟨relay, true⟩]
  valid := by decide

def metadata : PersistedMetadata := ⟨7, ⟨1⟩, ⟨2⟩, none⟩

def request : RequestRow where
  operationId := 1
  correlationId := 2
  operationNonce := 3
  requestIdentitySha256 := 4
  clientPublicKey := ⟨5⟩
  requestId := sampleId '1'
  firstEventId := 6
  method := .ping
  requestSha256 := 7
  receivedAt := sampleTime 1000

def source : Source := ⟨.signerResponse, 1⟩

/-- The first attempt is submitted and its acknowledgement lost, the second is rejected. -/
def run : List DeliveryEvent :=
  let jobId := deriveJobId source 9
  let first := deriveAttemptId jobId 0 1 11
  let second := deriveAttemptId jobId 0 2 12
  [.elsewhere { Store.initial metadata 1 with requests := [request] },
   .createJob source 9 (sampleTime 2000) policy,
   .claimTarget jobId relay 11 (sampleTime 3000),
   .markSubmitted jobId relay first (sampleTime 3100),
   .recordOutcome jobId relay first .unknownAcknowledgement noJitter (sampleTime 3200),
   .claimTarget jobId relay 12 (sampleTime 4000),
   .markSubmitted jobId relay second (sampleTime 4100),
   .recordOutcome jobId relay second .relayRejected noJitter (sampleTime 4200)]

end LostAcknowledgement

/-- A lost acknowledgement followed by a rejection ends as a failed job. -/
theorem lost_acknowledgement_relabelled :
    NoDelivery (Store.initial LostAcknowledgement.metadata 1) ∧
      ¬ Run.EveryStep DeliveryEvent.perform (fun s event => FailureProven s (event.perform s))
        (Store.initial LostAcknowledgement.metadata 1) LostAcknowledgement.run :=
  ⟨⟨rfl, rfl, rfl⟩, by decide +kernel⟩

/-- The same run without its last step relabels nothing. -/
theorem failures_proven_before_rejection :
    NoDelivery (Store.initial LostAcknowledgement.metadata 1) ∧
      Run.EveryStep DeliveryEvent.perform (fun s event => ¬ Relabels s event)
        (Store.initial LostAcknowledgement.metadata 1) LostAcknowledgement.run.dropLast :=
  ⟨⟨rfl, rfl, rfl⟩, (failures_proven_iff ⟨rfl, rfl, rfl⟩ _).mp (by decide +kernel)⟩

end MycSigner
