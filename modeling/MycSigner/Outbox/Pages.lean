import Mathlib.Algebra.Group.Defs
import MycSigner.Delivery.Finalization
import MycSigner.Outbox.Idle
import MycSigner.Outbox.Moves
import MycSigner.Outbox.Reconfiguration

/-!
# Recovery, page by page

The recovery of the delivery state reads the jobs it has to examine in pages of 128, and every
page is read after the earlier ones have changed their jobs.  Recovering a job changes no other
job's place on that list, so that the pages together are the list as it was at the start: every
job on it is recovered once, in the order of the ids, and the report adds up what was done for
each of them.
-/

namespace MycSigner

open Transaction

/-! ## Adding up reports -/

namespace RecoveryReport

instance : Zero RecoveryReport := ⟨.empty⟩

instance : Add RecoveryReport where
  add left right :=
    { examinedJobs := left.examinedJobs + right.examinedJobs
      recoveredExpiredAttempts := left.recoveredExpiredAttempts + right.recoveredExpiredAttempts
      finalizedJobs := left.finalizedJobs + right.finalizedJobs
      promotedDiscoveryGenerations :=
        left.promotedDiscoveryGenerations + right.promotedDiscoveryGenerations
      readyTargets := left.readyTargets + right.readyTargets
      scheduledTargets := left.scheduledTargets + right.scheduledTargets
      activeTargets := left.activeTargets + right.activeTargets }

theorem add_def (left right : RecoveryReport) : left + right =
    ⟨left.examinedJobs + right.examinedJobs,
      left.recoveredExpiredAttempts + right.recoveredExpiredAttempts,
      left.finalizedJobs + right.finalizedJobs,
      left.promotedDiscoveryGenerations + right.promotedDiscoveryGenerations,
      left.readyTargets + right.readyTargets, left.scheduledTargets + right.scheduledTargets,
      left.activeTargets + right.activeTargets⟩ := rfl

theorem zero_def : (0 : RecoveryReport) = ⟨0, 0, 0, 0, 0, 0, 0⟩ := rfl

instance : AddMonoid RecoveryReport where
  add_assoc first second third := by simp only [add_def, Nat.add_assoc]
  zero_add report := by simp only [add_def, zero_def, Nat.zero_add]
  add_zero report := by simp only [add_def, zero_def, Nat.add_zero]
  nsmul := nsmulRec

/-- No counter is above the bound. -/
structure AtMost (n : ℕ) (report : RecoveryReport) : Prop where
  examinedJobs : report.examinedJobs ≤ n
  recoveredExpiredAttempts : report.recoveredExpiredAttempts ≤ n
  finalizedJobs : report.finalizedJobs ≤ n
  promotedDiscoveryGenerations : report.promotedDiscoveryGenerations ≤ n
  readyTargets : report.readyTargets ≤ n
  scheduledTargets : report.scheduledTargets ≤ n
  activeTargets : report.activeTargets ≤ n

theorem AtMost.zero (n : ℕ) : AtMost n 0 := by
  constructor <;> exact Nat.zero_le n

theorem AtMost.add {m n : ℕ} {left right : RecoveryReport} (h : AtMost m left)
    (h' : AtMost n right) : AtMost (m + n) (left + right) where
  examinedJobs := Nat.add_le_add h.examinedJobs h'.examinedJobs
  recoveredExpiredAttempts :=
    Nat.add_le_add h.recoveredExpiredAttempts h'.recoveredExpiredAttempts
  finalizedJobs := Nat.add_le_add h.finalizedJobs h'.finalizedJobs
  promotedDiscoveryGenerations :=
    Nat.add_le_add h.promotedDiscoveryGenerations h'.promotedDiscoveryGenerations
  readyTargets := Nat.add_le_add h.readyTargets h'.readyTargets
  scheduledTargets := Nat.add_le_add h.scheduledTargets h'.scheduledTargets
  activeTargets := Nat.add_le_add h.activeTargets h'.activeTargets

/-- Reports whose sum stays below the limit of the counters can be merged. -/
theorem AtMost.merge_eq {n : ℕ} {left right : RecoveryReport} (h : AtMost n (left + right))
    (hn : n < 2 ^ 32) : left.merge right = .ok (left + right) := by
  have hadd : ∀ {a b : ℕ}, a + b ≤ n → addCounters a b = .ok (a + b) :=
    fun hle => if_pos (Nat.lt_of_le_of_lt hle hn)
  simp only [merge, hadd h.examinedJobs, hadd h.recoveredExpiredAttempts, hadd h.finalizedJobs,
    hadd h.promotedDiscoveryGenerations, hadd h.readyTargets, hadd h.scheduledTargets,
    hadd h.activeTargets]
  rfl

end RecoveryReport

theorem increment_eq_ok {value next : ℕ} (h : increment value = .ok next) : next = value + 1 := by
  unfold increment at h
  split at h
  next => exact (Except.ok.inj h).symm
  next => cases h

/-! ## What is counted -/

/-- The leases of a job that ended before a time. -/
def expiredLeases (s : Store) (jobId : Id32) (observedAt : TimeUnixMs) : List AttemptRow :=
  s.attempts.filter fun attempt => attempt.jobId = jobId ∧ attempt.status.isLive = true ∧
    attempt.leaseExpiresAt < observedAt

/-- A target that a claim may lease at once. -/
def TargetRow.waitsReady (observedAt : TimeUnixMs) (target : TargetRow) : Bool :=
  target.status == .pending || ((target.status == .retryable || target.status == .unknown) &&
    target.nextAttemptAt.any fun next => decide (next ≤ observedAt))

/-- A target whose next attempt lies ahead. -/
def TargetRow.waitsScheduled (observedAt : TimeUnixMs) (target : TargetRow) : Bool :=
  (target.status == .retryable || target.status == .unknown) &&
    target.nextAttemptAt.any fun next => decide (observedAt < next)

/-- What the recovery of one job counts, told from the stores before and after it. -/
def jobCounts (observedAt : TimeUnixMs) (jobId : Id32) (s s' : Store) : RecoveryReport where
  examinedJobs := 1
  recoveredExpiredAttempts := (expiredLeases s jobId observedAt).length
  finalizedJobs :=
    if (∃ job ∈ s.jobs, job.jobId = jobId ∧ job.status.isOpen = true) ∧
        ∃ job ∈ s'.jobs, job.jobId = jobId ∧ job.status.isTerminal = true then 1 else 0
  promotedDiscoveryGenerations :=
    if (∃ job ∈ s'.jobs, job.jobId = jobId ∧ job.status = .delivered ∧
          job.sourceKind = .discoveryHandler) ∧
        ∃ state ∈ s'.publicationState, state.desiredJobId = jobId then 1 else 0
  readyTargets := (targetsOf s' jobId).countP (TargetRow.waitsReady observedAt)
  scheduledTargets := (targetsOf s' jobId).countP (TargetRow.waitsScheduled observedAt)
  activeTargets := (targetsOf s' jobId).countP fun target => target.status.isActive

/-- Jobs recovered one after the other, with the sum of what was counted. -/
inductive RecoversJobs (codec : EventCodec) (policy : Option DiscoveryPolicies) (entropy : Id32)
    (observedAt : TimeUnixMs) : List Id32 → Store → Store → RecoveryReport → Prop where
  | nil {s : Store} : RecoversJobs codec policy entropy observedAt [] s s 0
  | cons {jobId : Id32} {rest : List Id32} {s s₁ s' : Store}
      {before after total : RecoveryReport}
      (head : (recoverJob codec policy entropy observedAt before jobId).run s = .ok (after, s₁))
      (tail : RecoversJobs codec policy entropy observedAt rest s₁ s' total) :
      RecoversJobs codec policy entropy observedAt (jobId :: rest) s s'
        (jobCounts observedAt jobId s s₁ + total)

section

variable {codec : EventCodec} {policy : Option DiscoveryPolicies} {entropy : Id32}
  {observedAt : TimeUnixMs} {s s' s'' : Store}

theorem RecoversJobs.append {first second : List Id32} {left right : RecoveryReport}
    (h : RecoversJobs codec policy entropy observedAt first s s' left)
    (h' : RecoversJobs codec policy entropy observedAt second s' s'' right) :
    RecoversJobs codec policy entropy observedAt (first ++ second) s s'' (left + right) := by
  induction h with
  | nil => simpa using h'
  | cons head tail ih =>
      rw [add_assoc]
      exact .cons head (ih h')

/-! ## The targets of a job -/

/-- The counters of waiting and active targets. -/
def targetCounts (observedAt : TimeUnixMs) (targets : List TargetRow) : RecoveryReport where
  examinedJobs := 0
  recoveredExpiredAttempts := 0
  finalizedJobs := 0
  promotedDiscoveryGenerations := 0
  readyTargets := targets.countP (TargetRow.waitsReady observedAt)
  scheduledTargets := targets.countP (TargetRow.waitsScheduled observedAt)
  activeTargets := targets.countP fun target => target.status.isActive

theorem classifyTarget_eq {target : TargetRow} {report result : RecoveryReport}
    (h : classifyTarget observedAt report target = .ok result) :
    result = report + targetCounts observedAt [target] := by
  unfold classifyTarget at h
  cases hstatus : target.status with
  | pending =>
      rw [hstatus] at h
      obtain ⟨ready, hready, h⟩ := Except.bind_eq_ok_iff.mp h
      obtain rfl := Except.ok.inj h
      simp [increment_eq_ok hready, RecoveryReport.add_def, targetCounts, TargetRow.waitsReady,
        TargetRow.waitsScheduled, hstatus, TargetStatus.isActive]
  | retryable | unknown =>
      rw [hstatus] at h
      cases hnext : target.nextAttemptAt with
      | none =>
          rw [hnext] at h
          obtain rfl := Except.ok.inj h
          simp [RecoveryReport.add_def, targetCounts, TargetRow.waitsReady,
            TargetRow.waitsScheduled, hstatus, hnext, TargetStatus.isActive]
      | some next =>
          rw [hnext] at h
          dsimp only at h
          split at h
          next hlate =>
            obtain ⟨scheduled, hscheduled, h⟩ := Except.bind_eq_ok_iff.mp h
            obtain rfl := Except.ok.inj h
            have hnot : ¬ next ≤ observedAt := Nat.not_le.mpr hlate
            simp [increment_eq_ok hscheduled, RecoveryReport.add_def, targetCounts,
              TargetRow.waitsReady, TargetRow.waitsScheduled, hstatus, hnext,
              TargetStatus.isActive, hlate, hnot]
          next hdue =>
            obtain ⟨ready, hready, h⟩ := Except.bind_eq_ok_iff.mp h
            obtain rfl := Except.ok.inj h
            have hle : next ≤ observedAt := Nat.le_of_not_lt hdue
            simp [increment_eq_ok hready, RecoveryReport.add_def, targetCounts,
              TargetRow.waitsReady, TargetRow.waitsScheduled, hstatus, hnext,
              TargetStatus.isActive, hdue, hle]
  | leased | submitted =>
      rw [hstatus] at h
      obtain ⟨active, hactive, h⟩ := Except.bind_eq_ok_iff.mp h
      obtain rfl := Except.ok.inj h
      simp [increment_eq_ok hactive, RecoveryReport.add_def, targetCounts, TargetRow.waitsReady,
        TargetRow.waitsScheduled, hstatus, TargetStatus.isActive]
  | delivered | exhausted =>
      rw [hstatus] at h
      obtain rfl := Except.ok.inj h
      simp [RecoveryReport.add_def, targetCounts, TargetRow.waitsReady,
        TargetRow.waitsScheduled, hstatus, TargetStatus.isActive]

theorem classifyTargets_eq {targets : List TargetRow} {report result : RecoveryReport}
    (h : targets.foldlM (classifyTarget observedAt) report = .ok result) :
    result = report + targetCounts observedAt targets := by
  induction targets generalizing report with
  | nil =>
      obtain rfl := Except.ok.inj h
      exact (add_zero report).symm
  | cons target targets ih =>
      obtain ⟨next, hnext, hrest⟩ := Except.bind_eq_ok_iff.mp h
      rw [ih hrest, classifyTarget_eq hnext, add_assoc]
      simp [RecoveryReport.add_def, targetCounts, List.countP_cons, Nat.add_comm]

/-! ## The walk over the targets -/

theorem mem_expiredLeases {jobId : Id32} {attempt : AttemptRow} :
    attempt ∈ expiredLeases s jobId observedAt ↔ attempt ∈ s.attempts ∧ attempt.jobId = jobId ∧
      attempt.status.isLive = true ∧ attempt.leaseExpiresAt < observedAt := by
  simp [expiredLeases]

/-- The attempt that a target names is live. -/
theorem DeliveryWf.live_of_active (wf : DeliveryWf s) {job : JobRow} {target : TargetRow}
    {attemptId : Id32} (hjob : job ∈ s.jobs) (htarget : target ∈ targetsOf s job.jobId)
    (hactive : target.activeAttemptId = some attemptId) :
    ∃ attempt, (attemptsOf s job.jobId target.targetIndex).getLast? = some attempt ∧
      attempt.attemptId = attemptId ∧ attempt.status.isLive = true := by
  have hlast := (wf.histories job hjob target htarget).last
  have hstatus : target.status.isActive = true := by
    unfold LastOk at hlast
    cases hcase : target.status with
    | leased | submitted => rfl
    | pending =>
        rw [hcase] at hlast
        exact absurd (hactive.symm.trans hlast.2.1) (by simp)
    | delivered | retryable | unknown | exhausted =>
        rw [hcase] at hlast
        obtain ⟨-, -, -, hfree, -⟩ := hlast
        exact absurd (hactive.symm.trans hfree) (by simp)
  obtain ⟨attempt, hattempt, htargetStatus, hid⟩ := hlast.of_active hstatus
  exact ⟨attempt, hattempt, Option.some.inj (hid.symm.trans hactive),
    AttemptStatus.isLive_of_asTarget htargetStatus⟩

/-- The report of recovered attempts. -/
def recoveredAttempts (n : ℕ) : RecoveryReport := { (0 : RecoveryReport) with
  recoveredExpiredAttempts := n }

/-- Recovering one lease leaves the other expired leases of the job. -/
theorem Resolves.expiredLeases_length {job : JobRow} {target : TargetRow} {attempt : AttemptRow}
    {terminal : AttemptStatus} {reason : AttemptReason} {jitter : RetryJitter}
    {status : TargetStatus} {next : Option TimeUnixMs} (wf : DeliveryWf s)
    (h : Resolves s job target attempt terminal reason jitter status next observedAt)
    (hexpired : attempt ∈ expiredLeases s job.jobId observedAt) :
    (expiredLeases ((s.resolved target attempt terminal reason status next observedAt).finalized job
      observedAt) job.jobId observedAt).length + 1 =
        (expiredLeases s job.jobId observedAt).length := by
  obtain ⟨hstored, hmatches⟩ := mem_expiredLeases.mp hexpired
  have hcount := Table.length_filter_replace
    (fun row : AttemptRow => decide (row.jobId = job.jobId ∧ row.status.isLive = true ∧
      row.leaseExpiresAt < observedAt)) (attempt.resolved terminal reason observedAt)
    wf.attempts_unique.nodup hstored
  have hsettled : ¬ (attempt.resolved terminal reason observedAt).status.isLive = true := by
    rw [show (attempt.resolved terminal reason observedAt).status = terminal from rfl,
      resolvedTarget_settles h.outcome]
    exact Bool.false_ne_true
  rw [decide_eq_true hmatches, decide_eq_false fun hnew => hsettled hnew.2.1] at hcount
  unfold expiredLeases
  rw [attempts_finalized]
  exact hcount

theorem Resolves.mem_expiredLeases {job : JobRow} {target : TargetRow} {attempt row : AttemptRow}
    {terminal : AttemptStatus} {reason : AttemptReason} {jitter : RetryJitter}
    {status : TargetStatus} {next : Option TimeUnixMs} {jobId : Id32} (wf : DeliveryWf s)
    (h : Resolves s job target attempt terminal reason jitter status next observedAt)
    (hrow : row ∈ expiredLeases
      ((s.resolved target attempt terminal reason status next observedAt).finalized job observedAt)
      jobId observedAt) :
    row ∈ expiredLeases s jobId observedAt ∧ row.attemptId ≠ attempt.attemptId := by
  obtain ⟨hstored, hjobId, hlive, hexpired⟩ := MycSigner.mem_expiredLeases.mp hrow
  rw [attempts_finalized] at hstored
  rcases Table.mem_replace.mp hstored with ⟨hmem, hne⟩ | ⟨-, rfl⟩
  · refine ⟨MycSigner.mem_expiredLeases.mpr ⟨hmem, hjobId, hlive, hexpired⟩, fun hsame => hne ?_⟩
    exact wf.attempts_unique.eq_of_key_eq hmem (mem_attemptsOf.mp h.attempt_mem).1 hsame
  · rw [show (attempt.resolved terminal reason observedAt).status = terminal from rfl,
      resolvedTarget_settles h.outcome] at hlive
    cases hlive

/-- One target of the walk: it holds no expired lease and nothing changes, or its lease is
resolved and counted. -/
theorem recoverTarget_counts {before : JobRecord} {job : JobRow} {target : TargetRow}
    {progress result : JobRecord × RecoveryReport} (inv : DeliveryInv s) (hjob : job ∈ s.jobs)
    (hid : before.jobId = job.jobId) (htarget : target ∈ targetsOf s job.jobId)
    (h : (recoverTarget entropy observedAt before progress target).run s = .ok (result, s')) :
    (s' = s ∧ result.2 = progress.2 ∧ ∀ attempt ∈ expiredLeases s job.jobId observedAt,
      target.activeAttemptId ≠ some attempt.attemptId) ∨
    ∃ attempt jitter status next, attempt ∈ expiredLeases s job.jobId observedAt ∧
      Resolves s job target attempt (expiredEvidence attempt.status).1
        (expiredEvidence attempt.status).2 jitter status next observedAt ∧
      s' = (s.resolved target attempt (expiredEvidence attempt.status).1
        (expiredEvidence attempt.status).2 status next observedAt).finalized job observedAt ∧
      result.2 = progress.2 + recoveredAttempts 1 := by
  have wf := inv.toDeliveryWf
  unfold recoverTarget at h
  cases hactive : target.activeAttemptId with
  | none =>
      rw [hactive] at h
      obtain ⟨rfl, rfl⟩ := run_pure_eq_ok.mp h
      exact .inl ⟨rfl, rfl, by simp⟩
  | some attemptId =>
      rw [hactive, hid] at h
      obtain ⟨attempts, hattempts, h⟩ := run_query_bind_eq_ok.mp h
      rw [wf.readAttempts_eq hjob htarget] at hattempts
      obtain rfl := Except.ok.inj hattempts
      obtain ⟨current, hcurrent, hrecover⟩ := run_orFail_bind_eq_ok.mp h
      obtain ⟨last, hlast, rfl, hlive⟩ := wf.live_of_active hjob htarget hactive
      obtain rfl : last = current :=
        Option.some.inj (hlast.symm.trans (Option.filter_eq_some_iff.mp hcurrent).1)
      have hstored := mem_attemptsOf.mp (List.mem_of_getLast? hlast)
      split at hrecover
      next hexpired =>
        obtain ⟨jitter, -, hrecover⟩ := run_query_bind_eq_ok.mp hrecover
        obtain ⟨record, s₁, hexpire, hcount⟩ := run_bind_eq_ok.mp hrecover
        obtain ⟨recovered, hincrement, hcount⟩ := run_query_bind_eq_ok.mp hcount
        obtain ⟨rfl, rfl⟩ := run_pure_eq_ok.mp hcount
        rcases recoverExpired_cases wf hexpire with ⟨-, row, hrow, hrowId, hsettled⟩ |
          ⟨job', target', attempt', status, next, hjobId, hrelay, hattemptId, -, hresolves, rfl⟩
        · obtain rfl := wf.attempts_unique.eq_of_key_eq hrow hstored.1 hrowId
          rw [hlive] at hsettled
          cases hsettled
        · obtain rfl := wf.jobs_unique.eq_of_key_eq hresolves.job_mem hjob hjobId
          obtain rfl := wf.attempts_unique.eq_of_key_eq
            (mem_attemptsOf.mp hresolves.attempt_mem).1 hstored.1 hattemptId
          obtain ⟨hmem', hjob'⟩ := mem_targetsOf.mp hresolves.target_mem
          obtain ⟨hmem, hjob⟩ := mem_targetsOf.mp htarget
          obtain rfl := wf.relays_unique.eq_of_key_eq hmem' hmem
            (Prod.ext (hjob'.trans hjob.symm) hrelay)
          refine .inr ⟨attempt', jitter, status, next,
            mem_expiredLeases.mpr ⟨hstored.1, hstored.2.1, hlive, hexpired⟩, hresolves, rfl, ?_⟩
          simp [increment_eq_ok hincrement, recoveredAttempts, RecoveryReport.add_def,
            RecoveryReport.zero_def]
      next hunexpired =>
        obtain ⟨rfl, rfl⟩ := run_pure_eq_ok.mp hrecover
        refine .inl ⟨rfl, rfl, fun attempt hattempt hsame => hunexpired ?_⟩
        obtain ⟨hmem, -, -, hexpired⟩ := mem_expiredLeases.mp hattempt
        obtain rfl := wf.attempts_unique.eq_of_key_eq hstored.1 hmem (Option.some.inj hsame)
        exact hexpired

/-- The walk over the targets recovers every expired lease of the job and counts them. -/
theorem recoverTargets_counts {before : JobRecord} {targets : List TargetRow}
    {progress result : JobRecord × RecoveryReport} (inv : DeliveryInv s)
    (hjob : ∃ job ∈ s.jobs, job.jobId = before.jobId) (hnodup : targets.Nodup)
    (htargets : ∀ target ∈ targets, target ∈ targetsOf s before.jobId)
    (hleases : ∀ attempt ∈ expiredLeases s before.jobId observedAt,
      ∃ target ∈ targets, target.activeAttemptId = some attempt.attemptId)
    (h : (targets.foldlM (recoverTarget entropy observedAt before) progress).run s =
      .ok (result, s')) :
    DeliveryInv s' ∧
      (∃ job ∈ s'.jobs, job.jobId = before.jobId) ∧
      (expiredLeases s before.jobId observedAt).length ≤ targets.length ∧
      result.2 = progress.2 +
        recoveredAttempts (expiredLeases s before.jobId observedAt).length := by
  induction targets generalizing s progress with
  | nil =>
      obtain ⟨rfl, rfl⟩ := run_pure_eq_ok.mp h
      have hnone : expiredLeases s before.jobId observedAt = [] := by
        rw [List.eq_nil_iff_forall_not_mem]
        intro attempt hattempt
        obtain ⟨target, htarget, -⟩ := hleases attempt hattempt
        cases htarget
      rw [hnone]
      exact ⟨inv, hjob, Nat.le_refl _, (add_zero _).symm⟩
  | cons target targets ih =>
      obtain ⟨job, hjobMem, hid⟩ := hjob
      obtain ⟨hfresh, hnodup⟩ := List.nodup_cons.mp hnodup
      obtain ⟨htarget, htargets⟩ := List.forall_mem_cons.mp htargets
      obtain ⟨next, s₁, hstep, hrest⟩ := run_bind_eq_ok.mp h
      rw [← hid] at htarget hleases
      rcases recoverTarget_counts inv hjobMem hid.symm htarget hstep with
        ⟨rfl, hreport, hunexpired⟩ | ⟨attempt, jitter, status, due, hexpired, hresolves, rfl, hreport⟩
      · -- the target holds no expired lease
        have hleft : ∀ attempt ∈ expiredLeases s₁ before.jobId observedAt,
            ∃ row ∈ targets, row.activeAttemptId = some attempt.attemptId := by
          rw [← hid]
          intro attempt hattempt
          obtain ⟨row, hrow, hactive⟩ := hleases attempt hattempt
          rcases List.mem_cons.mp hrow with rfl | hmem
          · exact absurd hactive (hunexpired attempt hattempt)
          · exact ⟨row, hmem, hactive⟩
        obtain ⟨inv', hstill, hle, hresult⟩ :=
          ih inv ⟨job, hjobMem, hid⟩ hnodup htargets hleft hrest
        exact ⟨inv', hstill, Nat.le_succ_of_le hle, by rw [hresult, hreport]⟩
      · have wf := inv.toDeliveryWf
        have hcount := hresolves.expiredLeases_length wf hexpired
        rw [hid] at hcount
        have hstill : ∃ row ∈ ((s.resolved target attempt (expiredEvidence attempt.status).1
            (expiredEvidence attempt.status).2 status due observedAt).finalized job
              observedAt).jobs, row.jobId = before.jobId := by
          unfold Store.finalized
          split
          next verdict _ =>
            exact ⟨job.finalized verdict observedAt, Table.mem_replace.mpr (.inr ⟨hjobMem, rfl⟩), hid⟩
          next => exact ⟨job, hjobMem, hid⟩
        have hothers : ∀ row ∈ targets, row ∈ targetsOf ((s.resolved target attempt
            (expiredEvidence attempt.status).1 (expiredEvidence attempt.status).2 status due
            observedAt).finalized job observedAt) before.jobId := by
          intro row hrow
          rw [targetsOf_finalized, targetsOf_resolved]
          exact Table.mem_replace.mpr (.inl ⟨htargets row hrow, fun heq => hfresh (heq ▸ hrow)⟩)
        have hleft : ∀ row ∈ expiredLeases ((s.resolved target attempt
            (expiredEvidence attempt.status).1 (expiredEvidence attempt.status).2 status due
            observedAt).finalized job observedAt) before.jobId observedAt,
            ∃ other ∈ targets, other.activeAttemptId = some row.attemptId := by
          intro row hrow
          obtain ⟨hold, hne⟩ := hresolves.mem_expiredLeases wf hrow
          obtain ⟨other, hother, hactive⟩ := hleases row (hid ▸ hold)
          rcases List.mem_cons.mp hother with rfl | hmem
          · exact absurd (Option.some.inj (hactive.symm.trans (hresolves.active wf).2)) hne
          · exact ⟨other, hmem, hactive⟩
        obtain ⟨inv', hjob', hle, hresult⟩ :=
          ih (inv.step (.resolve hresolves)) hstill hnodup hothers hleft hrest
        refine ⟨inv', hjob', ?_, ?_⟩
        · rw [← hcount]
          exact Nat.succ_le_succ hle
        · rw [hresult, hreport, ← hcount]
          simp only [recoveredAttempts, RecoveryReport.add_def, RecoveryReport.zero_def, Nat.add_zero]
          rw [Nat.add_assoc, Nat.add_comm 1]

/-- Recovery promotes the delivered generation that is desired and counts it. -/
theorem promoteRecovered_cases {current : JobRecord} {report result : RecoveryReport}
    (h : (promoteRecovered observedAt current report).run s = .ok (result, s')) :
    (s' = s ∧ result = report ∧ ¬ (current.status = .delivered ∧
        current.sourceKind = .discoveryHandler ∧
        ∃ state ∈ s.publicationState, state.desiredJobId = current.jobId)) ∨
      ∃ state, Promotes s state current.jobId observedAt ∧
        (s' = s ∨ s' = { s with publicationState := some (state.promoted observedAt) }) ∧
        current.status = .delivered ∧ current.sourceKind = .discoveryHandler ∧
        result = report + { (0 : RecoveryReport) with promotedDiscoveryGenerations := 1 } := by
  unfold promoteRecovered at h
  split at h
  next hready =>
    obtain ⟨promoted, s₁, hpromote, hcount⟩ := run_bind_eq_ok.mp h
    obtain ⟨state, hpointer, ⟨rfl, rfl, hdesired⟩ | ⟨rfl, hcurrent⟩⟩ :=
      promoteCurrentIfDesired_cases hpromote
    · obtain ⟨rfl, rfl⟩ := run_pure_eq_ok.mp hcount
      refine .inl ⟨rfl, rfl, ?_⟩
      rintro ⟨-, -, state', hmem, hid⟩
      rw [hpointer, Option.mem_some_iff] at hmem
      exact hdesired (hmem ▸ hid)
    · rw [if_pos rfl] at hcount
      obtain ⟨counted, hincrement, hpure⟩ := run_query_bind_eq_ok.mp hcount
      obtain ⟨rfl, rfl⟩ := run_pure_eq_ok.mp hpure
      obtain ⟨state', hpromotes, hcases⟩ := promoteCurrent_cases hcurrent
      refine .inr ⟨state', hpromotes, hcases.imp_left And.left, hready.1, hready.2, ?_⟩
      simp [increment_eq_ok hincrement, RecoveryReport.add_def, RecoveryReport.zero_def]
  next hready =>
    obtain ⟨rfl, rfl⟩ := run_pure_eq_ok.mp h
    exact .inl ⟨rfl, rfl, fun hthree => hready ⟨hthree.1, hthree.2.1⟩⟩

/-! ## One job -/

/-- The jobs with the id of a stored job are that job. -/
theorem DeliveryWf.exists_job_iff (wf : DeliveryWf s) {job : JobRow} (hjob : job ∈ s.jobs)
    {p : JobRow → Prop} : (∃ row ∈ s.jobs, row.jobId = job.jobId ∧ p row) ↔ p job := by
  constructor
  · rintro ⟨row, hrow, hid, hp⟩
    obtain rfl := wf.jobs_unique.eq_of_key_eq hrow hjob hid
    exact hp
  · exact fun hp => ⟨job, hjob, rfl, hp⟩

theorem readJob_of_finalizeJobIfTerminal {jobId : Id32} {record : JobRecord}
    (h : (finalizeJobIfTerminal jobId observedAt).run s = .ok (record, s')) :
    readJob s' jobId = .ok (some record) := by
  unfold finalizeJobIfTerminal at h
  obtain ⟨_, -, h₁⟩ := run_query_bind_eq_ok.mp h
  obtain ⟨_, -, h₂⟩ := run_orFail_bind_eq_ok.mp h₁
  have hread : ∀ {s₁ : Store}, (do
      let job ← query (readJob · jobId)
      orFail job .binding : Tx JobRecord).run s₁ = .ok (record, s') →
      readJob s' jobId = .ok (some record) := by
    intro s₁ hlast
    obtain ⟨stored, hstored, hsome⟩ := run_query_bind_eq_ok.mp hlast
    obtain ⟨rfl, rfl⟩ := run_orFail_eq_ok.mp hsome
    exact hstored
  dsimp only at h₂
  split at h₂
  next =>
    obtain ⟨_, s₁, -, h₃⟩ := run_bind_eq_ok.mp h₂
    obtain ⟨_, s₂, -, h₄⟩ := run_bind_eq_ok.mp h₃
    exact hread h₄
  next => exact hread h₂

theorem DeliveryWf.countP_le {p : TargetRow → Bool} {jobId : Id32} (wf : DeliveryWf s)
    (hjob : ∃ job ∈ s.jobs, job.jobId = jobId) : (targetsOf s jobId).countP p ≤ 32 := by
  obtain ⟨job, hjob, rfl⟩ := hjob
  exact Nat.le_trans (List.countP_le_length) (wf.targets_bounded job hjob)

/-- The recovery of a job adds its counts to the report. -/
theorem recoverJob_counts {report result : RecoveryReport} {jobId : Id32} (inv : DeliveryInv s)
    (h : (recoverJob codec policy entropy observedAt report jobId).run s = .ok (result, s')) :
    DeliveryInv s' ∧ (jobCounts observedAt jobId s s').AtMost 32 ∧
      result = report + jobCounts observedAt jobId s s' := by
  have wf := inv.toDeliveryWf
  unfold recoverJob at h
  obtain ⟨before?, hbefore, h₁⟩ := run_query_bind_eq_ok.mp h
  obtain ⟨before, rfl, h₂⟩ := run_orFail_bind_eq_ok.mp h₁
  obtain ⟨_, -, h₃⟩ := run_query_bind_eq_ok.mp h₂
  obtain ⟨_, -, h₄⟩ := run_query_bind_eq_ok.mp h₃
  obtain ⟨⟨_, report₁⟩, s₁, hwalk, h₅⟩ := run_bind_eq_ok.mp h₄
  obtain ⟨hrow, rfl, htargets⟩ := wf.of_readJob hbefore
  have hleases : ∀ attempt ∈ expiredLeases s before.jobId observedAt,
      ∃ target ∈ before.targets, target.activeAttemptId = some attempt.attemptId := by
    intro attempt hattempt
    obtain ⟨hstored, hid, hlive, -⟩ := mem_expiredLeases.mp hattempt
    obtain ⟨target, htarget, -, -, hactive⟩ := wf.target_of_live hrow hid.symm hstored hlive
    exact ⟨target, htargets ▸ htarget, hactive⟩
  obtain ⟨inv₁, -, hlength, hreport₁⟩ :=
    recoverTargets_counts inv ⟨_, hrow, rfl⟩ (htargets ▸ wf.targetsOf_nodup _)
      (fun target htarget => htargets ▸ htarget) hleases hwalk
  replace hreport₁ : report₁ = report + recoveredAttempts _ := hreport₁
  obtain ⟨current, s₂, hfinalize, h₆⟩ := run_bind_eq_ok.mp h₅
  obtain rfl := finalizeJobIfTerminal_same inv₁ hfinalize
  obtain ⟨hcurrent, hcurrentId, -⟩ :=
    inv₁.toDeliveryWf.of_readJob (readJob_of_finalizeJobIfTerminal hfinalize)
  obtain ⟨finalized, hfinalized, h₇⟩ := run_query_bind_eq_ok.mp h₆
  obtain ⟨report₂, s₃, hpromote, h₈⟩ := run_bind_eq_ok.mp h₇
  obtain ⟨verified?, hverified, h₉⟩ := run_query_bind_eq_ok.mp h₈
  obtain ⟨verified, rfl, h₁₀⟩ := run_orFail_bind_eq_ok.mp h₉
  obtain ⟨_, -, h₁₁⟩ := run_query_bind_eq_ok.mp h₁₀
  obtain ⟨report₃, hclassify, h₁₂⟩ := run_query_bind_eq_ok.mp h₁₁
  obtain ⟨examined, hexamined, h₁₃⟩ := run_query_bind_eq_ok.mp h₁₂
  obtain ⟨rfl, rfl⟩ := run_pure_eq_ok.mp h₁₃
  obtain ⟨hjobs, hrows, hattempts⟩ :=
    delivery_of_withoutDiscovery (promoteRecovered_keeps_others _ _ _ hpromote)
  have inv₃ : DeliveryInv s₃ := inv₁.congr hjobs hrows hattempts
  have wf' := inv₃.toDeliveryWf
  rw [hcurrentId] at hverified
  obtain ⟨-, -, hverifiedTargets⟩ := wf'.of_readJob hverified
  have hcurrent₁ : current.toJobRow ∈ s₃.jobs := hjobs ▸ hcurrent
  have hfinalizedCount : finalized = report₁.finalizedJobs +
      (jobCounts observedAt before.jobId s s₃).finalizedJobs := by
    have hopen := wf.exists_job_iff hrow (p := fun job => job.status.isOpen = true)
    have hterminal := wf'.exists_job_iff hcurrent₁ (p := fun job => job.status.isTerminal = true)
    rw [hcurrentId] at hterminal
    simp only [jobCounts, hopen, hterminal]
    by_cases hboth : before.status.isOpen = true ∧ current.status.isTerminal = true
    · rw [if_pos (by rw [hboth.1, hboth.2]; rfl)] at hfinalized
      rw [if_pos hboth, increment_eq_ok hfinalized]
    · rw [if_neg (by rwa [Bool.and_eq_true])] at hfinalized
      rw [if_neg hboth, ← Except.ok.inj hfinalized, Nat.add_zero]
  have hpromotedCount : report₂ = { report₁ with finalizedJobs := finalized } +
      { (0 : RecoveryReport) with promotedDiscoveryGenerations :=
        (jobCounts observedAt before.jobId s s₃).promotedDiscoveryGenerations } := by
    have hdelivered := wf'.exists_job_iff hcurrent₁ (p := fun job => job.status = .delivered ∧
      job.sourceKind = .discoveryHandler)
    rw [hcurrentId] at hdelivered
    simp only [jobCounts, hdelivered]
    rcases promoteRecovered_cases hpromote with ⟨rfl, rfl, hnot⟩ |
      ⟨state, hpromotes, hcases, hstatus, hkind, rfl⟩
    · rw [hcurrentId] at hnot
      rw [if_neg fun hboth => hnot ⟨hboth.1.1, hboth.1.2, hboth.2⟩]
      exact (add_zero _).symm
    · have hpointer : ∃ state' ∈ s₃.publicationState, state'.desiredJobId = before.jobId := by
        have hdesired := hpromotes.desired.trans hcurrentId
        rcases hcases with rfl | rfl
        · exact ⟨state, hpromotes.pointer, hdesired⟩
        · exact ⟨state.promoted observedAt, rfl, hdesired⟩
      rw [if_pos ⟨⟨hstatus, hkind⟩, hpointer⟩]
  refine ⟨inv₃, ⟨Nat.le_add_left 1 31, ?_, ?_, ?_, ?_, ?_, ?_⟩, ?_⟩
  · exact Nat.le_trans hlength (htargets ▸ wf.targets_bounded _ hrow)
  · simp only [jobCounts]
    split <;> omega
  · simp only [jobCounts]
    split <;> omega
  · exact wf'.countP_le ⟨_, hcurrent₁, hcurrentId⟩
  · exact wf'.countP_le ⟨_, hcurrent₁, hcurrentId⟩
  · exact wf'.countP_le ⟨_, hcurrent₁, hcurrentId⟩
  · have hreport₃ := classifyTargets_eq hclassify
    rw [hverifiedTargets] at hreport₃
    simp only [increment_eq_ok hexamined, hreport₃, hpromotedCount, hfinalizedCount, hreport₁,
      RecoveryReport.add_def, RecoveryReport.zero_def, recoveredAttempts, targetCounts, jobCounts,
      Nat.add_zero]

/-! ## One page -/

/-- The ids of the jobs to recover are listed once, in their order. -/
theorem DeliveryWf.recoveryJobIds_strict (wf : DeliveryWf s) (cursor : Option Id32) :
    (recoveryJobIds s cursor).Pairwise (· < ·) := by
  have hnodup : (recoveryJobIds s cursor).Nodup := by
    unfold recoveryJobIds
    rw [(Table.ordered_perm _ _).nodup_iff]
    exact List.Nodup.sublist (List.Sublist.map _ List.filter_sublist) wf.jobs_unique
  exact ((recoveryJobIds_sorted s cursor).and hnodup).imp fun h => BitVec.lt_of_le_ne h.1 h.2

/-- The walk over the jobs of a page. -/
theorem recoverJobs_counts {ids : List Id32} {report result : RecoveryReport}
    (inv : DeliveryInv s)
    (h : (ids.foldlM (recoverJob codec policy entropy observedAt) report).run s =
      .ok (result, s')) :
    DeliveryInv s' ∧ ∃ total, RecoversJobs codec policy entropy observedAt ids s s' total ∧
      total.AtMost (32 * ids.length) ∧ result = report + total := by
  induction ids generalizing s report with
  | nil =>
      obtain ⟨rfl, rfl⟩ := run_pure_eq_ok.mp h
      exact ⟨inv, 0, .nil, .zero _, (add_zero _).symm⟩
  | cons jobId ids ih =>
      obtain ⟨next, s₁, hjob, hrest⟩ := run_bind_eq_ok.mp h
      obtain ⟨inv₁, hbound, hnext⟩ := recoverJob_counts inv hjob
      obtain ⟨inv', total, hrecovers, htotal, hresult⟩ := ih inv₁ hrest
      refine ⟨inv', _, .cons hjob hrecovers, ?_, ?_⟩
      · rw [List.length_cons, Nat.mul_add, Nat.add_comm]
        exact hbound.add htotal
      · rw [hresult, hnext, add_assoc]

/-- The first part of a strictly ordered list ends with its last element. -/
theorem not_lt_of_mem_take {ids : List Id32} (hstrict : ids.Pairwise (· < ·)) {n : ℕ}
    {next id : Id32} (hlast : (ids.take n).getLast? = some next) (hid : id ∈ ids.take n) :
    ¬ next < id := by
  intro hlt
  have hpage : (ids.take n).Pairwise (· < ·) := hstrict.sublist (List.take_sublist _ _)
  obtain ⟨front, hfront⟩ : ∃ front, ids.take n = front ++ [next] :=
    ⟨_, (List.dropLast_append_getLast? _ hlast).symm⟩
  rw [hfront] at hid hpage
  rcases List.mem_append.mp hid with hfirst | hsame
  · exact BitVec.lt_asymm hlt
      ((List.pairwise_append.mp hpage).2.2 id hfirst next (List.mem_singleton_self _))
  · rw [List.mem_singleton.mp hsame] at hlt
    exact BitVec.lt_irrefl _ hlt

/-- After a page the list beyond its last job is the rest of the list. -/
theorem recoveryJobIds_continued {outboxMaximum : ℕ} {cursor : Option Id32} {next : Id32}
    {report : RecoveryReport} (wf : DeliveryWf s) (wf' : DeliveryWf s')
    (h : (recoverBatch codec policy outboxMaximum entropy observedAt cursor).run s =
      .ok ((report, some next), s'))
    (hnext : ((recoveryJobIds s cursor).take 128).getLast? = some next) :
    recoveryJobIds s' (some next) = (recoveryJobIds s cursor).drop 128 := by
  obtain ⟨-, -, hlisted, hleft⟩ := recoverBatch_examines h
  rw [List.take_take, show min 128 129 = 128 from rfl] at hleft
  have hstrict := wf.recoveryJobIds_strict cursor
  have hsplit := List.take_append_drop 128 (recoveryJobIds s cursor)
  obtain ⟨-, hdropped, hacross⟩ := List.pairwise_append.mp (hsplit ▸ hstrict)
  have hirrefl : Std.Irrefl fun left right : Id32 => left < right := ⟨BitVec.lt_irrefl⟩
  have hantisymm : Std.Antisymm fun left right : Id32 => left < right :=
    ⟨fun _ _ hlt hgt => absurd hgt (BitVec.lt_asymm hlt)⟩
  refine List.Pairwise.eq_of_mem_iff (wf'.recoveryJobIds_strict _) hdropped fun id => ?_
  constructor
  · intro hid
    have hlt : next < id := by simpa using (mem_recoveryJobIds_iff.mp hid).2
    have hold := hlisted next rfl id hid
    rw [← hsplit] at hold
    exact (List.mem_append.mp hold).resolve_left fun hpage =>
      not_lt_of_mem_take hstrict hnext hpage hlt
  · intro hid
    have hfresh : id ∉ (recoveryJobIds s cursor).take 128 := fun hpage =>
      BitVec.lt_irrefl _ (hacross id hpage id hid)
    obtain ⟨next', hsame, hmem⟩ := hleft id (List.mem_of_mem_drop hid) hfresh
    rwa [← Option.some.inj hsame] at hmem

/-- What a batch leaves: the first 128 jobs are recovered, and the rest of the list is what the
continuation will find. -/
theorem recoverBatch_counts {outboxMaximum : ℕ} {cursor continuation : Option Id32}
    {report : RecoveryReport} (inv : DeliveryInv s)
    (h : (recoverBatch codec policy outboxMaximum entropy observedAt cursor).run s =
      .ok ((report, continuation), s')) :
    DeliveryInv s' ∧ activeJobCount s ≤ outboxMaximum ∧
      RecoversJobs codec policy entropy observedAt ((recoveryJobIds s cursor).take 128) s s' report ∧
      report.AtMost (32 * ((recoveryJobIds s cursor).take 128).length) ∧
      ((continuation = none ∧ (recoveryJobIds s cursor).length ≤ 128) ∨
        ∃ next, continuation = some next ∧ 128 < (recoveryJobIds s cursor).length ∧
          recoveryJobIds s' (some next) = (recoveryJobIds s cursor).drop 128) := by
  have hbatch := h
  unfold recoverBatch at h
  obtain ⟨_, hglobal, h₁⟩ := run_query_bind_eq_ok.mp h
  obtain ⟨found, hfound, h₂⟩ := run_query_bind_eq_ok.mp h₁
  obtain rfl := Except.ok.inj hfound
  obtain ⟨counted, s₁, hjobs, h₃⟩ := run_bind_eq_ok.mp h₂
  obtain ⟨hresult, rfl⟩ := run_pure_eq_ok.mp h₃
  obtain ⟨rfl, hcontinuation⟩ := Prod.mk.inj hresult
  rw [List.take_take, show min 128 129 = 128 from rfl] at hjobs hcontinuation
  obtain ⟨inv', total, hrecovers, htotal, hreport⟩ := recoverJobs_counts inv hjobs
  rw [← show counted = total from hreport.trans (zero_add total)] at hrecovers htotal
  refine ⟨inv', (Except.require_eq_ok.mp hglobal).2, hrecovers, htotal, ?_⟩
  by_cases hmore : 128 < (recoveryJobIds s cursor).length
  · rw [if_pos (by rw [List.length_take]; omega)] at hcontinuation
    cases hnext : continuation with
    | none =>
        rw [hnext] at hcontinuation
        have hempty := congrArg List.length (List.getLast?_eq_none_iff.mp hcontinuation)
        rw [List.length_take, List.length_nil] at hempty
        omega
    | some next =>
        rw [hnext] at hbatch hcontinuation
        exact .inr ⟨next, rfl, hmore,
          recoveryJobIds_continued inv.toDeliveryWf inv'.toDeliveryWf hbatch hcontinuation⟩
  · rw [if_neg (by rw [List.length_take]; omega)] at hcontinuation
    exact .inl ⟨hcontinuation.symm, Nat.le_of_not_lt hmore⟩

/-! ## All pages -/

theorem DeliveryPolicies.outboxMaximum_le (policy : DeliveryPolicies) :
    policy.outboxMaximum ≤ 65536 := by
  have hvalid := policy.valid
  simp only [deliveryPolicyValid, Bool.and_eq_true, decide_eq_true_eq] at hvalid
  exact hvalid.2.2

theorem length_filter_or_le {α : Type} (p q : α → Bool) (rows : List α) :
    (rows.filter fun row => p row || q row).length ≤
      (rows.filter p).length + (rows.filter q).length := by
  induction rows with
  | nil => exact Nat.le_refl _
  | cons row rows ih =>
      cases hp : p row <;> cases hq : q row <;> simp [hp, hq] <;> omega

/-- Beside the open jobs only the desired one is recovered. -/
theorem DeliveryWf.recoveryJobIds_length_le (wf : DeliveryWf s) :
    (recoveryJobIds s none).length ≤ activeJobCount s + 1 := by
  have hdesired : (s.jobs.filter fun job => job.status == .delivered &&
      job.sourceKind == .discoveryHandler && s.publicationState.any fun state =>
        state.desiredJobId == job.jobId && state.currentJobId != some state.desiredJobId).length ≤
      1 := by
    cases hstate : s.publicationState with
    | none => simp
    | some state =>
        have hsub : (s.jobs.filter fun job => job.status == .delivered &&
            job.sourceKind == .discoveryHandler && (some state).any fun state =>
              state.desiredJobId == job.jobId &&
                state.currentJobId != some state.desiredJobId).map JobRow.jobId ⊆
            [state.desiredJobId] := by
          intro jobId hjobId
          obtain ⟨job, hjob, rfl⟩ := List.mem_map.mp hjobId
          have hmatch := (List.mem_filter.mp hjob).2
          simp only [Option.any_some, Bool.and_eq_true, beq_iff_eq] at hmatch
          exact List.mem_singleton.mpr hmatch.2.1.symm
        have hlength := (List.subperm_of_subset (List.Nodup.sublist
          (List.Sublist.map JobRow.jobId List.filter_sublist) wf.jobs_unique) hsub).length_le
        rwa [List.length_map] at hlength
  unfold recoveryJobIds
  rw [(Table.ordered_perm _ _).length_eq, List.length_map]
  simp only [Option.all_none, Bool.and_true]
  exact Nat.le_trans (length_filter_or_le _ _ s.jobs) (Nat.add_le_add_left hdesired _)

/-- From every cursor, enough fuel takes the loop to its end: a batch failed, or every job that
was listed is recovered. -/
theorem recoverDeliveryStateFrom_counts (codec : EventCodec) (config : Configuration)
    (entropy : Id32) (observedAt : TimeUnixMs) (fuel : ℕ) {cursor : Option Id32}
    {aggregate : RecoveryReport} {k : ℕ} (inv : DeliveryInv s)
    (hfuel : (recoveryJobIds s cursor).length / 128 < fuel)
    (hroom : activeJobCount s ≤ config.delivery.outboxMaximum →
      k + (recoveryJobIds s cursor).length ≤ 65537)
    (haggregate : aggregate.AtMost (32 * k)) :
    ∃ result s', recoverDeliveryStateFrom codec config entropy observedAt fuel cursor aggregate s =
        (some result, s') ∧
      ((∃ e next, result = .error e ∧ (withBinding config (recoverBatch codec config.discovery
          config.delivery.outboxMaximum entropy observedAt next)).run s' = .error e) ∨
        ∃ total, result = .ok (aggregate + total) ∧
          RecoversJobs codec config.discovery entropy observedAt (recoveryJobIds s cursor) s s'
            total) := by
  induction fuel generalizing cursor aggregate k s with
  | zero => exact absurd hfuel (Nat.not_lt_zero _)
  | succ fuel ih =>
      rw [recoverDeliveryStateFrom]
      cases hbatch : (withBinding config (recoverBatch codec config.discovery
          config.delivery.outboxMaximum entropy observedAt cursor)).run s with
      | error e =>
          rw [atomically_of_error hbatch]
          exact ⟨.error e, s, rfl, .inl ⟨e, cursor, rfl, hbatch⟩⟩
      | ok outcome =>
          obtain ⟨⟨report, continuation⟩, s₁⟩ := outcome
          rw [atomically_of_ok hbatch]
          obtain ⟨inv₁, hactive, hrecovers, hreport, hcontinues⟩ :=
            recoverBatch_counts inv (run_withBinding_eq_ok hbatch)
          have hroom := hroom hactive
          have hsum := haggregate.add hreport
          rw [← Nat.mul_add] at hsum
          have hmerge : aggregate.merge report = .ok (aggregate + report) := by
            refine hsum.merge_eq ?_
            have hpage := List.length_take_le 128 (recoveryJobIds s cursor)
            have hlist := (recoveryJobIds s cursor).length_take_le' 128
            omega
          dsimp only
          rw [hmerge]
          rcases hcontinues with ⟨rfl, hshort⟩ | ⟨next, rfl, hlong, hrest⟩
          · rw [List.take_of_length_le hshort] at hrecovers
            exact ⟨.ok (aggregate + report), s₁, rfl, .inr ⟨report, rfl, hrecovers⟩⟩
          · have hlength := congrArg List.length hrest
            rw [List.length_drop] at hlength
            have hfuel' : (recoveryJobIds s₁ (some next)).length / 128 < fuel := by
              rw [hlength]
              omega
            obtain ⟨result, s', hrun, hcases⟩ := ih inv₁ hfuel'
              (fun _ => by rw [hlength, List.length_take]; omega) hsum
            refine ⟨result, s', hrun, hcases.imp_right ?_⟩
            rintro ⟨total, hresult, hmore⟩
            refine ⟨report + total, by rw [hresult, add_assoc], ?_⟩
            rw [← List.take_append_drop 128 (recoveryJobIds s cursor), ← hrest]
            exact hrecovers.append hmore

end

/-- From every state that delivery calls reach, the recovery of the delivery state ends.  Either
a batch fails, and the error is its error, or every job that was open at the start, or that was
the delivered job of the desired generation and not yet current, is recovered once, in the order
of the job ids, and the report is the sum of what was counted for these jobs. -/
theorem recovery_covers_each_job_once (metadata : PersistedMetadata) (appliedAtUnixS : ℕ)
    (calls : List DeliveryCall) (codec : EventCodec) (config : Configuration) (entropy : Id32)
    (observedAt : TimeUnixMs) (fuel : ℕ) :
    let s := Run.after DeliveryCall.perform (Store.initial metadata appliedAtUnixS) calls
    (recoveryJobIds s none).length / 128 < fuel →
    (recoveryJobIds s none).Pairwise (· < ·) ∧
      (∀ jobId, jobId ∈ recoveryJobIds s none ↔
        ∃ job ∈ s.jobs, job.jobId = jobId ∧ needsRecovery s job = true) ∧
      ∃ result s', recoverDeliveryState codec config entropy observedAt fuel s =
          (some result, s') ∧
        ((∃ e cursor, result = .error e ∧ (withBinding config (recoverBatch codec config.discovery
            config.delivery.outboxMaximum entropy observedAt cursor)).run s' = .error e) ∨
          ∃ report, result = .ok report ∧
            RecoversJobs codec config.discovery entropy observedAt (recoveryJobIds s none) s s'
              report) := by
  intro s hfuel
  have inv : DeliveryInv s := (FinalizationInv.calls metadata appliedAtUnixS calls).toDeliveryInv
  refine ⟨inv.toDeliveryWf.recoveryJobIds_strict none, fun jobId => ?_, ?_⟩
  · simp [mem_recoveryJobIds_iff, NeedsJob]
  · have hlength := inv.toDeliveryWf.recoveryJobIds_length_le
    have hmaximum := config.delivery.outboxMaximum_le
    obtain ⟨result, s', hrun, hcases⟩ := recoverDeliveryStateFrom_counts codec config entropy
      observedAt fuel (k := 0) inv hfuel (fun hactive => by omega) (.zero _)
    refine ⟨result, s', hrun, hcases.imp_right ?_⟩
    rintro ⟨total, hresult, hrecovers⟩
    exact ⟨total, by rw [hresult, zero_add], hrecovers⟩


namespace SampleHandler

/-- The sample generation is desired, and its job was created. -/
def awaiting : List DeliveryCall :=
  [.operation (.elsewhere ((commitDiscoveryDesiredState codec config request).atomically
      (Store.initial config.metadata 1)).2),
    .operation (.createJob ⟨.discoveryHandler, request.generationId⟩ request.eventDigest
      request.createdAt config.delivery)]

theorem awaiting_recovers :
    let s := Run.after DeliveryCall.perform (Store.initial config.metadata 1) awaiting
    (recoveryJobIds s none).length = 1 ∧
      (recoverDeliveryState codec config 5 (sampleTime 4000) 1 s).1 =
        some (.ok { (0 : RecoveryReport) with examinedJobs := 1, readyTargets := 1 }) := by
  decide +kernel

/-- Its recovery examines the job and finds one ready target. -/
theorem awaiting_job_recovered :
    let s := Run.after DeliveryCall.perform (Store.initial config.metadata 1) awaiting
    ∃ s', RecoversJobs codec config.discovery 5 (sampleTime 4000) (recoveryJobIds s none) s s'
      { (0 : RecoveryReport) with examinedJobs := 1, readyTargets := 1 } := by
  intro s
  obtain ⟨hone, hresult⟩ := awaiting_recovers
  obtain ⟨-, -, result, s', hrun, hcases⟩ := recovery_covers_each_job_once config.metadata 1
    awaiting codec config 5 (sampleTime 4000) 1 (by rw [hone]; decide)
  rw [hrun] at hresult
  obtain rfl := Option.some.inj hresult
  rcases hcases with ⟨e, cursor, herror, -⟩ | ⟨report, hreport, hrecovers⟩
  · cases herror
  · rw [← Except.ok.inj hreport] at hrecovers
    exact ⟨s', hrecovers⟩

end SampleHandler

end MycSigner
