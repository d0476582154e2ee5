import MycSigner.Outbox.Backoff
import MycSigner.Outbox.Pages
import MycSigner.Outbox.Related

/-!
# When recovery succeeds

Recovery draws a delay for every lease that it ends and hands it to the same resolution that
records the outcomes of the worker.  That resolution accepts a delay only where it schedules a
retry, and there only when the next attempt comes at a representable time.  The worker draws
nothing for the last attempt of a target; recovery does.  Nothing else can fail while the service
runs under one configuration, so that a batch succeeds exactly when every drawn delay fits.
-/

namespace MycSigner

open Transaction

/-! ## Drawn delays -/

/-- The delay that recovery draws for an attempt. -/
def recoveryDraw (entropy : Id32) (job : JobRow) (attempt : AttemptRow) : ℕ :=
  leadingU64 (Sha256.digest (domain "radroots.myc.delivery_recovery_jitter.v1" ++
    entropy.bytes ++ attempt.attemptId.bytes)) % (backoffBound job attempt.attemptNumber + 1)

/-- The drawn delay suits the attempt: before the last one the next comes at a representable time,
and after the last one there is no delay. -/
def DrawFits (entropy : Id32) (observedAt : TimeUnixMs) (job : JobRow) (attempt : AttemptRow) :
    Prop :=
  if attempt.attemptNumber < job.maxAttempts then
    observedAt.get + recoveryDraw entropy job attempt ≤ i64Max
  else recoveryDraw entropy job attempt = 0

instance (entropy : Id32) (observedAt : TimeUnixMs) (job : JobRow) (attempt : AttemptRow) :
    Decidable (DrawFits entropy observedAt job attempt) :=
  inferInstanceAs (Decidable (if attempt.attemptNumber < job.maxAttempts then
    observedAt.get + recoveryDraw entropy job attempt ≤ i64Max
  else recoveryDraw entropy job attempt = 0))

/-- The time is not before any time of the outbox. -/
structure NotBefore (s : Store) (observedAt : TimeUnixMs) : Prop where
  jobs : ∀ job ∈ s.jobs, job.updatedAt ≤ observedAt
  targets : ∀ target ∈ s.targets, target.updatedAt ≤ observedAt
  attempts : ∀ attempt ∈ s.attempts, attempt.leasedAt ≤ observedAt
  pointer : ∀ state ∈ s.publicationState, state.updatedAt ≤ observedAt

section

variable {s s' : Store} {entropy : Id32} {observedAt : TimeUnixMs} {job : JobRow}
  {target : TargetRow} {attempt : AttemptRow}

/-- The draw depends on what the job was created with. -/
theorem DrawFits.congr {job' : JobRow} (h : job'.asCreated = job.asCreated) :
    DrawFits entropy observedAt job' attempt ↔ DrawFits entropy observedAt job attempt := by
  have hsame : DrawFits entropy observedAt job'.asCreated attempt ↔
      DrawFits entropy observedAt job.asCreated attempt := by rw [h]
  exact hsame

theorem recoveryJitter_eq (hcheck : jobCheck job = true) :
    ∃ jitter, recoveryJitter job attempt.attemptId attempt.attemptNumber entropy = .ok jitter ∧
      jitter.get = recoveryDraw entropy job attempt ∧
      jitter.get ≤ backoffBound job attempt.attemptNumber := by
  have hbound : backoffBound job attempt.attemptNumber ≤ 300000 := by
    simp only [jobCheck, Bool.and_eq_true, decide_eq_true_eq] at hcheck
    unfold backoffBound
    omega
  unfold recoveryJitter recoveryDraw
  generalize leadingU64 _ = drawn
  have hlt : drawn % (backoffBound job attempt.attemptNumber + 1) <
      backoffBound job attempt.attemptNumber + 1 := Nat.mod_lt _ (by omega)
  rw [RetryJitter.new, dif_pos (by omega)]
  exact ⟨_, rfl, rfl, Nat.le_of_lt_succ hlt⟩

/-- The last attempt of a target has the number of its attempts. -/
theorem TargetOk.attemptNumber_last {attempts : List AttemptRow} (h : TargetOk job target attempts)
    (hlast : attempts.getLast? = some attempt) : attempt.attemptNumber = target.attemptCount := by
  have hnumber := congrArg List.getLast? h.numbers
  rw [List.getLast?_map, hlast, Option.map_some] at hnumber
  cases hcount : attempts.length with
  | zero =>
      rw [List.length_eq_zero_iff.mp hcount] at hlast
      cases hlast
  | succ n =>
      rw [hcount, List.getLast?_range', if_neg (by omega)] at hnumber
      have hvalue := Option.some.inj hnumber
      have htarget := h.count
      omega

/-- The delay is drawn within what the job was created with. -/
theorem recoveryJitter_congr {job' : JobRow} (h : job'.asCreated = job.asCreated)
    (attemptId : Id32) (number : ℕ) :
    recoveryJitter job' attemptId number entropy = recoveryJitter job attemptId number entropy := by
  have hbound : backoffBound job' number = backoffBound job number := by
    have hinitial : job'.initialBackoffMs = job.initialBackoffMs :=
      (congrArg JobRow.initialBackoffMs h :)
    have hmaximum : job'.maximumBackoffMs = job.maximumBackoffMs :=
      (congrArg JobRow.maximumBackoffMs h :)
    rw [backoffBound, backoffBound, hinitial, hmaximum]
  rw [recoveryJitter, recoveryJitter, hbound]

/-! ## One lease -/

/-- The evidence of an expired lease is allowed, and it may schedule a retry. -/
theorem expiredEvidence_allowed (hlive : attempt.status.isLive = true) :
    evidenceAllowed attempt.status (expiredEvidence attempt.status).1
        (expiredEvidence attempt.status).2 = true ∧
      ((expiredEvidence attempt.status).1 = .failed ∨
        (expiredEvidence attempt.status).1 = .unknown) := by
  cases hstatus : attempt.status with
  | leased => exact ⟨rfl, .inl rfl⟩
  | submitted => exact ⟨rfl, .inr rfl⟩
  | delivered | failed | unknown =>
      rw [hstatus] at hlive
      cases hlive

/-- Without attempts left the target of an expired lease is settled. -/
theorem resolvedTarget_last {number : ℕ} {terminal : AttemptStatus} {jitter : RetryJitter}
    (hexhausted : ¬ target.attemptCount < job.maxAttempts)
    (hterminal : terminal = .failed ∨ terminal = .unknown) :
    ∃ status, resolvedTarget job target number terminal jitter observedAt =
      .ok (status, none) := by
  rcases hterminal with rfl | rfl
  · exact ⟨.exhausted, by simp only [resolvedTarget, if_neg hexhausted]⟩
  · exact ⟨.unknown, by simp only [resolvedTarget, if_neg hexhausted]⟩

/-- A retry that was scheduled comes at a representable time. -/
theorem resolvedTarget_fits {number : ℕ} {terminal : AttemptStatus} {jitter : RetryJitter}
    {result : TargetStatus × Option TimeUnixMs} (hremaining : target.attemptCount < job.maxAttempts)
    (hterminal : terminal = .failed ∨ terminal = .unknown)
    (h : resolvedTarget job target number terminal jitter observedAt = .ok result) :
    observedAt.get + jitter.get ≤ i64Max := by
  have hnext : ∃ next, nextAttemptTime job number jitter observedAt = .ok next := by
    rcases hterminal with rfl | rfl
    all_goals
      simp only [resolvedTarget, if_pos hremaining] at h
      obtain ⟨next, hnext, -⟩ := Except.bind_eq_ok_iff.mp h
      exact ⟨next, hnext⟩
  obtain ⟨next, hnext⟩ := hnext
  have hvalue : (nextAttemptTime job number jitter observedAt).toOption.map TimeUnixMs.get =
      some next.get := by
    rw [hnext]
    rfl
  have htime := nextAttemptTime_eq_some.mp hvalue
  exact htime.2.1 ▸ htime.2.2

/-- The lease of a target can be ended exactly when its drawn delay fits. -/
theorem DeliveryWf.resolves_iff_fits (wf : DeliveryWf s) (hjob : job ∈ s.jobs)
    (htarget : target ∈ targetsOf s job.jobId)
    (hlast : (attemptsOf s job.jobId target.targetIndex).getLast? = some attempt)
    (hlive : attempt.status.isLive = true) (hafter : NotBefore s observedAt) {jitter : RetryJitter}
    (hdrawn : jitter.get = recoveryDraw entropy job attempt)
    (hbound : jitter.get ≤ backoffBound job attempt.attemptNumber) :
    (∃ status next, Resolves s job target attempt (expiredEvidence attempt.status).1
      (expiredEvidence attempt.status).2 jitter status next observedAt) ↔
      DrawFits entropy observedAt job attempt := by
  have hnumber := (wf.histories job hjob target htarget).attemptNumber_last hlast
  obtain ⟨hevidence, hterminal⟩ := expiredEvidence_allowed hlive
  have hmem := List.mem_of_getLast? hlast
  have hresolves : ∀ {status next}, (schedulesRetry job target (expiredEvidence attempt.status).1 ∨
      jitter.get = 0) → resolvedTarget job target attempt.attemptNumber
        (expiredEvidence attempt.status).1 jitter observedAt = .ok (status, next) →
      ∃ status next, Resolves s job target attempt (expiredEvidence attempt.status).1
        (expiredEvidence attempt.status).2 jitter status next observedAt :=
    fun hjitter houtcome => ⟨_, _, wf.resolves hjob htarget hmem hlive hevidence
      (hafter.attempts attempt (mem_attemptsOf.mp hmem).1)
      (hafter.targets target (mem_targetsOf.mp htarget).1) (hafter.jobs job hjob) hjitter houtcome⟩
  unfold DrawFits
  rw [hnumber, ← hdrawn]
  split
  next hremaining =>
    constructor
    · rintro ⟨status, next, h⟩
      exact resolvedTarget_fits hremaining hterminal h.outcome
    · intro hfits
      obtain ⟨status, next, houtcome, -⟩ := resolvedTarget_of_le hbound hremaining hterminal hfits
      exact hresolves (.inl ⟨hremaining, hterminal⟩) houtcome
  next hexhausted =>
    constructor
    · rintro ⟨status, next, h⟩
      exact h.jitter_used.resolve_left fun hretry => hexhausted hretry.1
    · intro hzero
      obtain ⟨status, houtcome⟩ := resolvedTarget_last hexhausted hterminal
      exact hresolves (.inr hzero) houtcome

/-! ## One target -/

theorem asCreated_finalized (job : JobRow) :
    (s.finalized job observedAt).jobs.map JobRow.asCreated = s.jobs.map JobRow.asCreated := by
  unfold Store.finalized
  split
  · exact Table.map_replace _ rfl
  · rfl

theorem targets_finalized (job : JobRow) : (s.finalized job observedAt).targets = s.targets := by
  unfold Store.finalized
  split <;> rfl

/-- A resolution keeps the times of the outbox before the time it happened at. -/
theorem NotBefore.resolved (h : NotBefore s observedAt) {terminal : AttemptStatus}
    {reason : AttemptReason} {status : TargetStatus} {next : Option TimeUnixMs} :
    NotBefore ((s.resolved target attempt terminal reason status next observedAt).finalized job
      observedAt) observedAt := by
  have hjobs : ∀ row ∈ ((s.resolved target attempt terminal reason status next
      observedAt).finalized job observedAt).jobs, row.updatedAt ≤ observedAt := by
    intro row hrow
    unfold Store.finalized at hrow
    split at hrow
    · rcases Table.mem_replace.mp hrow with ⟨hmem, -⟩ | ⟨-, rfl⟩
      · exact h.jobs row hmem
      · exact Nat.le_refl _
    · exact h.jobs row hrow
  obtain ⟨-, -, hpointer⟩ := discovery_finalized
    (s := s.resolved target attempt terminal reason status next observedAt) job observedAt
  refine ⟨hjobs, ?_, ?_, ?_⟩
  · intro row hrow
    rw [targets_finalized] at hrow
    rcases Table.mem_replace.mp hrow with ⟨hmem, -⟩ | ⟨-, rfl⟩
    · exact h.targets row hmem
    · exact Nat.le_refl _
  · intro row hrow
    rw [attempts_finalized] at hrow
    rcases Table.mem_replace.mp hrow with ⟨hmem, -⟩ | ⟨hmem, rfl⟩
    · exact h.attempts row hmem
    · exact h.attempts attempt hmem
  · rw [hpointer]
    exact h.pointer

/-- What the recovery of one target or of all targets of a job leaves: the rest of the outbox as
it was, and fewer expired leases of that job. -/
structure RecoversLeases (observedAt : TimeUnixMs) (jobId : Id32) (s s' : Store) : Prop where
  inv : DeliveryInv s'
  after : NotBefore s' observedAt
  created : s'.jobs.map JobRow.asCreated = s.jobs.map JobRow.asCreated
  ended : ∀ row ∈ expiredLeases s' jobId observedAt, row ∈ expiredLeases s jobId observedAt
  others : ∀ id ≠ jobId, expiredLeases s' id observedAt = expiredLeases s id observedAt

theorem RecoversLeases.refl (inv : DeliveryInv s) (hafter : NotBefore s observedAt)
    (jobId : Id32) : RecoversLeases observedAt jobId s s :=
  ⟨inv, hafter, rfl, fun _ h => h, fun _ _ => rfl⟩

theorem RecoversLeases.trans {s'' : Store} {jobId : Id32}
    (h : RecoversLeases observedAt jobId s s') (h' : RecoversLeases observedAt jobId s' s'') :
    RecoversLeases observedAt jobId s s'' where
  inv := h'.inv
  after := h'.after
  created := h'.created.trans h.created
  ended row hrow := h.ended row (h'.ended row hrow)
  others id hne := (h'.others id hne).trans (h.others id hne)

/-- The rows of the job that was read are those of the job that is stored. -/
theorem RecoversLeases.row (h : RecoversLeases observedAt job.jobId s s') (hjob : job ∈ s.jobs) :
    ∃ row ∈ s'.jobs, row.jobId = job.jobId ∧ row.asCreated = job.asCreated := by
  obtain ⟨row, hrow, hsame⟩ := exists_asCreated h.created.symm hjob
  exact ⟨row, hrow, (congrArg JobRow.jobId hsame :), hsame⟩

/-- The expired leases of other jobs are those of before a resolution. -/
theorem Resolves.expiredLeases_other {terminal : AttemptStatus} {reason : AttemptReason}
    {jitter : RetryJitter} {status : TargetStatus} {next : Option TimeUnixMs} {jobId : Id32}
    (h : Resolves s job target attempt terminal reason jitter status next observedAt)
    (hne : jobId ≠ job.jobId) :
    expiredLeases ((s.resolved target attempt terminal reason status next observedAt).finalized job
      observedAt) jobId observedAt = expiredLeases s jobId observedAt := by
  have hother := (mem_attemptsOf.mp h.attempt_mem).2.1
  unfold expiredLeases
  rw [attempts_finalized]
  have hfalse : ¬ (attempt.jobId = jobId) := fun hsame => hne (hsame.symm.trans hother)
  exact Table.filter_replace_of_not _ (decide_eq_false fun hmatch => hfalse hmatch.1)
    (decide_eq_false fun hmatch => hfalse hmatch.1)

/-- The record that a recovered lease returns is the stored one. -/
theorem recoverExpired_record {jobId attemptId : Id32} {relayId : RelayId} {jitter : RetryJitter}
    {record : JobRecord}
    (h : (recoverExpired jobId relayId attemptId jitter observedAt).run s = .ok (record, s')) :
    readJob s' jobId = .ok (some record) := by
  unfold recoverExpired at h
  obtain ⟨job?, hread, h₁⟩ := run_query_bind_eq_ok.mp h
  obtain ⟨job, rfl, h₂⟩ := run_orFail_bind_eq_ok.mp h₁
  obtain ⟨target, -, h₃⟩ := run_query_bind_eq_ok.mp h₂
  obtain ⟨attempt?, -, h₄⟩ := run_query_bind_eq_ok.mp h₃
  obtain ⟨attempt, rfl, h₅⟩ := run_orFail_bind_eq_ok.mp h₄
  split at h₅
  next =>
    obtain ⟨-, h₆⟩ := run_require_bind_eq_ok.mp h₅
    obtain ⟨_, s₁, -, hfinalize⟩ := run_bind_eq_ok.mp h₆
    exact readJob_of_finalizeJobIfTerminal hfinalize
  next =>
    obtain ⟨rfl, rfl⟩ := run_pure_eq_ok.mp h₅
    exact hread

/-- What the recovery of one target leaves. -/
theorem recoverTarget_recovers {before : JobRecord} {progress result : JobRecord × RecoveryReport}
    (inv : DeliveryInv s) (hafter : NotBefore s observedAt) (hjob : job ∈ s.jobs)
    (hid : before.jobId = job.jobId) (htarget : target ∈ targetsOf s job.jobId)
    (h : (recoverTarget entropy observedAt before progress target).run s = .ok (result, s')) :
    RecoversLeases observedAt job.jobId s s' ∧
      (∀ row ∈ expiredLeases s job.jobId observedAt, target.activeAttemptId ≠ some row.attemptId →
        row ∈ expiredLeases s' job.jobId observedAt) ∧
      (∀ row ∈ expiredLeases s' job.jobId observedAt,
        target.activeAttemptId ≠ some row.attemptId) ∧
      (∀ row ∈ targetsOf s job.jobId, row ≠ target → row ∈ targetsOf s' job.jobId) ∧
      result.2.recoveredExpiredAttempts ≤ progress.2.recoveredExpiredAttempts + 1 := by
  have wf := inv.toDeliveryWf
  rcases recoverTarget_counts inv hjob hid htarget h with ⟨rfl, hreport, hunexpired⟩ |
    ⟨attempt, jitter, status, next, hexpired, hresolves, rfl, hreport⟩
  · exact ⟨.refl inv hafter _, fun row hrow _ => hrow, hunexpired, fun row hrow _ => hrow,
      hreport ▸ Nat.le_succ _⟩
  · have hactive := (hresolves.active wf).2
    refine ⟨⟨inv.step (.resolve hresolves), hafter.resolved, asCreated_finalized job,
      fun row hrow => (hresolves.mem_expiredLeases wf hrow).1,
      fun id hne => hresolves.expiredLeases_other hne⟩, ?_, ?_, ?_, by rw [hreport]; rfl⟩
    · intro row hrow hother
      obtain ⟨hmem, hmatch⟩ := mem_expiredLeases.mp hrow
      refine mem_expiredLeases.mpr ⟨?_, hmatch⟩
      rw [attempts_finalized]
      refine Table.mem_replace.mpr (.inl ⟨hmem, ?_⟩)
      rintro rfl
      exact hother hactive
    · intro row hrow hsame
      exact (hresolves.mem_expiredLeases wf hrow).2
        (Option.some.inj (hsame.symm.trans hactive))
    · intro row hrow hne
      rw [targetsOf_finalized, targetsOf_resolved]
      exact Table.mem_replace.mpr (.inl ⟨hrow, hne⟩)

/-- The record that is carried on was created like the job. -/
theorem recoverTarget_record {before : JobRecord} {progress result : JobRecord × RecoveryReport}
    (inv : DeliveryInv s) (hafter : NotBefore s observedAt) (hjob : job ∈ s.jobs)
    (hid : before.jobId = job.jobId) (htarget : target ∈ targetsOf s job.jobId)
    (hprogress : progress.1.toJobRow.asCreated = job.asCreated)
    (h : (recoverTarget entropy observedAt before progress target).run s = .ok (result, s')) :
    result.1.toJobRow.asCreated = job.asCreated := by
  have hrecovers := (recoverTarget_recovers inv hafter hjob hid htarget h).1
  unfold recoverTarget at h
  split at h
  next =>
    obtain ⟨rfl, -⟩ := run_pure_eq_ok.mp h
    exact hprogress
  next =>
    obtain ⟨_, -, h₁⟩ := run_query_bind_eq_ok.mp h
    obtain ⟨_, -, h₂⟩ := run_orFail_bind_eq_ok.mp h₁
    split at h₂
    next =>
      obtain ⟨_, -, h₃⟩ := run_query_bind_eq_ok.mp h₂
      obtain ⟨record, s₁, hexpire, h₄⟩ := run_bind_eq_ok.mp h₃
      obtain ⟨_, -, h₅⟩ := run_query_bind_eq_ok.mp h₄
      obtain ⟨rfl, rfl⟩ := run_pure_eq_ok.mp h₅
      have wf' := hrecovers.inv.toDeliveryWf
      obtain ⟨hstored, hrecordId, -⟩ := wf'.of_readJob (recoverExpired_record hexpire)
      obtain ⟨row, hrow, hrowId, hsame⟩ := hrecovers.row hjob
      obtain rfl := wf'.jobs_unique.eq_of_key_eq hrow hstored
        (hrowId.trans (hid.symm.trans hrecordId.symm))
      exact hsame
    next =>
      obtain ⟨rfl, -⟩ := run_pure_eq_ok.mp h₂
      exact hprogress

/-- Recovery reads the attempt that a target names. -/
theorem DeliveryWf.current_of_active (wf : DeliveryWf s) {before : JobRecord} (hjob : job ∈ s.jobs)
    (hid : before.jobId = job.jobId) (htarget : target ∈ targetsOf s job.jobId)
    (hlast : (attemptsOf s job.jobId target.targetIndex).getLast? = some attempt) :
    readAttempts s before.jobId target.targetIndex =
        .ok (attemptsOf s job.jobId target.targetIndex) ∧
      (attemptsOf s job.jobId target.targetIndex).getLast?.filter
        (fun row => row.attemptId = attempt.attemptId) = some attempt := by
  rw [hid, hlast]
  exact ⟨wf.readAttempts_eq hjob htarget, by simp⟩

/-- The lease of a target is recovered exactly when its drawn delay fits. -/
theorem recoverTarget_run_iff {before : JobRecord} {progress : JobRecord × RecoveryReport}
    (inv : DeliveryInv s) (hafter : NotBefore s observedAt) (hjob : job ∈ s.jobs)
    (hid : before.jobId = job.jobId) (htarget : target ∈ targetsOf s job.jobId)
    (hprogress : progress.1.toJobRow.asCreated = job.asCreated)
    (hroom : progress.2.recoveredExpiredAttempts + 1 < 2 ^ 32) :
    (∃ result s', (recoverTarget entropy observedAt before progress target).run s =
      .ok (result, s')) ↔
      ∀ row ∈ expiredLeases s job.jobId observedAt, target.activeAttemptId = some row.attemptId →
        DrawFits entropy observedAt job row := by
  have wf := inv.toDeliveryWf
  unfold recoverTarget
  cases hactive : target.activeAttemptId with
  | none =>
      constructor
      · intro _ row _ hsome
        cases hsome
      · exact fun _ => ⟨progress, s, rfl⟩
  | some attemptId =>
      obtain ⟨last, hlast, rfl, hlive⟩ := wf.live_of_active hjob htarget hactive
      have hstored := mem_attemptsOf.mp (List.mem_of_getLast? hlast)
      obtain ⟨hattempts, hcurrent⟩ := wf.current_of_active hjob hid htarget hlast
      have honly : ∀ row ∈ expiredLeases s job.jobId observedAt,
          some last.attemptId = some row.attemptId → row = last := by
        intro row hrow hsame
        exact wf.attempts_unique.eq_of_key_eq (mem_expiredLeases.mp hrow).1 hstored.1
          (Option.some.inj hsame).symm
      obtain ⟨jitter, hdraws, hdrawn, hbound⟩ :=
        @recoveryJitter_eq entropy job last (wf.job_checked job hjob)
      have hjitter := (recoveryJitter_congr hprogress last.attemptId last.attemptNumber).trans hdraws
      have hfits := wf.resolves_iff_fits hjob htarget hlast hlive hafter hdrawn hbound
      constructor
      · rintro ⟨result, s', h⟩ row hrow hrowId
        obtain rfl := honly row hrow hrowId
        obtain ⟨_, hattempts', h₁⟩ := run_query_bind_eq_ok.mp h
        obtain rfl := Except.ok.inj (hattempts.symm.trans hattempts')
        obtain ⟨current, hcurrent', h₂⟩ := run_orFail_bind_eq_ok.mp h₁
        obtain rfl := Option.some.inj (hcurrent.symm.trans hcurrent')
        rw [if_pos (mem_expiredLeases.mp hrow).2.2.2] at h₂
        obtain ⟨jitter', hjitter', h₃⟩ := run_query_bind_eq_ok.mp h₂
        obtain rfl := Except.ok.inj (hjitter.symm.trans hjitter')
        obtain ⟨record, s₁, hexpire, -⟩ := run_bind_eq_ok.mp h₃
        refine hfits.mp ?_
        rcases recoverExpired_cases wf hexpire with ⟨-, other, hother, hotherId, hsettled⟩ |
          ⟨job', target', attempt', status, next, hjobId, hrelay, hattemptId, -, hresolves, -⟩
        · obtain rfl := wf.attempts_unique.eq_of_key_eq hother hstored.1 hotherId
          rw [hlive] at hsettled
          cases hsettled
        · obtain rfl := wf.jobs_unique.eq_of_key_eq hresolves.job_mem hjob (hjobId.trans hid)
          obtain rfl := wf.attempts_unique.eq_of_key_eq
            (mem_attemptsOf.mp hresolves.attempt_mem).1 hstored.1 hattemptId
          obtain ⟨hmem', hjob'⟩ := mem_targetsOf.mp hresolves.target_mem
          obtain ⟨hmem, hjob''⟩ := mem_targetsOf.mp htarget
          obtain rfl := wf.relays_unique.eq_of_key_eq hmem' hmem
            (Prod.ext (hjob'.trans hjob''.symm) hrelay)
          exact ⟨status, next, hresolves⟩
      · intro hall
        by_cases hexpired : last.leaseExpiresAt < observedAt
        · obtain ⟨status, next, hresolves⟩ := hfits.mpr (hall last
            (mem_expiredLeases.mpr ⟨hstored.1, hstored.2.1, hlive, hexpired⟩) rfl)
          obtain ⟨record, s₁, hexpire⟩ : ∃ record s₁, (recoverExpired job.jobId target.relayId
              last.attemptId jitter observedAt).run s = .ok (record, s₁) :=
            (run_recoverExpired wf hexpired hresolves).imp fun _ h => ⟨_, h⟩
          rw [← hid] at hexpire
          refine ⟨(record, { progress.2 with
              recoveredExpiredAttempts := progress.2.recoveredExpiredAttempts + 1 }), s₁,
            run_query_bind_eq_ok.mpr ⟨_, hattempts, run_orFail_bind_eq_ok.mpr
              ⟨last, hcurrent, ?_⟩⟩⟩
          rw [if_pos hexpired]
          exact run_query_bind_eq_ok.mpr ⟨jitter, hjitter, run_bind_eq_ok.mpr ⟨record, s₁, hexpire,
            run_query_bind_eq_ok.mpr ⟨_, if_pos hroom, rfl⟩⟩⟩
        · refine ⟨progress, s, run_query_bind_eq_ok.mpr ⟨_, hattempts, run_orFail_bind_eq_ok.mpr
            ⟨last, hcurrent, ?_⟩⟩⟩
          rw [if_neg hexpired]
          rfl

/-! ## One job -/

/-- The targets that are left for the walk hold all expired leases of the job. -/
structure HoldsLeases (s : Store) (observedAt : TimeUnixMs) (jobId : Id32)
    (targets : List TargetRow) : Prop where
  nodup : targets.Nodup
  rows : ∀ target ∈ targets, target ∈ targetsOf s jobId
  covered : ∀ attempt ∈ expiredLeases s jobId observedAt,
    ∃ target ∈ targets, target.activeAttemptId = some attempt.attemptId

theorem DeliveryWf.holdsLeases (wf : DeliveryWf s) (hjob : job ∈ s.jobs) :
    HoldsLeases s observedAt job.jobId (targetsOf s job.jobId) where
  nodup := wf.targetsOf_nodup _
  rows _ h := h
  covered attempt hattempt := by
    obtain ⟨hstored, hid, hlive, -⟩ := mem_expiredLeases.mp hattempt
    obtain ⟨target, htarget, -, -, hactive⟩ := wf.target_of_live hjob hid.symm hstored hlive
    exact ⟨target, htarget, hactive⟩

theorem HoldsLeases.step {before : JobRecord} {progress result : JobRecord × RecoveryReport}
    {targets : List TargetRow} (h : HoldsLeases s observedAt job.jobId (target :: targets))
    (inv : DeliveryInv s) (hafter : NotBefore s observedAt) (hjob : job ∈ s.jobs)
    (hid : before.jobId = job.jobId)
    (hrun : (recoverTarget entropy observedAt before progress target).run s = .ok (result, s')) :
    HoldsLeases s' observedAt job.jobId targets := by
  obtain ⟨hfresh, hnodup⟩ := List.nodup_cons.mp h.nodup
  obtain ⟨htarget, hrows⟩ := List.forall_mem_cons.mp h.rows
  obtain ⟨hrecovers, -, hended, hothers, -⟩ :=
    recoverTarget_recovers inv hafter hjob hid htarget hrun
  refine ⟨hnodup, fun row hrow => hothers row (hrows row hrow) ?_, fun attempt hattempt => ?_⟩
  · rintro rfl
    exact hfresh hrow
  · obtain ⟨row, hrow, hactive⟩ := h.covered attempt (hrecovers.ended attempt hattempt)
    rcases List.mem_cons.mp hrow with rfl | hmem
    · exact absurd hactive (hended attempt hattempt)
    · exact ⟨row, hmem, hactive⟩

/-- The walk over the targets ends every expired lease of the job. -/
theorem recoverTargets_recovers {before : JobRecord} {targets : List TargetRow}
    {progress result : JobRecord × RecoveryReport} (inv : DeliveryInv s)
    (hafter : NotBefore s observedAt) (hjob : job ∈ s.jobs) (hid : before.jobId = job.jobId)
    (hholds : HoldsLeases s observedAt job.jobId targets)
    (h : (targets.foldlM (recoverTarget entropy observedAt before) progress).run s =
      .ok (result, s')) :
    RecoversLeases observedAt job.jobId s s' ∧ expiredLeases s' job.jobId observedAt = [] := by
  induction targets generalizing s job progress with
  | nil =>
      obtain ⟨-, rfl⟩ := run_pure_eq_ok.mp h
      refine ⟨.refl inv hafter _, List.eq_nil_iff_forall_not_mem.mpr fun attempt hattempt => ?_⟩
      obtain ⟨target, htarget, -⟩ := hholds.covered attempt hattempt
      cases htarget
  | cons target targets ih =>
      obtain ⟨next, s₁, hstep, hrest⟩ := run_bind_eq_ok.mp h
      have htarget := hholds.rows target (List.mem_cons_self ..)
      have hfirst := (recoverTarget_recovers inv hafter hjob hid htarget hstep).1
      have hleft := hholds.step inv hafter hjob hid hstep
      obtain ⟨row, hrow, hrowId, -⟩ := hfirst.row hjob
      rw [← hrowId] at hleft hfirst ⊢
      obtain ⟨hlater, hnone⟩ := ih hfirst.inv hfirst.after hrow (hid.trans hrowId.symm) hleft hrest
      exact ⟨hfirst.trans hlater, hnone⟩

/-- The walk succeeds exactly when the drawn delay of every expired lease fits. -/
theorem recoverTargets_run_iff {before : JobRecord} {targets : List TargetRow}
    {progress : JobRecord × RecoveryReport} (inv : DeliveryInv s)
    (hafter : NotBefore s observedAt) (hjob : job ∈ s.jobs) (hid : before.jobId = job.jobId)
    (hholds : HoldsLeases s observedAt job.jobId targets)
    (hprogress : progress.1.toJobRow.asCreated = job.asCreated)
    (hroom : progress.2.recoveredExpiredAttempts + targets.length < 2 ^ 32) :
    (∃ result s', (targets.foldlM (recoverTarget entropy observedAt before) progress).run s =
      .ok (result, s')) ↔
      ∀ row ∈ expiredLeases s job.jobId observedAt, DrawFits entropy observedAt job row := by
  induction targets generalizing s job progress with
  | nil =>
      refine ⟨fun _ row hrow => ?_, fun _ => ⟨progress, s, rfl⟩⟩
      obtain ⟨target, htarget, -⟩ := hholds.covered row hrow
      cases htarget
  | cons target targets ih =>
      rw [List.length_cons] at hroom
      have htarget := hholds.rows target (List.mem_cons_self ..)
      have hhead := @recoverTarget_run_iff _ entropy _ _ _ _ _ inv hafter hjob hid htarget hprogress
        (by omega)
      have htail : ∀ {next s₁}, (recoverTarget entropy observedAt before progress target).run s =
          .ok (next, s₁) → ((∃ result s',
            (targets.foldlM (recoverTarget entropy observedAt before) next).run s₁ =
              .ok (result, s')) ↔
            ∀ row ∈ expiredLeases s₁ job.jobId observedAt, DrawFits entropy observedAt job row) := by
        intro next s₁ hstep
        obtain ⟨hfirst, -, -, -, hcount⟩ :=
          recoverTarget_recovers inv hafter hjob hid htarget hstep
        have hleft := hholds.step inv hafter hjob hid hstep
        have hnext := recoverTarget_record inv hafter hjob hid htarget hprogress hstep
        obtain ⟨row, hrow, hrowId, hsame⟩ := hfirst.row hjob
        rw [← hrowId] at hleft ⊢
        rw [ih hfirst.inv hfirst.after hrow (hid.trans hrowId.symm) hleft (hnext.trans hsame.symm)
          (by omega)]
        exact forall₂_congr fun _ _ => DrawFits.congr hsame
      constructor
      · rintro ⟨result, s', h⟩ row hrow
        obtain ⟨next, s₁, hstep, hrest⟩ := run_bind_eq_ok.mp h
        by_cases hactive : target.activeAttemptId = some row.attemptId
        · exact hhead.mp ⟨next, s₁, hstep⟩ row hrow hactive
        · exact (htail hstep).mp ⟨result, s', hrest⟩ row
            ((recoverTarget_recovers inv hafter hjob hid htarget hstep).2.1 row hrow hactive)
      · intro hall
        obtain ⟨next, s₁, hstep⟩ := hhead.mpr fun row hrow _ => hall row hrow
        have hfirst := (recoverTarget_recovers inv hafter hjob hid htarget hstep).1
        obtain ⟨result, s', hrest⟩ :=
          (htail hstep).mpr fun row hrow => hall row (hfirst.ended row hrow)
        exact ⟨result, s', run_bind_eq_ok.mpr ⟨next, s₁, hstep, hrest⟩⟩

end

end MycSigner
