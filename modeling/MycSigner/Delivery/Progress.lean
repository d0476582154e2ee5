import MycSigner.Delivery.Finalization

/-!
# Open jobs can proceed

Finalization leaves a job open only while enough of its required targets can still deliver.  One
of these is not delivered yet: it holds a live attempt, or a claim leases it from its next
attempt time on.  Nothing but the end of the representable times and a nonce that was used
before stands in the way of that claim.
-/

namespace MycSigner

open Transaction

/-! ## When a target is due -/

/-- A target that is free, not settled, and has attempts left. -/
structure Claimable (job : JobRow) (target : TargetRow) : Prop where
  free : target.activeAttemptId = none
  status : target.status = .pending ∨ target.status = .retryable ∨ target.status = .unknown
  remaining : target.attemptCount < job.maxAttempts

/-- The next attempt time, or the last update of a target that waits for none. -/
def TargetRow.dueAt (target : TargetRow) : TimeUnixMs :=
  target.nextAttemptAt.getD target.updatedAt

/-- The times of the rows: a retry is scheduled no earlier than it was recorded, and a pending
job is as it was created. -/
structure Scheduled (s : Store) : Prop where
  next : ∀ target ∈ s.targets, ∀ next, target.nextAttemptAt = some next → target.updatedAt ≤ next
  fresh : ∀ job ∈ s.jobs, job.status = .pending → ∀ target ∈ targetsOf s job.jobId,
    target.status = .pending ∧ target.updatedAt = job.updatedAt

section

variable {s s' : Store} {job : JobRow} {target : TargetRow}

theorem Scheduled.updatedAt_le_dueAt (h : Scheduled s) (htarget : target ∈ s.targets) :
    target.updatedAt ≤ target.dueAt := by
  unfold TargetRow.dueAt
  cases hnext : target.nextAttemptAt with
  | none => exact Nat.le_refl _
  | some next => exact h.next target htarget next hnext

/-! ## Steps keep the schedule -/

theorem mem_newTargetRows_updatedAt {jobId : Id32} {createdAt : TimeUnixMs} {index : ℕ}
    {policies : List TargetPolicy} {row : TargetRow}
    (h : row ∈ newTargetRows jobId createdAt index policies) : row.updatedAt = createdAt := by
  induction policies generalizing index with
  | nil => cases h
  | cons target rest ih =>
      rcases List.mem_cons.mp h with rfl | hrest
      · rfl
      · exact ih hrest

theorem Scheduled.created {source : Source} {artifact : Id32} {createdAt : TimeUnixMs}
    {policy : DeliveryPolicies} (h : Scheduled s) (wf : DeliveryWf s)
    (hallowed : jobInsertAllowed s (newJobRow source artifact createdAt policy) = true) :
    Scheduled (s.created source artifact createdAt policy) where
  next := by
    intro target htarget next hnext
    rcases List.mem_append.mp htarget with hold | hnew
    · exact h.next target hold next hnext
    · rw [(mem_newTargetRows hnew).2.2.2.2] at hnext
      cases hnext
  fresh := by
    intro job hjob hpending target htarget
    have hfresh := (fresh_of_jobInsertAllowed hallowed).2.1
    rw [targetsOf_created] at htarget
    rcases List.mem_append.mp hjob with hmem | hmem
    · rw [if_neg (fun heq => hfresh job hmem heq.symm), List.append_nil] at htarget
      exact h.fresh job hmem hpending target htarget
    · rw [List.mem_singleton.mp hmem, if_pos (newJobRow_jobId ..).symm, wf.no_targets hfresh,
        List.nil_append] at htarget
      rw [List.mem_singleton.mp hmem, mem_newTargetRows_updatedAt htarget]
      exact ⟨(mem_newTargetRows htarget).2.1, rfl⟩

/-- A step that rewrites one target and leaves its job no longer pending. -/
theorem Scheduled.of_replace {job' : JobRow} {target' : TargetRow} (h : Scheduled s)
    (wf : DeliveryWf s) (hjob : job ∈ s.jobs) (htarget : target ∈ targetsOf s job.jobId)
    (hjobs : s'.jobs = Table.replace job job' s.jobs)
    (htargets : s'.targets = Table.replace target target' s.targets)
    (hid : target'.jobId = target.jobId) (hactive : job'.status ≠ .pending)
    (hnext : ∀ next, target'.nextAttemptAt = some next → target'.updatedAt ≤ next) :
    Scheduled s' where
  next := by
    intro row hrow next hrowNext
    rw [htargets] at hrow
    rcases Table.mem_replace.mp hrow with ⟨hmem, -⟩ | ⟨-, rfl⟩
    · exact h.next row hmem next hrowNext
    · exact hnext next hrowNext
  fresh := by
    intro row hrow hpending other hother
    rw [hjobs] at hrow
    rcases Table.mem_replace.mp hrow with ⟨hmem, hne⟩ | ⟨-, rfl⟩
    · rw [DeliveryWf.targetsOf_replace htargets hid] at hother
      rcases Table.mem_replace.mp hother with ⟨hold, -⟩ | ⟨hin, -⟩
      · exact h.fresh row hmem hpending other hold
      · refine absurd ?_ hne
        exact wf.jobs_unique.eq_of_key_eq hmem hjob
          ((mem_targetsOf.mp hin).2.symm.trans (mem_targetsOf.mp htarget).2)
    · exact absurd hpending hactive

/-- A job with a leased target is no longer pending. -/
theorem Scheduled.not_pending (h : Scheduled s) (hjob : job ∈ s.jobs)
    (htarget : target ∈ targetsOf s job.jobId) (hactive : target.status.isActive = true) :
    job.status ≠ .pending := by
  intro hpending
  rw [(h.fresh job hjob hpending target htarget).1] at hactive
  cases hactive

theorem nextAttemptTime_le {number : ℕ} {jitter : RetryJitter} {observedAt next : TimeUnixMs}
    (h : nextAttemptTime job number jitter observedAt = .ok next) : observedAt ≤ next := by
  obtain ⟨-, -, htime⟩ := Except.bind_eq_ok_iff.mp h
  rw [Except.ofOption_eq_ok, TimeUnixMs.new_eq_some] at htime
  rw [TimeUnixMs.le_def, htime]
  exact Nat.le_add_right ..

theorem resolvedTarget_next {number : ℕ} {terminal : AttemptStatus} {jitter : RetryJitter}
    {observedAt : TimeUnixMs} {status : TargetStatus} {scheduled : Option TimeUnixMs}
    (h : resolvedTarget job target number terminal jitter observedAt = .ok (status, scheduled)) :
    ∀ next, scheduled = some next → observedAt ≤ next := by
  intro next hnext
  unfold resolvedTarget at h
  cases terminal with
  | delivered => cases h; cases hnext
  | failed | unknown =>
      simp only at h
      split at h
      · obtain ⟨time, htime, heq⟩ := Except.bind_eq_ok_iff.mp h
        cases heq
        cases hnext
        exact nextAttemptTime_le htime
      · cases h
        cases hnext
  | leased | submitted => cases h

theorem Scheduled.step (h : Scheduled s) (wf : DeliveryWf s) (hstep : DeliveryStep s s') :
    Scheduled s' := by
  cases hstep with
  | create capacity allowed => exact h.created wf allowed
  | @claim job target attempt claimedAt hclaims =>
      refine h.of_replace wf hclaims.job_mem hclaims.target_mem rfl rfl rfl ?_ ?_
      · unfold JobRow.activated
        split
        next => nofun
        next hpending => exact hpending
      · intro next hnext
        cases hnext
  | @submit job target attempt submittedAt hsubmits =>
      have hactive : target.status.isActive = true := by rw [hsubmits.target_leased]; rfl
      refine h.of_replace wf hsubmits.job_mem hsubmits.target_mem Table.replace_self.symm rfl rfl
        (h.not_pending hsubmits.job_mem hsubmits.target_mem hactive) fun next hnext => ?_
      have hlast := (wf.histories job hsubmits.job_mem target hsubmits.target_mem).last
      rw [LastOk, hsubmits.target_leased] at hlast
      obtain ⟨-, -, -, -, hnone⟩ := hlast
      rw [show target.nextAttemptAt = some next from hnext] at hnone
      cases hnone
  | @resolve job target attempt terminal reason jitter status next observedAt hresolves =>
      have hpending := h.not_pending hresolves.job_mem hresolves.target_mem (hresolves.active wf).1
      have hnext := resolvedTarget_next hresolves.outcome
      unfold Store.finalized
      split
      next verdict hverdict =>
        have hjobs : { s.resolved target attempt terminal reason status next observedAt with
            jobs := Table.replace job (job.finalized verdict observedAt) s.jobs }.jobs =
            Table.replace job (job.finalized verdict observedAt) s.jobs := rfl
        refine h.of_replace wf hresolves.job_mem hresolves.target_mem hjobs rfl rfl ?_ hnext
        intro hopen
        have hterminal := verdict_terminal hverdict
        rw [show verdict = .pending from hopen] at hterminal
        cases hterminal
      next =>
        exact h.of_replace wf hresolves.job_mem hresolves.target_mem Table.replace_self.symm rfl
          rfl hpending hnext

theorem Scheduled.move (h : Scheduled s) (wf : DeliveryWf s)
    (hmove : DeliveryStep s s' ∨ SameDelivery s s') : Scheduled s' := by
  rcases hmove with hstep | hsame
  · exact h.step wf hstep
  · have htargets : ∀ jobId, targetsOf s' jobId = targetsOf s jobId := by
      intro jobId
      unfold targetsOf
      rw [hsame.targets]
    refine ⟨hsame.targets ▸ h.next, ?_⟩
    rw [hsame.jobs]
    simpa only [htargets] using h.fresh

/-! ## A due target is leased -/

theorem DeliveryWf.targetIndex_le (wf : DeliveryWf s) (hjob : job ∈ s.jobs)
    (htarget : target ∈ targetsOf s job.jobId) : target.targetIndex ≤ 31 := by
  have hmem : target.targetIndex ∈ (targetsOf s job.jobId).map TargetRow.targetIndex :=
    List.mem_map_of_mem htarget
  rw [wf.indices job hjob, List.mem_range] at hmem
  have hlen := wf.targets_bounded job hjob
  omega

/-- No attempt has used the nonce for the target, and none has the id derived from it. -/
structure UnusedNonce (s : Store) (job : JobRow) (target : TargetRow) (nonce : Id32) : Prop where
  not_used : ∀ attempt ∈ attemptsOf s job.jobId target.targetIndex, attempt.attemptNonce ≠ nonce
  not_taken : ∀ attempt ∈ s.attempts, attempt.attemptId ≠
    deriveAttemptId job.jobId target.targetIndex (target.attemptCount + 1) nonce

theorem UnusedNonce.readAttemptByNonce_eq {nonce : Id32} (h : UnusedNonce s job target nonce) :
    readAttemptByNonce s job.jobId target.targetIndex nonce = .ok none := by
  have hnil : ((attemptsOf s job.jobId target.targetIndex).filter fun row =>
      row.attemptNonce = nonce) = [] := by
    rw [List.filter_eq_nil_iff]
    intro attempt hattempt heq
    exact h.not_used attempt hattempt (by simpa using heq)
  rw [readAttemptByNonce, hnil]
  rfl

/-- The attempt that a claim inserts. -/
def claimedAttempt (s : Store) (job : JobRow) (target : TargetRow) (nonce : Id32)
    (claimedAt leaseExpires : TimeUnixMs) : AttemptRow :=
  newAttemptRow { job with targets := targetsOf s job.jobId } target nonce claimedAt leaseExpires

theorem Claimable.attempt_allowed {nonce : Id32} {claimedAt leaseExpires : TimeUnixMs}
    (h : Claimable job target) (wf : DeliveryWf s) (hjob : job ∈ s.jobs)
    (htarget : target ∈ targetsOf s job.jobId) (hnonce : UnusedNonce s job target nonce)
    (hlease : leaseExpires.get = claimedAt.get + job.attemptDeadlineMs) :
    attemptInsertAllowed s (claimedAttempt s job target nonce claimedAt leaseExpires) = true := by
  have hok := wf.histories job hjob target htarget
  have hmax := wf.maxAttempts_le hjob
  have hremaining := h.remaining
  have hdeadline : 1 ≤ job.attemptDeadlineMs := by
    have hcheck := wf.job_checked job hjob
    simp only [jobCheck, Bool.and_eq_true, decide_eq_true_eq] at hcheck
    omega
  have hexpiry : claimedAt < leaseExpires := by
    rw [TimeUnixMs.lt_def, hlease]
    omega
  have hcheck : attemptCheck (claimedAttempt s job target nonce claimedAt leaseExpires) = true := by
    have hnumber : target.attemptCount + 1 ≤ 32 := by omega
    simp [attemptCheck, attemptShape, claimedAttempt, newAttemptRow, hexpiry, hnumber,
      wf.targetIndex_le hjob htarget]
  have hnumbers : ∀ attempt ∈ attemptsOf s job.jobId target.targetIndex,
      attempt.attemptNumber ≠ target.attemptCount + 1 := by
    intro attempt hattempt heq
    have hmem : attempt.attemptNumber ∈
        (attemptsOf s job.jobId target.targetIndex).map AttemptRow.attemptNumber :=
      List.mem_map_of_mem hattempt
    rw [hok.numbers, List.mem_range'_1, hok.count] at hmem
    omega
  simp only [attemptInsertAllowed, hcheck, Bool.true_and, List.all_eq_true, Bool.and_eq_true,
    bne_iff_ne, Bool.not_eq_true', Bool.and_eq_false_iff, Bool.or_eq_false_iff,
    beq_eq_false_iff_ne]
  intro attempt hattempt
  refine ⟨hnonce.not_taken attempt hattempt, ?_⟩
  by_cases hsame : attempt.jobId = job.jobId ∧ attempt.targetIndex = target.targetIndex
  · have hmem := mem_attemptsOf.mpr ⟨hattempt, hsame.1, hsame.2⟩
    exact .inr ⟨hnumbers attempt hmem, hnonce.not_used attempt hmem⟩
  · exact .inl (by rwa [not_and_or] at hsame)

theorem Claimable.target_allowed {attempt : AttemptRow} {claimedAt : TimeUnixMs}
    (h : Claimable job target) (wf : DeliveryWf s) (hjob : job ∈ s.jobs)
    (htarget : target ∈ targetsOf s job.jobId) (htime : target.updatedAt ≤ claimedAt)
    (hnumber : attempt.attemptNumber = target.attemptCount + 1) :
    targetUpdateAllowed target (target.claimed attempt claimedAt) = true := by
  have hmax := wf.maxAttempts_le hjob
  have hremaining := h.remaining
  have hcount : target.attemptCount + 1 ≤ 32 := by omega
  have hindex := wf.targetIndex_le hjob htarget
  rcases h.status with hstatus | hstatus | hstatus <;>
    simp [targetUpdateAllowed, targetCheck, TargetRow.claimed, hstatus, htime, hnumber, hcount,
      hindex]

theorem jobUpdateAllowed_activated {claimedAt : TimeUnixMs} (hcheck : jobCheck job = true)
    (hpending : job.status = .pending) (htime : job.updatedAt ≤ claimedAt) :
    jobUpdateAllowed job (job.activated claimedAt) = true := by
  have hactivated : job.activated claimedAt =
      { job with status := .active, updatedAt := claimedAt } := by
    rw [JobRow.activated, if_pos hpending]
  have hcreated : job.createdAt ≤ claimedAt := by
    simp only [jobCheck, Bool.and_eq_true, decide_eq_true_eq] at hcheck
    exact Nat.le_trans hcheck.1.1.2 htime
  simp only [jobCheck, Bool.and_eq_true] at hcheck
  obtain ⟨⟨⟨hbounds, -⟩, hfinalized⟩, hterminal⟩ := hcheck
  rw [hpending] at hterminal
  have hopen : job.finalizedAt = none := by
    simpa [JobStatus.isTerminal] using hterminal
  rw [hactivated]
  simp only [jobUpdateAllowed, jobCheck, Bool.and_eq_true]
  refine ⟨⟨⟨?_, decide_eq_true htime⟩, ?_⟩, ⟨⟨hbounds, decide_eq_true hcreated⟩, hfinalized⟩, ?_⟩
  · simp
  · simp [hpending, hopen]
  · simp [hopen, JobStatus.isTerminal]

/-- The attempt that a claim inserted is read back. -/
theorem Claims.readAttempt_eq {attempt : AttemptRow} {claimedAt : TimeUnixMs} (wf : DeliveryWf s)
    (h : Claims s job target attempt claimedAt) :
    readAttempt (s.claimed job target attempt claimedAt) job.jobId target.targetIndex
      attempt.attemptId = .ok (some attempt) := by
  obtain ⟨nonce, leaseExpires, hrow⟩ := h.attempt_row
  have hjob : job.activated claimedAt ∈ (s.claimed job target attempt claimedAt).jobs :=
    Table.mem_replace.mpr (.inr ⟨h.job_mem, rfl⟩)
  have htarget : target.claimed attempt claimedAt ∈
      targetsOf (s.claimed job target attempt claimedAt) (job.activated claimedAt).jobId := by
    rw [JobRow.activated_jobId]
    obtain ⟨hstored, hid⟩ := mem_targetsOf.mp h.target_mem
    exact mem_targetsOf.mpr ⟨Table.mem_replace.mpr (.inr ⟨hstored, rfl⟩), hid⟩
  have hattempt : attempt ∈ attemptsOf (s.claimed job target attempt claimedAt)
      (job.activated claimedAt).jobId (target.claimed attempt claimedAt).targetIndex := by
    refine mem_attemptsOf.mpr ⟨List.mem_append_right _ (List.mem_singleton_self _), ?_, ?_⟩
    · rw [JobRow.activated_jobId, hrow]
      rfl
    · rw [hrow]
      rfl
  have hread := (wf.claimed h).readAttempt_eq_some hjob htarget hattempt
  rwa [JobRow.activated_jobId] at hread

/-- A claim whose guards hold runs to its end. -/
theorem Claims.claimTarget_run {nonce : Id32} {claimedAt leaseExpires : TimeUnixMs}
    (h : Claims s job target (claimedAttempt s job target nonce claimedAt leaseExpires) claimedAt)
    (wf : DeliveryWf s) (hnonce : UnusedNonce s job target nonce)
    (hready : ¬ (target.activeAttemptId.isSome = true ∨
      target.nextAttemptAt.any (claimedAt < ·) = true))
    (hunsettled : ¬ (target.status = .delivered ∨ target.status = .exhausted ∨
      job.maxAttempts ≤ target.attemptCount))
    (hallowed : targetUpdateAllowed target
      (target.claimed (claimedAttempt s job target nonce claimedAt leaseExpires) claimedAt) = true)
    (hstatus : target.status = .pending ∨ target.status = .retryable ∨ target.status = .unknown)
    (hexpires : TimeUnixMs.new (claimedAt.get + job.attemptDeadlineMs) = some leaseExpires) :
    (claimTarget job.jobId target.relayId nonce claimedAt).run s =
      .ok (.claimed (claimedAttempt s job target nonce claimedAt leaseExpires),
        s.claimed job target (claimedAttempt s job target nonce claimedAt leaseExpires)
          claimedAt) := by
  have hread : (query (readJob · job.jobId)).run s =
      .ok (some { job with targets := targetsOf s job.jobId }, s) :=
    run_query_of_ok (wf.readJob_eq_some h.job_mem)
  have hunused : (query (readAttemptByNonce · job.jobId target.targetIndex nonce)).run s =
      .ok (none, s) := run_query_of_ok hnonce.readAttemptByNonce_eq
  have hopen : ¬ job.status.isTerminal = true := by simpa [JobStatus.isOpen] using h.job_open
  have hstored : (query (readAttempt · job.jobId target.targetIndex
      (claimedAttempt s job target nonce claimedAt leaseExpires).attemptId)).run
      (s.claimed job target (claimedAttempt s job target nonce claimedAt leaseExpires) claimedAt) =
      .ok (some (claimedAttempt s job target nonce claimedAt leaseExpires), _) :=
    run_query_of_ok (h.readAttempt_eq wf)
  unfold claimTarget
  rw [run_bind_of_ok hread, run_bind_of_ok (run_orFail_some ..), if_neg hopen,
    run_bind_of_ok (run_query_of_ok (s := s) (wf.targetByRelay_eq h.target_mem)),
    run_bind_of_ok hunused]
  simp only
  rw [if_neg hready, if_neg hunsettled, hexpires, run_bind_of_ok (run_orFail_some ..)]
  refine (run_bind_of_ok (a := ()) (attemptsTable.run_insert_eq_ok.mpr
    ⟨h.attempt_allowed, rfl⟩)).trans ?_
  refine (run_bind_of_ok ((run_claimTargetRow
    (s := { s with
      attempts := s.attempts ++ [claimedAttempt s job target nonce claimedAt leaseExpires] })
    wf.targets_unique (mem_targetsOf.mp h.target_mem).1 h.free hstatus).mpr
    ⟨hallowed, rfl, rfl⟩)).trans ?_
  refine (run_bind_of_ok (a := ()) (run_requireOne_eq_ok.mpr ⟨rfl, rfl⟩)).trans ?_
  refine (run_bind_of_ok ((run_markJobActive job
    (s := { s with
      attempts := s.attempts ++ [claimedAttempt s job target nonce claimedAt leaseExpires]
      targets := Table.replace target
        (target.claimed (claimedAttempt s job target nonce claimedAt leaseExpires) claimedAt)
        s.targets })
    wf.jobs_unique h.job_mem).mpr ⟨h.job_allowed, rfl, rfl⟩)).trans ?_
  rw [run_bind_of_ok (run_require_of (by split <;> omega) _)]
  refine (run_bind_of_ok hstored).trans ?_
  rw [run_bind_of_ok (run_orFail_some ..)]
  rfl

/-- A claim of a due target with an unused nonce leases it. -/
theorem Claimable.claimTarget_run {nonce : Id32} {claimedAt : TimeUnixMs}
    (h : Claimable job target) (wf : DeliveryWf s) (hscheduled : Scheduled s)
    (hjob : job ∈ s.jobs) (hopen : job.status.isOpen = true)
    (htarget : target ∈ targetsOf s job.jobId) (hnonce : UnusedNonce s job target nonce)
    (hdue : target.dueAt ≤ claimedAt)
    (hlease : claimedAt.get + job.attemptDeadlineMs ≤ i64Max) :
    ∃ attempt s', (claimTarget job.jobId target.relayId nonce claimedAt).run s =
      .ok (.claimed attempt, s') := by
  obtain ⟨leaseExpires, hexpires⟩ : ∃ leaseExpires,
      TimeUnixMs.new (claimedAt.get + job.attemptDeadlineMs) = some leaseExpires :=
    ⟨_, TimeUnixMs.new_of_le (Nat.lt_of_lt_of_le claimedAt.pos (Nat.le_add_right ..)) hlease⟩
  have hstored := (mem_targetsOf.mp htarget).1
  have htime : target.updatedAt ≤ claimedAt :=
    Nat.le_trans (hscheduled.updatedAt_le_dueAt hstored) hdue
  have hready : ¬ (target.activeAttemptId.isSome = true ∨
      target.nextAttemptAt.any (claimedAt < ·) = true) := by
    rintro (hsome | hlate)
    · rw [h.free] at hsome
      cases hsome
    · obtain ⟨next, hnext, hlt⟩ := (Option.any_eq_true _ _).mp hlate
      rw [TargetRow.dueAt, hnext] at hdue
      exact absurd hdue (Nat.not_le.mpr (TimeUnixMs.lt_def.mp (by simpa using hlt)))
  have hunsettled : ¬ (target.status = .delivered ∨ target.status = .exhausted ∨
      job.maxAttempts ≤ target.attemptCount) := by
    have hremaining := h.remaining
    rcases h.status with hstatus | hstatus | hstatus <;> simp [hstatus] <;> omega
  have hattempt := h.attempt_allowed wf hjob htarget hnonce (TimeUnixMs.new_eq_some.mp hexpires)
  have hactivated : job.status = .pending →
      jobUpdateAllowed job (job.activated claimedAt) = true := by
    intro hpending
    refine jobUpdateAllowed_activated (wf.job_checked job hjob) hpending ?_
    rwa [← (hscheduled.fresh job hjob hpending target htarget).2]
  have hclaims : Claims s job target (claimedAttempt s job target nonce claimedAt leaseExpires)
      claimedAt := {
    job_mem := hjob
    job_open := hopen
    target_mem := htarget
    free := h.free
    ready := by simpa using fun hlate => hready (.inr hlate)
    unsettled := ⟨fun hstatus => hunsettled (.inl hstatus),
      fun hstatus => hunsettled (.inr (.inl hstatus))⟩
    remaining := h.remaining
    attempt_row := ⟨nonce, leaseExpires, rfl⟩
    attempt_allowed := hattempt
    job_allowed := hactivated }
  exact ⟨_, _, hclaims.claimTarget_run wf hnonce hready hunsettled
    (h.target_allowed wf hjob htarget htime rfl) h.status hexpires⟩

/-! ## Every open job can proceed -/

structure ProgressInv (s : Store) : Prop extends DeliveryInv s where
  scheduled : Scheduled s

theorem ProgressInv.calls (metadata : PersistedMetadata) (appliedAtUnixS : ℕ)
    (calls : List DeliveryCall) :
    ProgressInv (Run.after DeliveryCall.perform (Store.initial metadata appliedAtUnixS) calls) := by
  refine Run.invariant_always (fun s call inv => ?_) calls ?_
  · exact ⟨inv.toDeliveryInv.call call,
      inv.scheduled.move inv.toDeliveryWf (inv.toDeliveryInv.call_cases call)⟩
  · exact ⟨NoDelivery.inv ⟨rfl, rfl, rfl⟩, nofun, nofun⟩

/-- A required target that may still deliver and has not. -/
theorem exists_undelivered {maxAttempts required : ℕ} {targets : List TargetRow}
    (hdelivered : deliveredRequired targets < required)
    (hpossible : required ≤ possibleRequired maxAttempts targets) :
    ∃ target ∈ targets, target.mayDeliver maxAttempts = true ∧ target.status ≠ .delivered := by
  by_contra hnone
  have hall : ∀ target ∈ targets, target.mayDeliver maxAttempts = true →
      target.status = .delivered := by
    intro target htarget hmay
    by_contra hstatus
    exact hnone ⟨target, htarget, hmay, hstatus⟩
  have hle : possibleRequired maxAttempts targets ≤ deliveredRequired targets := by
    unfold possibleRequired deliveredRequired
    rw [← List.countP_eq_length_filter, ← List.countP_eq_length_filter]
    refine List.countP_mono_left fun target htarget hmay => ?_
    have hrequired : target.required = true := by
      simp only [TargetRow.mayDeliver, Bool.and_eq_true] at hmay
      exact hmay.1.1
    simp [hrequired, hall target htarget hmay]
  omega

/-- A target that may still deliver and has not is leased or can be. -/
theorem TargetOk.active_or_claimable {attempts : List AttemptRow}
    (h : TargetOk job target attempts) (hmax : 1 ≤ job.maxAttempts)
    (hmay : target.mayDeliver job.maxAttempts = true) (hstatus : target.status ≠ .delivered) :
    target.status.isActive = true ∨ Claimable job target := by
  have hlast := h.last
  rw [LastOk] at hlast
  cases hcase : target.status with
  | pending =>
      rw [hcase] at hlast
      exact .inr ⟨hlast.2.1, .inl hcase, by rw [h.attemptCount_pending hcase]; exact hmax⟩
  | leased | submitted => exact .inl rfl
  | delivered => exact absurd hcase hstatus
  | retryable =>
      rw [hcase] at hlast
      obtain ⟨-, -, -, hfree, -, hleft⟩ := hlast
      exact .inr ⟨hfree, .inr (.inl hcase), hleft⟩
  | unknown =>
      rw [hcase] at hlast
      obtain ⟨-, -, -, hfree, -⟩ := hlast
      refine .inr ⟨hfree, .inr (.inr hcase), ?_⟩
      have hleft : target.required = true ∧ target.attemptCount < job.maxAttempts := by
        simpa [TargetRow.mayDeliver, hcase] using hmay
      exact hleft.2
  | exhausted => simp [TargetRow.mayDeliver, hcase] at hmay

/-- In every state that delivery calls reach, what is delivered, live or left of an open job can
still reach its number of acknowledgements, and one of its required targets is not delivered and
is leased or submitted, or has attempts left: from its due time on, every claim of it with an
unused nonce whose lease ends at a representable time succeeds. -/
theorem open_job_can_proceed (metadata : PersistedMetadata) (appliedAtUnixS : ℕ)
    (calls : List DeliveryCall) :
    let s := Run.after DeliveryCall.perform (Store.initial metadata appliedAtUnixS) calls
    ∀ job ∈ s.jobs, job.status = .pending ∨ job.status = .active →
      job.requiredAcknowledgements ≤
          attainableRequired job.maxAttempts (targetsOf s job.jobId) ∧
        ∃ target ∈ targetsOf s job.jobId, target.required = true ∧ target.status ≠ .delivered ∧
          (target.status = .leased ∨ target.status = .submitted ∨
            (Claimable job target ∧
              ∀ (nonce : Id32) (claimedAt : TimeUnixMs), UnusedNonce s job target nonce →
                target.dueAt ≤ claimedAt → claimedAt.get + job.attemptDeadlineMs ≤ i64Max →
                ∃ attempt s', (claimTarget job.jobId target.relayId nonce claimedAt).run s =
                  .ok (.claimed attempt, s'))) := by
  intro s job hjob hstatus
  have inv : ProgressInv s := .calls metadata appliedAtUnixS calls
  have wf := inv.toDeliveryWf
  have hopen : job.status.isOpen = true := by
    rcases hstatus with hstatus | hstatus <;> rw [hstatus] <;> rfl
  obtain ⟨hdelivered, hpossible⟩ := inv.undecided_counts hjob hopen
  obtain ⟨target, htarget, hmay, hundelivered⟩ := exists_undelivered hdelivered hpossible
  refine ⟨wf.possibleRequired_eq hjob ▸ hpossible, target, htarget, ?_, hundelivered, ?_⟩
  · simp only [TargetRow.mayDeliver, Bool.and_eq_true] at hmay
    exact hmay.1.1
  · rcases (wf.histories job hjob target htarget).active_or_claimable (wf.maxAttempts_le hjob).1
      hmay hundelivered with hactive | hclaimable
    · cases hcase : target.status with
      | leased => exact .inl rfl
      | submitted => exact .inr (.inl rfl)
      | pending | delivered | retryable | unknown | exhausted =>
          rw [hcase] at hactive
          cases hactive
    · exact .inr (.inr ⟨hclaimable, fun nonce claimedAt hnonce hdue hlease =>
        hclaimable.claimTarget_run wf inv.scheduled hjob hopen htarget hnonce hdue hlease⟩)

end

/-- Before the rejection the sample job is active, and its target can bring it further. -/
theorem unrejected_job_can_proceed :
    let s := Run.after DeliveryCall.perform (Store.initial LostAcknowledgement.metadata 1)
      (LostAcknowledgement.run.dropLast.map .operation)
    ∃ job ∈ s.jobs, job.status = .active ∧
      job.requiredAcknowledgements ≤ attainableRequired job.maxAttempts (targetsOf s job.jobId) ∧
      ∃ target ∈ targetsOf s job.jobId, target.required = true ∧ target.status ≠ .delivered := by
  have hactive : ∃ job ∈ (Run.after DeliveryCall.perform
      (Store.initial LostAcknowledgement.metadata 1)
      (LostAcknowledgement.run.dropLast.map .operation)).jobs, job.status = .active := by
    decide +kernel
  obtain ⟨job, hjob, hstatus⟩ := hactive
  obtain ⟨hattainable, target, htarget, hrequired, hundelivered, -⟩ :=
    open_job_can_proceed LostAcknowledgement.metadata 1
      (LostAcknowledgement.run.dropLast.map .operation) job hjob (.inr hstatus)
  exact ⟨job, hjob, hstatus, hattainable, target, htarget, hrequired, hundelivered⟩

end MycSigner
