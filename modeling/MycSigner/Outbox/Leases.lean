import MycSigner.Delivery.History
import MycSigner.Outbox.Loop

/-!
# The leases of open jobs

A claim leases a target, and only an outcome or a recovery after the lease has expired ends
the lease.  A daemon that starts after every lease it finds has expired resolves all of them
before its loop runs, and the loop resolves each lease before it looks for the next target.
-/

namespace MycSigner

open Transaction

/-- The attempts that hold the lease of a leased or submitted target of an open job. -/
def openLeases (s : Store) : List AttemptRow :=
  (s.jobs.filter fun job => job.status.isOpen).flatMap fun job =>
    (targetsOf s job.jobId).flatMap fun target =>
      (attemptsOf s job.jobId target.targetIndex).filter fun attempt =>
        target.status.isActive && target.activeAttemptId == some attempt.attemptId

theorem mem_openLeases {s : Store} {attempt : AttemptRow} :
    attempt ∈ openLeases s ↔ ∃ job ∈ s.jobs, job.status.isOpen = true ∧
      ∃ target ∈ targetsOf s job.jobId, attempt ∈ attemptsOf s job.jobId target.targetIndex ∧
        target.status.isActive = true ∧ target.activeAttemptId = some attempt.attemptId := by
  simp only [openLeases, List.mem_flatMap, List.mem_filter, Bool.and_eq_true, beq_iff_eq, and_assoc]

/-! ## Leases are live attempts -/

section

variable {s s' : Store} {attempt : AttemptRow}

/-- A live attempt of a job that is still open. -/
structure Held (s : Store) (attempt : AttemptRow) : Prop where
  stored : attempt ∈ s.attempts
  live : attempt.status.isLive = true
  job_open : ∃ job ∈ s.jobs, job.jobId = attempt.jobId ∧ job.status.isOpen = true

theorem DeliveryWf.held_of_mem (wf : DeliveryWf s) (h : attempt ∈ openLeases s) :
    Held s attempt := by
  obtain ⟨job, hjob, hopen, target, htarget, hattempt, hactive, hid⟩ := mem_openLeases.mp h
  obtain ⟨hstored, hjobId, -⟩ := mem_attemptsOf.mp hattempt
  obtain ⟨last, hlast, hstatus, hlastId⟩ :=
    (wf.histories job hjob target htarget).last.of_active hactive
  have hlastMem := (mem_attemptsOf.mp (List.mem_of_getLast? hlast)).1
  have heq : last = attempt := wf.attempts_unique.eq_of_key_eq hlastMem hstored
    (Option.some.inj (hlastId.symm.trans hid))
  rw [heq] at hstatus
  exact ⟨hstored, AttemptStatus.isLive_of_asTarget hstatus, job, hjob, hjobId.symm, hopen⟩

/-- The target of a live attempt names it. -/
theorem DeliveryWf.target_of_live (wf : DeliveryWf s) {job : JobRow} (hjob : job ∈ s.jobs)
    (hid : job.jobId = attempt.jobId) (hstored : attempt ∈ s.attempts)
    (hlive : attempt.status.isLive = true) :
    ∃ target ∈ targetsOf s job.jobId, attempt ∈ attemptsOf s job.jobId target.targetIndex ∧
      target.status.isActive = true ∧ target.activeAttemptId = some attempt.attemptId := by
  obtain ⟨target, htarget, htargetJob, hindex⟩ := wf.attempt_has_target attempt hstored
  have htargetMem : target ∈ targetsOf s job.jobId :=
    mem_targetsOf.mpr ⟨htarget, htargetJob.trans hid.symm⟩
  have hattempt : attempt ∈ attemptsOf s job.jobId target.targetIndex :=
    mem_attemptsOf.mpr ⟨hstored, hid.symm, hindex.symm⟩
  obtain ⟨hstatus, hactive⟩ := wf.live_target hjob htargetMem hattempt hlive
  exact ⟨target, htargetMem, hattempt, AttemptStatus.asTarget_isActive hstatus, hactive⟩

theorem DeliveryWf.mem_openLeases_iff (wf : DeliveryWf s) :
    attempt ∈ openLeases s ↔ Held s attempt := by
  constructor
  · exact wf.held_of_mem
  · rintro ⟨hstored, hlive, job, hjob, hid, hopen⟩
    obtain ⟨target, htarget⟩ := wf.target_of_live hjob hid hstored hlive
    exact mem_openLeases.mpr ⟨job, hjob, hopen, target, htarget⟩

/-! ## What a step does to the leases -/

/-- A finalized store has no other open jobs than before. -/
theorem open_of_finalized {job row : JobRow} {observedAt : TimeUnixMs}
    (h : row ∈ (s.finalized job observedAt).jobs) (hopen : row.status.isOpen = true) :
    row ∈ s.jobs := by
  unfold Store.finalized at h
  split at h
  next status hverdict =>
    rcases Table.mem_replace.mp h with ⟨hrow, -⟩ | ⟨-, rfl⟩
    · exact hrow
    · rw [show (job.finalized status observedAt).status = status from rfl,
        verdict_terminal hverdict] at hopen
      cases hopen
  next => exact h

section Resolution

variable {job : JobRow} {target : TargetRow} {current : AttemptRow} {terminal : AttemptStatus}
  {reason : AttemptReason} {jitter : RetryJitter} {status : TargetStatus}
  {next : Option TimeUnixMs} {observedAt : TimeUnixMs}

/-- A resolution ends the lease of its attempt and starts none. -/
theorem Resolves.held_of_held (wf : DeliveryWf s)
    (h : Resolves s job target current terminal reason jitter status next observedAt)
    (hheld : Held ((s.resolved target current terminal reason status next observedAt).finalized job
      observedAt) attempt) :
    Held s attempt ∧ attempt.attemptId ≠ current.attemptId := by
  obtain ⟨hstored, hlive, row, hrow, hid, hopen⟩ := hheld
  rw [attempts_finalized] at hstored
  rcases Table.mem_replace.mp hstored with ⟨hattempt, hne⟩ | ⟨-, rfl⟩
  · have hcurrent := (mem_attemptsOf.mp h.attempt_mem).1
    refine ⟨⟨hattempt, hlive, row, (open_of_finalized hrow hopen :), hid, hopen⟩, fun hsame => ?_⟩
    exact hne (wf.attempts_unique.eq_of_key_eq hattempt hcurrent hsame)
  · rw [show (current.resolved terminal reason observedAt).status = terminal from rfl,
      resolvedTarget_settles h.outcome] at hlive
    cases hlive

end Resolution

/-- No attempt with this id holds a lease. -/
def Unheld (s : Store) (attemptId : Id32) : Prop :=
  ∀ attempt, Held s attempt → attempt.attemptId ≠ attemptId

theorem DeliveryWf.unheld_of_settled (wf : DeliveryWf s) {attemptId : Id32}
    (h : Settled s attemptId) : Unheld s attemptId := by
  intro attempt hheld hid
  obtain ⟨row, hrow, hrowId, hsettled⟩ := h
  obtain rfl := wf.attempts_unique.eq_of_key_eq hrow hheld.stored (hrowId.trans hid.symm)
  rw [hheld.live] at hsettled
  cases hsettled

/-- The store keeps the invariant, and every lease was there before. -/
structure Releases (s s' : Store) : Prop where
  inv : DeliveryInv s'
  held : ∀ attempt, Held s' attempt → Held s attempt

theorem Releases.trans {s₁ s₂ s₃ : Store} (h₁ : Releases s₁ s₂) (h₂ : Releases s₂ s₃) :
    Releases s₁ s₃ :=
  ⟨h₂.inv, fun attempt h => h₁.held attempt (h₂.held attempt h)⟩

theorem Releases.unheld {attemptId : Id32} (h : Releases s s') (hunheld : Unheld s attemptId) :
    Unheld s' attemptId :=
  fun attempt hheld => hunheld attempt (h.held attempt hheld)

theorem DeliveryInv.releases_refl (inv : DeliveryInv s) : Releases s s := ⟨inv, fun _ h => h⟩

/-- What keeps the delivery tables keeps the leases. -/
theorem DeliveryInv.releases_congr (inv : DeliveryInv s) (hjobs : s'.jobs = s.jobs)
    (htargets : s'.targets = s.targets) (hattempts : s'.attempts = s.attempts) :
    Releases s s' :=
  ⟨inv.congr hjobs htargets hattempts,
    fun _ h => ⟨hattempts ▸ h.stored, h.live, hjobs ▸ h.job_open⟩⟩

/-- A recorded outcome ends the lease of the attempt. -/
theorem recordOutcome_releases {jobId attemptId : Id32} {relayId : RelayId}
    {outcome : AttemptOutcome} {jitter : RetryJitter} {observedAt : TimeUnixMs}
    {record : JobRecord} (inv : DeliveryInv s)
    (h : (recordOutcome jobId relayId attemptId outcome jitter observedAt).run s =
      .ok (record, s')) :
    Releases s s' ∧ Unheld s' attemptId := by
  have wf := inv.toDeliveryWf
  rcases recordOutcome_cases wf h with ⟨rfl, hsettled⟩ | ⟨job, target, current, status, next, -, -,
    rfl, -, hresolves, rfl⟩
  · exact ⟨inv.releases_refl, wf.unheld_of_settled hsettled⟩
  · exact ⟨⟨inv.resolved hresolves, fun _ h => (hresolves.held_of_held wf h).1⟩,
      fun _ h => (hresolves.held_of_held wf h).2⟩

/-- A recovered lease is ended. -/
theorem recoverExpired_releases {jobId attemptId : Id32} {relayId : RelayId} {jitter : RetryJitter}
    {observedAt : TimeUnixMs} {record : JobRecord} (inv : DeliveryInv s)
    (h : (recoverExpired jobId relayId attemptId jitter observedAt).run s = .ok (record, s')) :
    Releases s s' ∧ Unheld s' attemptId := by
  have wf := inv.toDeliveryWf
  rcases recoverExpired_cases wf h with ⟨rfl, hsettled⟩ | ⟨job, target, current, status, next, -, -,
    rfl, -, hresolves, rfl⟩
  · exact ⟨inv.releases_refl, wf.unheld_of_settled hsettled⟩
  · exact ⟨⟨inv.resolved hresolves, fun _ h => (hresolves.held_of_held wf h).1⟩,
      fun _ h => (hresolves.held_of_held wf h).2⟩

/-- A submission keeps the lease of its attempt. -/
theorem markSubmitted_held {jobId attemptId : Id32} {relayId : RelayId} {submittedAt : TimeUnixMs}
    {result : AttemptRow} (inv : DeliveryInv s)
    (h : (markSubmitted jobId relayId attemptId submittedAt).run s = .ok (result, s'))
    (hheld : Held s' attempt) : ∃ old, Held s old ∧ old.attemptId = attempt.attemptId := by
  rcases markSubmitted_cases inv.toDeliveryWf h with ⟨rfl, -⟩ | ⟨job, target, current, -, hsubmits,
    rfl⟩
  · exact ⟨attempt, hheld, rfl⟩
  · obtain ⟨hstored, hlive, hopen⟩ := hheld
    rcases Table.mem_replace.mp hstored with ⟨hattempt, -⟩ | ⟨hcurrent, rfl⟩
    · exact ⟨attempt, ⟨hattempt, hlive, hopen⟩, rfl⟩
    · refine ⟨current, ⟨hcurrent, ?_, hopen⟩, rfl⟩
      rw [hsubmits.attempt_leased]
      rfl

/-- A claim leases its own attempt. -/
theorem claimTarget_held {jobId nonce : Id32} {relayId : RelayId} {claimedAt : TimeUnixMs}
    {claim : Claim} (inv : DeliveryInv s)
    (h : (claimTarget jobId relayId nonce claimedAt).run s = .ok (claim, s'))
    (hheld : Held s' attempt) :
    Held s attempt ∨ ∃ stored, claim = .claimed stored ∧ stored.attemptId = attempt.attemptId := by
  rcases claimTarget_cases inv.toDeliveryWf h with ⟨rfl, -⟩ | ⟨job, target, current, hclaims, rfl,
    stored, hclaim, hid⟩
  · exact .inl hheld
  · obtain ⟨hstored, hlive, row, hrow, hrowId, hopen⟩ := hheld
    rcases List.mem_append.mp hstored with hattempt | hattempt
    · refine .inl ⟨hattempt, hlive, ?_⟩
      rcases Table.mem_replace.mp hrow with ⟨hrow, -⟩ | ⟨hjob, rfl⟩
      · exact ⟨row, hrow, hrowId, hopen⟩
      · exact ⟨job, hjob, by simpa using hrowId, hclaims.job_open⟩
    · obtain rfl := List.mem_singleton.mp hattempt
      exact .inr ⟨stored, hclaim, hid⟩

/-- A new job has no leases. -/
theorem createJob_releases {source : Source} {artifact : Id32} {createdAt : TimeUnixMs}
    {policy : DeliveryPolicies} {admission : JobAdmission} (inv : DeliveryInv s)
    (h : (createJob source artifact createdAt policy).run s = .ok (admission, s')) :
    Releases s s' := by
  rcases createJob_eq_ok h with ⟨rfl, -⟩ | ⟨-, -, hallowed, rfl, -⟩
  · exact inv.releases_refl
  · refine ⟨inv.created hallowed, fun attempt hheld => ⟨hheld.stored, hheld.live, ?_⟩⟩
    obtain ⟨row, hrow, hid, hopen⟩ := hheld.job_open
    rcases List.mem_append.mp hrow with hrow | hrow
    · exact ⟨row, hrow, hid, hopen⟩
    · obtain rfl := List.mem_singleton.mp hrow
      obtain ⟨target, htarget, htargetJob, -⟩ := inv.attempt_has_target attempt hheld.stored
      obtain ⟨job, hjob, hjobId⟩ := inv.target_has_job target htarget
      exact absurd (hjobId.trans (htargetJob.trans hid.symm))
        ((fresh_of_jobInsertAllowed hallowed).2.1 job hjob)

end

end MycSigner
