import MycSigner.Delivery.Evidence
import MycSigner.Delivery.History

/-!
# Finalization

A job is delivered as soon as enough of its required targets are, and it fails or ends unknown
only when the required targets that still could deliver are too few.  Outcomes and recoveries
that arrive later change neither, and a job that is still open has a required target that can
bring it further.
-/

namespace MycSigner

open Transaction

/-! ## Counting what can still be delivered -/

/-- The required targets that have delivered, hold a live attempt or have attempts left. -/
def attainableRequired (maxAttempts : ℕ) (targets : List TargetRow) : ℕ :=
  (targets.filter fun target => target.required && (target.status == .delivered ||
    target.status.isActive || decide (target.attemptCount < maxAttempts))).length

section

variable {s s' : Store} {job : JobRow} {target : TargetRow}

theorem TargetOk.attemptCount_pending {attempts : List AttemptRow}
    (h : TargetOk job target attempts) (hpending : target.status = .pending) :
    target.attemptCount = 0 := by
  have hlast := h.last
  rw [LastOk, hpending] at hlast
  rw [← h.count, List.getLast?_eq_none_iff.mp hlast.1]
  rfl

/-- What finalization counts as possible is what the attempts can still bring. -/
theorem TargetOk.mayDeliver_iff {attempts : List AttemptRow} (h : TargetOk job target attempts)
    (hmax : 1 ≤ job.maxAttempts) :
    target.mayDeliver job.maxAttempts = (target.required && (target.status == .delivered ||
      target.status.isActive || decide (target.attemptCount < job.maxAttempts))) := by
  have hlast := h.last
  rw [LastOk] at hlast
  rw [Bool.eq_iff_iff, TargetRow.mayDeliver]
  cases hstatus : target.status with
  | pending =>
      have hleft : target.attemptCount < job.maxAttempts := by
        rw [h.attemptCount_pending hstatus]
        exact hmax
      simp [hleft]
  | leased | submitted => simp [TargetStatus.isActive]
  | delivered => simp
  | retryable =>
      rw [hstatus] at hlast
      obtain ⟨-, -, -, -, -, hleft⟩ := hlast
      simp [hleft]
  | unknown => simp [TargetStatus.isActive]
  | exhausted =>
      rw [hstatus] at hlast
      obtain ⟨-, -, -, -, -, hspent⟩ := hlast
      simp [TargetStatus.isActive, hspent]

theorem DeliveryWf.possibleRequired_eq (wf : DeliveryWf s) (hjob : job ∈ s.jobs) :
    possibleRequired job.maxAttempts (targetsOf s job.jobId) =
      attainableRequired job.maxAttempts (targetsOf s job.jobId) := by
  unfold possibleRequired attainableRequired
  refine congrArg List.length (List.filter_congr fun target htarget => ?_)
  exact (wf.histories job hjob target htarget).mayDeliver_iff (wf.maxAttempts_le hjob).1

theorem deliveredRequired_le_possible (maxAttempts : ℕ) (targets : List TargetRow) :
    deliveredRequired targets ≤ possibleRequired maxAttempts targets := by
  unfold deliveredRequired possibleRequired
  refine List.Sublist.length_le (List.monotone_filter_right targets ?_)
  intro target hdelivered
  simp only [Bool.and_eq_true, beq_iff_eq] at hdelivered
  simp [TargetRow.mayDeliver, hdelivered.1, hdelivered.2]

/-! ## The reason of every verdict -/

/-- The targets bear out the terminal status of a job. -/
structure JobRow.Justified (job : JobRow) (targets : List TargetRow) : Prop where
  delivered : job.status = .delivered →
    job.requiredAcknowledgements ≤ deliveredRequired targets
  impossible : job.status = .failed ∨ job.status = .unknown →
    possibleRequired job.maxAttempts targets < job.requiredAcknowledgements

theorem JobRow.Justified.of_isOpen {targets : List TargetRow} (hopen : job.status.isOpen = true) :
    job.Justified targets where
  delivered := by
    intro hstatus
    rw [hstatus] at hopen
    cases hopen
  impossible := by
    rintro (hstatus | hstatus) <;> rw [hstatus] at hopen <;> cases hopen

theorem JobRow.Justified.of_terminalStatus {targets : List TargetRow} {status : JobStatus}
    {observedAt : TimeUnixMs} (h : terminalStatus { job with targets } = some status) :
    (job.finalized status observedAt).Justified targets := by
  unfold terminalStatus at h
  split at h
  next hdelivered =>
    obtain rfl := Option.some.inj h
    exact ⟨fun _ => hdelivered, by rintro (hstatus | hstatus) <;> cases hstatus⟩
  next =>
    split at h
    next => cases h
    next hpossible =>
      refine ⟨fun hstatus => ?_, fun _ => Nat.lt_of_not_le hpossible⟩
      obtain rfl : status = .delivered := hstatus
      split at h <;> cases h

/-- Every verdict is borne out by the targets as they now are. -/
def JobsJustified (s : Store) : Prop := ∀ job ∈ s.jobs, job.Justified (targetsOf s job.jobId)

/-- A step that rewrites one job and one target of it only has to look at that job. -/
theorem JobsJustified.of_replace {job' : JobRow} {target' : TargetRow} (h : JobsJustified s)
    (wf : DeliveryWf s) (hjob : job ∈ s.jobs) (htarget : target ∈ targetsOf s job.jobId)
    (hjobs : s'.jobs = Table.replace job job' s.jobs)
    (htargets : s'.targets = Table.replace target target' s.targets)
    (hid : target'.jobId = target.jobId) (hjob' : job'.Justified (targetsOf s' job'.jobId)) :
    JobsJustified s' := by
  intro row hrow
  rw [hjobs] at hrow
  rcases Table.mem_replace.mp hrow with ⟨hmem, hne⟩ | ⟨-, rfl⟩
  · have hkept : targetsOf s' row.jobId = targetsOf s row.jobId := by
      rw [DeliveryWf.targetsOf_replace htargets hid]
      refine Table.replace_of_not_mem fun hin => hne ?_
      exact wf.jobs_unique.eq_of_key_eq hmem hjob
        ((mem_targetsOf.mp hin).2.symm.trans (mem_targetsOf.mp htarget).2)
    rw [hkept]
    exact h row hmem
  · exact hjob'

theorem DeliveryWf.targetsOf_nodup (wf : DeliveryWf s) (jobId : Id32) :
    (targetsOf s jobId).Nodup :=
  wf.targets_unique.nodup.filter _

/-- An active target that is rewritten can only add a delivery and end a possibility. -/
theorem JobRow.Justified.of_active {targets : List TargetRow} {target' : TargetRow}
    (h : job.Justified targets) (hnodup : targets.Nodup) (htarget : target ∈ targets)
    (hactive : target.status.isActive = true) (hrequired : target'.required = target.required) :
    job.Justified (Table.replace target target' targets) := by
  have hlive : target.status = .leased ∨ target.status = .submitted := by
    cases hstatus : target.status with
    | leased => exact .inl rfl
    | submitted => exact .inr rfl
    | pending | delivered | retryable | unknown | exhausted =>
        rw [hstatus] at hactive
        cases hactive
  have hundelivered : (target.required && target.status == .delivered) = false := by
    rcases hlive with hstatus | hstatus <;> simp [hstatus]
  have hmay : target.mayDeliver job.maxAttempts = target.required := by
    rw [Bool.eq_iff_iff, TargetRow.mayDeliver]
    rcases hlive with hstatus | hstatus <;> simp [hstatus]
  have hmay' : (target'.mayDeliver job.maxAttempts).toNat ≤ target.required.toNat := by
    unfold TargetRow.mayDeliver
    rw [hrequired]
    cases target.required <;> simp [Bool.toNat_le]
  have hdelivered := Table.length_filter_replace
    (fun target => target.required && target.status == .delivered) target' hnodup htarget
  have hpossible := Table.length_filter_replace (TargetRow.mayDeliver job.maxAttempts) target'
    hnodup htarget
  simp only [hundelivered, Bool.toNat_false] at hdelivered
  rw [hmay] at hpossible
  refine ⟨fun hstatus => ?_, fun hstatus => ?_⟩
  · have hold := h.delivered hstatus
    unfold deliveredRequired at hold ⊢
    omega
  · have hold := h.impossible hstatus
    unfold possibleRequired at hold ⊢
    omega

theorem JobsJustified.created {source : Source} {artifact : Id32} {createdAt : TimeUnixMs}
    {policy : DeliveryPolicies} (h : JobsJustified s)
    (hallowed : jobInsertAllowed s (newJobRow source artifact createdAt policy) = true) :
    JobsJustified (s.created source artifact createdAt policy) := by
  have hfresh := (fresh_of_jobInsertAllowed hallowed).2.1
  intro job hjob
  rcases List.mem_append.mp hjob with hmem | hmem
  · rw [targetsOf_created, if_neg (fun heq => hfresh job hmem heq.symm), List.append_nil]
    exact h job hmem
  · rw [List.mem_singleton.mp hmem]
    exact .of_isOpen rfl

theorem JobsJustified.resolved {attempt : AttemptRow} {terminal : AttemptStatus}
    {reason : AttemptReason} {jitter : RetryJitter} {status : TargetStatus}
    {next : Option TimeUnixMs} {observedAt : TimeUnixMs} (h : JobsJustified s) (wf : DeliveryWf s)
    (hresolves : Resolves s job target attempt terminal reason jitter status next observedAt) :
    JobsJustified ((s.resolved target attempt terminal reason status next observedAt).finalized job
      observedAt) := by
  have hsame : (job.Justified (targetsOf (s.resolved target attempt terminal reason status next
      observedAt) job.jobId)) := by
    rw [targetsOf_resolved]
    exact (h job hresolves.job_mem).of_active (wf.targetsOf_nodup job.jobId) hresolves.target_mem
      (hresolves.active wf).1 rfl
  unfold Store.finalized
  split
  next verdict hverdict =>
    have hjobs : { s.resolved target attempt terminal reason status next observedAt with
        jobs := Table.replace job (job.finalized verdict observedAt) s.jobs }.jobs =
        Table.replace job (job.finalized verdict observedAt) s.jobs := rfl
    refine h.of_replace wf hresolves.job_mem hresolves.target_mem hjobs rfl rfl ?_
    rw [Store.verdict, if_pos (verdict_open hverdict)] at hverdict
    exact .of_terminalStatus hverdict
  next =>
    exact h.of_replace wf hresolves.job_mem hresolves.target_mem Table.replace_self.symm rfl rfl
      hsame

/-- Every step keeps the verdicts borne out. -/
theorem JobsJustified.step (h : JobsJustified s) (wf : DeliveryWf s) (hstep : DeliveryStep s s') :
    JobsJustified s' := by
  cases hstep with
  | create capacity allowed => exact h.created allowed
  | claim hclaims =>
      refine h.of_replace wf hclaims.job_mem hclaims.target_mem rfl rfl rfl (.of_isOpen ?_)
      exact JobRow.activated_isOpen hclaims.job_open _
  | @submit job target attempt submittedAt hsubmits =>
      refine h.of_replace wf hsubmits.job_mem hsubmits.target_mem Table.replace_self.symm rfl rfl ?_
      have htargets : targetsOf (s.submitted target attempt submittedAt) job.jobId =
          Table.replace target (target.submitted submittedAt) (targetsOf s job.jobId) := by
        rw [DeliveryWf.targetsOf_replace rfl]
        rfl
      rw [htargets]
      exact (h job hsubmits.job_mem).of_active (wf.targetsOf_nodup job.jobId) hsubmits.target_mem
        (by rw [hsubmits.target_leased]; rfl) rfl
  | resolve hresolves => exact h.resolved wf hresolves

theorem JobsJustified.move (h : JobsJustified s) (wf : DeliveryWf s)
    (hmove : DeliveryStep s s' ∨ SameDelivery s s') : JobsJustified s' := by
  rcases hmove with hstep | hsame
  · exact h.step wf hstep
  · intro job hjob
    rw [hsame.jobs] at hjob
    have htargets : targetsOf s' job.jobId = targetsOf s job.jobId := by
      unfold targetsOf
      rw [hsame.targets]
    rw [htargets]
    exact h job hjob

/-! ## Verdicts are sound and permanent -/

/-- The invariant of the delivery tables together with the reasons of the verdicts. -/
structure FinalizationInv (s : Store) : Prop extends DeliveryInv s where
  justified : JobsJustified s

theorem FinalizationInv.call (inv : FinalizationInv s) (call : DeliveryCall) :
    FinalizationInv (call.perform s) where
  toDeliveryInv := inv.toDeliveryInv.call call
  justified := inv.justified.move inv.toDeliveryWf (inv.toDeliveryInv.call_cases call)

theorem FinalizationInv.initial (metadata : PersistedMetadata) (appliedAtUnixS : ℕ) :
    FinalizationInv (Store.initial metadata appliedAtUnixS) where
  toDeliveryInv := NoDelivery.inv ⟨rfl, rfl, rfl⟩
  justified := by
    intro job hjob
    cases hjob

theorem FinalizationInv.calls (metadata : PersistedMetadata) (appliedAtUnixS : ℕ)
    (calls : List DeliveryCall) :
    FinalizationInv (Run.after DeliveryCall.perform (Store.initial metadata appliedAtUnixS)
      calls) :=
  Run.invariant_always (fun _ call inv => inv.call call) calls
    (FinalizationInv.initial metadata appliedAtUnixS)

/-- A job is delivered exactly when enough of its required targets are. -/
theorem FinalizationInv.delivered_iff (inv : FinalizationInv s) (hjob : job ∈ s.jobs) :
    job.status = .delivered ↔
      job.requiredAcknowledgements ≤ deliveredRequired (targetsOf s job.jobId) := by
  refine ⟨(inv.justified job hjob).delivered, fun hreached => ?_⟩
  have hpossible := deliveredRequired_le_possible job.maxAttempts (targetsOf s job.jobId)
  cases hstatus : job.status with
  | delivered => rfl
  | pending | active =>
      have hundecided := inv.undecided_counts hjob (by rw [hstatus]; rfl)
      omega
  | failed =>
      have himpossible := (inv.justified job hjob).impossible (.inl hstatus)
      omega
  | unknown =>
      have himpossible := (inv.justified job hjob).impossible (.inr hstatus)
      omega

/-- In every state that delivery calls reach, a job is delivered exactly when the required
targets that are delivered reach its number of acknowledgements, it has failed or ended unknown
only when the attempts that are live or left cannot reach it, in this state or any later one,
and a terminal job never changes. -/
theorem finalization_sound_and_permanent (metadata : PersistedMetadata) (appliedAtUnixS : ℕ)
    (first rest : List DeliveryCall) :
    let s := Run.after DeliveryCall.perform (Store.initial metadata appliedAtUnixS) first
    let s' := Run.after DeliveryCall.perform s rest
    ∀ job ∈ s.jobs,
      (job.status = .delivered ↔
        job.requiredAcknowledgements ≤ deliveredRequired (targetsOf s job.jobId)) ∧
      (job.status = .failed ∨ job.status = .unknown →
        attainableRequired job.maxAttempts (targetsOf s job.jobId) <
            job.requiredAcknowledgements ∧
          deliveredRequired (targetsOf s' job.jobId) < job.requiredAcknowledgements) ∧
      (job.status.isTerminal = true →
        job ∈ s'.jobs ∧ ∀ row ∈ s'.jobs, row.jobId = job.jobId → row = job) := by
  intro s s' job hjob
  have inv : FinalizationInv s := .calls metadata appliedAtUnixS first
  have inv' : FinalizationInv s' := by
    have hrun := FinalizationInv.calls metadata appliedAtUnixS (first ++ rest)
    rwa [Run.after_append] at hrun
  have hcarries : CarriesDelivery s s' := .calls inv.toDeliveryInv rest
  have hkept : job.status.isTerminal = true → job ∈ s'.jobs := hcarries.job_mem hjob
  refine ⟨inv.delivered_iff hjob, fun hstatus => ⟨?_, ?_⟩, fun hterminal => ⟨hkept hterminal,
    fun row hrow hid => hcarries.job_eq inv'.toDeliveryWf hjob hterminal hrow hid⟩⟩
  · rw [← inv.toDeliveryWf.possibleRequired_eq hjob]
    exact (inv.justified job hjob).impossible hstatus
  · have hterminal : job.status.isTerminal = true := by
      rcases hstatus with hstatus | hstatus <;> rw [hstatus] <;> rfl
    exact Nat.lt_of_le_of_lt (deliveredRequired_le_possible job.maxAttempts _)
      ((inv'.justified job (hkept hterminal)).impossible hstatus)

end

/-- The rejection of the last attempt fails the sample job for good. -/
theorem rejected_job_stays_failed :
    let s := Run.after DeliveryCall.perform (Store.initial LostAcknowledgement.metadata 1)
      (LostAcknowledgement.run.map .operation)
    ∃ job ∈ s.jobs, job.status = .failed ∧
      attainableRequired job.maxAttempts (targetsOf s job.jobId) < job.requiredAcknowledgements ∧
      job ∈ (Run.after DeliveryCall.perform s (LostAcknowledgement.run.map .operation)).jobs := by
  have hfailed : ∃ job ∈ (Run.after DeliveryCall.perform
      (Store.initial LostAcknowledgement.metadata 1)
      (LostAcknowledgement.run.map .operation)).jobs, job.status = .failed := by
    decide +kernel
  obtain ⟨job, hjob, hstatus⟩ := hfailed
  have hfinal := finalization_sound_and_permanent LostAcknowledgement.metadata 1
    (LostAcknowledgement.run.map .operation) (LostAcknowledgement.run.map .operation) job hjob
  have hterminal : job.status.isTerminal = true := by
    rw [hstatus]
    rfl
  exact ⟨job, hjob, hstatus, (hfinal.2.1 (.inl hstatus)).1, (hfinal.2.2 hterminal).1⟩

end MycSigner
