import MycSigner.Delivery.Representation
import MycSigner.Lib.History

/-!
# The history of delivery rows

A job and an attempt keep what they were created with.  An attempt is leased, perhaps
submitted, and resolved once; a job is finalized once.  After that their rows never change,
whatever calls follow.
-/

namespace MycSigner

/-! ## One row -/

/-- What may become of an attempt row. -/
structure AttemptRow.Continues (old new : AttemptRow) : Prop where
  same : { new with
    status := old.status, submittedAt := old.submittedAt,
    resolvedAt := old.resolvedAt, reasonCode := old.reasonCode } = old
  settled : old.status.isLive = false → new = old
  submission : ∀ submitted, old.submittedAt = some submitted → new.submittedAt = some submitted
  forward : old.status = .submitted → new.status ≠ .leased

namespace AttemptRow.Continues

variable {a b c : AttemptRow}

theorem refl (a : AttemptRow) : a.Continues a :=
  ⟨rfl, fun _ => rfl, fun _ h => h, fun h => by rw [h]; decide⟩

theorem attemptId (h : a.Continues b) : b.attemptId = a.attemptId :=
  (congrArg AttemptRow.attemptId h.same :)

theorem trans (h : a.Continues b) (h' : b.Continues c) : a.Continues c where
  same := by
    have hsame := h.same
    rw [← h'.same] at hsame
    exact hsame
  settled := by
    intro hsettled
    obtain rfl := h.settled hsettled
    exact h'.settled hsettled
  submission := fun submitted hsubmitted => h'.submission _ (h.submission _ hsubmitted)
  forward := by
    intro hstatus
    cases hb : b.status with
    | leased => exact absurd hb (h.forward hstatus)
    | submitted => exact h'.forward hb
    | delivered | failed | unknown =>
        rw [h'.settled (by rw [hb]; rfl), hb]
        decide

theorem submitted {submittedAt : TimeUnixMs} (hleased : a.status = .leased)
    (hnone : a.submittedAt = none) : a.Continues (a.submitted submittedAt) where
  same := rfl
  settled := by rw [hleased]; intro h; cases h
  submission := by rw [hnone]; intro _ h; cases h
  forward := by rw [hleased]; intro h; cases h

theorem resolved {terminal : AttemptStatus} {reason : AttemptReason} {observedAt : TimeUnixMs}
    (hlive : a.status.isLive = true) (hterminal : terminal.isLive = false) :
    a.Continues (a.resolved terminal reason observedAt) where
  same := rfl
  settled := by rw [hlive]; intro h; cases h
  submission := fun _ h => h
  forward := by
    rintro - heq
    rw [show terminal = .leased from heq] at hterminal
    cases hterminal

end AttemptRow.Continues

/-- What may become of a job row. -/
structure JobRow.Continues (old new : JobRow) : Prop where
  same : { new with
    status := old.status, updatedAt := old.updatedAt, finalizedAt := old.finalizedAt } = old
  final : old.status.isTerminal = true → new = old

namespace JobRow.Continues

variable {a b c : JobRow}

theorem refl (a : JobRow) : a.Continues a := ⟨rfl, fun _ => rfl⟩

theorem jobId (h : a.Continues b) : b.jobId = a.jobId := (congrArg JobRow.jobId h.same :)

theorem trans (h : a.Continues b) (h' : b.Continues c) : a.Continues c where
  same := by
    have hsame := h.same
    rw [← h'.same] at hsame
    exact hsame
  final := by
    intro hterminal
    obtain rfl := h.final hterminal
    exact h'.final hterminal

theorem of_open (hopen : a.status.isOpen = true) (hsame : { b with
    status := a.status, updatedAt := a.updatedAt, finalizedAt := a.finalizedAt } = a) :
    a.Continues b where
  same := hsame
  final := by
    intro hterminal
    rw [JobStatus.isOpen, hterminal] at hopen
    cases hopen

end JobRow.Continues

/-! ## One step -/

section

variable {s s' : Store}

theorem verdict_terminal {job : JobRow} {status : JobStatus} (h : s.verdict job = some status) :
    status.isOpen = false := by
  unfold Store.verdict terminalStatus at h
  grind [JobStatus.isOpen, JobStatus.isTerminal]

theorem resolvedTarget_settles {job : JobRow} {target : TargetRow} {number : ℕ}
    {terminal : AttemptStatus} {jitter : RetryJitter} {observedAt : TimeUnixMs}
    {result : TargetStatus × Option TimeUnixMs}
    (h : resolvedTarget job target number terminal jitter observedAt = .ok result) :
    terminal.isLive = false := by
  cases terminal with
  | leased | submitted => cases h
  | delivered | failed | unknown => rfl

theorem attempts_finalized (job : JobRow) (observedAt : TimeUnixMs) :
    (s.finalized job observedAt).attempts = s.attempts := by
  unfold Store.finalized
  split <;> rfl

/-- The delivery tables are as they were. -/
structure SameDelivery (s s' : Store) : Prop where
  jobs : s'.jobs = s.jobs
  targets : s'.targets = s.targets
  attempts : s'.attempts = s.attempts

theorem SameDelivery.refl (s : Store) : SameDelivery s s := ⟨rfl, rfl, rfl⟩

theorem attemptShape_of_check {attempt : AttemptRow} (h : attemptCheck attempt = true) :
    attemptShape attempt = true := by
  simp only [attemptCheck, Bool.and_eq_true] at h
  exact h.2

theorem Submits.unsubmitted {job : JobRow} {target : TargetRow} {attempt : AttemptRow}
    {submittedAt : TimeUnixMs} (wf : DeliveryWf s)
    (h : Submits s job target attempt submittedAt) : attempt.submittedAt = none := by
  have hcheck := (wf.histories job h.job_mem target h.target_mem).checked attempt h.attempt_mem
  have hshape := attemptShape_of_check hcheck
  rw [attemptShape, h.attempt_leased] at hshape
  simp only [Bool.and_eq_true, Option.isNone_iff_eq_none] at hshape
  exact hshape.1.1

theorem DeliveryStep.attempts_carried (wf : DeliveryWf s) (h : DeliveryStep s s') :
    Table.Carried AttemptRow.Continues s.attempts s'.attempts := by
  cases h with
  | create => exact .refl .refl
  | claim h => exact .of_subset .refl (List.subset_append_left ..)
  | submit h => exact .replace .refl (.submitted h.attempt_leased (h.unsubmitted wf))
  | resolve h =>
      rw [attempts_finalized]
      exact .replace .refl (.resolved h.live (resolvedTarget_settles h.outcome))

theorem JobRow.activated_isOpen {job : JobRow} (hopen : job.status.isOpen = true)
    (claimedAt : TimeUnixMs) : (job.activated claimedAt).status.isOpen = true := by
  unfold JobRow.activated
  split
  · rfl
  · exact hopen

theorem JobRow.activated_continues {job : JobRow} (hopen : job.status.isOpen = true)
    (claimedAt : TimeUnixMs) : job.Continues (job.activated claimedAt) := by
  refine .of_open hopen ?_
  unfold JobRow.activated
  split <;> rfl

theorem verdict_open {job : JobRow} {status : JobStatus} (h : s.verdict job = some status) :
    job.status.isOpen = true := by
  unfold Store.verdict at h
  split at h
  next hopen => exact hopen
  next => cases h

theorem jobs_carried_finalized {job : JobRow} {observedAt : TimeUnixMs} :
    Table.Carried JobRow.Continues s.jobs (s.finalized job observedAt).jobs := by
  unfold Store.finalized
  split
  next status hverdict => exact .replace .refl (.of_open (verdict_open hverdict) rfl)
  next => exact .refl .refl

theorem DeliveryStep.jobs_carried (h : DeliveryStep s s') :
    Table.Carried JobRow.Continues s.jobs s'.jobs := by
  cases h with
  | create => exact .of_subset .refl (List.subset_append_left ..)
  | claim h => exact .replace .refl (JobRow.activated_continues h.job_open _)
  | submit h => exact .refl .refl
  | resolve h => exact jobs_carried_finalized (s := s.resolved _ _ _ _ _ _ _)

/-- Only the last attempt of a target can be live. -/
theorem TargetOk.live_le_one {job : JobRow} {target : TargetRow} {attempts : List AttemptRow}
    (h : TargetOk job target attempts) :
    (attempts.filter fun attempt => attempt.status.isLive).length ≤ 1 := by
  rcases List.eq_nil_or_concat attempts with rfl | ⟨earlier, last, rfl⟩
  · exact Nat.zero_le 1
  · have hsettled : (earlier.filter fun attempt => attempt.status.isLive) = [] := by
      rw [List.filter_eq_nil_iff]
      intro attempt hattempt
      rw [h.settled attempt (by simpa using hattempt)]
      decide
    rw [List.concat_eq_append, List.filter_append, hsettled, List.nil_append]
    exact List.length_filter_le _ [last]

/-! ## One call -/

theorem DeliveryInv.perform_cases (inv : DeliveryInv s) (event : DeliveryEvent) :
    DeliveryStep s (event.perform s) ∨ SameDelivery s (event.perform s) := by
  have wf := inv.toDeliveryWf
  have hsame : DeliveryStep s s ∨ SameDelivery s s := .inr (.refl s)
  have hmove : ∀ {s'}, s' = s ∨ DeliveryStep s s' →
      s' = s ∨ (DeliveryStep s s' ∨ SameDelivery s s') := fun h => h.imp_right .inl
  cases event with
  | createJob => exact atomically_cases hsame fun h => hmove (createJob_step h)
  | claimTarget => exact atomically_cases hsame fun h => hmove (claimTarget_step wf h)
  | markSubmitted => exact atomically_cases hsame fun h => hmove (markSubmitted_step wf h)
  | recordOutcome => exact atomically_cases hsame fun h => hmove (recordOutcome_step wf h)
  | recoverExpired => exact atomically_cases hsame fun h => hmove (recoverExpired_step wf h)
  | elsewhere other => exact .inr ⟨rfl, rfl, rfl⟩

theorem DeliveryInv.call_cases (inv : DeliveryInv s) (call : DeliveryCall) :
    DeliveryStep s (call.perform s) ∨ SameDelivery s (call.perform s) := by
  cases call with
  | operation event => exact inv.perform_cases event
  | finalize jobId observedAt =>
      refine .inr ?_
      change SameDelivery s ((finalizeJobIfTerminal jobId observedAt).atomically s).2
      rw [inv.finalize_eq]
      exact .refl s

end

/-! ## Runs -/

/-- The rows of the delivery tables are carried on. -/
structure CarriesDelivery (s s' : Store) : Prop where
  jobs : Table.Carried JobRow.Continues s.jobs s'.jobs
  attempts : Table.Carried AttemptRow.Continues s.attempts s'.attempts

namespace CarriesDelivery

variable {s s' s'' : Store}

theorem refl (s : Store) : CarriesDelivery s s := ⟨.refl .refl, .refl .refl⟩

theorem trans (h : CarriesDelivery s s') (h' : CarriesDelivery s' s'') :
    CarriesDelivery s s'' where
  jobs := h.jobs.trans .trans h'.jobs
  attempts := h.attempts.trans .trans h'.attempts

theorem of_move (wf : DeliveryWf s) (h : DeliveryStep s s' ∨ SameDelivery s s') :
    CarriesDelivery s s' := by
  rcases h with hstep | hsame
  · exact ⟨hstep.jobs_carried, hstep.attempts_carried wf⟩
  · exact ⟨hsame.jobs ▸ .refl .refl, hsame.attempts ▸ .refl .refl⟩

/-- Along every run of delivery calls the rows are carried on. -/
theorem calls (inv : DeliveryInv s) (calls : List DeliveryCall) :
    CarriesDelivery s (Run.after DeliveryCall.perform s calls) :=
  Run.related refl trans (fun _ call inv => inv.call call)
    (fun _ call inv => .of_move inv.toDeliveryWf (inv.call_cases call)) inv calls

/-- A resolved attempt stays as it is. -/
theorem attempt_eq (h : CarriesDelivery s s') (wf : DeliveryWf s') {attempt row : AttemptRow}
    (hattempt : attempt ∈ s.attempts) (hsettled : attempt.status.isLive = false)
    (hrow : row ∈ s'.attempts) (hid : row.attemptId = attempt.attemptId) : row = attempt :=
  (h.attempts.follower wf.attempts_unique AttemptRow.Continues.attemptId hattempt hrow
    hid).settled hsettled

/-- A finalized job stays as it is. -/
theorem job_eq (h : CarriesDelivery s s') (wf : DeliveryWf s') {job row : JobRow}
    (hjob : job ∈ s.jobs) (hterminal : job.status.isTerminal = true) (hrow : row ∈ s'.jobs)
    (hid : row.jobId = job.jobId) : row = job :=
  (h.jobs.follower wf.jobs_unique JobRow.Continues.jobId hjob hrow hid).final hterminal

theorem job_mem (h : CarriesDelivery s s') {job : JobRow} (hjob : job ∈ s.jobs)
    (hterminal : job.status.isTerminal = true) : job ∈ s'.jobs := by
  obtain ⟨row, hrow, hcontinues⟩ := h.jobs job hjob
  rwa [← hcontinues.final hterminal]

end CarriesDelivery

end MycSigner
