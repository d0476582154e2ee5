import MycSigner.Delivery.Operations

/-!
# The representation invariant of the delivery tables

`TargetOk` ties a target to its attempt history: as many attempts as it counts, numbered
from one, all of them settled except the last, and a status that the last attempt explains.
`DeliveryWf` adds the keys and the foreign keys of the three tables and the row constraints
of the jobs; under it every reader succeeds and returns exactly the rows of the job.
`DeliveryInv` says in addition that an open job is still undecided, which holds between
transactions but not inside one.
-/

namespace MycSigner

/-! ## Targets and their histories -/

/-- What the status of a target says about its last attempt. -/
def LastOk (job : JobRow) (target : TargetRow) (last : Option AttemptRow) : Prop :=
  match target.status with
  | .pending => last = none ∧ target.activeAttemptId = none ∧ target.nextAttemptAt = none
  | .leased => ∃ attempt, last = some attempt ∧ attempt.status = .leased ∧
      target.activeAttemptId = some attempt.attemptId ∧ target.nextAttemptAt = none
  | .submitted => ∃ attempt, last = some attempt ∧ attempt.status = .submitted ∧
      target.activeAttemptId = some attempt.attemptId ∧ target.nextAttemptAt = none
  | .delivered => ∃ attempt, last = some attempt ∧ attempt.status = .delivered ∧
      target.activeAttemptId = none ∧ target.nextAttemptAt = none
  | .retryable => ∃ attempt, last = some attempt ∧ attempt.status = .failed ∧
      target.activeAttemptId = none ∧ target.nextAttemptAt.isSome = true ∧
      target.attemptCount < job.maxAttempts
  | .unknown => ∃ attempt, last = some attempt ∧ attempt.status = .unknown ∧
      target.activeAttemptId = none ∧
      (target.nextAttemptAt.isSome = true ↔ target.attemptCount < job.maxAttempts)
  | .exhausted => ∃ attempt, last = some attempt ∧ attempt.status = .failed ∧
      target.activeAttemptId = none ∧ target.nextAttemptAt = none ∧
      target.attemptCount = job.maxAttempts

/-- A target agrees with its attempt history. -/
structure TargetOk (job : JobRow) (target : TargetRow) (attempts : List AttemptRow) : Prop where
  count : attempts.length = target.attemptCount
  numbers : attempts.map AttemptRow.attemptNumber = List.range' 1 attempts.length
  bounded : target.attemptCount ≤ job.maxAttempts
  checked : ∀ attempt ∈ attempts, attemptCheck attempt = true
  settled : ∀ attempt ∈ attempts.dropLast, attempt.status.isLive = false
  last : LastOk job target attempts.getLast?

/-- The representation invariant. -/
structure DeliveryWf (s : Store) : Prop where
  jobs_unique : Table.Unique JobRow.jobId s.jobs
  sources_unique : Table.Unique (fun job => (job.sourceKind, job.sourceId)) s.jobs
  targets_unique : Table.Unique (fun target => (target.jobId, target.targetIndex)) s.targets
  relays_unique : Table.Unique (fun target => (target.jobId, target.relayId)) s.targets
  attempts_unique : Table.Unique AttemptRow.attemptId s.attempts
  target_has_job : ∀ target ∈ s.targets, ∃ job ∈ s.jobs, job.jobId = target.jobId
  attempt_has_target : ∀ attempt ∈ s.attempts, ∃ target ∈ s.targets,
    target.jobId = attempt.jobId ∧ target.targetIndex = attempt.targetIndex
  job_checked : ∀ job ∈ s.jobs, jobCheck job = true
  targets_nonempty : ∀ job ∈ s.jobs, targetsOf s job.jobId ≠ []
  targets_bounded : ∀ job ∈ s.jobs, (targetsOf s job.jobId).length ≤ 32
  indices : ∀ job ∈ s.jobs, (targetsOf s job.jobId).map TargetRow.targetIndex =
    List.range (targetsOf s job.jobId).length
  histories : ∀ job ∈ s.jobs, ∀ target ∈ targetsOf s job.jobId,
    TargetOk job target (attemptsOf s job.jobId target.targetIndex)

/-- The invariant between two transactions: no open job is already decided. -/
structure DeliveryInv (s : Store) : Prop extends DeliveryWf s where
  undecided : ∀ job ∈ s.jobs, job.status.isOpen = true →
    terminalStatus { job with targets := targetsOf s job.jobId } = none

theorem mem_targetsOf {s : Store} {jobId : Id32} {target : TargetRow} :
    target ∈ targetsOf s jobId ↔ target ∈ s.targets ∧ target.jobId = jobId := by
  simp [targetsOf]

theorem mem_attemptsOf {s : Store} {jobId : Id32} {index : ℕ} {attempt : AttemptRow} :
    attempt ∈ attemptsOf s jobId index ↔
      attempt ∈ s.attempts ∧ attempt.jobId = jobId ∧ attempt.targetIndex = index := by
  simp [attemptsOf]

/-! ## Constraints imply readability -/

theorem jobReadable_of_check {job : JobRow} (h : jobCheck job = true) :
    jobReadable job = true := by
  simp only [jobCheck, Bool.and_eq_true, decide_eq_true_eq] at h
  simp only [jobReadable, Bool.and_eq_true, bne_iff_ne, Bool.not_eq_true', Bool.or_eq_false_iff,
    decide_eq_true_eq, decide_eq_false_iff_not]
  omega

theorem attemptReadable_of_check {attempt : AttemptRow} (h : attemptCheck attempt = true) :
    attemptReadable attempt = true := by
  simp only [attemptCheck, Bool.and_eq_true, decide_eq_true_eq] at h
  obtain ⟨⟨⟨⟨⟨-, hnumber⟩, hlease⟩, -⟩, -⟩, hshape⟩ := h
  simp only [attemptReadable, Bool.and_eq_true, decide_eq_true_eq]
  refine ⟨⟨hnumber, hlease⟩, ?_⟩
  unfold attemptShape at hshape
  cases hstatus : attempt.status with
  | failed =>
      simp only [hstatus, Bool.and_eq_true, Bool.or_eq_true, beq_iff_eq] at hshape ⊢
      refine ⟨hshape.1, ?_⟩
      rcases hshape.2 with (h | h) | h <;> simp [h]
  | leased => simpa [hstatus] using hshape
  | submitted => simpa [hstatus] using hshape
  | delivered => simpa [hstatus] using hshape
  | unknown => simpa [hstatus] using hshape

theorem TargetOk.readable {job : JobRow} {target : TargetRow} {attempts : List AttemptRow}
    (h : TargetOk job target attempts) (hmax : job.maxAttempts ≤ 32) :
    targetReadable target = true := by
  have hcount : target.attemptCount ≤ 32 := Nat.le_trans h.bounded hmax
  have hlast := h.last
  unfold LastOk at hlast
  unfold targetReadable
  cases hstatus : target.status with
  | pending =>
      rw [hstatus] at hlast
      simp [hlast, hcount, TargetStatus.isActive]
  | leased | submitted | delivered | retryable =>
      rw [hstatus] at hlast
      obtain ⟨attempt, hlast⟩ := hlast
      simp [hlast, hcount, TargetStatus.isActive]
  | exhausted =>
      rw [hstatus] at hlast
      obtain ⟨attempt, -, -, hactive, hnext, -⟩ := hlast
      simp [hactive, hnext, hcount, TargetStatus.isActive]
  | unknown =>
      rw [hstatus] at hlast
      obtain ⟨attempt, -, -, hactive, -⟩ := hlast
      simp [hactive, hcount, TargetStatus.isActive]

theorem TargetOk.unknown_scheduled {job : JobRow} {target : TargetRow}
    {attempts : List AttemptRow} (h : TargetOk job target attempts) :
    (target.status != .unknown || target.nextAttemptAt.isSome ||
      target.attemptCount == job.maxAttempts) = true := by
  have hlast := h.last
  unfold LastOk at hlast
  cases hstatus : target.status with
  | unknown =>
      rw [hstatus] at hlast
      obtain ⟨attempt, -, -, -, hnext⟩ := hlast
      by_cases hlt : target.attemptCount < job.maxAttempts
      · simp [hnext.mpr hlt]
      · have heq : target.attemptCount = job.maxAttempts := Nat.le_antisymm h.bounded (by omega)
        simp [heq]
  | pending | leased | submitted | delivered | retryable | exhausted => simp

/-! ## Readers succeed -/

namespace DeliveryWf

variable {s : Store}

theorem maxAttempts_le {job : JobRow} (wf : DeliveryWf s) (hjob : job ∈ s.jobs) :
    1 ≤ job.maxAttempts ∧ job.maxAttempts ≤ 32 := by
  have h := wf.job_checked job hjob
  simp only [jobCheck, Bool.and_eq_true, decide_eq_true_eq] at h
  omega

theorem targets_sorted {job : JobRow} (wf : DeliveryWf s) (hjob : job ∈ s.jobs) :
    (targetsOf s job.jobId).Pairwise fun left right =>
      decide (left.targetIndex ≤ right.targetIndex) = true := by
  have hrange : ((targetsOf s job.jobId).map TargetRow.targetIndex).Pairwise (· < ·) := by
    rw [wf.indices job hjob]
    exact List.pairwise_lt_range
  rw [List.pairwise_map] at hrange
  exact hrange.imp fun h => by simpa using Nat.le_of_lt h

theorem readTargets_eq {job : JobRow} (wf : DeliveryWf s) (hjob : job ∈ s.jobs) :
    readTargets s job.jobId = .ok (targetsOf s job.jobId) := by
  have hlen := wf.targets_bounded job hjob
  have hreadable : (targetsOf s job.jobId).all targetReadable = true := by
    rw [List.all_eq_true]
    intro target htarget
    exact (wf.histories job hjob target htarget).readable (wf.maxAttempts_le hjob).2
  unfold readTargets
  rw [Table.ordered_eq_self (wf.targets_sorted hjob), List.take_of_length_le (by omega)]
  simp [Except.require, hlen, parseTarget, Except.mapM_validate, hreadable, bind, Except.bind]

theorem readAttempts_eq {job : JobRow} {target : TargetRow} (wf : DeliveryWf s)
    (hjob : job ∈ s.jobs) (htarget : target ∈ targetsOf s job.jobId) :
    readAttempts s job.jobId target.targetIndex =
      .ok (attemptsOf s job.jobId target.targetIndex) := by
  have hok := wf.histories job hjob target htarget
  have hlen : (attemptsOf s job.jobId target.targetIndex).length ≤ 32 := by
    rw [hok.count]
    exact Nat.le_trans hok.bounded (wf.maxAttempts_le hjob).2
  have hsorted : (attemptsOf s job.jobId target.targetIndex).Pairwise fun left right =>
      decide (left.attemptNumber ≤ right.attemptNumber) = true := by
    have hrange : ((attemptsOf s job.jobId target.targetIndex).map
        AttemptRow.attemptNumber).Pairwise (· < ·) := by
      rw [hok.numbers]
      exact List.pairwise_lt_range'
    rw [List.pairwise_map] at hrange
    exact hrange.imp fun h => by simpa using Nat.le_of_lt h
  have hreadable : (attemptsOf s job.jobId target.targetIndex).all attemptReadable = true := by
    rw [List.all_eq_true]
    intro attempt hattempt
    exact attemptReadable_of_check (hok.checked attempt hattempt)
  unfold readAttempts
  rw [Table.ordered_eq_self hsorted, List.take_of_length_le (by omega)]
  simp [Except.require, hlen, parseAttempt, Except.mapM_validate, hreadable, bind, Except.bind]

theorem jobTargets_readable {job : JobRow} (wf : DeliveryWf s) (hjob : job ∈ s.jobs) :
    jobTargetsReadable job (targetsOf s job.jobId) = true := by
  have hcheck := wf.job_checked job hjob
  simp only [jobCheck, Bool.and_eq_true] at hcheck
  have hscheduled : (targetsOf s job.jobId).all (fun target => target.status != .unknown ||
      target.nextAttemptAt.isSome || target.attemptCount == job.maxAttempts) = true := by
    rw [List.all_eq_true]
    intro target htarget
    exact (wf.histories job hjob target htarget).unknown_scheduled
  simp only [jobTargetsReadable, Bool.and_eq_true, decide_eq_true_eq]
  refine ⟨⟨⟨⟨?_, wf.targets_bounded job hjob⟩, wf.indices job hjob⟩, hcheck.2⟩, hscheduled⟩
  simpa using wf.targets_nonempty job hjob

theorem readJobRows_singleton {job : JobRow} (wf : DeliveryWf s) (hjob : job ∈ s.jobs) :
    readJobRows s [job] = .ok (some { job with targets := targetsOf s job.jobId }) := by
  have hreadable := jobReadable_of_check (wf.job_checked job hjob)
  simp [readJobRows, Except.require, hreadable, wf.readTargets_eq hjob,
    wf.jobTargets_readable hjob, bind, Except.bind]

theorem jobs_filter_eq {job : JobRow} (wf : DeliveryWf s) (hjob : job ∈ s.jobs) :
    (s.jobs.filter fun row => row.jobId = job.jobId) = [job] :=
  wf.jobs_unique.filter_eq_singleton hjob

/-- Every stored job is readable, and reading it returns its rows. -/
theorem readJob_eq_some {job : JobRow} (wf : DeliveryWf s) (hjob : job ∈ s.jobs) :
    readJob s job.jobId = .ok (some { job with targets := targetsOf s job.jobId }) := by
  rw [readJob, wf.jobs_filter_eq hjob]
  exact wf.readJobRows_singleton hjob

theorem readJob_cases (s : Store) (jobId : Id32) :
    (∃ job ∈ s.jobs, job.jobId = jobId) ∨ readJob s jobId = .ok none := by
  by_cases h : ∃ job ∈ s.jobs, job.jobId = jobId
  · exact .inl h
  · have hnil : (s.jobs.filter fun row => row.jobId = jobId) = [] := by
      rw [List.filter_eq_nil_iff]
      intro job hjob hid
      exact h ⟨job, hjob, by simpa using hid⟩
    exact .inr (by rw [readJob, hnil]; rfl)

/-- A job record that was read is the stored row with its targets. -/
theorem of_readJob {jobId : Id32} {record : JobRecord} (wf : DeliveryWf s)
    (h : readJob s jobId = .ok (some record)) :
    record.toJobRow ∈ s.jobs ∧ record.jobId = jobId ∧ record.targets = targetsOf s jobId := by
  rcases readJob_cases s jobId with ⟨job, hjob, rfl⟩ | hnone
  · rw [wf.readJob_eq_some hjob] at h
    cases h
    exact ⟨hjob, rfl, rfl⟩
  · rw [hnone] at h
    cases h

theorem of_readJobBySource {source : Source} {record : JobRecord} (wf : DeliveryWf s)
    (h : readJobBySource s source = .ok (some record)) :
    record.toJobRow ∈ s.jobs ∧ record.sourceKind = source.kind ∧ record.sourceId = source.id ∧
      record.targets = targetsOf s record.jobId := by
  unfold readJobBySource at h
  cases hrows : s.jobs.filter fun row => row.sourceKind = source.kind ∧ row.sourceId = source.id with
  | nil => rw [hrows] at h; cases h
  | cons job rest =>
      have hmem : job ∈ s.jobs.filter fun row =>
          row.sourceKind = source.kind ∧ row.sourceId = source.id := by
        rw [hrows]
        exact List.mem_cons_self ..
      rw [List.mem_filter, decide_eq_true_eq] at hmem
      obtain ⟨hjob, hkind, hid⟩ := hmem
      cases rest with
      | nil =>
          rw [hrows, wf.readJobRows_singleton hjob] at h
          cases h
          exact ⟨hjob, hkind, hid, rfl⟩
      | cons second rest => rw [hrows] at h; cases h

/-- The attempt that a reader returned is stored, and it is the only one with its id. -/
theorem of_readAttempt {jobId attemptId : Id32} {index : ℕ} {attempt : AttemptRow}
    (h : readAttempt s jobId index attemptId = .ok (some attempt)) :
    attempt ∈ s.attempts ∧ attempt.jobId = jobId ∧ attempt.targetIndex = index ∧
      attempt.attemptId = attemptId ∧ attemptReadable attempt = true := by
  unfold readAttempt oneAttempt at h
  split at h
  next => cases h
  next row hrows =>
    have hmem : row ∈ (attemptsOf s jobId index).filter fun row => row.attemptId = attemptId := by
      rw [hrows]
      exact List.mem_cons_self ..
    rw [List.mem_filter, decide_eq_true_eq, mem_attemptsOf] at hmem
    obtain ⟨⟨hstored, hjob, hindex⟩, hid⟩ := hmem
    cases hparse : parseAttempt row with
    | error e => rw [hparse] at h; cases h
    | ok parsed =>
        rw [hparse] at h
        obtain ⟨hread, rfl⟩ := Except.validate_eq_ok.mp hparse
        cases h
        exact ⟨hstored, hjob, hindex, hid, hread⟩
  next => cases h

theorem readAttempt_eq_some {job : JobRow} {target : TargetRow} {attempt : AttemptRow}
    (wf : DeliveryWf s) (hjob : job ∈ s.jobs) (htarget : target ∈ targetsOf s job.jobId)
    (hattempt : attempt ∈ attemptsOf s job.jobId target.targetIndex) :
    readAttempt s job.jobId target.targetIndex attempt.attemptId = .ok (some attempt) := by
  have hstored := mem_attemptsOf.mp hattempt
  have hunique : Table.Unique AttemptRow.attemptId (attemptsOf s job.jobId target.targetIndex) :=
    List.Nodup.sublist (List.Sublist.map _ List.filter_sublist) wf.attempts_unique
  have hread := attemptReadable_of_check
    ((wf.histories job hjob target htarget).checked attempt hattempt)
  unfold readAttempt
  rw [hunique.filter_eq_singleton hattempt]
  simp [oneAttempt, parseAttempt, Except.validate, hread, Except.map]

/-- The relay of a job names one target. -/
theorem of_targetByRelay {record : JobRecord} {relayId : RelayId} {target : TargetRow}
    (h : targetByRelay record relayId = .ok target) :
    target ∈ record.targets ∧ target.relayId = relayId := by
  simp only [targetByRelay, Except.ofOption_eq_ok] at h
  exact ⟨List.mem_of_find?_eq_some h, by simpa using List.find?_some h⟩

theorem targetByRelay_eq {job : JobRow} {target : TargetRow} (wf : DeliveryWf s)
    (htarget : target ∈ targetsOf s job.jobId) :
    targetByRelay { job with targets := targetsOf s job.jobId } target.relayId = .ok target := by
  have hstored := mem_targetsOf.mp htarget
  have hunique : Table.Unique TargetRow.relayId (targetsOf s job.jobId) := by
    have hpair : Table.Unique (fun target => (target.jobId, target.relayId))
        (targetsOf s job.jobId) :=
      List.Nodup.sublist (List.Sublist.map _ List.filter_sublist) wf.relays_unique
    unfold Table.Unique at hpair ⊢
    have hsame : (targetsOf s job.jobId).map (fun target => (target.jobId, target.relayId)) =
        ((targetsOf s job.jobId).map TargetRow.relayId).map fun relay => (job.jobId, relay) := by
      rw [List.map_map]
      refine List.map_congr_left fun row hrow => ?_
      simp [(mem_targetsOf.mp hrow).2]
    rw [hsame] at hpair
    exact List.Nodup.of_map _ hpair
  rw [targetByRelay, hunique.find?_eq_some htarget]
  rfl

end DeliveryWf

end MycSigner
