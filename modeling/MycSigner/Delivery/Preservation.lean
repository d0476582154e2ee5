import MycSigner.Delivery.Steps

/-!
# Every delivery step keeps the invariant

The steps are composed from two rewritings of the store: replacing a job row by one of the
same identity, and replacing one target together with its attempt history.  The histories of
all other targets are untouched, so each step only has to show that the new history of its
own target agrees with the new target row.
-/

namespace MycSigner

/-! ## Histories -/

theorem LastOk.congr_job {job job' : JobRow} {target : TargetRow} {last : Option AttemptRow}
    (hmax : job'.maxAttempts = job.maxAttempts) (h : LastOk job target last) :
    LastOk job' target last := by
  unfold LastOk at h ⊢
  rw [hmax]
  exact h

theorem TargetOk.congr_job {job job' : JobRow} {target : TargetRow} {attempts : List AttemptRow}
    (hmax : job'.maxAttempts = job.maxAttempts) (h : TargetOk job target attempts) :
    TargetOk job' target attempts where
  count := h.count
  numbers := h.numbers
  bounded := hmax ▸ h.bounded
  checked := h.checked
  settled := h.settled
  last := h.last.congr_job hmax

/-- A live attempt is the last of its target. -/
theorem TargetOk.live_is_last {job : JobRow} {target : TargetRow} {attempts : List AttemptRow}
    {attempt : AttemptRow} (h : TargetOk job target attempts) (hmem : attempt ∈ attempts)
    (hlive : attempt.status.isLive = true) :
    ∃ earlier, attempts = earlier ++ [attempt] ∧ attempt ∉ earlier := by
  have hne : attempts ≠ [] := List.ne_nil_of_mem hmem
  have hsplit : attempts = attempts.dropLast ++ [attempts.getLast hne] :=
    (List.dropLast_append_getLast hne).symm
  have hnot : attempt ∉ attempts.dropLast := by
    intro hearlier
    rw [h.settled attempt hearlier] at hlive
    cases hlive
  have hlast : attempt = attempts.getLast hne := by
    rw [hsplit, List.mem_append] at hmem
    rcases hmem with hearlier | hlast
    · exact absurd hearlier hnot
    · simpa using hlast
  exact ⟨attempts.dropLast, by rw [hlast]; exact hsplit, hnot⟩

/-- The last attempt determines the status of its target. -/
theorem TargetOk.lastOk {job : JobRow} {target : TargetRow} {earlier : List AttemptRow}
    {attempt : AttemptRow} (h : TargetOk job target (earlier ++ [attempt])) :
    LastOk job target (some attempt) := by
  have hlast := h.last
  rwa [List.getLast?_concat] at hlast

/-- A target whose last attempt is live has the status of that attempt. -/
theorem LastOk.status_of_live {job : JobRow} {target : TargetRow} {attempt : AttemptRow}
    (h : LastOk job target (some attempt)) (hlive : attempt.status.isLive = true) :
    attempt.status.asTarget = some target.status ∧
      target.activeAttemptId = some attempt.attemptId := by
  unfold LastOk at h
  cases hstatus : target.status with
  | pending => rw [hstatus] at h; simp at h
  | leased | submitted =>
      rw [hstatus] at h
      obtain ⟨other, heq, hlast, hactive, -⟩ := h
      cases heq
      simp [hlast, AttemptStatus.asTarget, hactive]
  | delivered | retryable | unknown | exhausted =>
      rw [hstatus] at h
      obtain ⟨other, heq, hlast, -⟩ := h
      cases heq
      rw [hlast] at hlive
      cases hlive

theorem AttemptStatus.asTarget_isActive {attempt : AttemptStatus} {target : TargetStatus}
    (h : attempt.asTarget = some target) : target.isActive = true := by
  cases attempt with
  | leased | submitted => cases h; rfl
  | delivered | failed | unknown => cases h

/-- The target of a live attempt holds its lease. -/
theorem DeliveryWf.live_target {s : Store} {job : JobRow} {target : TargetRow}
    {attempt : AttemptRow} (wf : DeliveryWf s) (hjob : job ∈ s.jobs)
    (htarget : target ∈ targetsOf s job.jobId)
    (hattempt : attempt ∈ attemptsOf s job.jobId target.targetIndex)
    (hlive : attempt.status.isLive = true) :
    attempt.status.asTarget = some target.status ∧
      target.activeAttemptId = some attempt.attemptId := by
  have hok := wf.histories job hjob target htarget
  obtain ⟨earlier, hsplit, -⟩ := hok.live_is_last hattempt hlive
  rw [hsplit] at hok
  exact hok.lastOk.status_of_live hlive

/-- The attempts of a target that holds no lease are all settled. -/
theorem TargetOk.all_settled {job : JobRow} {target : TargetRow} {attempts : List AttemptRow}
    (h : TargetOk job target attempts) (hfree : target.activeAttemptId = none) :
    ∀ attempt ∈ attempts, attempt.status.isLive = false := by
  intro attempt hmem
  by_contra hlive
  obtain ⟨earlier, rfl, -⟩ := h.live_is_last hmem (by simpa using hlive)
  have hactive := (h.lastOk.status_of_live (by simpa using hlive)).2
  rw [hfree] at hactive
  cases hactive

/-- A new lease extends the history. -/
theorem TargetOk.claim {job : JobRow} {target target' : TargetRow} {attempts : List AttemptRow}
    {attempt : AttemptRow} (h : TargetOk job target attempts)
    (hfree : target.activeAttemptId = none) (hremaining : target.attemptCount < job.maxAttempts)
    (hnumber : attempt.attemptNumber = target.attemptCount + 1)
    (hchecked : attemptCheck attempt = true)
    (hcount : target'.attemptCount = target.attemptCount + 1)
    (hlast : LastOk job target' (some attempt)) :
    TargetOk job target' (attempts ++ [attempt]) where
  count := by simp [h.count, hcount]
  numbers := by
    rw [List.map_append, h.numbers, List.length_append, List.length_singleton,
      List.range'_concat, List.map_singleton, hnumber, ← h.count]
    simp [Nat.add_comm]
  bounded := by omega
  checked := by
    intro row hrow
    rcases List.mem_append.mp hrow with hold | hnew
    · exact h.checked row hold
    · rw [List.mem_singleton.mp hnew]
      exact hchecked
  settled := by
    rw [List.dropLast_concat]
    exact h.all_settled hfree
  last := by rwa [List.getLast?_concat]

/-- Rewriting the last attempt keeps the history in order. -/
theorem TargetOk.replace_last {job : JobRow} {target target' : TargetRow}
    {earlier : List AttemptRow} {attempt attempt' : AttemptRow}
    (h : TargetOk job target (earlier ++ [attempt]))
    (hnumber : attempt'.attemptNumber = attempt.attemptNumber)
    (hchecked : attemptCheck attempt' = true)
    (hcount : target'.attemptCount = target.attemptCount)
    (hlast : LastOk job target' (some attempt')) :
    TargetOk job target' (earlier ++ [attempt']) where
  count := by simpa [hcount] using h.count
  numbers := by simpa [hnumber] using h.numbers
  bounded := by rw [hcount]; exact h.bounded
  checked := by
    intro row hrow
    rcases List.mem_append.mp hrow with hold | hnew
    · exact h.checked row (List.mem_append_left _ hold)
    · rw [List.mem_singleton.mp hnew]
      exact hchecked
  settled := by
    have hsettled := h.settled
    rwa [List.dropLast_concat] at hsettled ⊢
  last := by rwa [List.getLast?_concat]

/-! ## Rewriting the store -/

namespace DeliveryWf

variable {s : Store}

/-- Replacing a job by one of the same identity. -/
theorem replace_job {job job' : JobRow} (wf : DeliveryWf s) (hid : job'.jobId = job.jobId)
    (hkind : job'.sourceKind = job.sourceKind) (hsource : job'.sourceId = job.sourceId)
    (hmax : job'.maxAttempts = job.maxAttempts) (hcheck : jobCheck job' = true) :
    DeliveryWf { s with jobs := Table.replace job job' s.jobs } := by
  -- every row of the new table has the targets and the histories of an old row
  have hold : ∀ row ∈ Table.replace job job' s.jobs, ∃ old ∈ s.jobs,
      row.jobId = old.jobId ∧ row.maxAttempts = old.maxAttempts ∧
        (jobCheck old = true → jobCheck row = true) := by
    intro row hrow
    rcases Table.mem_replace.mp hrow with ⟨hmem, -⟩ | ⟨hmem, rfl⟩
    · exact ⟨row, hmem, rfl, rfl, id⟩
    · exact ⟨job, hmem, hid, hmax, fun _ => hcheck⟩
  exact {
    jobs_unique := wf.jobs_unique.replace hid
    sources_unique := wf.sources_unique.replace (by rw [hkind, hsource])
    targets_unique := wf.targets_unique
    relays_unique := wf.relays_unique
    attempts_unique := wf.attempts_unique
    target_has_job := by
      intro target htarget
      obtain ⟨row, hrow, heq⟩ := wf.target_has_job target htarget
      by_cases hjob : row = job
      · exact ⟨job', Table.mem_replace.mpr (.inr ⟨hjob ▸ hrow, rfl⟩), by rw [hid, ← hjob, heq]⟩
      · exact ⟨row, Table.mem_replace.mpr (.inl ⟨hrow, hjob⟩), heq⟩
    attempt_has_target := wf.attempt_has_target
    job_checked := by
      intro row hrow
      obtain ⟨old, hmem, -, -, hrow⟩ := hold row hrow
      exact hrow (wf.job_checked old hmem)
    targets_nonempty := by
      intro row hrow
      obtain ⟨old, hmem, heq, -⟩ := hold row hrow
      rw [heq]
      exact wf.targets_nonempty old hmem
    targets_bounded := by
      intro row hrow
      obtain ⟨old, hmem, heq, -⟩ := hold row hrow
      rw [heq]
      exact wf.targets_bounded old hmem
    indices := by
      intro row hrow
      obtain ⟨old, hmem, heq, -⟩ := hold row hrow
      rw [heq]
      exact wf.indices old hmem
    histories := by
      intro row hrow target htarget
      obtain ⟨old, hmem, heq, hmax, -⟩ := hold row hrow
      rw [heq] at htarget ⊢
      exact (wf.histories old hmem target htarget).congr_job hmax }

theorem targetsOf_replace {s' : Store} {target target' : TargetRow}
    (htargets : s'.targets = Table.replace target target' s.targets)
    (hid : target'.jobId = target.jobId) (jobId : Id32) :
    targetsOf s' jobId = Table.replace target target' (targetsOf s jobId) := by
  unfold targetsOf
  rw [htargets]
  exact Table.filter_replace _ (by simp [hid])

/-- Replacing one target together with its history. -/
theorem replace_target {job : JobRow} {target target' : TargetRow} {attempts : List AttemptRow}
    (wf : DeliveryWf s) (hjob : job ∈ s.jobs) (htarget : target ∈ targetsOf s job.jobId)
    (hid : target'.jobId = target.jobId) (hindex : target'.targetIndex = target.targetIndex)
    (hrelay : target'.relayId = target.relayId)
    (hunique : Table.Unique AttemptRow.attemptId attempts)
    (hothers : ∀ jobId index, ¬ (jobId = target.jobId ∧ index = target.targetIndex) →
      attemptsOf { s with attempts } jobId index = attemptsOf s jobId index)
    (hown : TargetOk job target' (attemptsOf { s with attempts } job.jobId target.targetIndex)) :
    DeliveryWf { s with targets := Table.replace target target' s.targets, attempts } := by
  obtain ⟨hstored, hjobId⟩ := mem_targetsOf.mp htarget
  have htargets : ∀ jobId,
      targetsOf { s with targets := Table.replace target target' s.targets, attempts } jobId =
        Table.replace target target' (targetsOf s jobId) := targetsOf_replace rfl hid
  -- a target of the new table has the key of an old one
  have hkept : ∀ old ∈ s.targets, ∃ new ∈ Table.replace target target' s.targets,
      new.jobId = old.jobId ∧ new.targetIndex = old.targetIndex := by
    intro old hold
    by_cases heq : old = target
    · exact ⟨target', Table.mem_replace.mpr (.inr ⟨hstored, rfl⟩), by rw [hid, heq],
        by rw [hindex, heq]⟩
    · exact ⟨old, Table.mem_replace.mpr (.inl ⟨hold, heq⟩), rfl, rfl⟩
  exact {
    jobs_unique := wf.jobs_unique
    sources_unique := wf.sources_unique
    targets_unique := wf.targets_unique.replace (by rw [hid, hindex])
    relays_unique := wf.relays_unique.replace (by rw [hid, hrelay])
    attempts_unique := hunique
    target_has_job := by
      intro row hrow
      rcases Table.mem_replace.mp hrow with ⟨hmem, -⟩ | ⟨hmem, rfl⟩
      · exact wf.target_has_job row hmem
      · rw [hid]
        exact wf.target_has_job target hmem
    attempt_has_target := by
      intro attempt hattempt
      by_cases hown : attempt.jobId = target.jobId ∧ attempt.targetIndex = target.targetIndex
      · exact ⟨target', Table.mem_replace.mpr (.inr ⟨hstored, rfl⟩), by rw [hid, hown.1],
          by rw [hindex, hown.2]⟩
      · have hmem : attempt ∈ attemptsOf { s with attempts } attempt.jobId attempt.targetIndex :=
          mem_attemptsOf.mpr ⟨hattempt, rfl, rfl⟩
        rw [hothers _ _ hown] at hmem
        obtain ⟨old, hold, hkey⟩ := wf.attempt_has_target attempt (mem_attemptsOf.mp hmem).1
        obtain ⟨new, hnew, hnewId, hnewIndex⟩ := hkept old hold
        exact ⟨new, hnew, by rw [hnewId, hkey.1], by rw [hnewIndex, hkey.2]⟩
    job_checked := wf.job_checked
    targets_nonempty := by
      intro row hrow hnil
      rw [htargets] at hnil
      have hlen := congrArg List.length hnil
      rw [Table.length_replace] at hlen
      exact wf.targets_nonempty row hrow (List.eq_nil_of_length_eq_zero hlen)
    targets_bounded := by
      intro row hrow
      rw [htargets, Table.length_replace]
      exact wf.targets_bounded row hrow
    indices := by
      intro row hrow
      rw [htargets, Table.length_replace, Table.map_replace _ hindex]
      exact wf.indices row hrow
    histories := by
      intro row hrow other hother
      rw [htargets] at hother
      rcases Table.mem_replace.mp hother with ⟨hmem, hne⟩ | ⟨hmem, rfl⟩
      · obtain ⟨hotherStored, hotherId⟩ := mem_targetsOf.mp hmem
        have hkey : ¬ (row.jobId = target.jobId ∧ other.targetIndex = target.targetIndex) := by
          rintro ⟨hrowId, hrowIndex⟩
          exact hne (wf.targets_unique.eq_of_key_eq hotherStored hstored
            (by rw [hotherId, hrowId, hrowIndex]))
        have hsame := hothers row.jobId other.targetIndex hkey
        unfold attemptsOf at hsame ⊢
        rw [hsame]
        exact wf.histories row hrow other hmem
      · have hrowJob : row = job :=
          wf.jobs_unique.eq_of_key_eq hrow hjob
            ((mem_targetsOf.mp hmem).2.symm.trans hjobId)
        rw [hrowJob, hindex]
        exact hown }

/-! ## The stores of the steps -/

theorem attemptsOf_append {attempt : AttemptRow} (jobId : Id32) (index : ℕ) :
    attemptsOf { s with attempts := s.attempts ++ [attempt] } jobId index =
      attemptsOf s jobId index ++
        (if attempt.jobId = jobId ∧ attempt.targetIndex = index then [attempt] else []) := by
  unfold attemptsOf
  rw [List.filter_append]
  by_cases h : attempt.jobId = jobId ∧ attempt.targetIndex = index
  · simp [h]
  · simp [h]

theorem attemptsOf_replace {attempt attempt' : AttemptRow} (hjob : attempt'.jobId = attempt.jobId)
    (hindex : attempt'.targetIndex = attempt.targetIndex) (jobId : Id32) (index : ℕ) :
    attemptsOf { s with attempts := Table.replace attempt attempt' s.attempts } jobId index =
      Table.replace attempt attempt' (attemptsOf s jobId index) := by
  unfold attemptsOf
  exact Table.filter_replace _ (by simp [hjob, hindex])

/-- Rewriting the live attempt of a target together with the target. -/
theorem replace_live {job : JobRow} {target target' : TargetRow} {attempt attempt' : AttemptRow}
    (wf : DeliveryWf s) (hjob : job ∈ s.jobs) (htarget : target ∈ targetsOf s job.jobId)
    (hattempt : attempt ∈ attemptsOf s job.jobId target.targetIndex)
    (hlive : attempt.status.isLive = true)
    (hid : target'.jobId = target.jobId) (hindex : target'.targetIndex = target.targetIndex)
    (hrelay : target'.relayId = target.relayId) (hcount : target'.attemptCount = target.attemptCount)
    (hattemptId : attempt'.attemptId = attempt.attemptId)
    (hattemptJob : attempt'.jobId = attempt.jobId)
    (hattemptIndex : attempt'.targetIndex = attempt.targetIndex)
    (hnumber : attempt'.attemptNumber = attempt.attemptNumber)
    (hchecked : attemptCheck attempt' = true) (hlast : LastOk job target' (some attempt')) :
    DeliveryWf { s with
      targets := Table.replace target target' s.targets
      attempts := Table.replace attempt attempt' s.attempts } := by
  obtain ⟨-, hattemptKey⟩ := mem_attemptsOf.mp hattempt
  have hjobId := (mem_targetsOf.mp htarget).2
  have hok := wf.histories job hjob target htarget
  obtain ⟨earlier, hsplit, hnot⟩ := hok.live_is_last hattempt hlive
  refine wf.replace_target hjob htarget hid hindex hrelay (wf.attempts_unique.replace hattemptId)
    ?_ ?_
  · intro jobId index hkey
    rw [attemptsOf_replace hattemptJob hattemptIndex]
    refine Table.replace_of_not_mem fun hmem => hkey ?_
    have hkey' := (mem_attemptsOf.mp hmem).2
    exact ⟨by rw [← hkey'.1, hattemptKey.1, hjobId], by rw [← hkey'.2, hattemptKey.2]⟩
  · rw [attemptsOf_replace hattemptJob hattemptIndex, hsplit, Table.replace_concat hnot]
    rw [hsplit] at hok
    exact hok.replace_last hnumber hchecked hcount hlast

end DeliveryWf

theorem attemptCheck_of_insert {s : Store} {attempt : AttemptRow}
    (h : attemptInsertAllowed s attempt = true) : attemptCheck attempt = true := by
  simp only [attemptInsertAllowed, Bool.and_eq_true] at h
  exact h.1

theorem attemptCheck_of_update {old new : AttemptRow} (h : attemptUpdateAllowed old new = true) :
    attemptCheck new = true := by
  simp only [attemptUpdateAllowed, Bool.and_eq_true] at h
  exact h.2

theorem jobCheck_of_update {old new : JobRow} (h : jobUpdateAllowed old new = true) :
    jobCheck new = true := by
  simp only [jobUpdateAllowed, Bool.and_eq_true] at h
  exact h.2

@[simp] theorem JobRow.activated_jobId (job : JobRow) (claimedAt : TimeUnixMs) :
    (job.activated claimedAt).jobId = job.jobId := by
  unfold JobRow.activated
  split <;> rfl

@[simp] theorem JobRow.activated_sourceKind (job : JobRow) (claimedAt : TimeUnixMs) :
    (job.activated claimedAt).sourceKind = job.sourceKind := by
  unfold JobRow.activated
  split <;> rfl

@[simp] theorem JobRow.activated_sourceId (job : JobRow) (claimedAt : TimeUnixMs) :
    (job.activated claimedAt).sourceId = job.sourceId := by
  unfold JobRow.activated
  split <;> rfl

@[simp] theorem JobRow.activated_maxAttempts (job : JobRow) (claimedAt : TimeUnixMs) :
    (job.activated claimedAt).maxAttempts = job.maxAttempts := by
  unfold JobRow.activated
  split <;> rfl

@[simp] theorem JobRow.activated_requiredAcknowledgements (job : JobRow) (claimedAt : TimeUnixMs) :
    (job.activated claimedAt).requiredAcknowledgements = job.requiredAcknowledgements := by
  unfold JobRow.activated
  split <;> rfl

/-- The target that a terminal attempt leaves is explained by that attempt. -/
theorem lastOk_resolved {job : JobRow} {target : TargetRow} {attempt : AttemptRow}
    {number : ℕ} {terminal : AttemptStatus} {reason : AttemptReason} {jitter : RetryJitter}
    {status : TargetStatus} {next : Option TimeUnixMs} {observedAt : TimeUnixMs}
    (hbounded : target.attemptCount ≤ job.maxAttempts)
    (h : resolvedTarget job target number terminal jitter observedAt = .ok (status, next)) :
    LastOk job (target.resolved status next observedAt)
      (some (attempt.resolved terminal reason observedAt)) := by
  unfold resolvedTarget at h
  cases terminal with
  | delivered =>
      cases h
      exact ⟨_, rfl, rfl, rfl, rfl⟩
  | failed =>
      simp only at h
      split at h
      next hremaining =>
        obtain ⟨time, -, htime⟩ := Except.bind_eq_ok_iff.mp h
        cases htime
        exact ⟨_, rfl, rfl, rfl, rfl, hremaining⟩
      next hremaining =>
        cases h
        exact ⟨_, rfl, rfl, rfl, rfl, Nat.le_antisymm hbounded (Nat.le_of_not_lt hremaining)⟩
  | unknown =>
      simp only at h
      split at h
      next hremaining =>
        obtain ⟨time, -, htime⟩ := Except.bind_eq_ok_iff.mp h
        cases htime
        exact ⟨_, rfl, rfl, rfl, ⟨fun _ => hremaining, fun _ => rfl⟩⟩
      next hremaining =>
        cases h
        refine ⟨_, rfl, rfl, rfl, ⟨fun hnext => ?_, fun hlt => absurd hlt hremaining⟩⟩
        cases hnext
  | leased | submitted => cases h

namespace DeliveryWf

variable {s : Store}

theorem claimed {job : JobRow} {target : TargetRow} {attempt : AttemptRow} {claimedAt : TimeUnixMs}
    (wf : DeliveryWf s) (h : Claims s job target attempt claimedAt) :
    DeliveryWf (s.claimed job target attempt claimedAt) := by
  obtain ⟨nonce, leaseExpires, hrow⟩ := h.attempt_row
  have hjobId := (mem_targetsOf.mp h.target_mem).2
  have hattemptJob : attempt.jobId = job.jobId := by rw [hrow]; rfl
  have hattemptIndex : attempt.targetIndex = target.targetIndex := by rw [hrow]; rfl
  have hnumber : attempt.attemptNumber = target.attemptCount + 1 := by rw [hrow]; rfl
  have hleased : attempt.status = .leased := by rw [hrow]; rfl
  have hfresh : ∀ other ∈ s.attempts, other.attemptId ≠ attempt.attemptId := by
    have hallowed := h.attempt_allowed
    simp only [attemptInsertAllowed, Bool.and_eq_true, List.all_eq_true, bne_iff_ne] at hallowed
    exact fun other hother => (hallowed.2 other hother).1
  have htargets : DeliveryWf { s with
      targets := Table.replace target (target.claimed attempt claimedAt) s.targets
      attempts := s.attempts ++ [attempt] } := by
    refine wf.replace_target h.job_mem h.target_mem rfl rfl rfl
      (wf.attempts_unique.append_row hfresh) ?_ ?_
    · intro jobId index hkey
      rw [attemptsOf_append, if_neg, List.append_nil]
      rintro ⟨rfl, rfl⟩
      exact hkey ⟨hattemptJob.trans hjobId.symm, hattemptIndex⟩
    · rw [attemptsOf_append, if_pos ⟨hattemptJob, hattemptIndex⟩]
      exact (wf.histories job h.job_mem target h.target_mem).claim h.free h.remaining hnumber
        (attemptCheck_of_insert h.attempt_allowed) hnumber ⟨attempt, rfl, hleased, rfl, rfl⟩
  have hcheck : jobCheck (job.activated claimedAt) = true := by
    by_cases hpending : job.status = .pending
    · exact jobCheck_of_update (h.job_allowed hpending)
    · rw [JobRow.activated, if_neg hpending]
      exact wf.job_checked job h.job_mem
  exact htargets.replace_job (job.activated_jobId claimedAt) (job.activated_sourceKind claimedAt)
    (job.activated_sourceId claimedAt) (job.activated_maxAttempts claimedAt) hcheck

theorem submitted {job : JobRow} {target : TargetRow} {attempt : AttemptRow}
    {submittedAt : TimeUnixMs} (wf : DeliveryWf s) (h : Submits s job target attempt submittedAt) :
    DeliveryWf (s.submitted target attempt submittedAt) := by
  have hlive : attempt.status.isLive = true := by rw [h.attempt_leased]; rfl
  have hnext : target.nextAttemptAt = none := by
    have hlast := (wf.histories job h.job_mem target h.target_mem).last
    unfold LastOk at hlast
    rw [h.target_leased] at hlast
    obtain ⟨_, -, -, -, hnext⟩ := hlast
    exact hnext
  exact wf.replace_live h.job_mem h.target_mem h.attempt_mem hlive rfl rfl rfl rfl rfl rfl rfl rfl
    (attemptCheck_of_update h.attempt_allowed) ⟨_, rfl, rfl, h.active, hnext⟩

theorem resolved {job : JobRow} {target : TargetRow} {attempt : AttemptRow}
    {terminal : AttemptStatus} {reason : AttemptReason} {jitter : RetryJitter}
    {status : TargetStatus} {next : Option TimeUnixMs} {observedAt : TimeUnixMs}
    (wf : DeliveryWf s) (hjob : job ∈ s.jobs) (htarget : target ∈ targetsOf s job.jobId)
    (hattempt : attempt ∈ attemptsOf s job.jobId target.targetIndex)
    (hlive : attempt.status.isLive = true)
    (hallowed : attemptUpdateAllowed attempt (attempt.resolved terminal reason observedAt) = true)
    (houtcome : resolvedTarget job target attempt.attemptNumber terminal jitter observedAt =
      .ok (status, next)) :
    DeliveryWf (s.resolved target attempt terminal reason status next observedAt) :=
  wf.replace_live hjob htarget hattempt hlive rfl rfl rfl rfl rfl rfl rfl rfl
    (attemptCheck_of_update hallowed)
    (lastOk_resolved (wf.histories job hjob target htarget).bounded houtcome)

theorem finalized {job : JobRow} {observedAt : TimeUnixMs} (wf : DeliveryWf s)
    (hallowed : ∀ verdict, s.verdict job = some verdict →
      jobUpdateAllowed job (job.finalized verdict observedAt) = true) :
    DeliveryWf (s.finalized job observedAt) := by
  unfold Store.finalized
  split
  next verdict hverdict =>
    exact wf.replace_job rfl rfl rfl rfl (jobCheck_of_update (hallowed verdict hverdict))
  next => exact wf

end DeliveryWf

section Rows

variable {s : Store} {target : TargetRow} {attempt : AttemptRow} {terminal : AttemptStatus}
  {reason : AttemptReason} {status : TargetStatus} {next : Option TimeUnixMs}
  {observedAt : TimeUnixMs}

theorem targetsOf_resolved (jobId : Id32) :
    targetsOf (s.resolved target attempt terminal reason status next observedAt) jobId =
      Table.replace target (target.resolved status next observedAt) (targetsOf s jobId) := by
  unfold targetsOf
  exact Table.filter_replace _ rfl

theorem attemptsOf_resolved (jobId : Id32) (index : ℕ) :
    attemptsOf (s.resolved target attempt terminal reason status next observedAt) jobId index =
      Table.replace attempt (attempt.resolved terminal reason observedAt)
        (attemptsOf s jobId index) := by
  unfold attemptsOf
  exact Table.filter_replace _ rfl

@[simp] theorem targetsOf_finalized (job : JobRow) (jobId : Id32) :
    targetsOf (s.finalized job observedAt) jobId = targetsOf s jobId := by
  unfold Store.finalized
  split <;> rfl

@[simp] theorem attemptsOf_finalized (job : JobRow) (jobId : Id32) (index : ℕ) :
    attemptsOf (s.finalized job observedAt) jobId index = attemptsOf s jobId index := by
  unfold Store.finalized
  split <;> rfl

end Rows

/-! ## Creation -/

theorem length_newTargetRows (jobId : Id32) (createdAt : TimeUnixMs) (index : ℕ)
    (policies : List TargetPolicy) :
    (newTargetRows jobId createdAt index policies).length = policies.length := by
  induction policies generalizing index with
  | nil => rfl
  | cons target rest ih => simp [newTargetRows, ih]

theorem newTargetRows_index (jobId : Id32) (createdAt : TimeUnixMs) (index : ℕ)
    (policies : List TargetPolicy) :
    (newTargetRows jobId createdAt index policies).map TargetRow.targetIndex =
      List.range' index policies.length := by
  induction policies generalizing index with
  | nil => rfl
  | cons target rest ih => simp [newTargetRows, ih, newTargetRow, List.range'_succ]

theorem newTargetRows_relay (jobId : Id32) (createdAt : TimeUnixMs) (index : ℕ)
    (policies : List TargetPolicy) :
    (newTargetRows jobId createdAt index policies).map TargetRow.relayId =
      policies.map TargetPolicy.relayId := by
  induction policies generalizing index with
  | nil => rfl
  | cons target rest ih => simp [newTargetRows, ih, newTargetRow]

/-- A new target is pending and has no history. -/
theorem mem_newTargetRows {jobId : Id32} {createdAt : TimeUnixMs} {index : ℕ}
    {policies : List TargetPolicy} {row : TargetRow}
    (h : row ∈ newTargetRows jobId createdAt index policies) :
    row.jobId = jobId ∧ row.status = .pending ∧ row.attemptCount = 0 ∧
      row.activeAttemptId = none ∧ row.nextAttemptAt = none := by
  induction policies generalizing index with
  | nil => cases h
  | cons target rest ih =>
      rcases List.mem_cons.mp h with rfl | hrest
      · exact ⟨rfl, rfl, rfl, rfl, rfl⟩
      · exact ih hrest

theorem newTargetRows_required (maxAttempts : ℕ) (jobId : Id32) (createdAt : TimeUnixMs) (index : ℕ)
    (policies : List TargetPolicy) :
    possibleRequired maxAttempts (newTargetRows jobId createdAt index policies) =
      (policies.filter TargetPolicy.required).length := by
  unfold possibleRequired
  induction policies generalizing index with
  | nil => rfl
  | cons target rest ih =>
      have hmay : (newTargetRow jobId createdAt index target).mayDeliver maxAttempts =
          target.required := by
        change (target.required && true && !(false && _)) = target.required
        simp
      rw [newTargetRows, List.filter_cons, List.filter_cons, hmay]
      split
      · simp [ih]
      · exact ih (index + 1)

theorem newTargetRows_undelivered (jobId : Id32) (createdAt : TimeUnixMs) (index : ℕ)
    (policies : List TargetPolicy) :
    deliveredRequired (newTargetRows jobId createdAt index policies) = 0 := by
  unfold deliveredRequired
  rw [List.length_eq_zero_iff, List.filter_eq_nil_iff]
  intro row hrow
  simp [(mem_newTargetRows hrow).2.1]

namespace DeliveryWf

variable {s : Store}

/-- No row of the delivery tables mentions a job id that is not stored. -/
theorem no_targets {jobId : Id32} (wf : DeliveryWf s) (hfresh : ∀ job ∈ s.jobs, job.jobId ≠ jobId) :
    targetsOf s jobId = [] := by
  unfold targetsOf
  rw [List.filter_eq_nil_iff]
  intro target htarget heq
  obtain ⟨job, hjob, hid⟩ := wf.target_has_job target htarget
  exact hfresh job hjob (hid.trans (by simpa using heq))

theorem no_attempts {jobId : Id32} (wf : DeliveryWf s)
    (hfresh : ∀ job ∈ s.jobs, job.jobId ≠ jobId) (index : ℕ) : attemptsOf s jobId index = [] := by
  unfold attemptsOf
  rw [List.filter_eq_nil_iff]
  intro attempt hattempt heq
  obtain ⟨target, htarget, hkey, -⟩ := wf.attempt_has_target attempt hattempt
  obtain ⟨job, hjob, hid⟩ := wf.target_has_job target htarget
  have hattemptId : attempt.jobId = jobId := by simp at heq; exact heq.1
  exact hfresh job hjob (by rw [hid, hkey, hattemptId])

end DeliveryWf

theorem fresh_of_jobInsertAllowed {s : Store} {row : JobRow} (h : jobInsertAllowed s row = true) :
    jobCheck row = true ∧ (∀ job ∈ s.jobs, job.jobId ≠ row.jobId) ∧
      ∀ job ∈ s.jobs, ¬ (job.sourceKind = row.sourceKind ∧ job.sourceId = row.sourceId) := by
  simp only [jobInsertAllowed, Bool.and_eq_true, List.all_eq_true, bne_iff_ne, ne_eq,
    Bool.not_eq_true', Bool.and_eq_false_iff, beq_eq_false_iff_ne] at h
  refine ⟨h.1.1, fun job hjob => (h.2 job hjob).1, fun job hjob hsource => ?_⟩
  rcases (h.2 job hjob).2 with hkind | hid
  · exact hkind hsource.1
  · exact hid hsource.2

theorem newJobRow_jobId (source : Source) (artifact : Id32) (createdAt : TimeUnixMs)
    (policy : DeliveryPolicies) :
    (newJobRow source artifact createdAt policy).jobId = deriveJobId source artifact := rfl

section Created

variable {s : Store} {source : Source} {artifact : Id32} {createdAt : TimeUnixMs}
  {policy : DeliveryPolicies}

theorem targetsOf_created (jobId : Id32) :
    targetsOf (s.created source artifact createdAt policy) jobId = targetsOf s jobId ++
      (if deriveJobId source artifact = jobId then
        newTargetRows (deriveJobId source artifact) createdAt 0 policy.targets else []) := by
  unfold targetsOf Store.created
  rw [List.filter_append]
  congr 1
  split
  next heq =>
    rw [List.filter_eq_self]
    intro row hrow
    simpa [(mem_newTargetRows hrow).1] using heq
  next hne =>
    rw [List.filter_eq_nil_iff]
    intro row hrow
    simpa [(mem_newTargetRows hrow).1] using hne

/-- The pairs of job and key of a created store are those of the old one and fresh ones. -/
theorem unique_targets_created {κ : Type} {key : TargetRow → κ}
    (hunique : Table.Unique (fun target => (target.jobId, key target)) s.targets)
    (hold : ∀ target ∈ s.targets, target.jobId ≠ deriveJobId source artifact)
    (hnew : ((newTargetRows (deriveJobId source artifact) createdAt 0 policy.targets).map
      key).Nodup) :
    Table.Unique (fun target => (target.jobId, key target))
      (s.created source artifact createdAt policy).targets := by
  unfold Table.Unique at hunique ⊢
  rw [Store.created, List.map_append, List.nodup_append]
  refine ⟨hunique, ?_, ?_⟩
  · exact List.Nodup.of_map Prod.snd (by simpa [List.map_map, Function.comp_def] using hnew)
  · intro left hleft right hright heq
    obtain ⟨old, hmem, rfl⟩ := List.mem_map.mp hleft
    obtain ⟨new, hnewMem, rfl⟩ := List.mem_map.mp hright
    have hid := congrArg Prod.fst heq
    exact hold old hmem (hid.trans (mem_newTargetRows hnewMem).1)

theorem DeliveryWf.created (wf : DeliveryWf s)
    (hallowed : jobInsertAllowed s (newJobRow source artifact createdAt policy) = true) :
    DeliveryWf (s.created source artifact createdAt policy) := by
  obtain ⟨hcheck, hfresh, hsource⟩ := fresh_of_jobInsertAllowed hallowed
  rw [newJobRow_jobId] at hfresh
  have hvalid := policy.valid
  simp only [deliveryPolicyValid, Bool.and_eq_true, decide_eq_true_eq] at hvalid
  have hnone : ∀ target ∈ s.targets, target.jobId ≠ deriveJobId source artifact := by
    intro target htarget heq
    obtain ⟨job, hjob, hid⟩ := wf.target_has_job target htarget
    exact hfresh job hjob (hid.trans heq)
  -- the targets of an old job, and those of the new one
  have hkept : ∀ job ∈ s.jobs, targetsOf (s.created source artifact createdAt policy) job.jobId =
      targetsOf s job.jobId := by
    intro job hjob
    rw [targetsOf_created, if_neg (fun heq => hfresh job hjob heq.symm), List.append_nil]
  have hnew : targetsOf (s.created source artifact createdAt policy)
      (deriveJobId source artifact) =
      newTargetRows (deriveJobId source artifact) createdAt 0 policy.targets := by
    rw [targetsOf_created, if_pos rfl, wf.no_targets hfresh, List.nil_append]
  have hjobs : ∀ {motive : JobRow → Prop}, (∀ job ∈ s.jobs, motive job) →
      motive (newJobRow source artifact createdAt policy) →
      ∀ job ∈ (s.created source artifact createdAt policy).jobs, motive job := by
    intro motive hold hlast job hjob
    rcases List.mem_append.mp hjob with hmem | hmem
    · exact hold job hmem
    · rw [List.mem_singleton.mp hmem]
      exact hlast
  exact {
    jobs_unique := wf.jobs_unique.append_row hfresh
    sources_unique := wf.sources_unique.append_row fun job hjob heq =>
      hsource job hjob (by simpa using heq)
    targets_unique := unique_targets_created wf.targets_unique hnone
      (by rw [newTargetRows_index]; exact List.nodup_range')
    relays_unique := unique_targets_created wf.relays_unique hnone
      (by rw [newTargetRows_relay]; simp only [hvalid])
    attempts_unique := wf.attempts_unique
    target_has_job := by
      intro target htarget
      rcases List.mem_append.mp htarget with hmem | hmem
      · obtain ⟨job, hjob, hid⟩ := wf.target_has_job target hmem
        exact ⟨job, List.mem_append_left _ hjob, hid⟩
      · exact ⟨_, List.mem_append_right _ (List.mem_singleton.mpr rfl), (mem_newTargetRows hmem).1.symm⟩
    attempt_has_target := by
      intro attempt hattempt
      obtain ⟨target, htarget, hkey⟩ := wf.attempt_has_target attempt hattempt
      exact ⟨target, List.mem_append_left _ htarget, hkey⟩
    job_checked := hjobs wf.job_checked hcheck
    targets_nonempty := by
      refine hjobs (fun job hjob => ?_) ?_
      · rw [hkept job hjob]
        exact wf.targets_nonempty job hjob
      · rw [newJobRow_jobId, hnew]
        intro hnil
        have hlen := congrArg List.length hnil
        rw [length_newTargetRows, List.length_nil, List.length_eq_zero_iff] at hlen
        simp [hlen] at hvalid
    targets_bounded := by
      refine hjobs (fun job hjob => ?_) ?_
      · rw [hkept job hjob]
        exact wf.targets_bounded job hjob
      · rw [newJobRow_jobId, hnew,
          length_newTargetRows]
        simp only [hvalid]
    indices := by
      refine hjobs (fun job hjob => ?_) ?_
      · rw [hkept job hjob]
        exact wf.indices job hjob
      · rw [newJobRow_jobId, hnew,
          newTargetRows_index, length_newTargetRows, List.range_eq_range']
    histories := by
      refine hjobs (fun job hjob => ?_) ?_
      · rw [hkept job hjob]
        exact wf.histories job hjob
      · rw [newJobRow_jobId, hnew]
        intro target htarget
        obtain ⟨-, hstatus, hcount, hactive, hnext⟩ := mem_newTargetRows htarget
        have hnil : attemptsOf (s.created source artifact createdAt policy)
            (deriveJobId source artifact) target.targetIndex = [] :=
          wf.no_attempts hfresh target.targetIndex
        rw [hnil]
        exact {
          count := hcount.symm
          numbers := rfl
          bounded := by rw [hcount]; exact Nat.zero_le _
          checked := fun _ hmem => by cases hmem
          settled := fun _ hmem => by cases hmem
          last := by
            unfold LastOk
            rw [hstatus]
            exact ⟨rfl, hactive, hnext⟩ } }

end Created

/-! ## Open jobs stay undecided -/

theorem terminalStatus_eq_none {job : JobRecord} :
    terminalStatus job = none ↔
      deliveredRequired job.targets < job.requiredAcknowledgements ∧
        job.requiredAcknowledgements ≤ possibleRequired job.maxAttempts job.targets := by
  unfold terminalStatus
  split
  next h => simp; omega
  next h =>
    split
    next hpossible => simp [hpossible]; omega
    next hpossible =>
      split
      · simp [hpossible]
      · simp [hpossible]

/-- A count over the targets does not see a replacement that keeps what it counts. -/
theorem length_filter_replace {target target' : TargetRow} {targets : List TargetRow}
    {p : TargetRow → Bool} (h : p target' = p target) :
    ((Table.replace target target' targets).filter p).length = (targets.filter p).length := by
  rw [Table.filter_replace p h, Table.length_replace]

theorem terminalStatus_replace {job : JobRow} {target target' : TargetRow} {targets : List TargetRow}
    (hdelivered : (target'.required && target'.status == .delivered) =
      (target.required && target.status == .delivered))
    (hmay : target'.mayDeliver job.maxAttempts = target.mayDeliver job.maxAttempts)
    (h : terminalStatus { job with targets } = none) :
    terminalStatus { job with targets := Table.replace target target' targets } = none := by
  rw [terminalStatus_eq_none] at h ⊢
  unfold deliveredRequired possibleRequired at h ⊢
  rwa [length_filter_replace (p := fun target => target.required && target.status == .delivered)
    hdelivered, length_filter_replace hmay]

namespace DeliveryInv

variable {s : Store}

theorem undecided_counts {job : JobRow} (inv : DeliveryInv s) (hjob : job ∈ s.jobs)
    (hopen : job.status.isOpen = true) :
    deliveredRequired (targetsOf s job.jobId) < job.requiredAcknowledgements ∧
      job.requiredAcknowledgements ≤ possibleRequired job.maxAttempts (targetsOf s job.jobId) :=
  terminalStatus_eq_none.mp (inv.undecided job hjob hopen)

/-- A step that rewrites one job and one target of it only has to look at that job. -/
theorem of_replace {s' : Store} {job job' : JobRow} {target target' : TargetRow}
    (inv : DeliveryInv s) (wf : DeliveryWf s') (hjob : job ∈ s.jobs)
    (htarget : target ∈ targetsOf s job.jobId) (hjobs : s'.jobs = Table.replace job job' s.jobs)
    (htargets : s'.targets = Table.replace target target' s.targets)
    (hid : target'.jobId = target.jobId)
    (hjob' : job'.status.isOpen = true →
      terminalStatus { job' with targets := targetsOf s' job'.jobId } = none) :
    DeliveryInv s' := by
  refine { wf with undecided := ?_ }
  intro row hrow hopen
  rw [hjobs] at hrow
  rcases Table.mem_replace.mp hrow with ⟨hmem, hne⟩ | ⟨-, rfl⟩
  · have hkept : targetsOf s' row.jobId = targetsOf s row.jobId := by
      rw [DeliveryWf.targetsOf_replace htargets hid]
      refine Table.replace_of_not_mem fun hin => hne ?_
      have hrowId := (mem_targetsOf.mp hin).2
      exact inv.jobs_unique.eq_of_key_eq hmem hjob
        (hrowId.symm.trans (mem_targetsOf.mp htarget).2)
    rw [hkept]
    exact inv.undecided row hmem hopen
  · exact hjob' hopen

theorem claimed {job : JobRow} {target : TargetRow} {attempt : AttemptRow} {claimedAt : TimeUnixMs}
    (inv : DeliveryInv s) (h : Claims s job target attempt claimedAt) :
    DeliveryInv (s.claimed job target attempt claimedAt) := by
  refine inv.of_replace (inv.toDeliveryWf.claimed h) h.job_mem h.target_mem rfl rfl rfl fun _ => ?_
  have hold := inv.undecided job h.job_mem h.job_open
  -- a target that can be leased could still deliver, and a leased one can
  have hmay : (target.claimed attempt claimedAt).mayDeliver job.maxAttempts =
      target.mayDeliver job.maxAttempts := by
    have hremaining : ¬ job.maxAttempts ≤ target.attemptCount := Nat.not_le.mpr h.remaining
    have hleased : (target.claimed attempt claimedAt).mayDeliver job.maxAttempts =
        target.required := by
      change (target.required && true && !(false && _)) = target.required
      simp
    rw [hleased]
    simp [TargetRow.mayDeliver, hremaining, h.unsettled.2]
  have hdelivered : ((target.claimed attempt claimedAt).required &&
      (target.claimed attempt claimedAt).status == .delivered) =
      (target.required && target.status == .delivered) := by
    have hno : (target.status == .delivered) = false := by simp [h.unsettled.1]
    rw [hno]
    rfl
  have htargets : targetsOf (s.claimed job target attempt claimedAt) job.jobId =
      Table.replace target (target.claimed attempt claimedAt) (targetsOf s job.jobId) := by
    rw [DeliveryWf.targetsOf_replace rfl]
    rfl
  have hnew := terminalStatus_replace hdelivered hmay hold
  rw [terminalStatus_eq_none] at hnew ⊢
  simpa [htargets] using hnew

theorem submitted {job : JobRow} {target : TargetRow} {attempt : AttemptRow}
    {submittedAt : TimeUnixMs} (inv : DeliveryInv s)
    (h : Submits s job target attempt submittedAt) :
    DeliveryInv (s.submitted target attempt submittedAt) := by
  refine inv.of_replace (inv.toDeliveryWf.submitted h) h.job_mem h.target_mem
    Table.replace_self.symm rfl rfl fun hopen => ?_
  have hmay : (target.submitted submittedAt).mayDeliver job.maxAttempts =
      target.mayDeliver job.maxAttempts := by
    unfold TargetRow.mayDeliver
    rw [h.target_leased]
    rfl
  have hdelivered : ((target.submitted submittedAt).required &&
      (target.submitted submittedAt).status == .delivered) =
      (target.required && target.status == .delivered) := by
    rw [h.target_leased]
    rfl
  have htargets : targetsOf (s.submitted target attempt submittedAt) job.jobId =
      Table.replace target (target.submitted submittedAt) (targetsOf s job.jobId) := by
    rw [DeliveryWf.targetsOf_replace rfl]
    rfl
  rw [htargets]
  exact terminalStatus_replace hdelivered hmay (inv.undecided job h.job_mem hopen)

theorem resolved {job : JobRow} {target : TargetRow} {attempt : AttemptRow}
    {terminal : AttemptStatus} {reason : AttemptReason} {jitter : RetryJitter}
    {status : TargetStatus} {next : Option TimeUnixMs} {observedAt : TimeUnixMs}
    (inv : DeliveryInv s)
    (h : Resolves s job target attempt terminal reason jitter status next observedAt) :
    DeliveryInv
      ((s.resolved target attempt terminal reason status next observedAt).finalized job
        observedAt) := by
  have wf := inv.toDeliveryWf.resolved h.job_mem h.target_mem h.attempt_mem h.live
    h.attempt_allowed h.outcome
  have wf' := wf.finalized h.job_allowed
  unfold Store.finalized at wf' ⊢
  split at wf'
  next verdict hverdict =>
    have hjobs : { s.resolved target attempt terminal reason status next observedAt with
        jobs := Table.replace job (job.finalized verdict observedAt) s.jobs }.jobs =
        Table.replace job (job.finalized verdict observedAt) s.jobs := rfl
    refine inv.of_replace wf' h.job_mem h.target_mem hjobs rfl rfl fun hopen => ?_
    have hallowed := h.job_allowed verdict hverdict
    have hopen : verdict.isOpen = true := hopen
    simp [jobUpdateAllowed, JobRow.finalized, JobStatus.isOpen] at hallowed hopen
    simp [hopen] at hallowed
  next hverdict =>
    refine inv.of_replace wf' h.job_mem h.target_mem Table.replace_self.symm rfl rfl fun hopen => ?_
    rwa [Store.verdict, if_pos hopen] at hverdict

theorem created {source : Source} {artifact : Id32} {createdAt : TimeUnixMs}
    {policy : DeliveryPolicies} (inv : DeliveryInv s)
    (hallowed : jobInsertAllowed s (newJobRow source artifact createdAt policy) = true) :
    DeliveryInv (s.created source artifact createdAt policy) := by
  have hfresh := (fresh_of_jobInsertAllowed hallowed).2.1
  have hvalid := policy.valid
  simp only [deliveryPolicyValid, Bool.and_eq_true, bne_iff_ne, decide_eq_true_eq] at hvalid
  refine { inv.toDeliveryWf.created hallowed with undecided := ?_ }
  intro job hjob hopen
  rw [targetsOf_created]
  rcases List.mem_append.mp hjob with hmem | hmem
  · rw [if_neg (fun heq => hfresh job hmem heq.symm), List.append_nil]
    exact inv.undecided job hmem hopen
  · rw [List.mem_singleton.mp hmem, if_pos (newJobRow_jobId ..).symm,
      inv.no_targets hfresh, List.nil_append, terminalStatus_eq_none]
    simp only [newTargetRows_undelivered, newTargetRows_required, newJobRow]
    omega

/-- Every step keeps the invariant. -/
theorem step {s' : Store} (inv : DeliveryInv s) (h : DeliveryStep s s') : DeliveryInv s' := by
  cases h with
  | create capacity allowed => exact inv.created allowed
  | claim h => exact inv.claimed h
  | submit h => exact inv.submitted h
  | resolve h => exact inv.resolved h

end DeliveryInv

end MycSigner
