import MycSigner.Outbox.Leases

/-!
# What recovery leaves behind

When every lease of an open job has expired before the time of the recovery, a batch ends the
leases of all jobs that it examines.  The batches walk over the open jobs in the order of their
ids, so that after the last one no lease of an open job is left.
-/

namespace MycSigner

open Transaction

variable {s s' : Store} {entropy : Id32} {observedAt : TimeUnixMs}

/-- Every lease of an open job expired before this time. -/
def Expired (s : Store) (observedAt : TimeUnixMs) : Prop :=
  ∀ attempt, Held s attempt → attempt.leaseExpiresAt < observedAt

theorem Releases.expired (h : Releases s s') (hexpired : Expired s observedAt) :
    Expired s' observedAt :=
  fun attempt hheld => hexpired attempt (h.held attempt hheld)

/-! ## One target -/

theorem mem_of_readAttempts {jobId : Id32} {index : ℕ} {attempts : List AttemptRow}
    {attempt : AttemptRow} (h : readAttempts s jobId index = .ok attempts)
    (hmem : attempt ∈ attempts) : attempt ∈ attemptsOf s jobId index := by
  unfold readAttempts parseAttempt at h
  obtain ⟨_, -, h⟩ := Except.bind_eq_ok_iff.mp h
  rw [Except.mapM_validate] at h
  split at h
  next =>
    obtain rfl := Except.ok.inj h
    exact (Table.ordered_perm _ _).mem_iff.mp (List.mem_of_mem_take hmem)
  next => cases h

/-- A target of the walk holds no lease after its step. -/
theorem recoverTarget_releases {before : JobRecord} {progress result : JobRecord × RecoveryReport}
    {target : TargetRow} (inv : DeliveryInv s) (hexpired : Expired s observedAt)
    (h : (recoverTarget entropy observedAt before progress target).run s = .ok (result, s')) :
    Releases s s' ∧ ∀ attemptId, target.activeAttemptId = some attemptId → Unheld s' attemptId := by
  unfold recoverTarget at h
  cases hactive : target.activeAttemptId with
  | none =>
      rw [hactive] at h
      obtain ⟨-, rfl⟩ := run_pure_eq_ok.mp h
      exact ⟨inv.releases_refl, by simp⟩
  | some attemptId =>
      rw [hactive] at h
      obtain ⟨attempts, hattempts, h⟩ := run_query_bind_eq_ok.mp h
      obtain ⟨current, hcurrent, hrecover⟩ := run_orFail_bind_eq_ok.mp h
      obtain ⟨hlast, hid⟩ := Option.filter_eq_some_iff.mp hcurrent
      obtain rfl : current.attemptId = attemptId := by simpa using hid
      split at hrecover
      next =>
        obtain ⟨jitter, -, hrecover⟩ := run_query_bind_eq_ok.mp hrecover
        obtain ⟨record, s₁, hexpire, hcount⟩ := run_bind_eq_ok.mp hrecover
        obtain ⟨recovered, -, hcount⟩ := run_query_bind_eq_ok.mp hcount
        obtain ⟨-, rfl⟩ := run_pure_eq_ok.mp hcount
        obtain ⟨hreleases, hunheld⟩ := recoverExpired_releases inv hexpire
        exact ⟨hreleases, by simpa using hunheld⟩
      next hunexpired =>
        obtain ⟨-, rfl⟩ := run_pure_eq_ok.mp hrecover
        refine ⟨inv.releases_refl, ?_⟩
        intro attemptId hattemptId attempt hheld hsame
        obtain rfl := Option.some.inj hattemptId
        have hstored := (mem_attemptsOf.mp
          (mem_of_readAttempts hattempts (List.mem_of_getLast? hlast))).1
        obtain rfl := inv.attempts_unique.eq_of_key_eq hstored hheld.stored hsame.symm
        exact hunexpired (hexpired current hheld)

/-! ## One job -/

theorem finalizeJobIfTerminal_same (inv : DeliveryInv s) {jobId : Id32} {record : JobRecord}
    (h : (finalizeJobIfTerminal jobId observedAt).run s = .ok (record, s')) : s' = s := by
  have hstate := inv.finalize_eq jobId observedAt
  rw [atomically_of_ok h] at hstate
  exact hstate

/-- No lease belongs to this job. -/
def JobUnheld (s : Store) (jobId : Id32) : Prop :=
  ∀ attempt, Held s attempt → attempt.jobId ≠ jobId

/-- The walk over the targets of a job ends all its leases. -/
theorem recoverTargets_releases {before : JobRecord} {jobId : Id32}
    {progress result : JobRecord × RecoveryReport} (inv : DeliveryInv s)
    (hexpired : Expired s observedAt) (hbefore : readJob s jobId = .ok (some before))
    (h : (before.targets.foldlM (recoverTarget entropy observedAt before) progress).run s =
      .ok (result, s')) : Releases s s' ∧ JobUnheld s' jobId := by
  have wf := inv.toDeliveryWf
  obtain ⟨hreleases, hunheld, -⟩ := run_foldlM_each (I := Releases s)
    (Q := fun target s₁ =>
      ∀ attemptId, target.activeAttemptId = some attemptId → Unheld s₁ attemptId)
    (fun {_ _ s₁ _ s₂} hsofar hrun => by
      obtain ⟨hstep, hunheld⟩ := recoverTarget_releases hsofar.inv (hsofar.expired hexpired) hrun
      exact ⟨hsofar.trans hstep, hunheld,
        fun _ hbefore attemptId hactive => hstep.unheld (hbefore attemptId hactive)⟩)
    inv.releases_refl h
  refine ⟨hreleases, fun attempt hheld hjobId => ?_⟩
  obtain ⟨hstored, hlive, row, hrow, hrowId, hopen⟩ := hreleases.held attempt hheld
  obtain ⟨hjob, hid, htargets⟩ := wf.of_readJob hbefore
  obtain ⟨target, htarget, -, -, hactive⟩ := wf.target_of_live hjob (hid.trans hjobId.symm) hstored
    hlive
  rw [hid, ← htargets] at htarget
  exact hunheld target htarget attempt.attemptId hactive attempt hheld rfl

theorem recoverJob_releases {codec : EventCodec} {policy : Option DiscoveryPolicies}
    {report result : RecoveryReport} {jobId : Id32} (inv : DeliveryInv s)
    (hexpired : Expired s observedAt)
    (h : (recoverJob codec policy entropy observedAt report jobId).run s = .ok (result, s')) :
    Releases s s' ∧ JobUnheld s' jobId := by
  unfold recoverJob at h
  obtain ⟨before?, hbefore, h⟩ := run_query_bind_eq_ok.mp h
  obtain ⟨before, rfl, h⟩ := run_orFail_bind_eq_ok.mp h
  obtain ⟨_, -, h⟩ := run_query_bind_eq_ok.mp h
  obtain ⟨_, -, h⟩ := run_query_bind_eq_ok.mp h
  obtain ⟨⟨_, report₁⟩, s₁, htargets, h⟩ := run_bind_eq_ok.mp h
  obtain ⟨hreleases, hunheld⟩ := recoverTargets_releases inv hexpired hbefore htargets
  dsimp only at h
  obtain ⟨current, s₂, hfinalize, hafter⟩ := run_bind_eq_ok.mp h
  obtain rfl := finalizeJobIfTerminal_same hreleases.inv hfinalize
  obtain ⟨finalized, -, hafter⟩ := run_query_bind_eq_ok.mp hafter
  obtain ⟨report₂, s₃, hpromote, hafter⟩ := run_bind_eq_ok.mp hafter
  obtain ⟨hjobs, htargets, hattempts⟩ :=
    delivery_of_withoutDiscovery (promoteRecovered_keeps_others _ _ _ hpromote)
  have hpromoted : Releases s₂ s₃ := hreleases.inv.releases_congr hjobs htargets hattempts
  obtain ⟨_, -, hafter⟩ := run_query_bind_eq_ok.mp hafter
  obtain ⟨_, -, hafter⟩ := run_orFail_bind_eq_ok.mp hafter
  obtain ⟨_, -, hafter⟩ := run_query_bind_eq_ok.mp hafter
  obtain ⟨_, -, hafter⟩ := run_query_bind_eq_ok.mp hafter
  obtain ⟨_, -, hafter⟩ := run_query_bind_eq_ok.mp hafter
  obtain ⟨-, rfl⟩ := run_pure_eq_ok.mp hafter
  exact ⟨hreleases.trans hpromoted,
    fun attempt hheld => hunheld attempt (hpromoted.held attempt hheld)⟩

/-! ## A batch -/

/-- An open job after the cursor is on the list of the jobs to recover. -/
theorem mem_recoveryJobIds {cursor : Option Id32} {job : JobRow} (hjob : job ∈ s.jobs)
    (hopen : job.status.isOpen = true) (hcursor : cursor.all (· < job.jobId) = true) :
    job.jobId ∈ recoveryJobIds s cursor := by
  unfold recoveryJobIds
  rw [(Table.ordered_perm _ _).mem_iff, List.mem_map]
  exact ⟨job, List.mem_filter.mpr ⟨hjob, by simp [needsRecovery, hopen, hcursor]⟩, rfl⟩

theorem recoveryJobIds_sorted (s : Store) (cursor : Option Id32) :
    (recoveryJobIds s cursor).Pairwise (· ≤ ·) := by
  unfold recoveryJobIds Table.ordered
  simp only [decide_eq_true_eq]
  exact List.pairwise_insertionSort _ _

/-- An element of a sorted list that is not among the first comes after the last of these. -/
theorem lt_of_not_mem_take {ids : List Id32} (hsorted : ids.Pairwise (· ≤ ·)) {n : ℕ}
    {next id : Id32} (hlast : (ids.take n).getLast? = some next) (hid : id ∈ ids)
    (hrest : id ∉ ids.take n) : next < id := by
  have hnext : next ∈ ids.take n := List.mem_of_getLast? hlast
  have hdrop : id ∈ ids.drop n := by
    rw [← List.take_append_drop n ids, List.mem_append] at hid
    exact hid.resolve_left hrest
  rw [← List.take_append_drop n ids, List.pairwise_append] at hsorted
  have hle := hsorted.2.2 next hnext id hdrop
  refine BitVec.lt_of_le_ne hle fun heq => hrest ?_
  rw [← heq]
  exact hnext

/-- A job that the first batch of a sorted list does not reach comes after the continuation. -/
theorem continuation_of_rest {ids : List Id32} (hsorted : ids.Pairwise (· ≤ ·)) {id : Id32}
    (hid : id ∈ ids) (hrest : id ∉ (ids.take 129).take 128) :
    ∃ next, (if 128 < (ids.take 129).length then ((ids.take 129).take 128).getLast? else none) =
      some next ∧ next < id := by
  rw [List.take_take, show min 128 129 = 128 from rfl] at hrest ⊢
  have hmany : 128 < ids.length := by
    by_contra hfew
    rw [List.take_of_length_le (by omega)] at hrest
    exact hrest hid
  rw [if_pos (by rw [List.length_take]; omega)]
  obtain ⟨next, hnext⟩ : ∃ next, (ids.take 128).getLast? = some next := by
    rw [← Option.isSome_iff_exists, List.getLast?_isSome]
    intro hnil
    have hlength := congrArg List.length hnil
    rw [List.length_take, List.length_nil] at hlength
    omega
  exact ⟨next, hnext, lt_of_not_mem_take hsorted hnext hid hrest⟩

/-- After a batch the leases that are left belong to jobs after the continuation, and after the
last batch there are none. -/
theorem recoverBatch_releases {codec : EventCodec} {policy : Option DiscoveryPolicies}
    {outboxMaximum : ℕ} {cursor continuation : Option Id32} {report : RecoveryReport}
    (inv : DeliveryInv s) (hexpired : Expired s observedAt)
    (hcursor : ∀ attempt, Held s attempt → cursor.all (· < attempt.jobId) = true)
    (h : (recoverBatch codec policy outboxMaximum entropy observedAt cursor).run s =
      .ok ((report, continuation), s')) :
    Releases s s' ∧ ∀ attempt, Held s' attempt →
      ∃ next, continuation = some next ∧ next < attempt.jobId := by
  unfold recoverBatch at h
  obtain ⟨_, -, h⟩ := run_query_bind_eq_ok.mp h
  obtain ⟨found, hfound, h⟩ := run_query_bind_eq_ok.mp h
  obtain rfl := Except.ok.inj hfound
  obtain ⟨report', s₁, hjobs, h⟩ := run_bind_eq_ok.mp h
  obtain ⟨hresult, rfl⟩ := run_pure_eq_ok.mp h
  obtain ⟨rfl, rfl⟩ := Prod.mk.inj hresult
  obtain ⟨hreleases, hunheld, -⟩ := run_foldlM_each (I := Releases s) (Q := fun jobId s₁ =>
      JobUnheld s₁ jobId)
    (fun {_ _ s₁ _ s₂} hsofar hrun => by
      obtain ⟨hstep, hunheld⟩ := recoverJob_releases hsofar.inv (hsofar.expired hexpired) hrun
      exact ⟨hsofar.trans hstep, hunheld,
        fun _ hbefore attempt hheld => hbefore attempt (hstep.held attempt hheld)⟩)
    inv.releases_refl hjobs
  refine ⟨hreleases, fun attempt hheld => ?_⟩
  have hbefore := hreleases.held attempt hheld
  obtain ⟨row, hrow, hrowId, hopen⟩ := hbefore.job_open
  have hlisted : attempt.jobId ∈ recoveryJobIds s cursor :=
    hrowId ▸ mem_recoveryJobIds hrow hopen (hrowId ▸ hcursor attempt hbefore)
  have hrest : attempt.jobId ∉ ((recoveryJobIds s cursor).take 129).take 128 :=
    fun hmem => hunheld attempt.jobId hmem attempt hheld rfl
  exact continuation_of_rest (recoveryJobIds_sorted s cursor) hlisted hrest

end MycSigner
