import Mathlib.Data.Prod.Lex
import MycSigner.Delivery.Progress
import MycSigner.Outbox.Applied

/-!
# Selection and claim

The delivery loop asks one query for the next target and leaves the lease to the claim.  The
query reads joined rows, the claim the record of one job.  In every state that delivery calls
reach they agree on which targets are ready, so that the selected target can be claimed, and
where nothing is selected no claim leases anything.
-/

namespace MycSigner

open Transaction

/-! ## The order of the targets -/

/-- The place of a target in the selection: creation of the job, job, index. -/
def readyKey (job : JobRow) (target : TargetRow) : ℕ ×ₗ ℕ ×ₗ ℕ :=
  toLex (job.createdAt.get, toLex (job.jobId.toNat, target.targetIndex))

theorem readyBefore_iff (left right : JobRow × TargetRow) :
    readyBefore left right = true ↔ readyKey left.1 left.2 ≤ readyKey right.1 right.2 := by
  simp only [readyBefore, readyKey, Bool.or_eq_true, Bool.and_eq_true, decide_eq_true_eq,
    beq_iff_eq, Prod.Lex.toLex_le_toLex, BitVec.lt_def, BitVec.toNat_inj]

section

variable {s : Store} {job : JobRow} {target : TargetRow} {observedAt : TimeUnixMs}

/-! ## Ready targets -/

theorem targetReady_iff :
    targetReady observedAt job target = true ↔ job.status.isOpen = true ∧ Claimable job target ∧
      ∀ next, target.nextAttemptAt = some next → next ≤ observedAt := by
  simp only [targetReady, Bool.and_eq_true, Bool.or_eq_true, beq_iff_eq, decide_eq_true_eq,
    Option.isNone_iff_eq_none, Option.all_eq_true]
  constructor
  · rintro ⟨⟨⟨⟨hopen, hstatus⟩, hremaining⟩, hfree⟩, hnext⟩
    exact ⟨hopen, ⟨hfree, by tauto, hremaining⟩, hnext⟩
  · rintro ⟨hopen, hclaimable, hnext⟩
    exact ⟨⟨⟨⟨hopen, by have := hclaimable.status; tauto⟩, hclaimable.remaining⟩, hclaimable.free⟩,
      hnext⟩

/-- The rows that the query joins. -/
theorem mem_readyTargets {found : JobRow × TargetRow} :
    (found ∈ s.targets.flatMap fun target =>
      (s.jobs.filter fun job => job.jobId = target.jobId ∧ targetReady observedAt job target).map
        fun job => (job, target)) ↔
      found.1 ∈ s.jobs ∧ found.2 ∈ targetsOf s found.1.jobId ∧
        targetReady observedAt found.1 found.2 = true := by
  obtain ⟨job, target⟩ := found
  simp only [List.mem_flatMap, List.mem_map, List.mem_filter, decide_eq_true_eq, mem_targetsOf,
    Prod.mk.injEq]
  constructor
  · rintro ⟨_, htarget, _, ⟨hjob, hid, hready⟩, rfl, rfl⟩
    exact ⟨hjob, ⟨htarget, hid.symm⟩, hready⟩
  · rintro ⟨hjob, ⟨htarget, hid⟩, hready⟩
    exact ⟨target, htarget, job, ⟨hjob, hid.symm, hready⟩, rfl, rfl⟩

/-- The selected target is the first of the ready ones. -/
theorem nextReadyTarget_eq_some {jobId : Id32} {relayId : RelayId}
    (h : nextReadyTarget s observedAt = some (jobId, relayId)) :
    ∃ job ∈ s.jobs, ∃ target ∈ targetsOf s job.jobId, job.jobId = jobId ∧
      target.relayId = relayId ∧ targetReady observedAt job target = true ∧
      ∀ other ∈ s.jobs, ∀ sibling ∈ targetsOf s other.jobId,
        targetReady observedAt other sibling = true →
          readyKey job target ≤ readyKey other sibling := by
  obtain ⟨⟨job, target⟩, hfirst, hfound⟩ := Option.map_eq_some_iff.mp h
  obtain ⟨hmem, hleast⟩ := Table.ordered_head_least readyBefore_iff hfirst
  obtain ⟨hjob, htarget, hready⟩ := mem_readyTargets.mp hmem
  obtain ⟨rfl, rfl⟩ := Prod.mk.inj hfound
  exact ⟨job, hjob, target, htarget, rfl, rfl, hready, fun other hother sibling hsibling hother' =>
    hleast (other, sibling) (mem_readyTargets.mpr ⟨hother, hsibling, hother'⟩)⟩

theorem nextReadyTarget_eq_none (h : nextReadyTarget s observedAt = none)
    (hjob : job ∈ s.jobs) (htarget : target ∈ targetsOf s job.jobId) :
    targetReady observedAt job target = false := by
  rw [nextReadyTarget, Option.map_eq_none_iff, Table.ordered_head_none] at h
  refine Bool.eq_false_iff.mpr fun hready => ?_
  have hmem : (job, target) ∈ _ := mem_readyTargets.mpr ⟨hjob, htarget, hready⟩
  rw [h] at hmem
  cases hmem

/-! ## Claims of a target -/

/-- A claim of a target that is not ready leases nothing. -/
theorem DeliveryWf.claimTarget_unready (wf : DeliveryWf s) (hjob : job ∈ s.jobs)
    (htarget : target ∈ targetsOf s job.jobId) {nonce : Id32}
    (hnonce : UnusedNonce s job target nonce)
    (hunready : targetReady observedAt job target = false) :
    ∃ claim, (claimTarget job.jobId target.relayId nonce observedAt).run s = .ok (claim, s) ∧
      (claim = .notReady ∨ claim = .terminal) := by
  have hread : (query (readJob · job.jobId)).run s =
      .ok (some { job with targets := targetsOf s job.jobId }, s) :=
    run_query_of_ok (wf.readJob_eq_some hjob)
  have hunused : (query (readAttemptByNonce · job.jobId target.targetIndex nonce)).run s =
      .ok (none, s) := run_query_of_ok hnonce.readAttemptByNonce_eq
  unfold claimTarget
  rw [run_bind_of_ok hread, run_bind_of_ok (run_orFail_some ..)]
  by_cases hterminal : job.status.isTerminal = true
  · rw [if_pos hterminal]
    exact ⟨.terminal, rfl, .inr rfl⟩
  rw [if_neg hterminal, run_bind_of_ok (run_query_of_ok (s := s) (wf.targetByRelay_eq htarget)),
    run_bind_of_ok hunused]
  simp only
  by_cases hwaits : target.activeAttemptId.isSome = true ∨
      target.nextAttemptAt.any (observedAt < ·) = true
  · rw [if_pos hwaits]
    exact ⟨.notReady, rfl, .inl rfl⟩
  rw [if_neg hwaits]
  by_cases hsettled : target.status = .delivered ∨ target.status = .exhausted ∨
      job.maxAttempts ≤ target.attemptCount
  · rw [if_pos hsettled]
    exact ⟨.terminal, rfl, .inr rfl⟩
  -- what is left passes every condition of the query
  refine absurd ?_ (Bool.eq_false_iff.mp hunready)
  simp only [not_or, Option.isSome_iff_ne_none, ne_eq, not_not, Nat.not_le] at hwaits hsettled
  have hopen : job.status.isOpen = true := by simpa [JobStatus.isOpen] using hterminal
  refine targetReady_iff.mpr ⟨hopen, ⟨hwaits.1, ?_, hsettled.2.2⟩, fun next hnext => ?_⟩
  · exact (wf.histories job hjob target htarget).claimable hwaits.1 ⟨hsettled.1, hsettled.2.1⟩
  · have hdue := hwaits.2
    rw [hnext] at hdue
    exact TimeUnixMs.le_def.mpr (Nat.le_of_not_lt (by simpa [TimeUnixMs.lt_def] using hdue))

/-- A claim of a ready target leases it. -/
theorem ProgressInv.claimTarget_ready (inv : ProgressInv s) (hjob : job ∈ s.jobs)
    (htarget : target ∈ targetsOf s job.jobId) {nonce : Id32}
    (hnonce : UnusedNonce s job target nonce) (htime : target.updatedAt ≤ observedAt)
    (hdeadline : observedAt.get + job.attemptDeadlineMs ≤ i64Max)
    (hready : targetReady observedAt job target = true) :
    ∃ attempt s', (claimTarget job.jobId target.relayId nonce observedAt).run s =
      .ok (.claimed attempt, s') := by
  obtain ⟨hopen, hclaimable, hnext⟩ := targetReady_iff.mp hready
  have hdue : target.dueAt ≤ observedAt := by
    unfold TargetRow.dueAt
    cases hcase : target.nextAttemptAt with
    | none => exact htime
    | some next => exact hnext next hcase
  exact hclaimable.claimTarget_run inv.toDeliveryWf inv.scheduled hjob hopen htarget hnonce hdue
    hdeadline

end

/-! ## Agreement -/

/-- In every state that delivery calls reach, at a time no earlier than the updates of the
targets: a claim with an unused nonce leases the selected target, provided that its lease ends at
a representable time, and no ready target comes before it; where nothing is selected, a claim
of any target with an unused nonce finds it not ready or settled. -/
theorem selection_agrees_with_claim (metadata : PersistedMetadata) (appliedAtUnixS : ℕ)
    (calls : List DeliveryCall) (config : Configuration) (observedAt : TimeUnixMs)
    (found : Option (Id32 × RelayId)) (s' : Store) :
    let s := Run.after DeliveryCall.perform (Store.initial metadata appliedAtUnixS) calls
    (∀ target ∈ s.targets, target.updatedAt ≤ observedAt) →
    (∀ job ∈ s.jobs, observedAt.get + job.attemptDeadlineMs ≤ i64Max) →
    (nextReadyDeliveryTarget config observedAt).run s = .ok (found, s') →
    match found with
    | some (jobId, relayId) => ∃ job ∈ s.jobs, ∃ target ∈ targetsOf s job.jobId,
        job.jobId = jobId ∧ target.relayId = relayId ∧
        (∀ nonce, UnusedNonce s job target nonce → ∃ attempt s'',
          (withBinding config (claimTarget jobId relayId nonce observedAt)).run s' =
            .ok (.claimed attempt, s'')) ∧
        targetReady observedAt job target = true ∧
        ∀ other ∈ s.jobs, ∀ sibling ∈ targetsOf s other.jobId,
          targetReady observedAt other sibling = true →
            readyKey job target ≤ readyKey other sibling
    | none => ∀ job ∈ s.jobs, ∀ target ∈ targetsOf s job.jobId, ∀ nonce,
        UnusedNonce s job target nonce → ∃ claim,
          (withBinding config (claimTarget job.jobId target.relayId nonce observedAt)).run s' =
            .ok (claim, s) ∧ (claim = .notReady ∨ claim = .terminal) := by
  intro s htimes hdeadlines hselect
  have inv : ProgressInv s := .calls metadata appliedAtUnixS calls
  obtain ⟨hbound, hquery⟩ := run_withBinding.mp hselect
  obtain ⟨hnext, rfl⟩ := run_query_eq_ok.mp hquery
  cases found with
  | some selected =>
      obtain ⟨jobId, relayId⟩ := selected
      obtain ⟨job, hjob, target, htarget, rfl, rfl, hready, hleast⟩ :=
        nextReadyTarget_eq_some (Except.ok.inj hnext)
      refine ⟨job, hjob, target, htarget, rfl, rfl, fun nonce hnonce => ?_, hready, hleast⟩
      obtain ⟨attempt, s'', hclaim⟩ := inv.claimTarget_ready hjob htarget hnonce
        (htimes target (mem_targetsOf.mp htarget).1) (hdeadlines job hjob) hready
      exact ⟨attempt, s'', run_withBinding.mpr ⟨hbound, hclaim⟩⟩
  | none =>
      intro job hjob target htarget nonce hnonce
      have hunready := nextReadyTarget_eq_none (Except.ok.inj hnext) hjob htarget
      obtain ⟨claim, hrun, hclaim⟩ :=
        inv.toDeliveryWf.claimTarget_unready hjob htarget hnonce hunready
      exact ⟨claim, run_withBinding.mpr ⟨hbound, hrun⟩, hclaim⟩

namespace SampleHandler

/-- A job of one target was created for the sample request. -/
def created : List DeliveryCall :=
  [.operation (.elsewhere
      { Store.initial config.metadata 1 with requests := [LostAcknowledgement.request] }),
    .operation (.createJob LostAcknowledgement.source 9 (sampleTime 2000)
      LostAcknowledgement.policy)]

theorem created_selects :
    let s := Run.after DeliveryCall.perform (Store.initial config.metadata 1) created
    nextReadyTarget s (sampleTime 3000) =
        some (deriveJobId LostAcknowledgement.source 9, ⟨[97], by decide⟩) ∧
      (∀ target ∈ s.targets, target.updatedAt ≤ sampleTime 3000) ∧
      (∀ job ∈ s.jobs, (sampleTime 3000).get + job.attemptDeadlineMs ≤ i64Max) ∧
      s.attempts = [] ∧ (latestBinding s).map ConfigBindingRow.metadata = some config.metadata := by
  decide +kernel

/-- One second later the target of the job is selected and can be claimed. -/
theorem created_target_claimed :
    let s := Run.after DeliveryCall.perform (Store.initial config.metadata 1) created
    ∃ attempt s', (withBinding config (claimTarget (deriveJobId LostAcknowledgement.source 9)
      ⟨[97], by decide⟩ 11 (sampleTime 3000))).run s = .ok (.claimed attempt, s') := by
  intro s
  obtain ⟨hnext, htimes, hdeadlines, hnone, hbound⟩ := created_selects
  obtain ⟨job, -, target, -, -, -, hclaim, -⟩ :=
    selection_agrees_with_claim config.metadata 1 created config (sampleTime 3000)
      (some (deriveJobId LostAcknowledgement.source 9, ⟨[97], by decide⟩)) s htimes hdeadlines
      (run_withBinding.mpr ⟨hbound, run_query_of_ok (congrArg Except.ok hnext)⟩)
  refine hclaim 11 ⟨fun attempt hattempt => ?_, fun attempt hattempt => ?_⟩
  · have hstored := (mem_attemptsOf.mp hattempt).1
    rw [hnone] at hstored
    cases hstored
  · rw [hnone] at hattempt
    cases hattempt

end SampleHandler

end MycSigner
