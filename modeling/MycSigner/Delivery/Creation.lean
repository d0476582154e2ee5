import MycSigner.Delivery.Finalization

/-!
# The ceiling of the outbox

Only a creation adds an open job, and it counts the open jobs first.  A request for a source that
already has a job is answered from the stored job before anything is counted, and it is a replay
exactly when it repeats everything that was stored of the first request.
-/

namespace MycSigner

open Transaction

/-! ## Calls under one configuration -/

/-- The call as it is made under the given configuration. -/
def DeliveryCall.under (policy : DeliveryPolicies) : DeliveryCall → DeliveryCall
  | .operation (.createJob source artifact createdAt _) =>
      .operation (.createJob source artifact createdAt policy)
  | call => call

def DeliveryCall.performUnder (policy : DeliveryPolicies) (s : Store) (call : DeliveryCall) :
    Store :=
  (call.under policy).perform s

section

variable {s s' : Store} {policy : DeliveryPolicies}

/-! ## Counting open jobs -/

theorem activeJobCount_replace {rows : List JobRow} {job job' : JobRow} (hnodup : rows.Nodup)
    (hjob : job ∈ rows) (hclosed : job'.status.isOpen = true → job.status.isOpen = true) :
    ((Table.replace job job' rows).filter fun row => row.status.isOpen).length ≤
      (rows.filter fun row => row.status.isOpen).length := by
  have hcount := Table.length_filter_replace (fun row : JobRow => row.status.isOpen) job' hnodup
    hjob
  have hle : (job'.status.isOpen).toNat ≤ (job.status.isOpen).toNat := by
    cases hopen : job'.status.isOpen with
    | false => exact Nat.zero_le _
    | true => rw [hclosed hopen]
  omega

theorem activeJobCount_finalized {job : JobRow} {observedAt : TimeUnixMs}
    (hunique : Table.Unique JobRow.jobId s.jobs) (hjob : job ∈ s.jobs) :
    activeJobCount (s.finalized job observedAt) ≤ activeJobCount s := by
  unfold activeJobCount Store.finalized
  split
  next status hverdict =>
    exact activeJobCount_replace hunique.nodup hjob fun _ => verdict_open hverdict
  next => exact Nat.le_refl _

theorem activeJobCount_created (source : Source) (artifact : Id32) (createdAt : TimeUnixMs)
    (policy : DeliveryPolicies) :
    activeJobCount (s.created source artifact createdAt policy) = activeJobCount s + 1 := by
  unfold activeJobCount Store.created
  rw [List.filter_append, List.length_append]
  rfl

theorem Resolves.activeJobCount_le {job : JobRow} {target : TargetRow} {attempt : AttemptRow}
    {terminal : AttemptStatus} {reason : AttemptReason} {jitter : RetryJitter}
    {status : TargetStatus} {next : Option TimeUnixMs} {observedAt : TimeUnixMs}
    (wf : DeliveryWf s)
    (h : Resolves s job target attempt terminal reason jitter status next observedAt) :
    activeJobCount ((s.resolved target attempt terminal reason status next observedAt).finalized
      job observedAt) ≤ activeJobCount s :=
  activeJobCount_finalized (s := s.resolved target attempt terminal reason status next observedAt)
    wf.jobs_unique h.job_mem

/-- No call takes the open jobs past the ceiling of its configuration. -/
theorem DeliveryInv.activeJobCount_performUnder (inv : DeliveryInv s) (call : DeliveryCall)
    (h : activeJobCount s ≤ policy.outboxMaximum) :
    activeJobCount (call.performUnder policy s) ≤ policy.outboxMaximum := by
  have wf := inv.toDeliveryWf
  cases call with
  | finalize jobId observedAt =>
      change activeJobCount ((finalizeJobIfTerminal jobId observedAt).atomically s).2 ≤ _
      rwa [inv.finalize_eq]
  | operation event =>
      cases event with
      | createJob source artifact createdAt _ =>
          refine atomically_cases (P := fun s' => activeJobCount s' ≤ policy.outboxMaximum) h
            fun hrun => ?_
          rcases createJob_eq_ok hrun with ⟨rfl, -⟩ | ⟨-, hcapacity, -, rfl, -⟩
          · exact .inl rfl
          · exact .inr (by rw [activeJobCount_created]; exact hcapacity)
      | claimTarget jobId relayId nonce claimedAt =>
          refine atomically_cases (P := fun s' => activeJobCount s' ≤ policy.outboxMaximum) h
            fun hrun => ?_
          rcases claimTarget_cases wf hrun with ⟨rfl, -⟩ | ⟨job, target, attempt, hclaims, rfl, -⟩
          · exact .inl rfl
          · exact .inr (Nat.le_trans (activeJobCount_replace wf.jobs_unique.nodup hclaims.job_mem
              fun _ => hclaims.job_open) h)
      | markSubmitted jobId relayId attemptId submittedAt =>
          refine atomically_cases (P := fun s' => activeJobCount s' ≤ policy.outboxMaximum) h
            fun hrun => ?_
          rcases markSubmitted_cases wf hrun with ⟨rfl, -⟩ | ⟨_, _, _, -, -, rfl⟩
          · exact .inl rfl
          · exact .inr h
      | recordOutcome jobId relayId attemptId outcome jitter observedAt =>
          refine atomically_cases (P := fun s' => activeJobCount s' ≤ policy.outboxMaximum) h
            fun hrun => ?_
          rcases recordOutcome_cases wf hrun with ⟨rfl, -⟩ | ⟨_, _, _, _, _, -, -, -, -, hresolves,
            rfl⟩
          · exact .inl rfl
          · exact .inr (Nat.le_trans (hresolves.activeJobCount_le wf) h)
      | recoverExpired jobId relayId attemptId jitter observedAt =>
          refine atomically_cases (P := fun s' => activeJobCount s' ≤ policy.outboxMaximum) h
            fun hrun => ?_
          rcases recoverExpired_cases wf hrun with ⟨rfl, -⟩ | ⟨_, _, _, _, _, -, -, -, -, hresolves,
            rfl⟩
          · exact .inl rfl
          · exact .inr (Nat.le_trans (hresolves.activeJobCount_le wf) h)
      | elsewhere other => exact h

/-! ## Replays of a creation -/

/-- A request repeats everything that a job and its targets store of the first one. -/
structure Repeats (job : JobRow) (targets : List TargetRow) (artifact : Id32)
    (createdAt : TimeUnixMs) (policy : DeliveryPolicies) : Prop where
  artifact : job.artifactSha256 = artifact
  created : job.createdAt = createdAt
  mode : job.policyMode = policy.mode
  acknowledgements : job.requiredAcknowledgements = policy.requiredAcknowledgements
  attempts : job.maxAttempts = policy.maxAttempts
  initialBackoff : job.initialBackoffMs = policy.initialBackoffMs
  maximumBackoff : job.maximumBackoffMs = policy.maximumBackoffMs
  deadline : job.attemptDeadlineMs = policy.attemptDeadlineMs
  relays : targets.map TargetRow.relayId = policy.targets.map TargetPolicy.relayId
  required : targets.map TargetRow.required = policy.targets.map TargetPolicy.required

theorem targetPolicies_eq_iff {targets : List TargetRow} {policies : List TargetPolicy} :
    targets.map (fun target => TargetPolicy.mk target.relayId target.required) = policies ↔
      targets.map TargetRow.relayId = policies.map TargetPolicy.relayId ∧
        targets.map TargetRow.required = policies.map TargetPolicy.required := by
  constructor
  · rintro rfl
    simp [Function.comp_def]
  · rintro ⟨hrelays, hrequired⟩
    induction targets generalizing policies with
    | nil => simpa using hrelays.symm
    | cons target targets ih =>
        cases policies with
        | nil => simp at hrelays
        | cons policy policies =>
            simp only [List.map_cons, List.cons.injEq] at hrelays hrequired ⊢
            refine ⟨?_, ih hrelays.2 hrequired.2⟩
            rw [hrelays.1, hrequired.1]

theorem exactJob_iff {job : JobRow} {targets : List TargetRow} {artifact : Id32}
    {createdAt : TimeUnixMs} :
    exactJob { job with targets } ⟨job.sourceKind, job.sourceId⟩ artifact createdAt policy = true ↔
      Repeats job targets artifact createdAt policy := by
  simp only [exactJob, beq_self_eq_true, Bool.true_and, Bool.and_eq_true, beq_iff_eq,
    decide_eq_true_eq, targetPolicies_eq_iff]
  constructor
  · rintro ⟨⟨⟨⟨⟨⟨⟨⟨hartifact, hmode⟩, hacks⟩, hattempts⟩, hinitial⟩, hmaximum⟩, hdeadline⟩,
      hcreated⟩, hrelays, hrequired⟩
    exact ⟨hartifact, hcreated, hmode, hacks, hattempts, hinitial, hmaximum, hdeadline, hrelays,
      hrequired⟩
  · intro h
    exact ⟨⟨⟨⟨⟨⟨⟨⟨h.artifact, h.mode⟩, h.acknowledgements⟩, h.attempts⟩, h.initialBackoff⟩,
      h.maximumBackoff⟩, h.deadline⟩, h.created⟩, h.relays, h.required⟩

theorem DeliveryWf.readJobBySource_eq {job : JobRow} (wf : DeliveryWf s) (hjob : job ∈ s.jobs) :
    readJobBySource s ⟨job.sourceKind, job.sourceId⟩ =
      .ok (some { job with targets := targetsOf s job.jobId }) := by
  have hfilter : (s.jobs.filter fun row =>
      row.sourceKind = job.sourceKind ∧ row.sourceId = job.sourceId) = [job] := by
    rw [← wf.sources_unique.filter_eq_singleton hjob]
    refine List.filter_congr fun row _ => ?_
    simp
  rw [readJobBySource, hfilter]
  exact wf.readJobRows_singleton hjob

/-- A request for a source with a job is a replay, or it is refused. -/
theorem DeliveryWf.run_createJob {job : JobRow} {artifact : Id32} {createdAt : TimeUnixMs}
    (wf : DeliveryWf s) (hjob : job ∈ s.jobs) :
    (Repeats job (targetsOf s job.jobId) artifact createdAt policy →
      (createJob ⟨job.sourceKind, job.sourceId⟩ artifact createdAt policy).run s =
        .ok (.exactReplay { job with targets := targetsOf s job.jobId }, s)) ∧
    (¬ Repeats job (targetsOf s job.jobId) artifact createdAt policy →
      (createJob ⟨job.sourceKind, job.sourceId⟩ artifact createdAt policy).run s =
        .error .binding) := by
  have hread : (query (readJobBySource · ⟨job.sourceKind, job.sourceId⟩)).run s =
      .ok (some { job with targets := targetsOf s job.jobId }, s) :=
    run_query_of_ok (wf.readJobBySource_eq hjob)
  unfold createJob
  rw [run_bind_of_ok hread]
  refine ⟨fun hrepeats => ?_, fun hdiffers => ?_⟩
  · exact run_bind_of_ok (run_require_of (exactJob_iff.mpr hrepeats) s)
  · exact run_bind_of_error (run_require_of_not (fun h => hdiffers (exactJob_iff.mp h)) s)

/-! ## The ceiling -/

theorem DeliveryInv.performUnder (inv : DeliveryInv s) (call : DeliveryCall) :
    DeliveryInv (call.performUnder policy s) :=
  inv.call (call.under policy)

/-- Under one configuration the open jobs never exceed the ceiling, so that recovery never fails
because of them, and a request for a source with a job is a replay exactly when it repeats what
the job stores, however full the outbox is. -/
theorem outbox_within_ceiling (metadata : PersistedMetadata) (appliedAtUnixS : ℕ)
    (policy : DeliveryPolicies) (calls : List DeliveryCall) :
    let s := Run.after (DeliveryCall.performUnder policy) (Store.initial metadata appliedAtUnixS)
      calls
    activeJobCount s ≤ policy.outboxMaximum ∧
      (verifyGlobalInvariants policy.outboxMaximum s = .ok () ↔ outboxRelated s = true) ∧
      ∀ job ∈ s.jobs, ∀ artifact createdAt request,
        (Repeats job (targetsOf s job.jobId) artifact createdAt request →
          (createJob ⟨job.sourceKind, job.sourceId⟩ artifact createdAt request).run s =
            .ok (.exactReplay { job with targets := targetsOf s job.jobId }, s)) ∧
        (¬ Repeats job (targetsOf s job.jobId) artifact createdAt request →
          (createJob ⟨job.sourceKind, job.sourceId⟩ artifact createdAt request).run s =
            .error .binding) := by
  intro s
  have hrun : DeliveryInv s ∧ activeJobCount s ≤ policy.outboxMaximum :=
    Run.invariant_always
      (I := fun s => DeliveryInv s ∧ activeJobCount s ≤ policy.outboxMaximum)
      (fun _ call h => ⟨h.1.performUnder call, h.1.activeJobCount_performUnder call h.2⟩) calls
      ⟨NoDelivery.inv ⟨rfl, rfl, rfl⟩, Nat.zero_le _⟩
  refine ⟨hrun.2, ?_, fun job hjob artifact createdAt request => hrun.1.run_createJob hjob⟩
  rw [verifyGlobalInvariants, Except.require_eq_ok]
  exact ⟨fun h => h.1, fun h => ⟨h, hrun.2⟩⟩

end

end MycSigner
