import MycSigner.Configuration.History
import MycSigner.Outbox.Reconfiguration
import MycSigner.Outbox.Recovering
import MycSigner.Outbox.Refresh

/-!
# When a batch of the recovery succeeds

The relationships of the outbox hold before every job of a batch, so that its documents and
responses can be read, its histories validated and a delivered handler promoted.  What is left to
fail is the resolution of an expired lease.
-/

namespace MycSigner

open Transaction

section

variable {s s' : Store} {codec : EventCodec} {config : Configuration} {entropy : Id32}
  {observedAt : TimeUnixMs} {job : JobRow}

/-! ## The promotion -/

/-- The delivered job of the desired generation can be promoted. -/
theorem GenerationInv.run_promoteCurrent (inv : GenerationInv s) (hafter : NotBefore s observedAt)
    {state : PublicationStateRow} (hstate : s.publicationState = some state) (hjob : job ∈ s.jobs)
    (hdesired : state.desiredJobId = job.jobId) (hdelivered : job.status = .delivered) :
    ∃ s', (promoteCurrent job.jobId observedAt).run s = .ok ((), s') := by
  have hunique := inv.jobs_unique
  obtain ⟨_, -, document, -, row, hrow, -, -, hrowId, hdelivers⟩ := inv.desired state hstate
  obtain rfl := hunique.eq_of_key_eq hrow hjob (hrowId.trans hdesired)
  have honly : (s.jobs.filter fun other => other.jobId = row.jobId ∧
      other.sourceKind = .discoveryHandler ∧ other.sourceId = state.desiredGenerationId) = [row] :=
    Table.filter_eq_of_only hunique.nodup hrow
      (decide_eq_true ⟨rfl, hdelivers.kind, hdelivers.source⟩)
      fun other hother hmatch => hunique.eq_of_key_eq hother hrow (of_decide_eq_true hmatch).1
  have htime := hafter.pointer state hstate
  have hread := inv.readPublicationState
  unfold promoteCurrent
  by_cases hcurrent : state.currentGenerationId = some state.desiredGenerationId ∧
      state.currentJobId = some state.desiredJobId
  · refine ⟨s, run_query_bind_eq_ok.mpr ⟨_, hread, run_orFail_bind_eq_ok.mpr ⟨state, hstate,
      run_require_bind_eq_ok.mpr ⟨⟨hdesired, htime⟩, run_query_bind_eq_ok.mpr ⟨row,
        oneRow_eq_ok.mpr honly, run_require_bind_eq_ok.mpr ⟨hdelivered, ?_⟩⟩⟩⟩⟩⟩
    rw [if_pos hcurrent]
    rfl
  · have hget : publicationTable.get s = [state] := by
      rw [show publicationTable.get s = s.publicationState.toList from rfl, hstate]
      rfl
    have hallowed : publicationUpdateAllowed state (state.promoted observedAt) = true := by
      simp [publicationUpdateAllowed, PublicationStateRow.promoted, publicationCheck, htime]
    refine ⟨{ s with publicationState := some (state.promoted observedAt) },
      run_query_bind_eq_ok.mpr ⟨_, hread, run_orFail_bind_eq_ok.mpr ⟨state, hstate,
        run_require_bind_eq_ok.mpr ⟨⟨hdesired, htime⟩, run_query_bind_eq_ok.mpr ⟨row,
          oneRow_eq_ok.mpr honly, run_require_bind_eq_ok.mpr ⟨hdelivered, ?_⟩⟩⟩⟩⟩⟩
    rw [if_neg hcurrent]
    refine run_bind_eq_ok.mpr ⟨1, { s with publicationState := some (state.promoted observedAt) },
      (publicationTable.run_update_only state ?_ ?_ ?_ ?_).mpr ⟨hallowed, rfl, ?_⟩, rfl⟩
    · rw [hget]
      exact List.nodup_singleton state
    · rw [hget]
      exact List.mem_singleton_self state
    · exact decide_eq_true ⟨rfl, hdesired, htime, not_and_or.mp hcurrent⟩
    · intro other hother _
      rw [hget] at hother
      exact List.mem_singleton.mp hother
    · rw [hget, Table.replace, Table.update, List.map_singleton, if_pos (decide_eq_true rfl)]
      rfl

theorem NotBefore.promoted (h : NotBefore s observedAt) (state : PublicationStateRow) :
    NotBefore { s with publicationState := some (state.promoted observedAt) } observedAt where
  jobs := h.jobs
  targets := h.targets
  attempts := h.attempts
  pointer _ hmem := by
    obtain rfl := Option.some.inj hmem
    exact Nat.le_refl _

/-- The promotion after the recovery of a job cannot fail. -/
theorem GenerationInv.run_promoteRecovered (inv : GenerationInv s) (current : JobRecord)
    (report : RecoveryReport) (documents : DocumentsPaired s) (hafter : NotBefore s observedAt)
    (hcurrent : current.toJobRow ∈ s.jobs)
    (hroom : report.promotedDiscoveryGenerations + 1 < 2 ^ 32) :
    ∃ result s', (promoteRecovered observedAt current report).run s = .ok (result, s') := by
  unfold promoteRecovered
  split
  next hready =>
    obtain ⟨document, hdocument, -⟩ := documents.documented _ hcurrent hready.2
    obtain ⟨state, hstate⟩ :=
      Option.isSome_iff_exists.mp (documents.pointed (List.ne_nil_of_mem hdocument))
    unfold promoteCurrentIfDesired
    by_cases hdesired : state.desiredJobId = current.jobId
    · obtain ⟨s', hrun⟩ := inv.run_promoteCurrent hafter hstate hcurrent hdesired hready.1
      refine ⟨_, s', run_bind_eq_ok.mpr ⟨true, s', run_query_bind_eq_ok.mpr ⟨_,
        inv.readPublicationState, run_orFail_bind_eq_ok.mpr ⟨state, hstate, ?_⟩⟩,
        run_query_bind_eq_ok.mpr ⟨_, if_pos hroom, rfl⟩⟩⟩
      rw [if_pos hdesired]
      exact run_bind_eq_ok.mpr ⟨(), s', hrun, rfl⟩
    · refine ⟨report, s, run_bind_eq_ok.mpr ⟨false, s, run_query_bind_eq_ok.mpr ⟨_,
        inv.readPublicationState, run_orFail_bind_eq_ok.mpr ⟨state, hstate, ?_⟩⟩, rfl⟩⟩
      rw [if_neg hdesired]
      rfl
  next => exact ⟨report, s, rfl⟩

theorem NotBefore.promoteRecovered {current : JobRecord} {report result : RecoveryReport}
    (hafter : NotBefore s observedAt)
    (h : (promoteRecovered observedAt current report).run s = .ok (result, s')) :
    NotBefore s' observedAt := by
  rcases promoteRecovered_cases h with ⟨rfl, -, -⟩ | ⟨state, -, rfl | rfl, -, -, -⟩
  · exact hafter
  · exact hafter
  · exact hafter.promoted state

/-! ## One job -/

theorem ResponsesReadable.of_view (inv : ResponsesReadable codec s)
    (h : s'.withoutOutbox = s.withoutOutbox) : ResponsesReadable codec s' := by
  have hrequests : s'.requests = s.requests := (congrArg Store.requests h :)
  have hsigned : s'.signedResponses = s.signedResponses := (congrArg Store.signedResponses h :)
  have hpending : s'.pendingResponses = s.pendingResponses := (congrArg Store.pendingResponses h :)
  intro authority hauthority
  have hstored : authority ∈ responseAuthorities s := by
    rwa [responseAuthorities, hsigned, hpending] at hauthority
  obtain ⟨request, hanswered⟩ := inv authority hstored
  exact ⟨request, hauthority, hrequests ▸ hanswered.request_mem, hanswered.operation,
    hanswered.readable⟩

/-- The relationships of the outbox hold after the recovery of a job. -/
theorem OutboxRelated.recoverJob {policy : Option DiscoveryPolicies}
    {report result : RecoveryReport} {jobId : Id32} (inv : OutboxRelated codec config s)
    (h : (MycSigner.recoverJob codec policy entropy observedAt report jobId).run s =
      .ok (result, s')) : OutboxRelated codec config s' := by
  have hview : s'.withoutOutbox = s.withoutOutbox := recoverJob_keeps _ _ _ _ _ _ h
  have hrequests : s'.requests = s.requests := (congrArg Store.requests hview :)
  obtain ⟨-, hmoves⟩ := recoverJob_moves _ _ _ _ _ _ h inv.generations.toDeliveryInv
  exact {
    generations := inv.generations.moves hmoves
    requests := hrequests ▸ inv.requests
    outcomes := fun operationId => outcomes_of_view hview operationId ▸ inv.outcomes operationId
    responses := inv.responses.of_view hview
    documents := inv.documents.moves hmoves
    readable := documents_of_moves hmoves ▸ inv.readable
    ceiling := Nat.le_trans (recoverJob_examines h).count inv.ceiling }

/-- The recovery of a job ends its expired leases and no other. -/
theorem recoverJob_recovers {policy : Option DiscoveryPolicies} {report result : RecoveryReport}
    (inv : DeliveryInv s) (hafter : NotBefore s observedAt) (hjob : job ∈ s.jobs)
    (h : (recoverJob codec policy entropy observedAt report job.jobId).run s = .ok (result, s')) :
    RecoversLeases observedAt job.jobId s s' ∧ expiredLeases s' job.jobId observedAt = [] := by
  have wf := inv.toDeliveryWf
  unfold recoverJob at h
  obtain ⟨before?, hbefore, h₁⟩ := run_query_bind_eq_ok.mp h
  obtain rfl := Except.ok.inj ((wf.readJob_eq_some hjob).symm.trans hbefore)
  obtain ⟨before, hsome, h₂⟩ := run_orFail_bind_eq_ok.mp h₁
  obtain rfl := Option.some.inj hsome
  obtain ⟨_, -, h₃⟩ := run_query_bind_eq_ok.mp h₂
  obtain ⟨_, -, h₄⟩ := run_query_bind_eq_ok.mp h₃
  obtain ⟨⟨_, report₁⟩, s₁, hwalk, h₅⟩ := run_bind_eq_ok.mp h₄
  obtain ⟨hrecovers, hnone⟩ :=
    recoverTargets_recovers inv hafter hjob rfl (wf.holdsLeases hjob) hwalk
  obtain ⟨current, s₂, hfinalize, h₆⟩ := run_bind_eq_ok.mp h₅
  obtain rfl := finalizeJobIfTerminal_same hrecovers.inv hfinalize
  obtain ⟨_, -, h₇⟩ := run_query_bind_eq_ok.mp h₆
  obtain ⟨report₂, s₃, hpromote, h₈⟩ := run_bind_eq_ok.mp h₇
  obtain ⟨_, -, h₉⟩ := run_query_bind_eq_ok.mp h₈
  obtain ⟨_, -, h₁₀⟩ := run_orFail_bind_eq_ok.mp h₉
  obtain ⟨_, -, h₁₁⟩ := run_query_bind_eq_ok.mp h₁₀
  obtain ⟨_, -, h₁₂⟩ := run_query_bind_eq_ok.mp h₁₁
  obtain ⟨_, -, h₁₃⟩ := run_query_bind_eq_ok.mp h₁₂
  obtain ⟨-, rfl⟩ := run_pure_eq_ok.mp h₁₃
  obtain ⟨hjobs, htargets, hattempts⟩ :=
    delivery_of_withoutDiscovery (promoteRecovered_keeps_others _ _ _ hpromote)
  have hsame : ∀ id, expiredLeases s₃ id observedAt = expiredLeases s₂ id observedAt :=
    fun id => by rw [expiredLeases, hattempts, expiredLeases]
  refine ⟨hrecovers.trans ⟨hrecovers.inv.congr hjobs htargets hattempts,
    hrecovers.after.promoteRecovered hpromote, by rw [hjobs], fun row hrow => ?_,
    fun id _ => hsame id⟩, (hsame _).trans hnone⟩
  rwa [hsame] at hrow

theorem increment_of_lt (value : ℕ) (h : value + 1 < 2 ^ 32) :
    increment value = .ok (value + 1) := if_pos h

/-- Counters with enough room can take all targets. -/
theorem classifyTargets_ok {targets : List TargetRow} {report : RecoveryReport} {n : ℕ}
    (hreport : report.AtMost n) (hroom : n + targets.length < 2 ^ 32) :
    ∃ result, targets.foldlM (classifyTarget observedAt) report = .ok result := by
  induction targets generalizing report n with
  | nil => exact ⟨report, rfl⟩
  | cons target targets ih =>
      rw [List.length_cons] at hroom
      have hready := increment_of_lt report.readyTargets
        (by have := hreport.readyTargets; omega)
      have hscheduled := increment_of_lt report.scheduledTargets
        (by have := hreport.scheduledTargets; omega)
      have hactive := increment_of_lt report.activeTargets
        (by have := hreport.activeTargets; omega)
      obtain ⟨next, hnext⟩ : ∃ next, classifyTarget observedAt report target = .ok next := by
        unfold classifyTarget
        rw [hready, hscheduled, hactive]
        cases target.status with
        | pending | leased | submitted | delivered | exhausted => exact ⟨_, rfl⟩
        | retryable | unknown =>
            cases target.nextAttemptAt with
            | none => exact ⟨_, rfl⟩
            | some due =>
                dsimp only
                split
                next => exact ⟨_, rfl⟩
                next => exact ⟨_, rfl⟩
      have hcounts : next.AtMost (n + 1) := by
        have hone : (targetCounts observedAt [target]).AtMost 1 := by
          constructor
          all_goals simp [targetCounts, List.countP_cons]
          all_goals split <;> simp
        have hsum : [target].foldlM (classifyTarget observedAt) report = .ok next := by
          rw [List.foldlM_cons, hnext]
          rfl
        exact classifyTargets_eq hsum ▸ hreport.add hone
      obtain ⟨result, hresult⟩ := ih hcounts (by omega)
      exact ⟨result, Except.bind_eq_ok_iff.mpr ⟨next, hnext, hresult⟩⟩

/-- Between transactions the finalization of a job finds nothing to do. -/
theorem DeliveryInv.run_finalizeJobIfTerminal (inv : DeliveryInv s) (hjob : job ∈ s.jobs) :
    (finalizeJobIfTerminal job.jobId observedAt).run s =
      .ok ({ job with targets := targetsOf s job.jobId }, s) := by
  have wf := inv.toDeliveryWf
  have hverdict : s.verdict job = none := by
    unfold Store.verdict
    split
    next hopen => exact inv.undecided job hjob hopen
    next => rfl
  have hsame : s.finalized job observedAt = s := by rw [Store.finalized, hverdict]
  refine (MycSigner.run_finalizeJobIfTerminal wf hjob).mpr
    ⟨fun verdict hsome => ?_, hsame.symm, wf.readJob_eq_some hjob⟩
  rw [hverdict] at hsome
  cases hsome

/-- A job is recovered exactly when the drawn delay of each of its expired leases fits. -/
theorem OutboxRelated.recoverJob_run_iff {report : RecoveryReport} {n : ℕ}
    (inv : OutboxRelated codec config s) (hafter : NotBefore s observedAt) (hjob : job ∈ s.jobs)
    (hreport : report.AtMost n) (hroom : n + 100 < 2 ^ 32) :
    (∃ result s', (MycSigner.recoverJob codec config.discovery entropy observedAt report
      job.jobId).run s = .ok (result, s')) ↔
      ∀ row ∈ expiredLeases s job.jobId observedAt, DrawFits entropy observedAt job row := by
  have hdelivery := inv.generations.toDeliveryInv
  have wf := hdelivery.toDeliveryWf
  have hfew := wf.targets_bounded job hjob
  have hholds : HoldsLeases s observedAt job.jobId (targetsOf s job.jobId) := wf.holdsLeases hjob
  have hwalk := @recoverTargets_run_iff s entropy observedAt job
    { job with targets := targetsOf s job.jobId } (targetsOf s job.jobId)
    ({ job with targets := targetsOf s job.jobId }, report) hdelivery hafter hjob rfl hholds rfl
    (by have := hreport.recoveredExpiredAttempts; dsimp only; omega)
  rw [← hwalk]
  have hread := wf.readJob_eq_some hjob
  constructor
  · rintro ⟨result, s', h⟩
    unfold MycSigner.recoverJob at h
    obtain ⟨before?, hbefore, h₁⟩ := run_query_bind_eq_ok.mp h
    obtain rfl := Except.ok.inj (hread.symm.trans hbefore)
    obtain ⟨before, hsome, h₂⟩ := run_orFail_bind_eq_ok.mp h₁
    obtain rfl := Option.some.inj hsome
    obtain ⟨_, -, h₃⟩ := run_query_bind_eq_ok.mp h₂
    obtain ⟨_, -, h₄⟩ := run_query_bind_eq_ok.mp h₃
    obtain ⟨progress, s₁, hrun, -⟩ := run_bind_eq_ok.mp h₄
    exact ⟨progress, s₁, hrun⟩
  · rintro ⟨⟨record, report₁⟩, s₁, hrun⟩
    obtain ⟨hrecovers, -⟩ := recoverTargets_recovers hdelivery hafter hjob rfl hholds hrun
    obtain ⟨inv₁, -, hleases, hcount⟩ := recoverTargets_counts hdelivery ⟨job, hjob, rfl⟩
      hholds.nodup hholds.rows hholds.covered hrun
    have hreport₁ : report₁.AtMost (n + 32) := by
      have hrecovered : (recoveredAttempts
          (expiredLeases s job.jobId observedAt).length).AtMost 32 := by
        refine ⟨Nat.zero_le _, ?_, Nat.zero_le _, Nat.zero_le _, Nat.zero_le _, Nat.zero_le _,
          Nat.zero_le _⟩
        exact Nat.le_trans hleases hfew
      exact (show report₁ = _ from hcount) ▸ hreport.add hrecovered
    obtain ⟨-, hmoves⟩ : DeliveryInv s₁ ∧ Relation.ReflTransGen OutboxMove s s₁ :=
      Respects.foldlM _ _ (recoverTarget_moves entropy observedAt _) hrun hdelivery
    obtain ⟨row, hrow, hrowId, -⟩ := hrecovers.row hjob
    have generations₁ := inv.generations.moves hmoves
    have hfinalize : (finalizeJobIfTerminal row.jobId observedAt).run s₁ = _ :=
      inv₁.run_finalizeJobIfTerminal hrow
    have hfinalized := increment_of_lt report₁.finalizedJobs
      (by have := hreport₁.finalizedJobs; omega)
    obtain ⟨finalized, hcounted, hatMost⟩ : ∃ finalized,
        (if job.status.isOpen && row.status.isTerminal then increment report₁.finalizedJobs
          else .ok report₁.finalizedJobs) = .ok finalized ∧ finalized ≤ n + 33 := by
      have hbound := hreport₁.finalizedJobs
      split
      next => exact ⟨_, hfinalized, by omega⟩
      next => exact ⟨_, rfl, by omega⟩
    obtain ⟨report₂, s₂, hpromote⟩ := generations₁.run_promoteRecovered
      { row with targets := targetsOf s₁ row.jobId } { report₁ with finalizedJobs := finalized }
      (inv.documents.moves hmoves)
      hrecovers.after hrow (by have := hreport₁.promotedDiscoveryGenerations; dsimp only; omega)
    have hreport₂ : report₂.AtMost (n + 34) := by
      have hbase : ({ report₁ with finalizedJobs := finalized } : RecoveryReport).AtMost
          (n + 33) := by
        refine ⟨?_, ?_, hatMost, ?_, ?_, ?_, ?_⟩
        · exact Nat.le_succ_of_le hreport₁.examinedJobs
        · exact Nat.le_succ_of_le hreport₁.recoveredExpiredAttempts
        · exact Nat.le_succ_of_le hreport₁.promotedDiscoveryGenerations
        · exact Nat.le_succ_of_le hreport₁.readyTargets
        · exact Nat.le_succ_of_le hreport₁.scheduledTargets
        · exact Nat.le_succ_of_le hreport₁.activeTargets
      have hone : ({ (0 : RecoveryReport) with
          promotedDiscoveryGenerations := 1 } : RecoveryReport).AtMost 1 := by
        constructor <;> decide
      rcases promoteRecovered_cases hpromote with ⟨-, rfl, -⟩ | ⟨_, -, -, -, -, rfl⟩
      · exact hbase.add (.zero 1)
      · exact hbase.add hone
    obtain ⟨hjobs, htargets, hattempts⟩ :=
      delivery_of_withoutDiscovery (promoteRecovered_keeps_others _ _ _ hpromote)
    have wf₂ := (inv₁.congr hjobs htargets hattempts).toDeliveryWf
    have hrow₂ : row ∈ s₂.jobs := hjobs ▸ hrow
    obtain ⟨report₃, hclassify⟩ : ∃ report₃, (targetsOf s₂ row.jobId).foldlM
        (classifyTarget observedAt) report₂ = .ok report₃ :=
      classifyTargets_ok hreport₂ (by have := wf₂.targets_bounded row hrow₂; omega)
    have hexamined := increment_of_lt report₃.examinedJobs (by
      have hcounts := congrArg RecoveryReport.examinedJobs (classifyTargets_eq hclassify)
      have hsame : report₃.examinedJobs = report₂.examinedJobs := hcounts
      have hbound := hreport₂.examinedJobs
      omega)
    refine ⟨{ report₃ with examinedJobs := report₃.examinedJobs + 1 }, s₂, ?_⟩
    unfold MycSigner.recoverJob
    refine run_query_bind_eq_ok.mpr ⟨_, hread, run_orFail_bind_eq_ok.mpr ⟨_, rfl, ?_⟩⟩
    refine run_query_bind_eq_ok.mpr ⟨(), inv.verifySource hjob, ?_⟩
    refine run_query_bind_eq_ok.mpr ⟨(), wf.validateAttemptHistories_eq_ok hjob, ?_⟩
    refine run_bind_eq_ok.mpr ⟨_, s₁, hrun, ?_⟩
    refine run_bind_eq_ok.mpr ⟨_, s₁, hrowId ▸ hfinalize, ?_⟩
    refine run_query_bind_eq_ok.mpr ⟨finalized, hcounted, ?_⟩
    refine run_bind_eq_ok.mpr ⟨report₂, s₂, hpromote, ?_⟩
    refine run_query_bind_eq_ok.mpr ⟨_, wf₂.readJob_eq_some hrow₂,
      run_orFail_bind_eq_ok.mpr ⟨_, rfl, ?_⟩⟩
    refine run_query_bind_eq_ok.mpr ⟨(), wf₂.validateAttemptHistories_eq_ok hrow₂, ?_⟩
    refine run_query_bind_eq_ok.mpr ⟨report₃, hclassify, ?_⟩
    exact run_query_bind_eq_ok.mpr ⟨_, hexamined, rfl⟩

/-! ## One batch -/

/-- The drawn delays of the expired leases of these jobs fit. -/
def DrawsFit (s : Store) (entropy : Id32) (observedAt : TimeUnixMs) (jobIds : List Id32) : Prop :=
  ∀ job ∈ s.jobs, job.jobId ∈ jobIds → ∀ attempt ∈ expiredLeases s job.jobId observedAt,
    DrawFits entropy observedAt job attempt

/-- What is drawn depends on how the jobs were created and on their expired leases. -/
theorem drawsFit_congr {jobIds : List Id32}
    (hcreated : s'.jobs.map JobRow.asCreated = s.jobs.map JobRow.asCreated)
    (hleases : ∀ id ∈ jobIds, expiredLeases s' id observedAt = expiredLeases s id observedAt) :
    DrawsFit s' entropy observedAt jobIds ↔ DrawsFit s entropy observedAt jobIds := by
  constructor
  · intro hfits job hjob hmem attempt hattempt
    obtain ⟨later, hlater, hsame⟩ := exists_asCreated hcreated.symm hjob
    have hid : later.jobId = job.jobId := (congrArg JobRow.jobId hsame :)
    rw [← hleases _ hmem, ← hid] at hattempt
    exact (DrawFits.congr hsame).mp (hfits later hlater (hid ▸ hmem) attempt hattempt)
  · intro hfits job hjob hmem attempt hattempt
    obtain ⟨earlier, hearlier, hsame⟩ := exists_asCreated hcreated hjob
    have hid : earlier.jobId = job.jobId := (congrArg JobRow.jobId hsame :)
    rw [hleases _ hmem, ← hid] at hattempt
    exact (DrawFits.congr hsame).mp (hfits earlier hearlier (hid ▸ hmem) attempt hattempt)

theorem DeliveryWf.drawsFit_cons (wf : DeliveryWf s) (hjob : job ∈ s.jobs) {jobIds : List Id32} :
    DrawsFit s entropy observedAt (job.jobId :: jobIds) ↔
      (∀ attempt ∈ expiredLeases s job.jobId observedAt,
        DrawFits entropy observedAt job attempt) ∧ DrawsFit s entropy observedAt jobIds := by
  constructor
  · exact fun hfits => ⟨hfits job hjob (List.mem_cons_self ..),
      fun row hrow hmem => hfits row hrow (List.mem_cons_of_mem _ hmem)⟩
  · rintro ⟨hhead, htail⟩ row hrow hmem
    rcases List.mem_cons.mp hmem with hid | hmem
    · obtain rfl := wf.jobs_unique.eq_of_key_eq hrow hjob hid
      exact hhead
    · exact htail row hrow hmem

/-- The jobs of a page are recovered exactly when all their drawn delays fit. -/
theorem OutboxRelated.recoverJobs_run_iff {jobIds : List Id32} {report : RecoveryReport} {n : ℕ}
    (inv : OutboxRelated codec config s) (hafter : NotBefore s observedAt) (hnodup : jobIds.Nodup)
    (hstored : ∀ id ∈ jobIds, ∃ job ∈ s.jobs, job.jobId = id) (hreport : report.AtMost n)
    (hroom : n + 32 * jobIds.length + 100 < 2 ^ 32) :
    (∃ result s', (jobIds.foldlM (MycSigner.recoverJob codec config.discovery entropy observedAt)
      report).run s = .ok (result, s')) ↔ DrawsFit s entropy observedAt jobIds := by
  induction jobIds generalizing s report n with
  | nil => exact ⟨fun _ _ _ hmem => (List.not_mem_nil hmem).elim, fun _ => ⟨report, s, rfl⟩⟩
  | cons id jobIds ih =>
      obtain ⟨hfresh, hrest⟩ := List.nodup_cons.mp hnodup
      obtain ⟨⟨job, hjob, rfl⟩, hothers⟩ := List.forall_mem_cons.mp hstored
      have hdelivery := inv.generations.toDeliveryInv
      rw [List.length_cons] at hroom
      have hhead : (∃ result s', (MycSigner.recoverJob codec config.discovery entropy observedAt
          report job.jobId).run s = .ok (result, s')) ↔ _ :=
        inv.recoverJob_run_iff hafter hjob hreport (by omega)
      have htail : ∀ {next s₁}, (MycSigner.recoverJob codec config.discovery entropy observedAt
          report job.jobId).run s = .ok (next, s₁) → ((∃ result s', (jobIds.foldlM
            (MycSigner.recoverJob codec config.discovery entropy observedAt) next).run s₁ =
              .ok (result, s')) ↔ DrawsFit s entropy observedAt jobIds) := by
        intro next s₁ hstep
        obtain ⟨hrecovers, -⟩ := recoverJob_recovers hdelivery hafter hjob hstep
        obtain ⟨-, hcounts, hnext⟩ := recoverJob_counts hdelivery hstep
        have hstored₁ : ∀ id ∈ jobIds, ∃ job ∈ s₁.jobs, job.jobId = id := by
          intro id hid
          obtain ⟨row, hrow, hrowId⟩ := hothers id hid
          obtain ⟨later, hlater, hsame⟩ := exists_asCreated hrecovers.created.symm hrow
          exact ⟨later, hlater, (congrArg JobRow.jobId hsame :).trans hrowId⟩
        have hleases : ∀ id ∈ jobIds, expiredLeases s₁ id observedAt =
            expiredLeases s id observedAt := fun id hid =>
          hrecovers.others id fun heq => hfresh (heq ▸ hid)
        rw [← drawsFit_congr hrecovers.created hleases]
        exact ih (inv.recoverJob hstep) hrecovers.after hrest hstored₁
          (hnext ▸ hreport.add hcounts) (by omega)
      rw [hdelivery.toDeliveryWf.drawsFit_cons hjob, ← hhead]
      constructor
      · rintro ⟨result, s', h⟩
        obtain ⟨next, s₁, hstep, hrest⟩ := run_bind_eq_ok.mp h
        exact ⟨⟨next, s₁, hstep⟩, (htail hstep).mp ⟨result, s', hrest⟩⟩
      · rintro ⟨⟨next, s₁, hstep⟩, hfits⟩
        obtain ⟨result, s', hrest⟩ := (htail hstep).mpr hfits
        exact ⟨result, s', run_bind_eq_ok.mpr ⟨next, s₁, hstep, hrest⟩⟩

/-- A batch succeeds exactly when the drawn delays of its jobs fit. -/
theorem OutboxRelated.recoverBatch_run_iff {cursor : Option Id32}
    (inv : OutboxRelated codec config s) (hafter : NotBefore s observedAt) :
    (∃ page s', (recoverBatch codec config.discovery config.delivery.outboxMaximum entropy
      observedAt cursor).run s = .ok (page, s')) ↔
      DrawsFit s entropy observedAt ((recoveryJobIds s cursor).take 128) := by
  have wf := inv.generations.toDeliveryWf
  have hpage : (((recoveryJobIds s cursor).take 129).take 128) =
      (recoveryJobIds s cursor).take 128 := by
    rw [List.take_take]
    rfl
  have hnodup : ((recoveryJobIds s cursor).take 128).Nodup :=
    ((wf.recoveryJobIds_strict cursor).sublist (List.take_sublist _ _)).imp BitVec.ne_of_lt
  have hstored : ∀ id ∈ (recoveryJobIds s cursor).take 128, ∃ job ∈ s.jobs, job.jobId = id := by
    intro id hid
    obtain ⟨⟨job, hjob, hjobId, -⟩, -⟩ := mem_recoveryJobIds_iff.mp (List.mem_of_mem_take hid)
    exact ⟨job, hjob, hjobId⟩
  have hlength := List.length_take_le 128 (recoveryJobIds s cursor)
  have hjobs : (∃ result s', (((recoveryJobIds s cursor).take 128).foldlM (MycSigner.recoverJob
      codec config.discovery entropy observedAt) .empty).run s = .ok (result, s')) ↔ _ :=
    inv.recoverJobs_run_iff hafter hnodup hstored (.zero 0) (by omega)
  rw [← hjobs]
  unfold recoverBatch
  constructor
  · rintro ⟨page, s', h⟩
    obtain ⟨_, -, h₁⟩ := run_query_bind_eq_ok.mp h
    obtain ⟨found, hfound, h₂⟩ := run_query_bind_eq_ok.mp h₁
    obtain rfl := Except.ok.inj hfound
    obtain ⟨report, s₁, hrun, -⟩ := run_bind_eq_ok.mp h₂
    rw [hpage] at hrun
    exact ⟨report, s₁, hrun⟩
  · rintro ⟨report, s', hrun⟩
    refine ⟨_, s', run_query_bind_eq_ok.mpr ⟨(), inv.verifyGlobalInvariants,
      run_query_bind_eq_ok.mpr ⟨_, rfl, run_bind_eq_ok.mpr ⟨report, s', ?_, rfl⟩⟩⟩⟩
    rw [hpage]
    exact hrun

/-! ## All batches -/

/-- What the recovery of some jobs leaves: these hold no expired lease, the others hold the leases
that they held, and no job is waiting that was not waiting before. -/
structure LeavesJobs (observedAt : TimeUnixMs) (jobIds : List Id32) (s s' : Store) : Prop where
  after : NotBefore s' observedAt
  created : s'.jobs.map JobRow.asCreated = s.jobs.map JobRow.asCreated
  needs : ∀ id, NeedsJob s' id → NeedsJob s id
  ended : ∀ id, id ∈ jobIds ∨ expiredLeases s id observedAt = [] →
    expiredLeases s' id observedAt = []
  others : ∀ id, id ∉ jobIds → expiredLeases s' id observedAt = expiredLeases s id observedAt

section

variable {policy : Option DiscoveryPolicies} {jobIds : List Id32} {total : RecoveryReport}

/-- A recovered job was stored. -/
theorem exists_of_recoverJob {report result : RecoveryReport} {jobId : Id32} (wf : DeliveryWf s)
    (h : (recoverJob codec policy entropy observedAt report jobId).run s = .ok (result, s')) :
    ∃ job ∈ s.jobs, job.jobId = jobId := by
  unfold recoverJob at h
  obtain ⟨before?, hread, h₁⟩ := run_query_bind_eq_ok.mp h
  obtain ⟨record, rfl, -⟩ := run_orFail_bind_eq_ok.mp h₁
  obtain ⟨hrow, hid, -⟩ := wf.of_readJob hread
  exact ⟨_, hrow, hid⟩

theorem RecoversJobs.leaves
    (h : RecoversJobs codec policy entropy observedAt jobIds s s' total) (inv : DeliveryInv s)
    (hafter : NotBefore s observedAt) : LeavesJobs observedAt jobIds s s' := by
  induction h with
  | nil => exact ⟨hafter, rfl, fun _ h => h, fun _ hid => hid.resolve_left nofun, fun _ _ => rfl⟩
  | cons head tail ih =>
      obtain ⟨job, hjob, rfl⟩ := exists_of_recoverJob inv.toDeliveryWf head
      obtain ⟨hrecovers, hnone⟩ := recoverJob_recovers inv hafter hjob head
      have hleft := ih hrecovers.inv hrecovers.after
      refine ⟨hleft.after, hleft.created.trans hrecovers.created,
        fun id h => (recoverJob_examines head).needs id (hleft.needs id h),
        fun id hid => hleft.ended id ?_, fun id hid => ?_⟩
      · by_cases hsame : id = job.jobId
        · exact .inr (hsame ▸ hnone)
        · rw [hrecovers.others id hsame]
          exact hid.imp_left fun hmem => (List.mem_cons.mp hmem).resolve_left hsame
      · obtain ⟨hne, hrest⟩ := not_or.mp fun hor => hid (List.mem_cons.mpr hor)
        exact (hleft.others id hrest).trans (hrecovers.others id hne)

theorem RecoversJobs.related
    (h : RecoversJobs codec policy entropy observedAt jobIds s s' total)
    (inv : OutboxRelated codec config s) : OutboxRelated codec config s' := by
  induction h with
  | nil => exact inv
  | cons head tail ih => exact ih (inv.recoverJob head)

theorem RecoversJobs.bound (h : RecoversJobs codec policy entropy observedAt jobIds s s' total)
    (hbound : Bound config s) : Bound config s' := by
  induction h with
  | nil => exact hbound
  | cons head tail ih =>
      have hview := recoverJob_keeps _ _ _ _ _ _ head
      exact ih (hbound.of_configBindings (congrArg Store.configBindings hview :))

/-- Where no lease has expired, no attempt is recovered. -/
theorem RecoversJobs.recovers_none
    (h : RecoversJobs codec policy entropy observedAt jobIds s s' total) (inv : DeliveryInv s)
    (hafter : NotBefore s observedAt)
    (hnone : ∀ id ∈ jobIds, expiredLeases s id observedAt = []) :
    total.recoveredExpiredAttempts = 0 := by
  induction h with
  | nil => rfl
  | @cons jobId rest s s₁ s' before after total head tail ih =>
      obtain ⟨hhead, hrest⟩ := List.forall_mem_cons.mp hnone
      obtain ⟨job, hjob, rfl⟩ := exists_of_recoverJob inv.toDeliveryWf head
      obtain ⟨hrecovers, hended⟩ := recoverJob_recovers inv hafter hjob head
      have hleft : ∀ id ∈ rest, expiredLeases s₁ id observedAt = [] := by
        intro id hid
        by_cases hsame : id = job.jobId
        · exact hsame ▸ hended
        · exact (hrecovers.others id hsame).trans (hrest id hid)
      have hcounted : (jobCounts observedAt job.jobId s s₁).recoveredExpiredAttempts = 0 :=
        List.length_eq_zero_iff.mpr hhead
      rw [RecoveryReport.add_def]
      exact Nat.add_eq_zero_iff.mpr ⟨hcounted, ih hrecovers.inv hrecovers.after hleft⟩

/-- After a recovery that succeeded no job that waits for one holds an expired lease. -/
theorem RecoversJobs.none_expired
    (h : RecoversJobs codec policy entropy observedAt (recoveryJobIds s none) s s' total)
    (inv : DeliveryInv s) (hafter : NotBefore s observedAt) {id : Id32} (hneeds : NeedsJob s' id) :
    expiredLeases s' id observedAt = [] := by
  have hleft := h.leaves inv hafter
  exact hleft.ended id (.inl (mem_recoveryJobIds_iff.mpr ⟨hleft.needs id hneeds, rfl⟩))

end

theorem drawsFit_append {first second : List Id32} :
    DrawsFit s entropy observedAt (first ++ second) ↔
      DrawsFit s entropy observedAt first ∧ DrawsFit s entropy observedAt second := by
  constructor
  · exact fun hfits =>
      ⟨fun job hjob hmem => hfits job hjob (List.mem_append_left _ hmem),
        fun job hjob hmem => hfits job hjob (List.mem_append_right _ hmem)⟩
  · rintro ⟨hfirst, hsecond⟩ job hjob hmem
    exact (List.mem_append.mp hmem).elim (hfirst job hjob) (hsecond job hjob)

/-- From every cursor the loop succeeds exactly when the drawn delays of all jobs fit that are
still to come. -/
theorem OutboxRelated.recoverDeliveryStateFrom_ok_iff (fuel : ℕ) {cursor : Option Id32}
    {aggregate : RecoveryReport} {k : ℕ} (inv : OutboxRelated codec config s)
    (hbound : Bound config s) (hafter : NotBefore s observedAt)
    (hfuel : (recoveryJobIds s cursor).length / 128 < fuel)
    (hroom : k + (recoveryJobIds s cursor).length ≤ 65537)
    (haggregate : aggregate.AtMost (32 * k)) :
    (∃ report s', recoverDeliveryStateFrom codec config entropy observedAt fuel cursor aggregate s =
      (some (.ok report), s')) ↔ DrawsFit s entropy observedAt (recoveryJobIds s cursor) := by
  induction fuel generalizing cursor aggregate k s with
  | zero => exact absurd hfuel (Nat.not_lt_zero _)
  | succ fuel ih =>
      have hdelivery := inv.generations.toDeliveryInv
      have hpage : (∃ page s', (recoverBatch codec config.discovery config.delivery.outboxMaximum
          entropy observedAt cursor).run s = .ok (page, s')) ↔ _ :=
        inv.recoverBatch_run_iff hafter
      have hsplit := List.take_append_drop 128 (recoveryJobIds s cursor)
      rw [recoverDeliveryStateFrom]
      cases hbatch : (withBinding config (recoverBatch codec config.discovery
          config.delivery.outboxMaximum entropy observedAt cursor)).run s with
      | error e =>
          rw [atomically_of_error hbatch]
          constructor
          · rintro ⟨report, s', h⟩
            cases h
          · intro hfits
            rw [← hsplit, drawsFit_append, ← hpage] at hfits
            obtain ⟨⟨page, s', hrun⟩, -⟩ := hfits
            rw [run_withBinding.mpr ⟨hbound, hrun⟩] at hbatch
            cases hbatch
      | ok outcome =>
          obtain ⟨⟨report, continuation⟩, s₁⟩ := outcome
          have hrun := run_withBinding_eq_ok hbatch
          rw [atomically_of_ok hbatch]
          obtain ⟨-, -, hrecovers, hreport, hcontinues⟩ := recoverBatch_counts hdelivery hrun
          have hfits := hpage.mp ⟨_, s₁, hrun⟩
          have hsum := haggregate.add hreport
          rw [← Nat.mul_add] at hsum
          have hlist := (recoveryJobIds s cursor).length_take_le' 128
          have hmerge : aggregate.merge report = .ok (aggregate + report) :=
            hsum.merge_eq (by omega)
          dsimp only
          rw [hmerge]
          rcases hcontinues with ⟨rfl, hshort⟩ | ⟨next, rfl, hlong, hrest⟩
          · rw [List.take_of_length_le hshort] at hfits
            exact ⟨fun _ => hfits, fun _ => ⟨_, s₁, rfl⟩⟩
          · -- the rest of the list is what the next batch finds, with the leases it had
            have hleft := hrecovers.leaves hdelivery hafter
            have hlength := congrArg List.length hrest
            rw [List.length_drop] at hlength
            have hlater : DrawsFit s₁ entropy observedAt (recoveryJobIds s₁ (some next)) ↔
                DrawsFit s entropy observedAt ((recoveryJobIds s cursor).drop 128) := by
              rw [hrest]
              refine drawsFit_congr hleft.created fun id hid => hleft.others id fun hmem => ?_
              have hstrict := hdelivery.toDeliveryWf.recoveryJobIds_strict cursor
              rw [← hsplit, List.pairwise_append] at hstrict
              exact BitVec.lt_irrefl _ (hstrict.2.2 id hmem id hid)
            dsimp only
            rw [ih (hrecovers.related inv) (hrecovers.bound hbound) hleft.after
              (by rw [hlength]; omega)
              (by rw [hlength, List.length_take]; omega) hsum, hlater]
            refine ⟨fun hdropped => ?_, fun hall => ?_⟩
            · rw [← hsplit, drawsFit_append]
              exact ⟨hfits, hdropped⟩
            · rw [← hsplit, drawsFit_append] at hall
              exact hall.2

/-- At most 513 batches are needed. -/
theorem OutboxRelated.recoveryJobIds_bounded (inv : OutboxRelated codec config s) :
    (recoveryJobIds s none).length ≤ 65537 := by
  have hlength := inv.generations.toDeliveryWf.recoveryJobIds_length_le
  have hmaximum := config.delivery.outboxMaximum_le
  have hceiling := inv.ceiling
  omega

end

theorem System.InForce.run (codec : EventCodec) (config : Configuration) (appliedAtUnixS : ℕ)
    (events : List Event) :
    (Run.after (System.perform codec) (.initial config appliedAtUnixS) events).InForce :=
  Run.invariant_always (fun _ event h => h.perform event) events (.initial config appliedAtUnixS)

/-- While the service stays under its configuration, recovery at a time that no stored time comes
after meets its purpose exactly when the drawn delays fit: the batch succeeds, and a recovery of
the whole state that succeeds leaves no open job with an expired lease. -/
theorem recovery_succeeds_iff_draws_fit (codec : EventCodec) (config : Configuration)
    (appliedAtUnixS : ℕ) (events : List Event) (hevents : ∀ event ∈ events, event.OfService)
    (entropy : Id32) (observedAt : TimeUnixMs) (cursor : Option Id32)
    (hafter : NotBefore
      (Run.after (System.perform codec) (.initial config appliedAtUnixS) events).store
      observedAt) :
    let s := (Run.after (System.perform codec) (.initial config appliedAtUnixS) events).store
    ((∃ page s', (withBinding config (recoverBatch codec config.discovery
          config.delivery.outboxMaximum entropy observedAt cursor)).atomically s =
        (.ok page, s')) ∧
      ∀ fuel, (recoveryJobIds s none).length / 128 < fuel → ∃ result s',
        recoverDeliveryState codec config entropy observedAt fuel s = (some result, s') ∧
          ∀ report, result = .ok report → ∀ job ∈ s'.jobs, job.status.isOpen = true →
            expiredLeases s' job.jobId observedAt = []) ↔
      DrawsFit s entropy observedAt ((recoveryJobIds s cursor).take 128) := by
  intro s
  obtain ⟨hconfig, inv⟩ := OutboxRelated.reachable codec config appliedAtUnixS hevents
  have hbound : Bound config s :=
    hconfig ▸ (System.InForce.run codec config appliedAtUnixS events).bound
  have hdelivery := inv.generations.toDeliveryInv
  rw [← inv.recoverBatch_run_iff hafter]
  constructor
  · rintro ⟨⟨page, s', hbatch⟩, -⟩
    exact ⟨page, s', run_withBinding_eq_ok (run_of_atomically_ok hbatch)⟩
  · rintro ⟨page, s', hbatch⟩
    refine ⟨⟨page, s', atomically_of_ok (run_withBinding.mpr ⟨hbound, hbatch⟩)⟩, ?_⟩
    intro fuel hfuel
    have hlength : (recoveryJobIds s none).length ≤ activeJobCount s + 1 :=
      hdelivery.toDeliveryWf.recoveryJobIds_length_le
    have hmaximum := config.delivery.outboxMaximum_le
    obtain ⟨result, s₁, hrun, hcases⟩ := @recoverDeliveryStateFrom_counts s codec config entropy
      observedAt fuel none .empty 0 hdelivery hfuel (fun hactive => by omega) (.zero _)
    refine ⟨result, s₁, hrun, fun report hreport => ?_⟩
    rcases hcases with ⟨e, next, herror, -⟩ | ⟨total, -, hrecovers⟩
    · rw [hreport] at herror
      cases herror
    · intro job hjob hopen
      exact hrecovers.none_expired hdelivery hafter
        ⟨job, hjob, rfl, by simp [needsRecovery, hopen]⟩

/-- The recovery of the whole delivery state succeeds exactly when the drawn delays of all jobs
that wait for one fit; 513 batches are enough. -/
theorem recovery_completes_iff (codec : EventCodec) (config : Configuration)
    (appliedAtUnixS : ℕ) (events : List Event) (hevents : ∀ event ∈ events, event.OfService)
    (entropy : Id32) (observedAt : TimeUnixMs) (fuel : ℕ) (hfuel : 513 ≤ fuel)
    (hafter : NotBefore
      (Run.after (System.perform codec) (.initial config appliedAtUnixS) events).store
      observedAt) :
    let s := (Run.after (System.perform codec) (.initial config appliedAtUnixS) events).store
    (∃ report s', recoverDeliveryState codec config entropy observedAt fuel s =
      (some (.ok report), s')) ↔ DrawsFit s entropy observedAt (recoveryJobIds s none) := by
  intro s
  obtain ⟨hconfig, inv⟩ := OutboxRelated.reachable codec config appliedAtUnixS hevents
  have hbound : Bound config s :=
    hconfig ▸ (System.InForce.run codec config appliedAtUnixS events).bound
  have hlength : (recoveryJobIds s none).length ≤ 65537 := inv.recoveryJobIds_bounded
  exact @OutboxRelated.recoverDeliveryStateFrom_ok_iff s codec config entropy observedAt fuel none
    .empty 0 inv hbound hafter (by omega) (by omega) (.zero _)

/-- A recovery that succeeded can be repeated at its time with any entropy and from any cursor:
every batch succeeds and finds no expired lease. -/
theorem completed_recovery_repeats (codec : EventCodec) (config : Configuration)
    (appliedAtUnixS : ℕ) (events : List Event) (hevents : ∀ event ∈ events, event.OfService)
    (entropy : Id32) (observedAt : TimeUnixMs) (fuel : ℕ) (hfuel : 513 ≤ fuel)
    (hafter : NotBefore
      (Run.after (System.perform codec) (.initial config appliedAtUnixS) events).store
      observedAt) :
    ∀ report s', recoverDeliveryState codec config entropy observedAt fuel
        (Run.after (System.perform codec) (.initial config appliedAtUnixS) events).store =
          (some (.ok report), s') →
      ∀ again cursor, ∃ page s'', (withBinding config (recoverBatch codec config.discovery
          config.delivery.outboxMaximum again observedAt cursor)).atomically s' =
            (.ok page, s'') ∧ page.1.recoveredExpiredAttempts = 0 := by
  intro report s' hrecovered again cursor
  obtain ⟨hconfig, inv⟩ := OutboxRelated.reachable codec config appliedAtUnixS hevents
  have hbound := (System.InForce.run codec config appliedAtUnixS events).bound
  rw [hconfig] at hbound
  revert hrecovered hafter inv hbound
  generalize (Run.after (System.perform codec) (.initial config appliedAtUnixS) events).store = s
  intro hafter hrecovered inv hbound
  have hdelivery := inv.generations.toDeliveryInv
  have hlength := inv.recoveryJobIds_bounded
  obtain ⟨result, s₁, hrun, hcases⟩ := @recoverDeliveryStateFrom_counts s codec config entropy
    observedAt fuel none .empty 0 hdelivery (by omega) (fun _ => by omega) (.zero _)
  obtain ⟨hresult, rfl⟩ := Prod.mk.inj (hrun.symm.trans hrecovered)
  obtain rfl := Option.some.inj hresult
  obtain ⟨total, -, hrecovers⟩ := hcases.resolve_left fun ⟨e, _, herror, _⟩ => nomatch herror
  have hleft := hrecovers.leaves hdelivery hafter
  have inv₁ := hrecovers.related inv
  have hnone : ∀ id ∈ (recoveryJobIds s₁ cursor).take 128, expiredLeases s₁ id observedAt = [] :=
    fun id hid => hrecovers.none_expired hdelivery hafter
      (mem_recoveryJobIds_iff.mp (List.mem_of_mem_take hid)).1
  have hfits : DrawsFit s₁ again observedAt ((recoveryJobIds s₁ cursor).take 128) := by
    intro job _ hmem attempt hattempt
    rw [hnone _ hmem] at hattempt
    cases hattempt
  obtain ⟨page, s₂, hbatch⟩ := (inv₁.recoverBatch_run_iff hleft.after).mpr hfits
  obtain ⟨counted, continuation⟩ := page
  obtain ⟨-, -, hagain, -⟩ := recoverBatch_counts inv₁.generations.toDeliveryInv hbatch
  exact ⟨_, s₂, atomically_of_ok (run_withBinding.mpr ⟨hrecovers.bound hbound, hbatch⟩),
    hagain.recovers_none inv₁.generations.toDeliveryInv hleft.after hnone⟩

/-- In every state of the service, also after configurations were applied, a batch that succeeds
ends exactly the expired leases of the jobs of its page: the expired leases of the other jobs stay
as they are, no job is taken away or created, and none waits for recovery that did not. -/
theorem batch_ends_leases_of_page (codec : EventCodec) (config : Configuration)
    (appliedAtUnixS : ℕ) (events : List Event) (entropy : Id32) (observedAt : TimeUnixMs)
    (cursor : Option Id32)
    (hafter : NotBefore
      (Run.after (System.perform codec) (.initial config appliedAtUnixS) events).store
      observedAt) :
    let system := Run.after (System.perform codec) (.initial config appliedAtUnixS) events
    ∀ page s', (withBinding system.config (recoverBatch codec system.config.discovery
        system.config.delivery.outboxMaximum entropy observedAt cursor)).atomically
          system.store = (.ok page, s') →
      (∀ id ∈ (recoveryJobIds system.store cursor).take 128, expiredLeases s' id observedAt = []) ∧
      (∀ id ∉ (recoveryJobIds system.store cursor).take 128,
        expiredLeases s' id observedAt = expiredLeases system.store id observedAt) ∧
      s'.jobs.map JobRow.asCreated = system.store.jobs.map JobRow.asCreated ∧
      ∀ id, NeedsJob s' id → NeedsJob system.store id := by
  intro system page s' hbatch
  obtain ⟨report, continuation⟩ := page
  have inv : DeliveryInv system.store :=
    (GenerationInv.service codec config appliedAtUnixS events).toDeliveryInv
  obtain ⟨-, -, hrecovers, -⟩ :=
    recoverBatch_counts inv (run_withBinding_eq_ok (run_of_atomically_ok hbatch))
  have hleft := hrecovers.leaves inv hafter
  exact ⟨fun id hid => hleft.ended id (.inl hid), hleft.others, hleft.created, hleft.needs⟩

namespace SampleHandler

/-- The sample service with one attempt for every target. -/
def singleAttempt : Configuration :=
  { config with delivery := { config.delivery with maxAttempts := 1, valid := by decide } }

/-- The handler is committed and the only attempt of its target begun. -/
def begins : List Event :=
  [.operation (.commitDiscovery request),
    .operation (.claimDelivery
      (deriveJobId ⟨.discoveryHandler, request.generationId⟩ request.eventDigest)
      LostAcknowledgement.relay 11 (sampleTime 3000))]

theorem begins_ofService : ∀ event ∈ begins, event.OfService := by
  intro event hevent
  rcases List.mem_cons.mp hevent with rfl | hevent
  · trivial
  · obtain rfl := List.mem_singleton.mp hevent
    trivial

theorem begins_evaluates :
    let s := (Run.after (System.perform codec) (.initial singleAttempt 1) begins).store
    let early := sampleTime 3500
    ((∀ job ∈ s.jobs, job.updatedAt ≤ early) ∧ (∀ target ∈ s.targets, target.updatedAt ≤ early) ∧
      (∀ attempt ∈ s.attempts, attempt.leasedAt ≤ early) ∧
      ∀ state ∈ s.publicationState.toList, state.updatedAt ≤ early) ∧
    ((withBinding singleAttempt (recoverBatch codec singleAttempt.discovery
      singleAttempt.delivery.outboxMaximum 5 early none)).run s).isOk = true ∧
    (recoverDeliveryState codec singleAttempt 5 early 513 s).1.any Except.isOk = true ∧
    ((withBinding singleAttempt (recoverBatch codec singleAttempt.discovery
      singleAttempt.delivery.outboxMaximum 5 (sampleTime 5000) none)).run s).isOk =
        false := by
  decide +kernel

theorem begins_notBefore {observedAt : TimeUnixMs} (h : sampleTime 3500 ≤ observedAt) :
    NotBefore (Run.after (System.perform codec) (.initial singleAttempt 1) begins).store
      observedAt := by
  obtain ⟨⟨hjobs, htargets, hattempts, hpointer⟩, -⟩ := begins_evaluates
  exact ⟨fun job hjob => Nat.le_trans (hjobs job hjob) h,
    fun target htarget => Nat.le_trans (htargets target htarget) h,
    fun attempt hattempt => Nat.le_trans (hattempts attempt hattempt) h,
    fun state hstate => Nat.le_trans (hpointer state (Option.mem_toList.mpr hstate)) h⟩

/-- The equivalence at the lease of the only attempt. -/
theorem single_attempt_fits_iff :
    let s := (Run.after (System.perform codec) (.initial singleAttempt 1) begins).store
    ((∃ page s', (withBinding singleAttempt (recoverBatch codec singleAttempt.discovery
          singleAttempt.delivery.outboxMaximum 5 (sampleTime 5000) none)).atomically s =
        (.ok page, s')) ∧
      ∀ fuel, (recoveryJobIds s none).length / 128 < fuel → ∃ result s',
        recoverDeliveryState codec singleAttempt 5 (sampleTime 5000) fuel s =
          (some result, s') ∧
          ∀ report, result = .ok report → ∀ job ∈ s'.jobs, job.status.isOpen = true →
            expiredLeases s' job.jobId (sampleTime 5000) = []) ↔
      DrawsFit s 5 (sampleTime 5000) ((recoveryJobIds s none).take 128) :=
  recovery_succeeds_iff_draws_fit codec singleAttempt 1 begins begins_ofService 5
    (sampleTime 5000) none (begins_notBefore (by decide))

/-- The whole recovery at the lease of the only attempt. -/
theorem single_attempt_completes_iff :
    let s := (Run.after (System.perform codec) (.initial singleAttempt 1) begins).store
    (∃ report s', recoverDeliveryState codec singleAttempt 5 (sampleTime 5000) 513 s =
      (some (.ok report), s')) ↔
      DrawsFit s 5 (sampleTime 5000) (recoveryJobIds s none) :=
  recovery_completes_iff codec singleAttempt 1 begins begins_ofService 5 (sampleTime 5000)
    513 (by decide) (begins_notBefore (by decide))

/-- A recovery under the lease of the only attempt succeeds and can be repeated. -/
theorem single_attempt_repeats :
    ∃ report s', recoverDeliveryState codec singleAttempt 5 (sampleTime 3500) 513
        (Run.after (System.perform codec) (.initial singleAttempt 1) begins).store =
          (some (.ok report), s') ∧
      ∀ again cursor, ∃ page s'', (withBinding singleAttempt (recoverBatch codec
          singleAttempt.discovery singleAttempt.delivery.outboxMaximum again
          (sampleTime 3500) cursor)).atomically s' =
            (.ok page, s'') ∧ page.1.recoveredExpiredAttempts = 0 := by
  obtain ⟨result, hresult, hok⟩ := (Option.any_eq_true _ _).mp begins_evaluates.2.2.1
  obtain ⟨report, rfl⟩ : ∃ report, result = .ok report := Except.exists_of_isOk hok
  have hpair : ∀ {outcome : Option (Except OperationError RecoveryReport) × Store},
      outcome.1 = some (.ok report) → outcome = (some (.ok report), outcome.2) :=
    fun h => Prod.ext h rfl
  exact ⟨report, _, hpair hresult, completed_recovery_repeats codec singleAttempt 1 begins
    begins_ofService 5 (sampleTime 3500) 513 (by decide)
    (begins_notBefore (Nat.le_refl _)) report _ (hpair hresult)⟩

/-- A batch under the lease of the only attempt succeeds and leaves the lease alone. -/
theorem single_attempt_page :
    let s := (Run.after (System.perform codec) (.initial singleAttempt 1) begins).store
    ∃ page s', (withBinding singleAttempt (recoverBatch codec singleAttempt.discovery
        singleAttempt.delivery.outboxMaximum 5 (sampleTime 3500) none)).atomically s =
          (.ok page, s') ∧
      (∀ id ∈ (recoveryJobIds s none).take 128,
        expiredLeases s' id (sampleTime 3500) = []) ∧
      (∀ id ∉ (recoveryJobIds s none).take 128, expiredLeases s' id (sampleTime 3500) =
        expiredLeases s id (sampleTime 3500)) ∧
      s'.jobs.map JobRow.asCreated = s.jobs.map JobRow.asCreated ∧
      ∀ id, NeedsJob s' id → NeedsJob s id := by
  intro s
  obtain ⟨⟨page, s'⟩, hrun⟩ := Except.exists_of_isOk begins_evaluates.2.1
  have hconfig := (OutboxRelated.reachable codec singleAttempt 1 begins_ofService).1
  have hbatch := batch_ends_leases_of_page codec singleAttempt 1 begins 5
    (sampleTime 3500) none (begins_notBefore (Nat.le_refl _)) page s'
  rw [hconfig] at hbatch
  exact ⟨page, s', atomically_of_ok hrun, hbatch (atomically_of_ok hrun)⟩

end SampleHandler

open SampleHandler in
/-- A delay that is drawn for the last attempt makes the batch fail. -/
theorem last_attempt_not_recovered :
    ¬ ∀ (codec : EventCodec) (config : Configuration) (appliedAtUnixS : ℕ) (events : List Event)
        (entropy : Id32) (observedAt : TimeUnixMs),
      let s := (Run.after (System.perform codec) (.initial config appliedAtUnixS) events).store
      (∀ event ∈ events, event.OfService) → NotBefore s observedAt →
        ∃ page s', (withBinding config (recoverBatch codec config.discovery
          config.delivery.outboxMaximum entropy observedAt none)).atomically s =
            (.ok page, s') := by
  intro h
  obtain ⟨page, s', hbatch⟩ := h codec singleAttempt 1 begins 5 (sampleTime 5000)
    begins_ofService (begins_notBefore (by decide))
  have hfails := begins_evaluates.2.2.2
  rw [run_of_atomically_ok hbatch] at hfails
  cases hfails

end MycSigner
