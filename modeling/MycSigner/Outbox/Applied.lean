import MycSigner.Outbox.Idle
import MycSigner.Outbox.Reconfiguration

/-!
# Starting after an application

A daemon that starts after a configuration was applied verifies the invariants of the outbox and
recovers the delivery state under the candidate.  Both succeed where they succeeded under the
configuration before, exactly when the candidate leaves room for the open jobs and still parses
the documents of the discovery jobs that recovery examines.
-/

namespace MycSigner

open Transaction

section

variable {codec : EventCodec} {current candidate : Configuration} {entropy : Id32}
  {observedAt : TimeUnixMs}

/-- The transaction of `verify_delivery_invariants`. -/
def verifyDeliveryInvariants (config : Configuration) : Tx Unit :=
  withBinding config (query (verifyGlobalInvariants config.delivery.outboxMaximum))

/-- `recover_delivery_state` succeeds. -/
def Recovers (codec : EventCodec) (config : Configuration) (entropy : Id32)
    (observedAt : TimeUnixMs) (s : Store) : Prop :=
  ∃ fuel report s', recoverDeliveryState codec config entropy observedAt fuel s =
    (some (.ok report), s')

/-- The configuration leaves room for the open jobs and parses the documents that recovery
examines. -/
structure OutboxFits (codec : EventCodec) (config : Configuration) (s : Store) : Prop where
  count : activeJobCount s ≤ config.delivery.outboxMaximum
  documents : ∀ job ∈ s.jobs, job.jobId ∈ recoveryJobIds s none →
    DocumentFits codec config.discovery s job

/-! ## All batches -/

/-- The loop of a recovery that succeeds ran a batch, and went on after it or ended. -/
theorem recoverFrom_cases {config : Configuration} {fuel : ℕ} {cursor : Option Id32}
    {aggregate report : RecoveryReport} {s s' : Store}
    (h : recoverDeliveryStateFrom codec config entropy observedAt fuel cursor aggregate s =
      (some (.ok report), s')) :
    ∃ rest, fuel = rest + 1 ∧ ∃ batch continuation s₁ merged, Bound config s ∧
      (recoverBatch codec config.discovery config.delivery.outboxMaximum entropy observedAt
        cursor).run s = .ok ((batch, continuation), s₁) ∧ aggregate.merge batch = .ok merged ∧
      ((continuation = none ∧ merged = report ∧ s₁ = s') ∨ ∃ next, continuation = some next ∧
        recoverDeliveryStateFrom codec config entropy observedAt rest (some next) merged s₁ =
          (some (.ok report), s')) := by
  cases fuel with
  | zero => cases h
  | succ rest =>
      unfold recoverDeliveryStateFrom at h
      refine ⟨rest, rfl, ?_⟩
      cases hrun : (withBinding config (recoverBatch codec config.discovery
        config.delivery.outboxMaximum entropy observedAt cursor)).run s with
      | error e =>
          rw [atomically_of_error hrun] at h
          cases h
      | ok result =>
          obtain ⟨⟨batch, continuation⟩, s₁⟩ := result
          rw [atomically_of_ok hrun] at h
          obtain ⟨hbound, hbatch⟩ := run_withBinding.mp hrun
          dsimp only at h
          split at h
          next => cases h
          next merged hmerged =>
            cases h
            exact ⟨batch, none, _, _, hbound, hbatch, hmerged, .inl ⟨rfl, rfl, rfl⟩⟩
          next merged next hmerged =>
            exact ⟨batch, some next, s₁, merged, hbound, hbatch, hmerged, .inr ⟨next, rfl, h⟩⟩

theorem recoverFrom_batch {config : Configuration} {rest : ℕ} {cursor continuation : Option Id32}
    {aggregate batch merged : RecoveryReport} {s s₁ : Store} (hbound : Bound config s)
    (hbatch : (recoverBatch codec config.discovery config.delivery.outboxMaximum entropy observedAt
      cursor).run s = .ok ((batch, continuation), s₁)) (hmerge : aggregate.merge batch = .ok merged) :
    recoverDeliveryStateFrom codec config entropy observedAt (rest + 1) cursor aggregate s =
      match continuation with
      | none => (some (.ok merged), s₁)
      | some next =>
          recoverDeliveryStateFrom codec config entropy observedAt rest (some next) merged s₁ := by
  rw [recoverDeliveryStateFrom, atomically_of_ok (run_withBinding.mpr ⟨hbound, hbatch⟩)]
  dsimp only
  rw [hmerge]
  cases continuation with
  | none => rfl
  | some next => rfl

/-- The recovery goes through under the candidate when everything it examines fits. -/
theorem recoverFrom_of_fits {other : Store} (hbound : Bound candidate other) {fuel : ℕ}
    {cursor : Option Id32} {aggregate report : RecoveryReport} {s s' : Store}
    (h : recoverDeliveryStateFrom codec current entropy observedAt fuel cursor aggregate s =
      (some (.ok report), s'))
    (hfits : BatchFits codec candidate.discovery candidate.delivery.outboxMaximum s
      (recoveryJobIds s cursor)) :
    recoverDeliveryStateFrom codec candidate entropy observedAt fuel cursor aggregate
      (other.rebase s) = (some (.ok report), other.rebase s') := by
  induction fuel generalizing cursor aggregate s with
  | zero => cases h
  | succ fuel ih =>
      obtain ⟨rest, hfuel, batch, continuation, s₁, merged, -, hbatch, hmerge, hnext⟩ :=
        recoverFrom_cases h
      obtain rfl : fuel = rest := by omega
      have hfirst := (recoverBatch_config candidate.discovery candidate.delivery.outboxMaximum
        hbatch).1 ⟨hfits.count, fun id hid =>
          hfits.jobs id (List.mem_of_mem_take (List.mem_of_mem_take hid))⟩
      have hrebased := (recoverBatch_ignores other _ _ _ _ _ _).run_eq_ok hfirst
      rw [recoverFrom_batch (hbound.rebase s) hrebased hmerge]
      rcases hnext with ⟨rfl, rfl, rfl⟩ | ⟨next, rfl, hrest⟩
      · rfl
      · obtain ⟨hsources, hcount, hlisted, -⟩ := recoverBatch_examines hbatch
        refine ih hrest ⟨Nat.le_trans hcount hfits.count, fun id hid => ?_⟩
        exact (jobFits_congr hsources).mpr (hfits.jobs id (hlisted next rfl id hid))

/-- A recovery that goes through under the candidate has found that everything fits. -/
theorem fits_of_recoverFrom {other : Store} {fuel fuel' : ℕ} {cursor : Option Id32}
    {aggregate report report' : RecoveryReport} {s s' s'' : Store}
    (h : recoverDeliveryStateFrom codec current entropy observedAt fuel cursor aggregate s =
      (some (.ok report), s'))
    (h' : recoverDeliveryStateFrom codec candidate entropy observedAt fuel' cursor aggregate
      (other.rebase s) = (some (.ok report'), s'')) :
    BatchFits codec candidate.discovery candidate.delivery.outboxMaximum s
      (recoveryJobIds s cursor) := by
  induction fuel generalizing cursor aggregate s fuel' with
  | zero => cases h
  | succ fuel ih =>
      obtain ⟨rest, hfuel, batch, continuation, s₁, merged, -, hbatch, hmerge, hnext⟩ :=
        recoverFrom_cases h
      obtain rfl : fuel = rest := by omega
      obtain ⟨rest', -, batch', continuation', s₂, merged', -, hbatch', hmerge', hnext'⟩ :=
        recoverFrom_cases h'
      obtain ⟨s₃, hown, rfl⟩ := (recoverBatch_ignores other _ _ _ _ _ _).exists_of_run hbatch'
      obtain ⟨htransfer, hfits⟩ := recoverBatch_config candidate.discovery
        candidate.delivery.outboxMaximum hbatch
      have hfirst := hfits hown
      -- The batch of the candidate is the batch of the current configuration.
      cases (htransfer hfirst).symm.trans hown
      cases hmerge.symm.trans hmerge'
      refine ⟨hfirst.count, fun id hid => ?_⟩
      by_cases htaken : id ∈ ((recoveryJobIds s cursor).take 129).take 128
      · exact hfirst.jobs id htaken
      · obtain ⟨hsources, -, -, hkept⟩ := recoverBatch_examines hbatch
        obtain ⟨next, rfl, hlisted⟩ := hkept id hid htaken
        rcases hnext with ⟨hnone, -⟩ | ⟨_, hsome, hrest⟩
        · cases hnone
        · cases hsome
          rcases hnext' with ⟨hnone, -⟩ | ⟨_, hsome, hrest'⟩
          · cases hnone
          · cases hsome
            exact (jobFits_congr hsources).mp ((ih hrest hrest').jobs id hlisted)

theorem outboxFits_iff {config : Configuration} {s : Store} : OutboxFits codec config s ↔
    BatchFits codec config.discovery config.delivery.outboxMaximum s (recoveryJobIds s none) := by
  constructor
  · intro h
    exact ⟨h.count, fun id hid job hjob hjobId => h.documents job hjob (hjobId ▸ hid)⟩
  · intro h
    exact ⟨h.count, fun job hjob hid => h.jobs job.jobId hid job hjob rfl⟩

/-- After an application that succeeds, on a store that recovers under the current
configuration, the invariants hold and the store recovers under the candidate exactly when the
candidate fits the outbox. -/
theorem applied_recovers_iff {s s' : Store} {appliedAtUnixS : ℕ} {outcome : ConfigApplyOutcome}
    (hrecovers : Recovers codec current entropy observedAt s)
    (happly : (applyConfiguration current candidate appliedAtUnixS).run s = .ok (outcome, s')) :
    ((∃ s'', (verifyDeliveryInvariants candidate).run s' = .ok ((), s'')) ∧
      Recovers codec candidate entropy observedAt s') ↔ OutboxFits codec candidate s := by
  obtain ⟨hrebased, hbound⟩ := applyConfiguration_rebased happly
  obtain ⟨fuel, report, s₁, hrecover⟩ := hrecovers
  rw [outboxFits_iff]
  have hrebase : s'.rebase s = s' := hrebased
  constructor
  · rintro ⟨-, fuel', report', s₂, hrecover'⟩
    rw [← hrebase] at hrecover'
    exact fits_of_recoverFrom hrecover hrecover'
  · intro hfits
    constructor
    · obtain ⟨_, -, _, _, s₂, _, -, hbatch, -⟩ := recoverFrom_cases hrecover
      obtain ⟨_, hverify, -⟩ := run_query_bind_eq_ok.mp hbatch
      have hrelated := (Except.require_eq_ok.mp hverify).1
      refine ⟨s', run_withBinding.mpr ⟨hbound, run_query_of_ok ?_⟩⟩
      rw [← hrebase]
      exact Except.require_eq_ok.mpr ⟨hrelated, hfits.count⟩
    · refine ⟨fuel, report, s'.rebase s₁, ?_⟩
      have hcandidate := recoverFrom_of_fits hbound hrecover hfits
      rw [hrebase] at hcandidate
      exact hcandidate

theorem recovers_of_isOk {config : Configuration} {fuel : ℕ} {s : Store}
    (h : (recoverDeliveryState codec config entropy observedAt fuel s).1.any Except.isOk = true) :
    Recovers codec config entropy observedAt s := by
  obtain ⟨result, hresult, hok⟩ := (Option.any_eq_true _ _).mp h
  obtain ⟨report, rfl⟩ := Except.exists_of_isOk hok
  exact ⟨fuel, report, _, Prod.ext hresult rfl⟩

theorem not_recovers_of_batch {config : Configuration} {s : Store}
    (h : ((recoverBatch codec config.discovery config.delivery.outboxMaximum entropy observedAt
      none).run s).isOk = false) : ¬ Recovers codec config entropy observedAt s := by
  rintro ⟨fuel, report, s', hrecover⟩
  obtain ⟨_, -, _, _, _, _, -, hbatch, -⟩ := recoverFrom_cases hrecover
  rw [hbatch] at h
  cases h

theorem run_of_atomically {α : Type} {body : Tx α} {s : Store} (h : (body.run s).isOk = true) :
    ∃ a, body.run s = .ok (a, (body.atomically s).2) := by
  obtain ⟨⟨a, s'⟩, hrun⟩ := Except.exists_of_isOk h
  rw [atomically_of_ok hrun]
  exact ⟨a, hrun⟩

end

namespace SampleHandler

/-- The service after the handler was committed. -/
def published : System :=
  Run.after (System.perform codec) (.initial config 1) [.operation (.commitDiscovery request)]

/-- The same configuration under another digest. -/
def renamed : Configuration :=
  { config with metadata := { config.metadata with normalizedConfigSha256 := 8 } }

/-- The configuration without its handler. -/
def withoutHandler : Configuration := { renamed with discovery := none }

/-- What an application leaves of the published handler. -/
def applied (candidate : Configuration) : Store :=
  ((applyConfiguration config candidate 2).atomically published.store).2

end SampleHandler

open SampleHandler in
/-- A candidate that keeps the handler recovers. -/
theorem renamed_recovers :
    (∃ s'', (verifyDeliveryInvariants renamed).run (applied renamed) = .ok ((), s'')) ∧
      Recovers codec renamed 5 (sampleTime 2000) (applied renamed) := by
  have hfacts : (recoverDeliveryState codec config 5 (sampleTime 2000) 1
        published.store).1.any Except.isOk = true ∧
      ((applyConfiguration config renamed 2).run published.store).isOk = true ∧
      activeJobCount published.store ≤ renamed.delivery.outboxMaximum ∧
      published.store.documents.all (documentReadable codec policy) = true := by
    decide +kernel
  obtain ⟨hrecovers, happly, hcount, hdocuments⟩ := hfacts
  obtain ⟨outcome, hrun⟩ := run_of_atomically happly
  refine (applied_recovers_iff (recovers_of_isOk hrecovers) hrun).mpr ⟨hcount, ?_⟩
  intro job _ _ _
  exact ⟨policy, rfl, fun row hrow _ => List.all_eq_true.mp hdocuments row hrow⟩

open SampleHandler in
/-- A candidate without the handler is applied, and the service does not start again. -/
theorem applied_without_handler_not_recovered :
    ¬ ∀ (codec : EventCodec) (config : Configuration) (appliedAtUnixS : ℕ) (events : List Event)
        (candidate : Configuration) (candidateAtUnixS : ℕ) (entropy : Id32)
        (observedAt : TimeUnixMs) (outcome : ConfigApplyOutcome) (s' : Store),
      let system := Run.after (System.perform codec) (.initial config appliedAtUnixS) events
      Recovers codec system.config entropy observedAt system.store →
        (applyConfiguration system.config candidate candidateAtUnixS).run system.store =
          .ok (outcome, s') →
        (∃ s'', (verifyDeliveryInvariants candidate).run s' = .ok ((), s'')) ∧
          Recovers codec candidate entropy observedAt s' := by
  have hfacts : (recoverDeliveryState codec config 5 (sampleTime 2000) 1
        published.store).1.any Except.isOk = true ∧
      ((applyConfiguration config withoutHandler 2).run published.store).isOk = true ∧
      ((recoverBatch codec withoutHandler.discovery withoutHandler.delivery.outboxMaximum 5
        (sampleTime 2000) none).run (applied withoutHandler)).isOk = false := by
    decide +kernel
  obtain ⟨hrecovers, happly, hbatch⟩ := hfacts
  obtain ⟨outcome, hrun⟩ := run_of_atomically happly
  intro h
  have hstarts := h codec config 1 [.operation (.commitDiscovery request)] withoutHandler 2 5
    (sampleTime 2000) outcome _ (recovers_of_isOk hrecovers) hrun
  exact not_recovers_of_batch hbatch hstarts.2

end MycSigner
