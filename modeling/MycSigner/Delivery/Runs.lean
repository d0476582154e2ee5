import MycSigner.Delivery.Refinement
import MycSigner.Lib.Run

/-!
# Runs of the delivery operations

An event is one call of a delivery operation, committed or rolled back as a whole, or any
change of the tables outside delivery, which every other part of the program may make in
between.  The invariant holds along every run that starts without delivery rows.
-/

namespace MycSigner

open Transaction

/-- One call of a delivery operation, or a change elsewhere in the store. -/
inductive DeliveryEvent where
  | createJob (source : Source) (artifact : Id32) (createdAt : TimeUnixMs)
      (policy : DeliveryPolicies)
  | claimTarget (jobId : Id32) (relayId : RelayId) (nonce : Id32) (claimedAt : TimeUnixMs)
  | markSubmitted (jobId : Id32) (relayId : RelayId) (attemptId : Id32) (submittedAt : TimeUnixMs)
  | recordOutcome (jobId : Id32) (relayId : RelayId) (attemptId : Id32) (outcome : AttemptOutcome)
      (jitter : RetryJitter) (observedAt : TimeUnixMs)
  | recoverExpired (jobId : Id32) (relayId : RelayId) (attemptId : Id32) (jitter : RetryJitter)
      (observedAt : TimeUnixMs)
  | elsewhere (other : Store)

/-- The store after an event; a call that fails is rolled back. -/
def DeliveryEvent.perform (s : Store) : DeliveryEvent → Store
  | .createJob source artifact createdAt policy =>
      ((MycSigner.createJob source artifact createdAt policy).atomically s).2
  | .claimTarget jobId relayId nonce claimedAt =>
      ((MycSigner.claimTarget jobId relayId nonce claimedAt).atomically s).2
  | .markSubmitted jobId relayId attemptId submittedAt =>
      ((MycSigner.markSubmitted jobId relayId attemptId submittedAt).atomically s).2
  | .recordOutcome jobId relayId attemptId outcome jitter observedAt =>
      ((MycSigner.recordOutcome jobId relayId attemptId outcome jitter observedAt).atomically s).2
  | .recoverExpired jobId relayId attemptId jitter observedAt =>
      ((MycSigner.recoverExpired jobId relayId attemptId jitter observedAt).atomically s).2
  | .elsewhere other => { other with jobs := s.jobs, targets := s.targets, attempts := s.attempts }

/-- No delivery rows. -/
structure NoDelivery (s : Store) : Prop where
  jobs : s.jobs = []
  targets : s.targets = []
  attempts : s.attempts = []

theorem NoDelivery.inv {s : Store} (h : NoDelivery s) : DeliveryInv s where
  jobs_unique := by rw [h.jobs]; exact .nil
  sources_unique := by rw [h.jobs]; exact .nil
  targets_unique := by rw [h.targets]; exact .nil
  relays_unique := by rw [h.targets]; exact .nil
  attempts_unique := by rw [h.attempts]; exact .nil
  target_has_job := by simp [h.targets]
  attempt_has_target := by simp [h.attempts]
  job_checked := by simp [h.jobs]
  targets_nonempty := by simp [h.jobs]
  targets_bounded := by simp [h.jobs]
  indices := by simp [h.jobs]
  histories := by simp [h.jobs]
  undecided := by simp [h.jobs]

/-- The invariant only reads the delivery tables. -/
theorem DeliveryInv.congr {s s' : Store} (inv : DeliveryInv s) (hjobs : s'.jobs = s.jobs)
    (htargets : s'.targets = s.targets) (hattempts : s'.attempts = s.attempts) :
    DeliveryInv s' := by
  have htargetsOf : ∀ jobId, targetsOf s' jobId = targetsOf s jobId := by
    intro jobId
    rw [targetsOf, htargets, targetsOf]
  have hattemptsOf : ∀ jobId index, attemptsOf s' jobId index = attemptsOf s jobId index := by
    intro jobId index
    rw [attemptsOf, hattempts, attemptsOf]
  exact {
    jobs_unique := hjobs ▸ inv.jobs_unique
    sources_unique := hjobs ▸ inv.sources_unique
    targets_unique := htargets ▸ inv.targets_unique
    relays_unique := htargets ▸ inv.relays_unique
    attempts_unique := hattempts ▸ inv.attempts_unique
    target_has_job := by rw [hjobs, htargets]; exact inv.target_has_job
    attempt_has_target := by rw [hattempts, htargets]; exact inv.attempt_has_target
    job_checked := hjobs ▸ inv.job_checked
    targets_nonempty := by simpa only [hjobs, htargetsOf] using inv.targets_nonempty
    targets_bounded := by simpa only [hjobs, htargetsOf] using inv.targets_bounded
    indices := by simpa only [hjobs, htargetsOf] using inv.indices
    histories := by simpa only [hjobs, htargetsOf, hattemptsOf] using inv.histories
    undecided := by simpa only [hjobs, htargetsOf] using inv.undecided }

/-- The state after an atomic body that refines a step. -/
theorem atomically_cases {α : Type} {s : Store} {body : Tx α} {P : Store → Prop}
    (hsame : P s) (h : ∀ {a s'}, body.run s = .ok (a, s') → s' = s ∨ P s') :
    P (body.atomically s).2 := by
  rcases atomically_state_cases body s with heq | ⟨a, hrun⟩
  · rw [heq]
    exact hsame
  · rcases h hrun with heq | hP
    · rw [heq]
      exact hsame
    · exact hP

theorem createJob_step {s s' : Store} {source : Source} {artifact : Id32} {createdAt : TimeUnixMs}
    {policy : DeliveryPolicies} {admission : JobAdmission}
    (h : (createJob source artifact createdAt policy).run s = .ok (admission, s')) :
    s' = s ∨ DeliveryStep s s' := by
  rcases createJob_eq_ok h with ⟨rfl, -⟩ | ⟨-, hcapacity, hallowed, rfl, -⟩
  · exact .inl rfl
  · exact .inr (.create hcapacity hallowed)

theorem claimTarget_step {s s' : Store} {jobId nonce : Id32} {relayId : RelayId}
    {claimedAt : TimeUnixMs} {claim : Claim} (wf : DeliveryWf s)
    (h : (claimTarget jobId relayId nonce claimedAt).run s = .ok (claim, s')) :
    s' = s ∨ DeliveryStep s s' := by
  rcases claimTarget_cases wf h with ⟨rfl, -⟩ | ⟨_, _, _, hclaims, rfl, -⟩
  · exact .inl rfl
  · exact .inr (.claim hclaims)

theorem markSubmitted_step {s s' : Store} {jobId attemptId : Id32} {relayId : RelayId}
    {submittedAt : TimeUnixMs} {attempt : AttemptRow} (wf : DeliveryWf s)
    (h : (markSubmitted jobId relayId attemptId submittedAt).run s = .ok (attempt, s')) :
    s' = s ∨ DeliveryStep s s' := by
  rcases markSubmitted_cases wf h with ⟨rfl, -⟩ | ⟨_, _, _, -, hsubmits, rfl⟩
  · exact .inl rfl
  · exact .inr (.submit hsubmits)

theorem recordOutcome_step {s s' : Store} {jobId attemptId : Id32} {relayId : RelayId}
    {outcome : AttemptOutcome} {jitter : RetryJitter} {observedAt : TimeUnixMs}
    {record : JobRecord} (wf : DeliveryWf s)
    (h : (recordOutcome jobId relayId attemptId outcome jitter observedAt).run s =
      .ok (record, s')) :
    s' = s ∨ DeliveryStep s s' := by
  rcases recordOutcome_cases wf h with ⟨rfl, -⟩ | ⟨_, _, _, _, _, -, -, -, -, hresolves, rfl⟩
  · exact .inl rfl
  · exact .inr (.resolve hresolves)

theorem recoverExpired_step {s s' : Store} {jobId attemptId : Id32} {relayId : RelayId}
    {jitter : RetryJitter} {observedAt : TimeUnixMs} {record : JobRecord} (wf : DeliveryWf s)
    (h : (recoverExpired jobId relayId attemptId jitter observedAt).run s = .ok (record, s')) :
    s' = s ∨ DeliveryStep s s' := by
  rcases recoverExpired_cases wf h with ⟨rfl, -⟩ | ⟨_, _, _, _, _, -, -, -, -, hresolves, rfl⟩
  · exact .inl rfl
  · exact .inr (.resolve hresolves)

/-- Every event keeps the invariant. -/
theorem DeliveryInv.perform {s : Store} (inv : DeliveryInv s) (event : DeliveryEvent) :
    DeliveryInv (event.perform s) := by
  have hstep : ∀ {s'}, s' = s ∨ DeliveryStep s s' → s' = s ∨ DeliveryInv s' := by
    intro s' h
    exact h.imp_right inv.step
  cases event with
  | createJob => exact atomically_cases inv fun h => hstep (createJob_step h)
  | claimTarget => exact atomically_cases inv fun h => hstep (claimTarget_step inv.toDeliveryWf h)
  | markSubmitted =>
      exact atomically_cases inv fun h => hstep (markSubmitted_step inv.toDeliveryWf h)
  | recordOutcome =>
      exact atomically_cases inv fun h => hstep (recordOutcome_step inv.toDeliveryWf h)
  | recoverExpired =>
      exact atomically_cases inv fun h => hstep (recoverExpired_step inv.toDeliveryWf h)
  | elsewhere other => exact inv.congr rfl rfl rfl

end MycSigner
