import MycSigner.ConfigurationApply
import MycSigner.Lib.Run
import MycSigner.Recovery

/-!
# The system of all state transactions

The store changes only through transactions.  An `Operation` is one transaction of the
running service under its configuration, with the request records that the callers build as
arbitrary values; between two transactions of one caller any other transaction may run, so a
run of operations is an interleaving of any number of callers.  Applying a configuration
happens offline, between two runs of the service.
-/

namespace MycSigner

open Transaction

/-- One transaction of the running service. -/
inductive Operation where
  | admitRequest (request : SignerRequest)
  | admitConnection (request : AdmissionRequest)
  | decidePending (operationId connectionId : Id32) (generation : PolicyGeneration)
      (observedAt : TimeUnixMs) (correlation : Id32) (decision : OperatorDecision)
  | adminConnection (connectionId : Id32) (generation : PolicyGeneration)
      (observedAt : TimeUnixMs) (correlation : Id32) (action : AdminAction)
  | expireConnection (connectionId : Id32) (generation : PolicyGeneration)
      (observedAt : TimeUnixMs) (correlation : Id32)
  | issueChallenge (request : ChallengeRequest)
  | authorizeChallenge (challengeId connectionId operationId : Id32)
      (generation : PolicyGeneration) (observedAt : TimeUnixMs)
  | adminRequireChallenge (request : ChallengeRequest)
  | adminAuthorizeChallenge (challengeId : Id32) (generation : PolicyGeneration)
      (observedAt : TimeUnixMs)
  | commitResponse (request : ResponseCommitRequest)
  | commitPendingResponse (request : PendingResponseCommitRequest)
  | commitDiscovery (request : DiscoveryCommitRequest)
  | promoteDiscovery (jobId : Id32) (observedAt : TimeUnixMs)
  | claimDelivery (jobId : Id32) (relayId : RelayId) (nonce : Id32) (claimedAt : TimeUnixMs)
  | markSubmitted (jobId : Id32) (relayId : RelayId) (attemptId : Id32) (submittedAt : TimeUnixMs)
  | recordOutcome (jobId : Id32) (relayId : RelayId) (attemptId : Id32) (outcome : AttemptOutcome)
      (jitter : RetryJitter) (observedAt : TimeUnixMs)
  | recoverExpired (jobId : Id32) (relayId : RelayId) (attemptId : Id32) (jitter : RetryJitter)
      (observedAt : TimeUnixMs)
  | recoverBatch (entropy : Id32) (observedAt : TimeUnixMs) (cursor : Option Id32)
  | compactGovernance (observedAt : TimeUnixMs) (auditRetentionMs maximumRowsPerClass : ℕ)
      (correlation : Id32)

/-- Runs a body for its effect on the store. -/
def forEffect {α : Type} (body : Tx α) : Tx Unit := do
  let _ ← body
  return ()

/-- The transaction of an operation under a configuration.  The administrator's challenge
requests are admitted by the configuration before their transaction. -/
def Operation.body (codec : EventCodec) (config : Configuration) : Operation → Tx Unit
  | .admitRequest request => forEffect (admitSignerRequest config request)
  | .admitConnection request => forEffect (MycSigner.admitConnection config request)
  | .decidePending operationId connectionId generation observedAt correlation decision =>
      forEffect (decidePendingConnection config operationId connectionId generation observedAt
        correlation decision)
  | .adminConnection connectionId generation observedAt correlation action =>
      forEffect (withBinding config
        (applyAdminConnectionMutation connectionId generation observedAt correlation action))
  | .expireConnection connectionId generation observedAt correlation =>
      forEffect (withBinding config
        (MycSigner.expireConnection connectionId generation observedAt correlation))
  | .issueChallenge request => forEffect (issueAuthorizationChallenge config request)
  | .authorizeChallenge challengeId connectionId operationId generation observedAt =>
      forEffect (MycSigner.authorizeChallenge config challengeId connectionId operationId generation
        observedAt)
  | .adminRequireChallenge request => do
      require (config.connection.admitsChallengeRequest request = true) .conflict
      forEffect (withBinding config
        (applyAdminChallengeRequire config.governance.challengeCreation request))
  | .adminAuthorizeChallenge challengeId generation observedAt =>
      forEffect (withBinding config (applyAdminChallengeAuthorize
        config.governance.challengeAuthorization challengeId generation observedAt))
  | .commitResponse request => forEffect (commitNip46Response codec config request)
  | .commitPendingResponse request => forEffect (commitNip46PendingResponse codec config request)
  | .commitDiscovery request => forEffect (commitDiscoveryDesiredState codec config request)
  | .promoteDiscovery jobId observedAt => promoteDeliveredDiscoveryState config jobId observedAt
  | .claimDelivery jobId relayId nonce claimedAt =>
      forEffect (withBinding config (claimTarget jobId relayId nonce claimedAt))
  | .markSubmitted jobId relayId attemptId submittedAt =>
      forEffect (withBinding config (MycSigner.markSubmitted jobId relayId attemptId submittedAt))
  | .recordOutcome jobId relayId attemptId outcome jitter observedAt =>
      forEffect (withBinding config
        (MycSigner.recordOutcome jobId relayId attemptId outcome jitter observedAt))
  | .recoverExpired jobId relayId attemptId jitter observedAt =>
      forEffect (withBinding config
        (MycSigner.recoverExpired jobId relayId attemptId jitter observedAt))
  | .recoverBatch entropy observedAt cursor =>
      forEffect (withBinding config (MycSigner.recoverBatch codec config.discovery
        config.delivery.outboxMaximum entropy observedAt cursor))
  | .compactGovernance observedAt auditRetentionMs maximumRowsPerClass correlation =>
      forEffect (withBinding config
        (MycSigner.compactGovernance observedAt auditRetentionMs maximumRowsPerClass correlation))

/-- The service with its configuration and its store. -/
structure System where
  config : Configuration
  store : Store

/-- An operation of the running service, or an offline application of a configuration. -/
inductive Event where
  | operation (operation : Operation)
  | apply (candidate : Configuration) (appliedAtUnixS : ℕ)

/-- The configuration that an application leaves in force.  Equal metadata means an equal
configuration digest, which is a replay. -/
def Configuration.appliedOver (candidate current : Configuration) : Configuration :=
  if candidate.metadata = current.metadata then current else candidate

/-- The system after an event; a failed transaction is rolled back. -/
def System.perform (codec : EventCodec) (system : System) : Event → System
  | .operation operation =>
      { system with store := ((operation.body codec system.config).atomically system.store).2 }
  | .apply candidate appliedAtUnixS =>
      match (applyConfiguration system.config candidate appliedAtUnixS).atomically system.store with
      | (.ok _, store) => ⟨candidate.appliedOver system.config, store⟩
      | (.error _, store) => { system with store }

/-- A new service: a migrated store bound to its configuration. -/
def System.initial (config : Configuration) (appliedAtUnixS : ℕ) : System :=
  ⟨config, Store.initial config.metadata appliedAtUnixS⟩

/-! ## What an event can do -/

theorem run_forEffect_eq_ok {α : Type} {body : Tx α} {s s' : Store} {u : Unit}
    (h : (forEffect body).run s = .ok (u, s')) : ∃ a, body.run s = .ok (a, s') := by
  obtain ⟨a, s₁, hbody, hpure⟩ := run_bind_eq_ok.mp h
  obtain ⟨-, rfl⟩ := run_pure_eq_ok.mp hpure
  exact ⟨a, hbody⟩

/-- A relation between systems holds across an event when it holds of an unchanged system and
of every committed transaction. -/
theorem System.perform_cases {codec : EventCodec} {R : System → Prop} {system : System}
    (event : Event) (hsame : R system)
    (hoperation : ∀ operation u s', event = .operation operation →
      (operation.body codec system.config).run system.store = .ok (u, s') →
      R { system with store := s' })
    (happly : ∀ candidate appliedAtUnixS outcome s', event = .apply candidate appliedAtUnixS →
      (applyConfiguration system.config candidate appliedAtUnixS).run system.store =
        .ok (outcome, s') → R ⟨candidate.appliedOver system.config, s'⟩) :
    R (system.perform codec event) := by
  cases event with
  | operation operation =>
      rcases atomically_state_cases (operation.body codec system.config) system.store with
        heq | ⟨u, hrun⟩
      · dsimp only [System.perform]
        rw [heq]
        exact hsame
      · exact hoperation operation u _ rfl hrun
  | apply candidate appliedAtUnixS =>
      dsimp only [System.perform]
      cases hrun : (applyConfiguration system.config candidate appliedAtUnixS).run system.store with
      | error e =>
          rw [atomically_of_error hrun]
          exact hsame
      | ok outcome =>
          obtain ⟨outcome, s'⟩ := outcome
          rw [atomically_of_ok hrun]
          exact happly candidate appliedAtUnixS outcome s' rfl hrun

/-- The store at each reading of a service; `events number` happen before reading `number`. -/
def System.storeAt (codec : EventCodec) (config : Configuration) (appliedAtUnixS : ℕ)
    (events : ℕ → List Event) (number : ℕ) : Store :=
  (Run.visits (System.perform codec) (.initial config appliedAtUnixS) events number).store

end MycSigner
