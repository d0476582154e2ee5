import MycSigner.Sessions.Revocation

/-!
# Authorization challenges

A challenge and its decision are written together and resolved together, so the decision of
a challenged operation is allowed exactly when its challenge was authorized.  A completion
reads the decision of a connect request only, and a connect request is never challenged:
an answer waits for an authorization only as long as nothing commits past the decision.
-/

namespace MycSigner

open Transaction

/-- The operation would complete a request, other than a connect, whose decision is not
allowed. -/
def Operation.ignoresDecision (s : Store) : Operation → Bool
  | .commitResponse request =>
      request.completion.request.method != .connect && s.decisions.any fun row =>
        row.operationId == request.completion.request.operationId && row.decision != .allowed
  | _ => false

def Event.ignoresDecision (system : System) : Event → Bool
  | .operation op => op.ignoresDecision system.store
  | .apply _ _ => false

/-- Every challenge of the operation was authorized. -/
def ChallengesAuthorized (s : Store) (operationId : Id32) : Prop :=
  ∀ challenge ∈ s.challenges, challenge.operationId = operationId → challenge.state = .authorized

/-- Only an operation without an open or expired challenge gets an outcome in this step. -/
def ChallengesGate (codec : EventCodec) (system : System) (event : Event) : Prop :=
  ∀ operationId, (system.perform codec event).store.outcomes operationId ≠
    system.store.outcomes operationId → ChallengesAuthorized system.store operationId

/-! ## The decision of a challenged operation -/

/-- A decision that is allowed belongs to an authorized challenge. -/
theorem SessionInv.authorized_of_allowed {s : Store} (inv : SessionInv s) {challenge : ChallengeRow}
    (hchallenge : challenge ∈ s.challenges)
    (hallowed : ∀ row ∈ s.decisions, row.operationId = challenge.operationId →
      row.decision = .allowed) : challenge.state = .authorized := by
  obtain ⟨decision, hdecision, hagrees⟩ := inv.challenge_decided challenge hchallenge
  exact hagrees.authorized_of_allowed (hallowed decision hdecision hagrees.operation)

/-- A connect request is not challenged. -/
theorem SessionInv.unchallenged_of_connect {s : Store} (inv : SessionInv s) {request : RequestRow}
    (hrequest : request ∈ s.requests) (hconnect : request.method = .connect) :
    ∀ challenge ∈ s.challenges, challenge.operationId ≠ request.operationId := by
  intro challenge hchallenge hid
  obtain ⟨row, hrow, hrowId, hmethod⟩ := inv.challenge_bound challenge hchallenge
  obtain rfl := inv.requests_unique.eq_of_key_eq hrow hrequest (hrowId.trans hid)
  exact hmethod hconnect

/-- A request that waits for the operator is not challenged. -/
theorem SessionInv.unchallenged_of_awaits {s : Store} (inv : SessionInv s)
    {operationId connectionId : Id32} (h : AwaitsDecision s operationId connectionId) :
    ∀ challenge ∈ s.challenges, challenge.operationId ≠ operationId := by
  intro challenge hchallenge hid
  obtain ⟨decision, hdecision, hagrees⟩ := inv.challenge_decided challenge hchallenge
  exact decisionSettled.not_awaiting inv
    ⟨decision, hdecision, hagrees.operation.trans hid, hagrees.not_pendingApproval⟩ h

/-! ## Steps and runs -/

theorem challengesGate_of_decision {codec : EventCodec} {system : System}
    (inv : SessionInv system.store) {event : Event}
    (hguard : event.ignoresDecision system = false) : ChallengesGate codec system event := by
  intro operationId hchanged challenge hchallenge hid
  rcases System.outcomes_changed hchanged with ⟨⟨request, rfl, rfl, guard⟩, -⟩ |
    ⟨request, rfl, rfl, guard⟩
  · obtain ⟨row, hrow, hrowId, hmethod⟩ := guard.binding
    by_cases hconnect : request.completion.request.method = .connect
    · exact absurd (hid.trans hrowId.symm)
        (inv.unchallenged_of_connect hrow (hmethod.trans hconnect) challenge hchallenge)
    · refine inv.authorized_of_allowed hchallenge fun decision hdecision hdecided => ?_
      simp only [Event.ignoresDecision, Operation.ignoresDecision, Bool.and_eq_false_iff,
        List.any_eq_false] at hguard
      have hnot := hguard.resolve_left (by simp [hconnect]) decision hdecision
      simpa [hdecided.trans hid] using hnot
  · exact absurd hid (inv.unchallenged_of_awaits guard.awaits challenge hchallenge)

theorem challengesGate_run {codec : EventCodec} {system : System} (inv : SessionInv system.store)
    {events : List Event}
    (h : Run.EveryStep (System.perform codec) (Run.Changing (System.perform codec)
      fun system event => event.ignoresDecision system = false) system events) :
    Run.EveryStep (System.perform codec) (ChallengesGate codec) system events := by
  induction events generalizing system with
  | nil => trivial
  | cons event events ih =>
      refine ⟨fun operationId hchanged => ?_, ih (inv.perform event) h.2⟩
      have hmoved : system.perform codec event ≠ system :=
        fun hsame => hchanged (congrArg (fun system => system.store.outcomes operationId) hsame)
      exact challengesGate_of_decision inv (h.1 hmoved) operationId hchanged

/-- In every run in which no completion of a request other than a connect succeeds and ignores the
decision of its operation, no operation with a challenge that is pending or expired gets an
outcome. -/
theorem challenges_gate_unless_decision_ignored (codec : EventCodec) (config : Configuration)
    (appliedAtUnixS : ℕ) (events : List Event)
    (h : Run.EveryStep (System.perform codec) (Run.Changing (System.perform codec)
      fun system event => event.ignoresDecision system = false)
      (.initial config appliedAtUnixS) events) :
    Run.EveryStep (System.perform codec) (ChallengesGate codec)
      (.initial config appliedAtUnixS) events :=
  challengesGate_run (.initial config.metadata appliedAtUnixS) h

/-! ## A challenge that is ignored -/

namespace SampleService

def challengeUrl : ChallengeUrl := ⟨ascii "https://auth.example", by decide +kernel⟩

/-- The configuration with challenges enabled. -/
def challengeConfig : Configuration :=
  { config with
    connection := { connection with
      challenge := some ⟨challengeUrl, 1000, 10000, by decide, by decide, by decide⟩ } }

/-- With challenges enabled a trusted session has a limit. -/
def limitedAdmission : AdmissionRequest :=
  { admission firstConnect with
    authorizedUntil := some (sampleTime 9000)
    trusted_limit := by intro limit hlimit; cases hlimit; exact ⟨rfl, by decide⟩ }

/-- The store after the connect under a limit. -/
def limitedStore : Store :=
  { connectedStore with
    connections := connectedStore.connections.map fun row =>
      { row with authorizedUntil := some (sampleTime 9000) } }

theorem limitedConnect_evaluates :
    (Run.after (System.perform codec) (.initial challengeConfig 1)
      [.operation (.admitRequest firstConnect),
        .operation (.admitConnection limitedAdmission)]).store = limitedStore := by
  decide +kernel

/-- A run that begins with the connect under a limit. -/
theorem after_limitedConnect (codec' : EventCodec) (rest : List Event) :
    Run.after (System.perform codec') (.initial challengeConfig 1)
        (.operation (.admitRequest firstConnect) :: .operation (.admitConnection limitedAdmission) ::
          rest) =
      Run.after (System.perform codec') ⟨challengeConfig, limitedStore⟩ rest := by
  have hsplit : Event.operation (.admitRequest firstConnect) ::
      .operation (.admitConnection limitedAdmission) :: rest =
        [.operation (.admitRequest firstConnect), .operation (.admitConnection limitedAdmission)] ++
          rest := rfl
  rw [hsplit, Run.after_append, after_connect codec, limitedConnect_evaluates]
  rfl

def pingChallenge : ChallengeRequest where
  operationId := ping.operationId
  connectionId := limitedAdmission.connectionId
  policyGeneration := limitedAdmission.policyGeneration
  url := challengeUrl
  nonce := 7
  issuedAt := sampleTime 2500
  expiresAt := sampleTime 3500
  lifetime := by decide

/-- The ping is challenged before its answer is committed. -/
def challenged : List Event :=
  [.operation (.admitRequest firstConnect), .operation (.admitConnection limitedAdmission),
    .operation (.admitRequest ping), .operation (.adminRequireChallenge pingChallenge)]

/-- The configuration with one challenge for each connection and window. -/
def strictConfig : Configuration :=
  { challengeConfig with
    governance := { governance with
      challengeCreation := { rateLimit .challengeCreation with
        maxAttempts := 1, valid := by decide } } }

def laterPing : SignerRequest := request '9' 9 .ping (sampleTime 2600)

/-- The challenge of a second ping in the window of the first. -/
def secondChallenge : ChallengeRequest :=
  { pingChallenge with
    operationId := laterPing.operationId
    nonce := 8
    issuedAt := sampleTime 2700
    expiresAt := sampleTime 3600
    lifetime := by decide }

/-- The first ping is challenged, and a second one is received. -/
def challengedOnce : List Event := challenged ++ [.operation (.admitRequest laterPing)]

/-- One evaluation of the run: the first ping is answered although its challenge is pending, and
the challenge of the second is refused. -/
theorem challengedOnce_evaluates :
    let system := Run.after (System.perform pongCodec) (.initial strictConfig 1) challengedOnce
    ((system.perform pongCodec (.operation (.commitResponse pong))).store.outcomes
          ping.operationId ≠ system.store.outcomes ping.operationId ∧
        ¬ ∀ challenge ∈ system.store.challenges, challenge.operationId = ping.operationId →
          challenge.state = .authorized) ∧
      strictConfig.connection.admitsChallengeRequest secondChallenge = true ∧
      (((withBinding strictConfig (issueChallenge strictConfig.governance.challengeCreation
        secondChallenge)).run system.store).toOption.map Prod.fst) = some .rateLimited ∧
      ∀ row ∈ system.store.audit, row.reasonCode ≠ .rateLimited := by
  decide +kernel

def authorization : Operation :=
  .adminAuthorizeChallenge (newChallengeRow pingChallenge).challengeId
    limitedAdmission.policyGeneration (sampleTime 3000)

end SampleService

open SampleService in
/-- The ping is answered although its challenge is pending. -/
theorem challenged_ping_answered :
    ¬ ∀ (codec : EventCodec) (config : Configuration) (appliedAtUnixS : ℕ) (events : List Event),
      Run.EveryStep (System.perform codec) (ChallengesGate codec)
        (.initial config appliedAtUnixS) events := by
  intro h
  have hgate := (h pongCodec strictConfig 1
    (challengedOnce ++ [.operation (.commitResponse pong)])).at_step
  obtain ⟨⟨hchanged, hpending⟩, -⟩ := challengedOnce_evaluates
  exact hpending (hgate ping.operationId hchanged)

open SampleService in
/-- The ping is answered after its challenge is authorized. -/
theorem authorized_ping_answered :
    Run.EveryStep (System.perform pongCodec) (ChallengesGate pongCodec)
      (.initial challengeConfig 1)
      (challenged ++ [.operation authorization, .operation (.commitResponse pong)]) := by
  have hsteps : Run.EveryStep (System.perform pongCodec)
      (fun system event => event.ignoresDecision system = false) (.initial challengeConfig 1)
      (challenged ++ [.operation authorization, .operation (.commitResponse pong)]) := by
    have hconnected : ((System.initial challengeConfig 1).perform pongCodec
        (.operation (.admitRequest firstConnect))).perform pongCodec
          (.operation (.admitConnection limitedAdmission)) = ⟨challengeConfig, limitedStore⟩ :=
      after_limitedConnect pongCodec []
    refine ⟨rfl, rfl, ?_⟩
    rw [hconnected]
    decide +kernel
  exact challenges_gate_unless_decision_ignored pongCodec challengeConfig 1 _ hsteps.changing

end MycSigner
