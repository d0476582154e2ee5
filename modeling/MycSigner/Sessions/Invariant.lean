import MycSigner.Sessions.Refinement

/-!
# The invariant of the session tables

Keys are unique, every permission belongs to a connection, and every challenge belongs to an
admitted request other than a connect and has a decision whose state agrees with its own.
The invariant reads only the session view of a store, which forgets the audit trail, the rate
windows, the outbox and the configuration bindings.
-/

namespace MycSigner

open Transaction

/-! ## The session view -/

/-- The store without the tables that no statement about sessions reads. -/
def Store.sessionView (s : Store) : Store :=
  { s.withoutGovernance.withoutOutbox with configBindings := [] }

theorem sessionView_of_governance {s s' : Store} (h : s'.withoutGovernance = s.withoutGovernance) :
    s'.sessionView = s.sessionView := by
  unfold Store.sessionView
  rw [h]

theorem sessionView_of_outbox {s s' : Store} (h : s'.withoutOutbox = s.withoutOutbox) :
    s'.sessionView = s.sessionView :=
  congrArg (fun s : Store => { s.withoutGovernance with configBindings := [] }) h

/-! ## The invariant -/

/-- The decision of a challenge. -/
structure ChallengeDecision (challenge : ChallengeRow) (decision : DecisionRow) : Prop where
  operation : decision.operationId = challenge.operationId
  connection : decision.connectionId = some challenge.connectionId
  named : decision.challengeId = some challenge.challengeId
  generation : decision.policyGeneration = challenge.policyGeneration
  pending : challenge.state = .pending → decision.decision = .challenged
  authorized : challenge.state = .authorized → decision.decision = .allowed
  -- applying a configuration expires a challenge and leaves its decision
  expired : challenge.state = .expired →
    decision.decision = .challenged ∨ decision.decision = .denied

theorem ChallengeDecision.not_pendingApproval {challenge : ChallengeRow} {decision : DecisionRow}
    (h : ChallengeDecision challenge decision) : decision.decision ≠ .pendingApproval := by
  intro hpending
  cases hstate : challenge.state with
  | pending => simp [h.pending hstate] at hpending
  | authorized => simp [h.authorized hstate] at hpending
  | expired =>
      rcases h.expired hstate with hdecided | hdecided
      · simp [hdecided] at hpending
      · simp [hdecided] at hpending

theorem ChallengeDecision.authorized_of_allowed {challenge : ChallengeRow} {decision : DecisionRow}
    (h : ChallengeDecision challenge decision) (hallowed : decision.decision = .allowed) :
    challenge.state = .authorized := by
  cases hstate : challenge.state with
  | authorized => rfl
  | pending => simp [h.pending hstate] at hallowed
  | expired =>
      rcases h.expired hstate with hdecided | hdecided
      · simp [hdecided] at hallowed
      · simp [hdecided] at hallowed

/-- What the session tables satisfy between transactions. -/
structure SessionInv (s : Store) : Prop where
  requests_unique : Table.Unique RequestRow.operationId s.requests
  connections_unique : Table.Unique ConnectionRow.connectionId s.connections
  decisions_unique : Table.Unique DecisionRow.operationId s.decisions
  challenges_unique : Table.Unique ChallengeRow.operationId s.challenges
  permission_owned : ∀ permission ∈ s.permissions,
    ∃ row ∈ s.connections, row.connectionId = permission.connectionId
  challenge_bound : ∀ challenge ∈ s.challenges,
    ∃ row ∈ s.requests, row.operationId = challenge.operationId ∧ row.method ≠ .connect
  challenge_decided : ∀ challenge ∈ s.challenges,
    ∃ decision ∈ s.decisions, ChallengeDecision challenge decision

/-- The invariant only reads the session view. -/
theorem SessionInv.of_view {s s' : Store} (inv : SessionInv s)
    (h : s'.sessionView = s.sessionView) : SessionInv s' := by
  have hview : SessionInv s.sessionView :=
    ⟨inv.requests_unique, inv.connections_unique, inv.decisions_unique, inv.challenges_unique,
      inv.permission_owned, inv.challenge_bound, inv.challenge_decided⟩
  rw [← h] at hview
  exact ⟨hview.requests_unique, hview.connections_unique, hview.decisions_unique,
    hview.challenges_unique, hview.permission_owned, hview.challenge_bound,
    hview.challenge_decided⟩

theorem SessionInv.initial (metadata : PersistedMetadata) (appliedAtUnixS : ℕ) :
    SessionInv (Store.initial metadata appliedAtUnixS) where
  requests_unique := .nil
  connections_unique := .nil
  decisions_unique := .nil
  challenges_unique := .nil
  permission_owned := by simp [Store.initial]
  challenge_bound := by simp [Store.initial]
  challenge_decided := by simp [Store.initial]

namespace SessionInv

variable {s : Store}

theorem requests {s₁ : Store} (inv : SessionInv s) (h : AdmitsRequests s s₁) : SessionInv s₁ := by
  have hconnections : s₁.connections = s.connections := (congrArg Store.connections h.outside :)
  have hpermissions : s₁.permissions = s.permissions := (congrArg Store.permissions h.outside :)
  have hdecisions : s₁.decisions = s.decisions := (congrArg Store.decisions h.outside :)
  have hchallenges : s₁.challenges = s.challenges := (congrArg Store.challenges h.outside :)
  exact {
    requests_unique := h.grows.unique inv.requests_unique
    connections_unique := hconnections ▸ inv.connections_unique
    decisions_unique := hdecisions ▸ inv.decisions_unique
    challenges_unique := hchallenges ▸ inv.challenges_unique
    permission_owned := by rw [hpermissions, hconnections]; exact inv.permission_owned
    challenge_bound := by
      intro challenge hchallenge
      rw [hchallenges] at hchallenge
      obtain ⟨row, hrow, hbound⟩ := inv.challenge_bound challenge hchallenge
      exact ⟨row, h.grows.kept row hrow, hbound⟩
    challenge_decided := by rw [hchallenges, hdecisions]; exact inv.challenge_decided }

theorem connections_updated (inv : SessionInv s) (matching : ConnectionRow → Bool)
    (set : ConnectionRow → ConnectionRow) (hkey : ∀ row, (set row).connectionId = row.connectionId) :
    SessionInv { s with connections := Table.update matching set s.connections } where
  requests_unique := inv.requests_unique
  connections_unique := inv.connections_unique.update fun row _ => hkey row
  decisions_unique := inv.decisions_unique
  challenges_unique := inv.challenges_unique
  permission_owned := by
    intro permission hpermission
    obtain ⟨row, hrow, hid⟩ := inv.permission_owned permission hpermission
    refine ⟨_, Table.mem_update.mpr ⟨row, hrow, rfl⟩, ?_⟩
    split
    next => rw [hkey, hid]
    next => exact hid
  challenge_bound := inv.challenge_bound
  challenge_decided := inv.challenge_decided

theorem permissions_added {rows : List PermissionRow} (inv : SessionInv s)
    (howned : ∀ permission ∈ rows,
      ∃ row ∈ s.connections, row.connectionId = permission.connectionId) :
    SessionInv { s with permissions := s.permissions ++ rows } where
  requests_unique := inv.requests_unique
  connections_unique := inv.connections_unique
  decisions_unique := inv.decisions_unique
  challenges_unique := inv.challenges_unique
  permission_owned := by
    intro permission hpermission
    rcases List.mem_append.mp hpermission with hold | hnew
    · exact inv.permission_owned permission hold
    · exact howned permission hnew
  challenge_bound := inv.challenge_bound
  challenge_decided := inv.challenge_decided

theorem connections_added {rows : List ConnectionRow} (inv : SessionInv s)
    (hunique : Table.Unique ConnectionRow.connectionId (s.connections ++ rows)) :
    SessionInv { s with connections := s.connections ++ rows } where
  requests_unique := inv.requests_unique
  connections_unique := hunique
  decisions_unique := inv.decisions_unique
  challenges_unique := inv.challenges_unique
  permission_owned := by
    intro permission hpermission
    obtain ⟨row, hrow, hid⟩ := inv.permission_owned permission hpermission
    exact ⟨row, List.mem_append_left _ hrow, hid⟩
  challenge_bound := inv.challenge_bound
  challenge_decided := inv.challenge_decided

theorem decision_added (inv : SessionInv s) (row : DecisionRow)
    (hfresh : ∀ other ∈ s.decisions, other.operationId ≠ row.operationId) :
    SessionInv { s with decisions := s.decisions ++ [row] } where
  requests_unique := inv.requests_unique
  connections_unique := inv.connections_unique
  decisions_unique := inv.decisions_unique.append_row hfresh
  challenges_unique := inv.challenges_unique
  permission_owned := inv.permission_owned
  challenge_bound := inv.challenge_bound
  challenge_decided := by
    intro challenge hchallenge
    obtain ⟨decision, hdecision, hagrees⟩ := inv.challenge_decided challenge hchallenge
    exact ⟨decision, List.mem_append_left _ hdecision, hagrees⟩

/-- The decision of a challenge is not pending approval, so deciding an approval leaves it. -/
theorem decided {operationId connectionId : Id32} {generation : PolicyGeneration}
    {observedAt : TimeUnixMs} {decision : Decision} {reason : DecisionReason} (inv : SessionInv s) :
    SessionInv (s.decided operationId connectionId generation observedAt decision reason) where
  requests_unique := inv.requests_unique
  connections_unique := inv.connections_unique
  decisions_unique := inv.decisions_unique.update fun _ _ => rfl
  challenges_unique := inv.challenges_unique
  permission_owned := inv.permission_owned
  challenge_bound := inv.challenge_bound
  challenge_decided := by
    intro challenge hchallenge
    obtain ⟨row, hrow, hagrees⟩ := inv.challenge_decided challenge hchallenge
    refine ⟨row, Table.mem_update_of_not hrow ?_, hagrees⟩
    simp [hagrees.not_pendingApproval]

theorem challenges_expired {matching : ChallengeRow → Bool} {appliedAtUnixS : ℕ}
    (inv : SessionInv s) (hpending : ∀ row, matching row = true → row.state = .pending) :
    SessionInv { s with
      challenges := Table.update matching (ChallengeRow.expiredAt appliedAtUnixS) s.challenges } where
  requests_unique := inv.requests_unique
  connections_unique := inv.connections_unique
  decisions_unique := inv.decisions_unique
  challenges_unique := inv.challenges_unique.update fun _ _ => rfl
  permission_owned := inv.permission_owned
  challenge_bound := by
    intro challenge hchallenge
    obtain ⟨old, hold, rfl⟩ := Table.mem_update.mp hchallenge
    have hbound := inv.challenge_bound old hold
    split
    next => exact hbound
    next => exact hbound
  challenge_decided := by
    intro challenge hchallenge
    obtain ⟨old, hold, rfl⟩ := Table.mem_update.mp hchallenge
    obtain ⟨row, hrow, hagrees⟩ := inv.challenge_decided old hold
    split
    next hmatch =>
      have hchallenged := hagrees.pending (hpending old hmatch)
      exact ⟨row, hrow, hagrees.operation, hagrees.connection, hagrees.named, hagrees.generation,
        nofun, nofun, fun _ => .inl hchallenged⟩
    next => exact ⟨row, hrow, hagrees⟩

/-! ### The steps -/

theorem mem_permissionRows {connectionId : Id32} {scope : PermissionScope} {set : PermissionSet}
    {row : PermissionRow} (h : row ∈ permissionRows connectionId scope set) :
    row.connectionId = connectionId ∧ row.permissionScope = scope ∧
      row.permission ∈ set.permissions := by
  obtain ⟨permission, hmem, rfl⟩ := List.mem_map.mp h
  exact ⟨rfl, rfl, hmem⟩

theorem admitted {config : Configuration} {request : AdmissionRequest} (inv : SessionInv s)
    (guard : Admits config s request) : SessionInv (s.admitted request) := by
  have hconnections : SessionInv { s with
      connections := s.connections ++ request.connectionRows } := by
    refine inv.connections_added ?_
    unfold AdmissionRequest.connectionRows
    cases hpolicy : request.policy with
    | trusted => exact inv.connections_unique.append_row (guard.fresh (by simp [hpolicy]))
    | explicitApproval => exact inv.connections_unique.append_row (guard.fresh (by simp [hpolicy]))
    | denied => simpa using inv.connections_unique
  have hpermissions : SessionInv { s with
      connections := s.connections ++ request.connectionRows
      permissions := s.permissions ++ request.permissionRows } := by
    refine hconnections.permissions_added fun permission hpermission => ?_
    unfold AdmissionRequest.permissionRows at hpermission
    unfold AdmissionRequest.connectionRows
    cases hpolicy : request.policy with
    | trusted =>
        simp only [hpolicy, List.mem_append] at hpermission
        have hid : permission.connectionId = request.connectionId :=
          hpermission.elim (fun h => (mem_permissionRows h).1) fun h => (mem_permissionRows h).1
        exact ⟨newConnectionRow request .active, by simp, hid.symm⟩
    | explicitApproval =>
        simp only [hpolicy] at hpermission
        exact ⟨newConnectionRow request .pending, by simp, (mem_permissionRows hpermission).1.symm⟩
    | denied => simp [hpolicy] at hpermission
  exact hpermissions.decision_added _ guard.undecided

theorem granted {connectionId : Id32} {set : PermissionSet} (inv : SessionInv s)
    (hconnection : ∃ row ∈ s.connections, row.connectionId = connectionId) :
    SessionInv (s.granted connectionId set) := by
  refine inv.permissions_added fun permission hpermission => ?_
  rw [(mem_permissionRows hpermission).1]
  exact hconnection

theorem settled {connectionId : Id32} {generation : PolicyGeneration} {observedAt : TimeUnixMs}
    {status : ConnectionStatus} {authorizedUntil : Option TimeUnixMs} (inv : SessionInv s) :
    SessionInv (s.settled connectionId generation observedAt status authorizedUntil) :=
  inv.connections_updated _ _ fun _ => rfl

theorem approved {operationId connectionId : Id32} {generation : PolicyGeneration}
    {observedAt : TimeUnixMs} {set : PermissionSet} {authorizedUntil : Option TimeUnixMs}
    (inv : SessionInv s) (guard : Decides s operationId connectionId generation observedAt) :
    SessionInv (s.approved operationId connectionId generation observedAt set authorizedUntil) := by
  obtain ⟨row, hrow, hid, -⟩ := guard.connection
  exact (inv.granted ⟨row, hrow, hid⟩).settled.decided

theorem denied {operationId connectionId : Id32} {generation : PolicyGeneration}
    {observedAt : TimeUnixMs} (inv : SessionInv s) :
    SessionInv (s.denied operationId connectionId generation observedAt) :=
  inv.settled.decided

theorem ended {connectionId : Id32} {generation : PolicyGeneration} {observedAt : TimeUnixMs}
    {limited : ConnectionRow → Bool} (inv : SessionInv s) :
    SessionInv (s.ended connectionId generation observedAt limited) :=
  inv.connections_updated _ _ fun _ => rfl

theorem challenged {request : ChallengeRequest} {connection : ConnectionRecord}
    (inv : SessionInv s) (guard : Issues s request) :
    SessionInv (s.challenged request connection) := by
  have hdecision := inv.decision_added (newChallengeDecision request connection)
    guard.undecided
  exact {
    requests_unique := inv.requests_unique
    connections_unique := inv.connections_unique
    decisions_unique := hdecision.decisions_unique
    challenges_unique := inv.challenges_unique.append_row fun row hrow =>
      (guard.unchallenged row hrow).1
    permission_owned := inv.permission_owned
    challenge_bound := by
      intro challenge hchallenge
      rcases List.mem_append.mp hchallenge with hold | hnew
      · exact inv.challenge_bound challenge hold
      · rw [List.mem_singleton.mp hnew]
        exact guard.binding
    challenge_decided := by
      intro challenge hchallenge
      rcases List.mem_append.mp hchallenge with hold | hnew
      · exact hdecision.challenge_decided challenge hold
      · rw [List.mem_singleton.mp hnew]
        exact ⟨newChallengeDecision request connection, by simp [Store.challenged], rfl, rfl, rfl,
          rfl, fun _ => rfl, nofun, nofun⟩ }

theorem challengeResolved {challenge : ChallengeRow} {state : ChallengeState} {decision : Decision}
    {reason : DecisionReason} {observedAt : TimeUnixMs} (inv : SessionInv s)
    (guard : Resolvable s challenge state decision reason) :
    SessionInv (s.challengeResolved challenge state decision reason observedAt) where
  requests_unique := inv.requests_unique
  connections_unique := inv.connections_unique
  decisions_unique := inv.decisions_unique.update fun _ _ => rfl
  challenges_unique := inv.challenges_unique.update fun _ _ => rfl
  permission_owned := inv.permission_owned
  challenge_bound := by
    intro row hrow
    obtain ⟨old, hold, rfl⟩ := Table.mem_update.mp hrow
    have hbound := inv.challenge_bound old hold
    split
    next => exact hbound
    next => exact hbound
  challenge_decided := by
    intro row hrow
    obtain ⟨old, hold, rfl⟩ := Table.mem_update.mp hrow
    obtain ⟨decided, hdecided, hagrees⟩ := inv.challenge_decided old hold
    by_cases hop : old.operationId = challenge.operationId
    · -- the challenge of an operation is unique, so this is the resolved one
      obtain rfl := inv.challenges_unique.eq_of_key_eq hold guard.challenge_mem hop
      refine ⟨_, Table.mem_update.mpr ⟨decided, hdecided, rfl⟩, ?_⟩
      simp only [guard.pending, hagrees.operation, hagrees.connection, hagrees.named,
        hagrees.generation, hagrees.pending guard.pending, and_self, decide_true, if_true]
      rcases guard.states with ⟨rfl, rfl, -⟩ | ⟨rfl, rfl, -⟩
      · exact ⟨rfl, rfl, rfl, rfl, nofun, fun _ => rfl, nofun⟩
      · exact ⟨rfl, rfl, rfl, rfl, nofun, nofun, fun _ => .inr rfl⟩
    · refine ⟨decided, Table.mem_update_of_not hdecided ?_, ?_⟩
      · simp [hagrees.operation, hop]
      · simpa [hop] using hagrees

theorem completed {request : ResponseCommitRequest} {policy : DeliveryPolicies}
    (inv : SessionInv s) : SessionInv (s.completed request policy) := by
  have heffect : SessionInv (s.effected request.completion) := by
    unfold Store.effected CommitRequest.effect
    split
    next => exact inv.ended
    next => exact inv
  exact ⟨heffect.requests_unique, heffect.connections_unique, heffect.decisions_unique,
    heffect.challenges_unique, heffect.permission_owned, heffect.challenge_bound,
    heffect.challenge_decided⟩

theorem reconfigured {current candidate : Configuration} {appliedAtUnixS : ℕ}
    (inv : SessionInv s) : SessionInv (s.reconfigured current candidate appliedAtUnixS) := by
  unfold Store.reconfigured
  split
  next =>
    have hactive := inv.connections_updated (fun row => row.status = .active)
      (ConnectionRow.endedAs .expired appliedAtUnixS) fun _ => rfl
    have hpending := hactive.connections_updated (fun row => row.status = .pending)
      (ConnectionRow.endedAs .denied appliedAtUnixS) fun _ => rfl
    exact hpending.challenges_expired fun row hrow => of_decide_eq_true hrow
  next =>
    split
    next =>
      have hconnections := inv.connections_updated (fun row => row.status = .active ∧
        exceedsCeiling s candidate.connection.permissionCeiling .granted row.connectionId = true)
        (ConnectionRow.endedAs .expired appliedAtUnixS) fun _ => rfl
      exact hconnections.challenges_expired fun row hrow => (of_decide_eq_true hrow).1
    next => exact inv

/-- Every step keeps the invariant. -/
theorem step {config : Configuration} {operation : Operation} {s₁ : Store} (inv : SessionInv s)
    (h : SessionStep config s operation s₁) : SessionInv s₁ := by
  cases h with
  | quiet => exact inv
  | requests hadmits => exact inv.requests hadmits
  | outbox houtside => exact inv.of_view (sessionView_of_outbox houtside)
  | connect guard => exact inv.admitted guard
  | approve _ guard => exact inv.approved guard
  | deny guard => exact inv.denied
  | finish guard => exact inv.ended
  | issue guard => exact inv.challenged guard
  | resolve guard => exact inv.challengeResolved guard
  | complete guard => exact inv.completed
  | answerPending guard =>
      exact ⟨inv.requests_unique, inv.connections_unique, inv.decisions_unique,
        inv.challenges_unique, inv.permission_owned, inv.challenge_bound, inv.challenge_decided⟩

end SessionInv

/-! ## Events -/

/-- What an event can do to the sessions: nothing, a step, or a new configuration. -/
theorem System.perform_sessions {codec : EventCodec} {P : System → Prop} {system : System}
    (event : Event) (hsame : P system)
    (hstep : ∀ operation s₁ s', event = .operation operation →
      SessionStep system.config system.store operation s₁ →
      s'.withoutGovernance = s₁.withoutGovernance → P { system with store := s' })
    (happly : ∀ candidate appliedAtUnixS bindings, event = .apply candidate appliedAtUnixS →
      candidate.metadata ≠ system.config.metadata →
      P ⟨candidate, { system.store.reconfigured system.config candidate appliedAtUnixS with
        configBindings := bindings }⟩) :
    P (system.perform codec event) := by
  refine System.perform_cases event hsame ?_ ?_
  · intro operation u s' hevent hrun
    obtain ⟨s₁, hs₁, hview⟩ := Operation.step hrun
    exact hstep operation s₁ s' hevent hs₁ hview
  · intro candidate appliedAtUnixS outcome s' hevent hrun
    unfold Configuration.appliedOver
    rcases applyConfiguration_cases hrun with ⟨hmetadata, rfl⟩ | ⟨hmetadata, bindings, rfl⟩
    · rw [if_pos hmetadata]
      exact hsame
    · rw [if_neg hmetadata]
      exact happly candidate appliedAtUnixS bindings hevent hmetadata

theorem SessionInv.perform {codec : EventCodec} {system : System} (inv : SessionInv system.store)
    (event : Event) : SessionInv (system.perform codec event).store := by
  refine System.perform_sessions (P := fun system => SessionInv system.store) event inv ?_ ?_
  · intro operation s₁ s' _ hstep hview
    exact (inv.step hstep).of_view (sessionView_of_governance hview)
  · intro candidate appliedAtUnixS bindings _ _
    exact inv.reconfigured.of_view rfl

/-- The invariant holds in every state that a run of the service reaches. -/
theorem sessionInv_run (codec : EventCodec) (config : Configuration) (appliedAtUnixS : ℕ)
    (events : List Event) :
    SessionInv (Run.after (System.perform codec) (.initial config appliedAtUnixS) events).store :=
  Run.invariant_always (I := fun system : System => SessionInv system.store)
    (fun _ event inv => inv.perform event) events (.initial config.metadata appliedAtUnixS)

end MycSigner
