import MycSigner.Sessions.Decisions

/-!
# Every connection and every challenge can be read

The readers validate what they read.  Whatever the service does, and whatever configurations are
applied to its store, no row ever fails its reader.
-/

namespace MycSigner

open Transaction

/-- What the readers of connections and challenges accept. -/
structure ReadableInv (s : Store) : Prop where
  session : SessionInv s
  connections : ∀ row ∈ s.connections, ∃ record, readConnection s row.connectionId = .ok record
  challenges : ∀ row ∈ s.challenges, challengeReadable row = true

/-- A refused connection has no grants and no limit. -/
theorem connectionReadable_endedAs_denied {row : ConnectionRow} {requested granted : PermissionSet}
    {appliedAtUnixS : ℕ} (h : connectionReadable row requested granted = true)
    (hpending : row.status = .pending) :
    connectionReadable (row.endedAs .denied appliedAtUnixS) requested granted = true := by
  have hlater := row.updatedAt.le_noEarlier appliedAtUnixS
  have hcreated : ¬ row.updatedAt.noEarlier appliedAtUnixS < row.createdAt ∨
      row.updatedAt < row.createdAt := by
    rw [TimeUnixMs.lt_def, TimeUnixMs.lt_def]
    rw [TimeUnixMs.le_def] at hlater
    omega
  simp [connectionReadable, ConnectionRow.endedAs, hpending] at h ⊢
  simp_all

/-- A challenge that is resolved no earlier than it was issued can be read. -/
theorem challengeReadable_resolved {row : ChallengeRow} {state : ChallengeState}
    {resolvedAt : TimeUnixMs} (h : challengeReadable row = true) (hstate : state ≠ .pending)
    (hlater : row.issuedAt ≤ resolvedAt) :
    challengeReadable { row with state, resolvedAt := some resolvedAt } = true := by
  have hresolved : ¬ resolvedAt < row.issuedAt := Nat.not_lt.mpr hlater
  simp only [challengeReadable, Bool.not_eq_true', Bool.or_eq_false_iff] at h ⊢
  refine ⟨⟨h.1.1, ?_⟩, ?_⟩
  · simp [hstate]
  · simp [hresolved]

namespace ReadableInv

variable {s s' : Store}

theorem initial (metadata : PersistedMetadata) (appliedAtUnixS : ℕ) :
    ReadableInv (Store.initial metadata appliedAtUnixS) where
  session := .initial metadata appliedAtUnixS
  connections := by simp [Store.initial]
  challenges := by simp [Store.initial]

/-- Connections that continue can be read, when there are no others. -/
theorem continues (inv : ReadableInv s) (session : SessionInv s') (hcontinues : Continues s s')
    (hknown : ∀ row ∈ s'.connections, ∃ old ∈ s.connections, old.connectionId = row.connectionId)
    (hchallenges : s'.challenges = s.challenges) : ReadableInv s' where
  session := session
  connections := by
    intro row hrow
    obtain ⟨old, hold, hid⟩ := hknown row hrow
    obtain ⟨record, hread⟩ := inv.connections old hold
    obtain ⟨record', hread', -⟩ := hcontinues old.connectionId record hread
    exact ⟨record', hid ▸ hread'⟩
  challenges := hchallenges ▸ inv.challenges

/-- The invariant only reads the session view. -/
theorem of_view (inv : ReadableInv s) (h : s'.sessionView = s.sessionView) : ReadableInv s' := by
  have hconnections : s'.connections = s.connections := (congrArg Store.connections h :)
  refine inv.continues (inv.session.of_view h)
    (.of_tables hconnections (congrArg Store.permissions h :)) ?_ (congrArg Store.challenges h :)
  rw [hconnections]
  exact fun row hrow => ⟨row, hrow, rfl⟩

/-- Connections that are set to what their reader accepts can be read. -/
theorem updated (inv : ReadableInv s) {matching : ConnectionRow → Bool}
    {set : ConnectionRow → ConnectionRow} (hkey : ∀ row, (set row).connectionId = row.connectionId)
    (hset : ∀ row requested granted, matching row = true →
      connectionReadable row requested granted = true →
      connectionReadable (set row) requested granted = true) :
    ReadableInv { s with connections := Table.update matching set s.connections } where
  session := inv.session.connections_updated matching set hkey
  connections := by
    intro row hrow
    have hunique : Table.Unique ConnectionRow.connectionId
        (Table.update matching set s.connections) :=
      inv.session.connections_unique.update fun row _ => hkey row
    obtain ⟨old, hold, hnew⟩ := Table.mem_update.mp hrow
    obtain ⟨record, hread⟩ := inv.connections old hold
    obtain ⟨found, requested, granted, h⟩ := readConnection_eq_ok hread
    obtain rfl := h.only old hold rfl
    have hid : row.connectionId = old.connectionId := by
      rw [← hnew]
      split
      next => exact hkey old
      next => rfl
    have hreadable : connectionReadable row requested granted = true := by
      rw [← hnew]
      split
      next hmatch => exact hset old _ _ hmatch h.readable
      next => exact h.readable
    rw [hid]
    exact ⟨_, ReadsConnection.read hunique ⟨hrow, hid,
      fun other hother heq => hunique.eq_of_key_eq hother hrow (heq.trans hid.symm),
      h.requested_read, h.granted_read, hreadable, rfl⟩⟩
  challenges := inv.challenges

theorem admitted {config : Configuration} {request : AdmissionRequest} (inv : ReadableInv s)
    (guard : Admits config s request) : ReadableInv (s.admitted request) where
  session := inv.session.admitted guard
  connections := by
    intro row hrow
    rcases List.mem_append.mp hrow with hold | hnew
    · obtain ⟨record, hread⟩ := inv.connections row hold
      obtain ⟨record', hread', -⟩ := guard.continues row.connectionId record hread
      exact ⟨record', hread'⟩
    · -- the new connection was read beside its decision
      have hreads : Recorded (s.admitted request)
          (newAdmissionDecision request request.decidedConnection) := guard.reads
      have hnamed : request.decidedConnection = some row.connectionId := by
        rw [request.connectionRows_named row hnew]
        unfold AdmissionRequest.connectionRows at hnew
        unfold AdmissionRequest.decidedConnection
        cases hpolicy : request.policy with
        | trusted => rfl
        | explicitApproval => rfl
        | denied => simp [hpolicy] at hnew
      obtain ⟨connection, hdecision⟩ := hreads.reads
      obtain ⟨record, -, hread⟩ := hdecision.of_connection hnamed
      exact ⟨record, hread⟩
  challenges := inv.challenges

/-- The operator's decision leaves the other connections and reads its own back. -/
theorem settled {connectionId : Id32} {generation : PolicyGeneration}
    {observedAt : TimeUnixMs} {status : ConnectionStatus} {authorizedUntil : Option TimeUnixMs}
    (inv : ReadableInv s) (session : SessionInv s')
    (hconnections : s'.connections =
      (s.settled connectionId generation observedAt status authorizedUntil).connections)
    (hothers : ∀ id, connectionId ≠ id → readConnection s' id = readConnection s id)
    (hreads : ∃ record, readConnection s' connectionId = .ok record)
    (hchallenges : s'.challenges = s.challenges) : ReadableInv s' where
  session := session
  connections := by
    intro row hrow
    by_cases hid : connectionId = row.connectionId
    · exact hid ▸ hreads
    · rw [hothers _ hid]
      rw [hconnections] at hrow
      obtain ⟨old, hold, rfl⟩ := Table.mem_update.mp hrow
      simp only [apply_ite ConnectionRow.connectionId, ite_self]
      exact inv.connections old hold
  challenges := hchallenges ▸ inv.challenges

theorem ended {connectionId : Id32} {generation : PolicyGeneration} {observedAt : TimeUnixMs}
    {limited : ConnectionRow → Bool} (inv : ReadableInv s)
    (hlater : ∀ row ∈ s.connections, row.connectionId = connectionId → row.updatedAt ≤ observedAt) :
    ReadableInv (s.ended connectionId generation observedAt limited) := by
  refine inv.continues inv.session.ended
    (.of_endSession inv.session.connections_unique hlater) ?_ rfl
  intro row hrow
  obtain ⟨old, hold, rfl⟩ := Table.mem_update.mp hrow
  refine ⟨old, hold, ?_⟩
  simp only [apply_ite ConnectionRow.connectionId, ite_self]

theorem challenged {request : ChallengeRequest} {connection : ConnectionRecord}
    (inv : ReadableInv s) (guard : Issues s request) :
    ReadableInv (s.challenged request connection) where
  session := inv.session.challenged guard
  connections := inv.connections
  challenges := by
    intro row hrow
    rcases List.mem_append.mp hrow with hold | hnew
    · exact inv.challenges row hold
    · have hlifetime : ¬ request.expiresAt ≤ request.issuedAt := Nat.not_le.mpr request.lifetime
      rw [List.mem_singleton.mp hnew]
      simp [challengeReadable, newChallengeRow, hlifetime]

theorem challengeResolved {challenge : ChallengeRow} {state : ChallengeState} {decision : Decision}
    {reason : DecisionReason} {observedAt : TimeUnixMs} (inv : ReadableInv s)
    (guard : Resolvable s challenge state decision reason)
    (hissued : challenge.issuedAt ≤ observedAt) :
    ReadableInv (s.challengeResolved challenge state decision reason observedAt) where
  session := inv.session.challengeResolved guard
  connections := inv.connections
  challenges := by
    intro row hrow
    obtain ⟨old, hold, rfl⟩ := Table.mem_update.mp hrow
    have hreadable := inv.challenges old hold
    split
    next hmatch =>
      -- the matching row is the challenge itself, which was issued before
      have hid := (of_decide_eq_true hmatch).2.2.1
      obtain rfl := inv.session.challenges_unique.eq_of_key_eq hold guard.challenge_mem hid
      have hstate : state ≠ .pending := by
        rcases guard.states with ⟨rfl, -⟩ | ⟨rfl, -⟩
        · nofun
        · nofun
      exact challengeReadable_resolved hreadable hstate hissued
    next => exact hreadable

theorem completed {request : ResponseCommitRequest} {policy : DeliveryPolicies}
    (inv : ReadableInv s) (guard : Completes s request) :
    ReadableInv (s.completed request policy) := by
  have heffect : ReadableInv (s.effected request.completion) := by
    have hlater := guard.later
    unfold Store.effected CommitRequest.effect
    split
    next hconnection _ _ => exact inv.ended (hlater _ hconnection)
    next => exact inv
  exact ⟨inv.session.completed, heffect.connections, heffect.challenges⟩

/-- Every operation leaves rows that can be read. -/
theorem step {config : Configuration} {operation : Operation} {s₁ : Store} (inv : ReadableInv s)
    (h : SessionStep config s operation s₁) : ReadableInv s₁ := by
  have hsession := inv.session.step h
  cases h with
  | quiet => exact inv
  | requests hadmits =>
      have hconnections : s₁.connections = s.connections :=
        (congrArg Store.connections hadmits.outside :)
      refine inv.continues hsession
        (.of_tables hconnections (congrArg Store.permissions hadmits.outside :)) ?_
        (congrArg Store.challenges hadmits.outside :)
      rw [hconnections]
      exact fun row hrow => ⟨row, hrow, rfl⟩
  | outbox houtside => exact inv.of_view (sessionView_of_outbox houtside)
  | connect guard => exact inv.admitted guard
  | approve _ guard hreads =>
      refine inv.settled hsession rfl ?_ hreads rfl
      exact fun id hne => (readConnection_settled hne).trans (readConnection_granted hne)
  | deny guard hreads =>
      exact inv.settled hsession rfl (fun id hne => readConnection_settled hne) hreads rfl
  | finish _ hlater => exact inv.ended hlater
  | issue guard => exact inv.challenged guard
  | resolve guard hissued => exact inv.challengeResolved guard hissued
  | complete guard => exact inv.completed guard
  | answerPending guard => exact ⟨hsession, inv.connections, inv.challenges⟩

/-! ### Applying a configuration -/

/-- Sessions end no earlier than their last update. -/
theorem expired (inv : ReadableInv s) {matching : ConnectionRow → Bool} {appliedAtUnixS : ℕ}
    (hactive : ∀ row, matching row = true → row.status = .active) :
    ReadableInv { s with
      connections := Table.update matching (ConnectionRow.endedAs .expired appliedAtUnixS)
        s.connections } :=
  inv.updated (fun _ => rfl) fun row _ _ hmatch hreadable =>
    connectionReadable_expiredOn hreadable (hactive row hmatch)
      (row.updatedAt.le_noEarlier appliedAtUnixS)

theorem challenges_expired (inv : ReadableInv s) {matching : ChallengeRow → Bool}
    {appliedAtUnixS : ℕ} (hpending : ∀ row, matching row = true → row.state = .pending) :
    ReadableInv { s with
      challenges := Table.update matching (ChallengeRow.expiredAt appliedAtUnixS) s.challenges } where
  session := inv.session.challenges_expired hpending
  connections := inv.connections
  challenges := by
    intro row hrow
    obtain ⟨old, hold, rfl⟩ := Table.mem_update.mp hrow
    have hreadable := inv.challenges old hold
    split
    next => exact challengeReadable_resolved hreadable nofun (old.issuedAt.le_noEarlier _)
    next => exact hreadable

theorem reconfigured {current candidate : Configuration} {appliedAtUnixS : ℕ}
    (inv : ReadableInv s) : ReadableInv (s.reconfigured current candidate appliedAtUnixS) := by
  unfold Store.reconfigured
  split
  next =>
    have hactive : ReadableInv { s with
        connections := Table.update (fun row => row.status = .active)
          (ConnectionRow.endedAs .expired appliedAtUnixS) s.connections } :=
      inv.expired fun row hmatch => of_decide_eq_true hmatch
    have hpending : ReadableInv { s with
        connections := Table.update (fun row => row.status = .pending)
          (ConnectionRow.endedAs .denied appliedAtUnixS)
          (Table.update (fun row => row.status = .active)
            (ConnectionRow.endedAs .expired appliedAtUnixS) s.connections) } :=
      hactive.updated (fun _ => rfl) fun row _ _ hmatch hreadable =>
        connectionReadable_endedAs_denied hreadable (of_decide_eq_true hmatch)
    exact hpending.challenges_expired fun row hmatch => of_decide_eq_true hmatch
  next =>
    split
    next =>
      have hexpired : ReadableInv { s with
          connections := Table.update (fun row => row.status = .active ∧ exceedsCeiling s
              candidate.connection.permissionCeiling .granted row.connectionId = true)
            (ConnectionRow.endedAs .expired appliedAtUnixS) s.connections } :=
        inv.expired fun row hmatch => (of_decide_eq_true hmatch).1
      exact hexpired.challenges_expired fun row hmatch => (of_decide_eq_true hmatch).1
    next => exact inv

theorem perform {codec : EventCodec} {system : System} (inv : ReadableInv system.store)
    (event : Event) : ReadableInv (system.perform codec event).store := by
  refine System.perform_sessions (P := fun system => ReadableInv system.store) event inv ?_ ?_
  · intro operation s₁ s' _ hstep hview
    exact (inv.step hstep).of_view (sessionView_of_governance hview)
  · intro candidate appliedAtUnixS bindings _ _
    exact inv.reconfigured.of_view rfl

/-- Every run keeps the rows readable. -/
theorem after {codec : EventCodec} {system : System} (inv : ReadableInv system.store)
    (events : List Event) : ReadableInv (Run.after (System.perform codec) system events).store :=
  Run.invariant_always (I := fun system : System => ReadableInv system.store)
    (fun _ event inv => inv.perform event) events inv

theorem reachable (codec : EventCodec) (config : Configuration) (appliedAtUnixS : ℕ)
    (events : List Event) :
    ReadableInv (Run.after (System.perform codec) (.initial config appliedAtUnixS) events).store :=
  after (initial config.metadata appliedAtUnixS) events

/-- The record of a stored connection. -/
theorem read_connection (inv : ReadableInv s) {row : ConnectionRow} (hrow : row ∈ s.connections) :
    ∃ requested granted, readConnection s row.connectionId = .ok (row.record requested granted) ∧
      ReadsConnection s row.connectionId (row.record requested granted) row requested granted := by
  obtain ⟨record, hread⟩ := inv.connections row hrow
  obtain ⟨found, requested, granted, h⟩ := readConnection_eq_ok hread
  obtain rfl := h.only row hrow rfl
  have hrecord := h.record_eq
  exact ⟨requested, granted, hrecord ▸ hread, hrecord ▸ h⟩

/-- A stored challenge is read as it is. -/
theorem read_challenge (inv : ReadableInv s) {row : ChallengeRow} (hrow : row ∈ s.challenges) :
    readChallenge s row.operationId = .ok (some row) := by
  have hrows := inv.session.challenges_unique.filter_eq_singleton hrow
  refine Except.bind_eq_ok_iff.mpr ⟨some row, atMostOneRow_eq_some.mpr hrows, ?_⟩
  exact Except.bind_eq_ok_iff.mpr ⟨(), Except.require_eq_ok.mpr (inv.challenges row hrow), rfl⟩

end ReadableInv

end MycSigner
