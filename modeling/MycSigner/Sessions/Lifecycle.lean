import MycSigner.Lib.History
import MycSigner.Sessions.Readable

/-!
# The life of a connection

Without a change of the configuration a connection is decided at most once and ends at most
once, its decision is settled at most once, and what it was granted stays as it was when it
became active.  Every row that an operation leaves behind is one that its reader accepts.
-/

namespace MycSigner

/-! ## Moves -/

/-- The moves of a connection: approval, denial, and the end of a session. -/
inductive ConnectionStatus.Moves : ConnectionStatus → ConnectionStatus → Prop
  | approved : Moves .pending .active
  | denied : Moves .pending .denied
  | expired : Moves .active .expired

theorem ConnectionStatus.Moves.not_pending {status status' : ConnectionStatus}
    (h : Moves status status') : status' ≠ .pending := by
  cases h with
  | approved => nofun
  | denied => nofun
  | expired => nofun

/-- The decision can still change. -/
def Decision.Waits (decision : Decision) : Prop :=
  decision = .pendingApproval ∨ decision = .challenged

/-- A decision stays, or is settled for good. -/
def DecisionRow.Settles (row row' : DecisionRow) : Prop :=
  row' = row ∨ row.decision.Waits ∧ ¬ row'.decision.Waits ∧
    { row' with
      decision := row.decision, reasonCode := row.reasonCode, decidedAt := row.decidedAt } = row

theorem DecisionRow.Settles.trans {first second third : DecisionRow} (h : first.Settles second)
    (h' : second.Settles third) : first.Settles third := by
  rcases h with rfl | ⟨hwaits, hsettled, hsame⟩
  · exact h'
  · rcases h' with rfl | ⟨hagain, -, -⟩
    · exact .inr ⟨hwaits, hsettled, hsame⟩
    · exact absurd hagain hsettled

/-- A connection moved within a relation: it keeps its identity and what it asked for, and is
updated no earlier than before. -/
structure ConnectionRow.Moved (R : ConnectionStatus → ConnectionStatus → Prop)
    (row row' : ConnectionRow) : Prop where
  identity : { row' with
    status := row.status, updatedAt := row.updatedAt,
    authorizedUntil := row.authorizedUntil } = row
  status : R row.status row'.status
  updated : row.updatedAt ≤ row'.updatedAt

/-- A connection stays as it is, or moves. -/
def ConnectionRow.Follows (R : ConnectionStatus → ConnectionStatus → Prop)
    (row row' : ConnectionRow) : Prop :=
  row' = row ∨ row.Moved R row'

/-- The later store carries the connections and the decisions of the earlier one on. -/
structure Progresses (R : ConnectionStatus → ConnectionStatus → Prop) (s s' : Store) : Prop where
  connections : Table.Carried (ConnectionRow.Follows R) s.connections s'.connections
  requested : ∀ row ∈ s.connections, permissionsOf s' row.connectionId .requested =
    permissionsOf s row.connectionId .requested
  granted : ∀ row ∈ s.connections, row.status ≠ .pending →
    permissionsOf s' row.connectionId .granted = permissionsOf s row.connectionId .granted
  decisions : Table.Carried DecisionRow.Settles s.decisions s'.decisions

section Follows

variable {R : ConnectionStatus → ConnectionStatus → Prop} {row row' row'' : ConnectionRow}
  {s s' s'' : Store}

theorem ConnectionRow.Moved.trans (htrans : ∀ {a b c}, R a b → R b c → R a c)
    (h : row.Moved R row') (h' : row'.Moved R row'') : row.Moved R row'' where
  identity := by
    have hsame := congrArg (fun value : ConnectionRow => { value with
      status := row.status, updatedAt := row.updatedAt,
      authorizedUntil := row.authorizedUntil }) h'.identity
    exact hsame.trans h.identity
  status := htrans h.status h'.status
  updated := Nat.le_trans h.updated h'.updated

namespace ConnectionRow.Follows

theorem connectionId (h : row.Follows R row') : row'.connectionId = row.connectionId := by
  rcases h with rfl | hmoved
  · rfl
  · exact (congrArg ConnectionRow.connectionId hmoved.identity :)

theorem trans (htrans : ∀ {a b c}, R a b → R b c → R a c) (h : row.Follows R row')
    (h' : row'.Follows R row'') : row.Follows R row'' := by
  rcases h with rfl | hmoved
  · exact h'
  · rcases h' with rfl | hmoved'
    · exact .inr hmoved
    · exact .inr (hmoved.trans htrans hmoved')

theorem mono {R' : ConnectionStatus → ConnectionStatus → Prop} (hmono : ∀ {a b}, R a b → R' a b)
    (h : row.Follows R row') : row.Follows R' row' := by
  rcases h with rfl | hmoved
  · exact .inl rfl
  · exact .inr ⟨hmoved.identity, hmono hmoved.status, hmoved.updated⟩

/-- A connection that left `pending` does not come back. -/
theorem not_pending (h : row.Follows (Relation.TransGen ConnectionStatus.Moves) row')
    (hstatus : row.status ≠ .pending) : row'.status ≠ .pending := by
  rcases h with rfl | hmoved
  · exact hstatus
  · obtain ⟨_, -, hlast⟩ := Relation.TransGen.tail'_iff.mp hmoved.status
    exact hlast.not_pending

end ConnectionRow.Follows

namespace Progresses

theorem mono {R' : ConnectionStatus → ConnectionStatus → Prop} (h : Progresses R s s')
    (hmono : ∀ {a b}, R a b → R' a b) : Progresses R' s s' where
  connections := by
    intro row hrow
    obtain ⟨row', hrow', hfollows⟩ := h.connections row hrow
    exact ⟨row', hrow', hfollows.mono hmono⟩
  requested := h.requested
  granted := h.granted
  decisions := h.decisions

/-- Stores with the same connections and permissions. -/
theorem of_tables (hconnections : s'.connections = s.connections)
    (hpermissions : s'.permissions = s.permissions)
    (hdecisions : Table.Carried DecisionRow.Settles s.decisions s'.decisions) :
    Progresses R s s' where
  connections := hconnections ▸ .refl fun _ => .inl rfl
  requested := by
    intro row _
    unfold permissionsOf
    rw [hpermissions]
  granted := by
    intro row _ _
    unfold permissionsOf
    rw [hpermissions]
  decisions := hdecisions

theorem refl (s : Store) : Progresses R s s := .of_tables rfl rfl (.refl fun _ => .inl rfl)

/-- Whatever sequence of moves, a connection that has left `pending` keeps its grants. -/
theorem trans (h : Progresses (Relation.TransGen ConnectionStatus.Moves) s s')
    (h' : Progresses (Relation.TransGen ConnectionStatus.Moves) s' s'') :
    Progresses (Relation.TransGen ConnectionStatus.Moves) s s'' where
  connections := h.connections.trans (.trans .trans) h'.connections
  requested := by
    intro row hrow
    obtain ⟨row', hrow', hfollows⟩ := h.connections row hrow
    have hlater := h'.requested row' hrow'
    rw [hfollows.connectionId] at hlater
    rw [hlater, h.requested row hrow]
  granted := by
    intro row hrow hstatus
    obtain ⟨row', hrow', hfollows⟩ := h.connections row hrow
    have hlater := h'.granted row' hrow' (hfollows.not_pending hstatus)
    rw [hfollows.connectionId] at hlater
    rw [hlater, h.granted row hrow hstatus]
  decisions := h.decisions.trans .trans h'.decisions

end Progresses

end Follows

/-! ## What an event does -/

section Steps

variable {s : Store}

/-- Rows that are updated by one move are carried on. -/
theorem connections_carried {matching : ConnectionRow → Bool}
    {set : ConnectionRow → ConnectionRow}
    (hset : ∀ row ∈ s.connections, matching row = true →
      row.Moved ConnectionStatus.Moves (set row)) :
    Table.Carried (ConnectionRow.Follows ConnectionStatus.Moves) s.connections
      (Table.update matching set s.connections) :=
  .update (fun _ => .inl rfl) fun row hrow hmatch => .inr (hset row hrow hmatch)

theorem Progresses.admitted {config : Configuration} {request : AdmissionRequest}
    (guard : Admits config s request) : Progresses ConnectionStatus.Moves s (s.admitted request) := by
  have hsets : ∀ row ∈ s.connections, ∀ scope,
      permissionsOf (s.admitted request) row.connectionId scope =
        permissionsOf s row.connectionId scope := by
    intro row hrow scope
    by_cases hpolicy : request.policy = .denied
    · simp [permissionsOf, Store.admitted, AdmissionRequest.permissionRows, hpolicy]
    · exact permissionsOf_append request.permissionRows_named
        (fun heq => guard.fresh hpolicy row hrow heq.symm) scope
  exact {
    connections := .of_subset (fun _ => .inl rfl) (List.subset_append_left _ _)
    requested := fun row hrow => hsets row hrow .requested
    granted := fun row hrow _ => hsets row hrow .granted
    decisions := .of_subset (fun _ => .inl rfl) (List.subset_append_left _ _) }

theorem decided_carried {operationId connectionId : Id32} {generation : PolicyGeneration}
    {observedAt : TimeUnixMs} {decision : Decision} {reason : DecisionReason}
    (hsettled : ¬ decision.Waits) :
    Table.Carried DecisionRow.Settles s.decisions
      (s.decided operationId connectionId generation observedAt decision reason).decisions := by
  refine .update (fun _ => .inl rfl) fun row _ hmatch => .inr ⟨.inl ?_, hsettled, rfl⟩
  exact (of_decide_eq_true hmatch).2.2.1

/-- The operator settles the one pending connection. -/
theorem Progresses.settled {operationId connectionId : Id32} {generation : PolicyGeneration}
    {observedAt : TimeUnixMs} {status : ConnectionStatus} {authorizedUntil : Option TimeUnixMs}
    (guard : Decides s operationId connectionId generation observedAt)
    (hmove : ConnectionStatus.Moves .pending status) :
    Table.Carried (ConnectionRow.Follows ConnectionStatus.Moves) s.connections
      (s.settled connectionId generation observedAt status authorizedUntil).connections := by
  refine connections_carried fun row hrow hmatch => ?_
  obtain ⟨hid, hpending, -⟩ := of_decide_eq_true hmatch
  obtain ⟨waiting, hwaiting, hwaitingId, -, -, hlater⟩ := guard.connection
  obtain rfl := guard.only row hrow waiting hwaiting hid hwaitingId
  exact ⟨rfl, hpending ▸ hmove, hlater⟩

theorem Progresses.approved {operationId connectionId : Id32} {generation : PolicyGeneration}
    {observedAt : TimeUnixMs} {set : PermissionSet} {authorizedUntil : Option TimeUnixMs}
    (guard : Decides s operationId connectionId generation observedAt) :
    Progresses ConnectionStatus.Moves s
      (s.approved operationId connectionId generation observedAt set authorizedUntil) where
  connections := Progresses.settled guard .approved
  requested := fun _ _ => permissionsOf_granted_requested
  granted := by
    intro row hrow hstatus
    have hother : connectionId ≠ row.connectionId :=
      fun heq => hstatus (guard.pending row hrow heq.symm).1
    exact permissionsOf_append (fun _ h => (SessionInv.mem_permissionRows h).1) hother .granted
  decisions := decided_carried (by simp [Decision.Waits])

theorem Progresses.denied {operationId connectionId : Id32} {generation : PolicyGeneration}
    {observedAt : TimeUnixMs} (guard : Decides s operationId connectionId generation observedAt) :
    Progresses ConnectionStatus.Moves s (s.denied operationId connectionId generation observedAt) where
  connections := Progresses.settled guard .denied
  requested := fun _ _ => rfl
  granted := fun _ _ _ => rfl
  decisions := decided_carried (by simp [Decision.Waits])

theorem Progresses.ended {connectionId : Id32} {generation : PolicyGeneration}
    {observedAt : TimeUnixMs} {limited : ConnectionRow → Bool}
    (hlater : ∀ row ∈ s.connections, row.connectionId = connectionId → row.updatedAt ≤ observedAt) :
    Progresses ConnectionStatus.Moves s (s.ended connectionId generation observedAt limited) where
  connections := by
    refine connections_carried fun row hrow hmatch => ?_
    obtain ⟨hid, hactive, -⟩ := of_decide_eq_true hmatch
    exact ⟨rfl, hactive ▸ .expired, hlater row hrow hid⟩
  requested := fun _ _ => rfl
  granted := fun _ _ _ => rfl
  decisions := .refl fun _ => .inl rfl

theorem Progresses.challengeResolved {challenge : ChallengeRow} {state : ChallengeState}
    {decision : Decision} {reason : DecisionReason} {observedAt : TimeUnixMs}
    (guard : Resolvable s challenge state decision reason) :
    Progresses ConnectionStatus.Moves s (s.challengeResolved challenge state decision reason observedAt) := by
  have hsettled : ¬ decision.Waits := by
    rcases guard.states with ⟨-, rfl, -⟩ | ⟨-, rfl, -⟩
    · simp [Decision.Waits]
    · simp [Decision.Waits]
  refine .of_tables rfl rfl ?_
  refine .update (fun _ => .inl rfl) fun row _ hmatch => .inr ⟨.inr ?_, hsettled, rfl⟩
  exact (of_decide_eq_true hmatch).2.2.2.2

theorem Progresses.completed {request : ResponseCommitRequest} {policy : DeliveryPolicies}
    (guard : Completes s request) : Progresses ConnectionStatus.Moves s (s.completed request policy) := by
  have heffect : Progresses ConnectionStatus.Moves s (s.effected request.completion) := by
    have hlater := guard.later
    unfold Store.effected CommitRequest.effect
    split
    next hconnection _ _ => exact .ended (hlater _ hconnection)
    next => exact .refl s
  exact ⟨heffect.connections, heffect.requested, heffect.granted, heffect.decisions⟩

/-- Every operation makes at most one move of each connection. -/
theorem SessionStep.progresses {config : Configuration} {operation : Operation} {s₁ : Store}
    (h : SessionStep config s operation s₁) : Progresses ConnectionStatus.Moves s s₁ := by
  have hsame : Table.Carried DecisionRow.Settles s.decisions s.decisions :=
    .refl fun _ => .inl rfl
  cases h with
  | quiet => exact .refl s
  | requests hadmits =>
      have hdecisions : s₁.decisions = s.decisions := (congrArg Store.decisions hadmits.outside :)
      exact .of_tables (congrArg Store.connections hadmits.outside :)
        (congrArg Store.permissions hadmits.outside :) (hdecisions ▸ hsame)
  | outbox houtside =>
      have hdecisions : s₁.decisions = s.decisions := (congrArg Store.decisions houtside :)
      exact .of_tables (congrArg Store.connections houtside :)
        (congrArg Store.permissions houtside :) (hdecisions ▸ hsame)
  | connect guard => exact .admitted guard
  | approve _ guard => exact .approved guard
  | deny guard => exact .denied guard
  | finish _ hlater => exact .ended hlater
  | issue guard =>
      exact .of_tables rfl rfl
        (.of_subset (fun _ => .inl rfl) (List.subset_append_left _ _))
  | resolve guard => exact .challengeResolved guard
  | complete guard => exact .completed guard
  | answerPending guard => exact .of_tables rfl rfl hsame

theorem moved_endedAs {row : ConnectionRow} {status : ConnectionStatus} {appliedAtUnixS : ℕ}
    (hmove : row.status.Moves status) :
    row.Moved ConnectionStatus.Moves (row.endedAs status appliedAtUnixS) :=
  ⟨rfl, hmove, row.updatedAt.le_noEarlier appliedAtUnixS⟩

/-- Applying a configuration moves connections as well. -/
theorem Progresses.reconfigured {current candidate : Configuration} {appliedAtUnixS : ℕ} :
    Progresses ConnectionStatus.Moves s (s.reconfigured current candidate appliedAtUnixS) := by
  unfold Store.reconfigured
  split
  next =>
    refine ⟨?_, fun _ _ => rfl, fun _ _ _ => rfl, .refl fun _ => .inl rfl⟩
    -- an active connection ends and is no longer there for the second update
    intro row hrow
    by_cases hactive : row.status = .active
    · refine ⟨_, Table.mem_update_of_not (Table.set_mem_update hrow (decide_eq_true hactive)) ?_,
        .inr (moved_endedAs (hactive ▸ .expired))⟩
      simp [ConnectionRow.endedAs]
    · have hkept : row ∈ Table.update (fun row => row.status = .active)
          (ConnectionRow.endedAs .expired appliedAtUnixS) s.connections :=
        Table.mem_update_of_not hrow (decide_eq_false hactive)
      by_cases hpending : row.status = .pending
      · exact ⟨_, Table.set_mem_update hkept (decide_eq_true hpending),
          .inr (moved_endedAs (hpending ▸ .denied))⟩
      · exact ⟨row, Table.mem_update_of_not hkept (decide_eq_false hpending), .inl rfl⟩
  next =>
    split
    next =>
      refine ⟨?_, fun _ _ => rfl, fun _ _ _ => rfl, .refl fun _ => .inl rfl⟩
      refine connections_carried fun row _ hmatch => moved_endedAs ?_
      exact (of_decide_eq_true hmatch).1 ▸ .expired
    next => exact .refl s

end Steps

/-- Every event makes at most one move of each connection. -/
theorem Progresses.perform (codec : EventCodec) (system : System) (event : Event) :
    Progresses ConnectionStatus.Moves system.store (system.perform codec event).store := by
  refine System.perform_sessions
    (P := fun after => Progresses ConnectionStatus.Moves system.store after.store) event (.refl _)
    ?_ ?_
  · intro operation s₁ s' _ hstep hview
    have h := hstep.progresses
    have hconnections : s'.connections = s₁.connections := (congrArg Store.connections hview :)
    have hpermissions : s'.permissions = s₁.permissions := (congrArg Store.permissions hview :)
    have hdecisions : s'.decisions = s₁.decisions := (congrArg Store.decisions hview :)
    have hsets : ∀ id scope, permissionsOf s' id scope = permissionsOf s₁ id scope := by
      intro id scope
      unfold permissionsOf
      rw [hpermissions]
    refine ⟨hconnections ▸ h.connections, ?_, ?_, hdecisions ▸ h.decisions⟩
    · intro row hrow
      rw [hsets, h.requested row hrow]
    · intro row hrow hstatus
      rw [hsets, h.granted row hrow hstatus]
  · intro candidate appliedAtUnixS bindings _ _
    have h : Progresses ConnectionStatus.Moves system.store
        (system.store.reconfigured system.config candidate appliedAtUnixS) := .reconfigured
    exact ⟨h.connections, h.requested, h.granted, h.decisions⟩

/-- Along a run the connections and the decisions are carried on. -/
theorem Progresses.run (codec : EventCodec) (system : System) (events : List Event) :
    Progresses (Relation.TransGen ConnectionStatus.Moves) system.store
      (Run.after (System.perform codec) system events).store := by
  refine Run.related (I := fun _ : System => True)
    (R := fun before after : System =>
      Progresses (Relation.TransGen ConnectionStatus.Moves) before.store after.store)
    (fun system => .refl system.store) .trans (fun _ _ _ => trivial) ?_ trivial events
  intro system event _
  exact (Progresses.perform codec system event).mono .single

/-! ## Every row can be read -/

/-- What the readers accept. -/
structure LifecycleInv (s : Store) : Prop where
  decisions : DecisionInv s
  connections : ∀ row ∈ s.connections, ∃ record, readConnection s row.connectionId = .ok record
  challenges : ∀ row ∈ s.challenges, challengeReadable row = true

namespace LifecycleInv

variable {s s' : Store}

theorem initial (metadata : PersistedMetadata) (appliedAtUnixS : ℕ) :
    LifecycleInv (Store.initial metadata appliedAtUnixS) where
  decisions := .initial metadata appliedAtUnixS
  connections := by simp [Store.initial]
  challenges := by simp [Store.initial]

theorem readable (inv : LifecycleInv s) : ReadableInv s :=
  ⟨inv.decisions.session, inv.connections, inv.challenges⟩

/-- The invariant only reads the session view. -/
theorem of_view (inv : LifecycleInv s) (h : s'.sessionView = s.sessionView) : LifecycleInv s' :=
  have hreadable := inv.readable.of_view h
  ⟨inv.decisions.of_view h, hreadable.connections, hreadable.challenges⟩

/-- Every operation leaves rows that can be read. -/
theorem step {config : Configuration} {operation : Operation} {s₁ : Store} (inv : LifecycleInv s)
    (h : SessionStep config s operation s₁) : LifecycleInv s₁ :=
  have hreadable := inv.readable.step h
  ⟨inv.decisions.step h, hreadable.connections, hreadable.challenges⟩

end LifecycleInv

/-- Every connection, every decision of a connect request and every challenge passes its reader,
and every grant was asked for. -/
structure LifecycleReads (s : Store) : Prop where
  connections : ∀ row ∈ s.connections, ∃ record, readConnection s row.connectionId = .ok record
  decisions : ∀ request ∈ s.requests, request.method = .connect → ∀ row ∈ s.decisions,
    row.operationId = request.operationId → readDecision s row.operationId = .ok (some row) ∧
      ∃ record, decisionRecord s row.operationId row = .ok record
  challenges : ∀ row ∈ s.challenges, readChallenge s row.operationId = .ok (some row)
  granted : ∀ row ∈ s.permissions, row.permissionScope = .granted →
    { row with permissionScope := .requested } ∈ s.permissions

theorem LifecycleInv.reads {s : Store} (inv : LifecycleInv s) : LifecycleReads s where
  connections := inv.connections
  decisions := by
    intro request hrequest hconnect row hrow hid
    obtain ⟨hchecked, hrecorded⟩ :=
      inv.decisions.consistent.recorded request hrequest hconnect row hrow hid
    refine ⟨?_, hrecorded⟩
    have hrows := inv.decisions.session.decisions_unique.filter_eq_singleton hrow
    refine Except.bind_eq_ok_iff.mpr ⟨some row, atMostOneRow_eq_some.mpr hrows, ?_⟩
    exact Except.bind_eq_ok_iff.mpr ⟨(), Except.require_eq_ok.mpr hchecked, rfl⟩
  challenges := fun row hrow => inv.readable.read_challenge hrow
  granted := by
    rintro ⟨connectionId, scope, permission⟩ hrow hscope
    obtain rfl : scope = .granted := hscope
    obtain ⟨connection, hconnection, hid⟩ := inv.decisions.session.permission_owned _ hrow
    obtain rfl : connection.connectionId = connectionId := hid
    obtain ⟨record, hread⟩ := inv.connections connection hconnection
    obtain ⟨row, requested, granted, h⟩ := readConnection_eq_ok hread
    have hsubset : granted.isSubsetOf requested = true := by
      have hreadable := h.readable
      simp only [connectionReadable, Bool.not_eq_true', Bool.or_eq_false_iff] at hreadable
      simpa using hreadable.1.1.1.1.2
    have hgranted := (readPermissions_eq_ok h.granted_read permission).mpr
      (mem_permissionsOf.mpr hrow)
    exact mem_permissionsOf.mp ((readPermissions_eq_ok h.requested_read permission).mp
      (PermissionSet.isSubsetOf_iff.mp hsubset permission hgranted))

/-! ## Runs -/

/-- The event leaves the configuration. -/
def Event.isOperation : Event → Bool
  | .operation _ => true
  | .apply .. => false

theorem LifecycleInv.perform {codec : EventCodec} {system : System}
    (inv : LifecycleInv system.store) {event : Event} (hevent : event.isOperation = true) :
    LifecycleInv (system.perform codec event).store := by
  refine System.perform_sessions (P := fun system => LifecycleInv system.store) event inv ?_ ?_
  · intro operation s₁ s' _ hstep hview
    exact (inv.step hstep).of_view (sessionView_of_governance hview)
  · rintro candidate appliedAtUnixS bindings rfl
    cases hevent

/-- What the operations reach while the configuration stays. -/
def System.operated (codec : EventCodec) (config : Configuration) (appliedAtUnixS : ℕ)
    (operations : List Operation) : System :=
  Run.after (System.perform codec) (.initial config appliedAtUnixS) (operations.map .operation)

theorem lifecycleInv_operated (codec : EventCodec) (config : Configuration) (appliedAtUnixS : ℕ)
    (operations : List Operation) :
    LifecycleInv (System.operated codec config appliedAtUnixS operations).store := by
  have hoperations : Run.EveryStep (System.perform codec)
      (fun _ event => event.isOperation = true) (.initial config appliedAtUnixS)
      (operations.map .operation) := by
    generalize System.initial config appliedAtUnixS = system
    induction operations generalizing system with
    | nil => trivial
    | cons operation operations ih => exact ⟨rfl, ih _⟩
  exact Run.invariant (I := fun system : System => LifecycleInv system.store)
    (fun _ _ inv hevent => inv.perform hevent) (.initial config.metadata appliedAtUnixS) hoperations

/-- While the configuration stays, every reachable connection, connect decision and challenge can
be read and no grant exceeds what was asked for; an operation makes at most one move of a
connection; and along any run connections move forward only, no update goes back in time,
grants stay from activation on, and a settled decision never changes. -/
theorem connection_lifecycle (codec : EventCodec) (config : Configuration) (appliedAtUnixS : ℕ)
    (operations : List Operation) :
    let reached := System.operated codec config appliedAtUnixS
    LifecycleReads (reached operations).store ∧
      (∀ operation, Progresses ConnectionStatus.Moves (reached operations).store
        (reached (operations ++ [operation])).store) ∧
      ∀ later, Progresses (Relation.TransGen ConnectionStatus.Moves)
        (reached operations).store (reached (operations ++ later)).store := by
  intro reached
  have hlater : ∀ later, reached (operations ++ later) =
      Run.after (System.perform codec) (reached operations) (later.map .operation) := by
    intro later
    simp only [reached, System.operated, List.map_append, Run.after_append]
  refine ⟨(lifecycleInv_operated codec config appliedAtUnixS operations).reads, ?_, ?_⟩
  · intro operation
    rw [hlater]
    exact Progresses.perform codec (reached operations) (.operation operation)
  · intro later
    rw [hlater]
    exact Progresses.run codec (reached operations) (later.map .operation)

end MycSigner
