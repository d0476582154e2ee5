import MycSigner.Sessions.Ceiling
import MycSigner.Sessions.Challenges

/-!
# Decisions beside the connections and challenges they are about

Every operation that moves a connection or a challenge moves its decision in the same
transaction, so the readers find the two in agreement.  Applying a configuration ends
connections and challenges in bulk and does not touch the decisions: the agreement survives
only when it finds nothing pending to end.
-/

namespace MycSigner

/-- The decision that belongs to the state of a challenge. -/
def ChallengeState.agrees : ChallengeState → Decision → Bool
  | .pending, .challenged | .authorized, .allowed | .expired, .denied => true
  | _, _ => false

/-- The record of a decision can be read. -/
def Recorded (s : Store) (decision : DecisionRow) : Prop :=
  ∃ record, decisionRecord s decision.operationId decision = .ok record

/-- The decision of every connect request can be read, and every challenge agrees with the
decision of its operation. -/
structure DecisionsConsistent (s : Store) : Prop where
  recorded : ∀ request ∈ s.requests, request.method = .connect → ∀ decision ∈ s.decisions,
    decision.operationId = request.operationId → decisionCheck decision = true ∧ Recorded s decision
  agreed : ∀ challenge ∈ s.challenges, ∀ decision ∈ s.decisions,
    decision.operationId = challenge.operationId → challenge.state.agrees decision.decision = true

/-- Applying the candidate would end nothing that waits for a decision: with a changed
identity nothing is pending, with a narrower ceiling no pending challenge belongs to a
connection that asked for more. -/
def Event.keepsDecisions (system : System) : Event → Bool
  | .operation _ => true
  | .apply candidate _ =>
      decide (candidate.metadata = system.config.metadata) ||
        if identitiesChanged system.config.metadata candidate.metadata then
          (system.store.connections.all fun row => row.status != .pending) &&
            system.store.challenges.all fun row => row.state != .pending
        else if permissionsNarrowed system.config candidate then
          system.store.challenges.all fun row => row.state != .pending ||
            !exceedsCeiling system.store candidate.connection.permissionCeiling .requested
              row.connectionId
        else true

/-! ## Reading a decision -/

/-- What a decision record says about the store. -/
structure ReadsDecision (s : Store) (decision : DecisionRow)
    (connection : Option ConnectionRecord) : Prop where
  connection_read : decisionConnection s decision = .ok connection
  digest : ∀ record ∈ connection,
    record.requestedPermissions.digest = decision.requestedPermissionsSha256
  unchallenged : decision.challengeId = none
  state : decisionStateMatches decision.reasonCode.admissionPolicy decision.decision
    connection = true

theorem Recorded.reads {s : Store} {decision : DecisionRow} (h : Recorded s decision) :
    ∃ connection, ReadsDecision s decision connection := by
  obtain ⟨record, h⟩ := h
  unfold decisionRecord at h
  obtain ⟨connection, hconnection, h⟩ := Except.bind_eq_ok_iff.mp h
  obtain ⟨_, hbound, h⟩ := Except.bind_eq_ok_iff.mp h
  obtain ⟨_, hstate, h⟩ := Except.bind_eq_ok_iff.mp h
  have hbound := Except.require_eq_ok.mp hbound
  refine ⟨connection, hconnection, ?_, ?_, Except.require_eq_ok.mp hstate⟩
  · intro record hrecord
    by_contra hne
    exact hbound (.inl ((Option.any_eq_true _ _).mpr ⟨record, hrecord, bne_iff_ne.mpr hne⟩))
  · exact Option.not_isSome_iff_eq_none.mp fun hsome => hbound (.inr hsome)

theorem ReadsDecision.recorded {s : Store} {decision : DecisionRow}
    {connection : Option ConnectionRecord} (h : ReadsDecision s decision connection) :
    Recorded s decision := by
  refine ⟨⟨decision.operationId, connection, decision.decision, decision.policyGeneration,
    decision.decidedAt⟩, Except.bind_eq_ok_iff.mpr ⟨connection, h.connection_read, ?_⟩⟩
  refine Except.bind_eq_ok_iff.mpr ⟨(), Except.require_eq_ok.mpr ?_, ?_⟩
  · rintro (hany | hsome)
    · obtain ⟨record, hrecord, hne⟩ := (Option.any_eq_true _ _).mp hany
      exact bne_iff_ne.mp hne (h.digest record hrecord)
    · rw [h.unchallenged] at hsome
      cases hsome
  · exact Except.bind_eq_ok_iff.mpr ⟨(), Except.require_eq_ok.mpr h.state, rfl⟩

theorem ReadsDecision.of_connection {s : Store} {decision : DecisionRow}
    {connection : Option ConnectionRecord} (h : ReadsDecision s decision connection) {id : Id32}
    (hid : decision.connectionId = some id) :
    ∃ record, connection = some record ∧ readConnection s id = .ok record := by
  have hread := h.connection_read
  unfold decisionConnection at hread
  rw [hid] at hread
  cases hrecord : readConnection s id with
  | error e => simp [hrecord, Except.map] at hread
  | ok record =>
      simp only [hrecord, Except.map, Except.ok.injEq] at hread
      exact ⟨record, hread.symm, rfl⟩

theorem decisionConnection_of_read {s : Store} {decision : DecisionRow} {id : Id32}
    {record : ConnectionRecord} (hid : decision.connectionId = some id)
    (h : readConnection s id = .ok record) :
    decisionConnection s decision = .ok (some record) := by
  unfold decisionConnection
  rw [hid]
  simp [h, Except.map]

/-- A row with its permissions reads back when its key is unique. -/
theorem ReadsConnection.read {s : Store} {id : Id32} {record : ConnectionRecord}
    {row : ConnectionRow} {requested granted : PermissionSet}
    (hunique : Table.Unique ConnectionRow.connectionId s.connections)
    (h : ReadsConnection s id record row requested granted) : readConnection s id = .ok record := by
  have hrows : (s.connections.filter fun row => row.connectionId = id) = [row] := by
    have hfilter := hunique.filter_eq_singleton h.mem
    rw [h.id_eq] at hfilter
    exact hfilter
  refine Except.bind_eq_ok_iff.mpr ⟨row, oneRow_eq_ok.mpr hrows, ?_⟩
  refine Except.bind_eq_ok_iff.mpr ⟨requested, h.requested_read, ?_⟩
  refine Except.bind_eq_ok_iff.mpr ⟨granted, h.granted_read, ?_⟩
  refine Except.bind_eq_ok_iff.mpr ⟨(), Except.require_eq_ok.mpr h.readable, ?_⟩
  rw [h.record_eq]

/-- What a connection asked for is read from its permissions of that scope. -/
theorem requestedPermissions_eq {s s' : Store} {id : Id32} {before record : ConnectionRecord}
    (hbefore : readConnection s id = .ok before) (hread : readConnection s' id = .ok record)
    (hrequested : permissionsOf s' id .requested = permissionsOf s id .requested) :
    record.requestedPermissions = before.requestedPermissions := by
  obtain ⟨row, requested, granted, h⟩ := readConnection_eq_ok hbefore
  obtain ⟨row', requested', granted', h'⟩ := readConnection_eq_ok hread
  have hsame : readPermissions s' id .requested = readPermissions s id .requested := by
    unfold readPermissions
    rw [hrequested]
  have hset := (h'.requested_read.symm.trans hsame).trans h.requested_read
  rw [h.record_eq, h'.record_eq]
  exact Except.ok.inj hset

/-! ## Connections that continue -/

/-- The connection can still be read if it could, and may have ended if it was active. -/
def ContinuesAt (s s' : Store) (id : Id32) : Prop :=
  ∀ record, readConnection s id = .ok record → ∃ record', readConnection s' id = .ok record' ∧
    record'.requestedPermissions = record.requestedPermissions ∧
    (record'.status = record.status ∨ record.status = .active ∧ record'.status = .expired)

/-- Every connection continues. -/
def Continues (s s' : Store) : Prop := ∀ id, ContinuesAt s s' id

theorem ContinuesAt.of_eq {s s' : Store} {id : Id32}
    (h : readConnection s' id = readConnection s id) : ContinuesAt s s' id := by
  intro record hread
  exact ⟨record, h.trans hread, rfl, .inl rfl⟩

theorem Continues.of_tables {s s' : Store} (hconnections : s'.connections = s.connections)
    (hpermissions : s'.permissions = s.permissions) : Continues s s' := by
  intro id
  refine .of_eq ?_
  unfold readConnection readPermissions permissionsOf
  rw [hconnections, hpermissions]

/-- A decision beside an active connection is one beside an ended connection. -/
theorem decisionStateMatches_continues {policy : Option AdmissionPolicy} {decision : Decision}
    {record record' : ConnectionRecord}
    (h : decisionStateMatches policy decision (some record) = true)
    (hstatus : record'.status = record.status ∨
      record.status = .active ∧ record'.status = .expired) :
    decisionStateMatches policy decision (some record') = true := by
  cases policy with
  | none => simp [decisionStateMatches] at h
  | some policy =>
      cases policy <;> cases decision <;> simp [decisionStateMatches] at h ⊢
      all_goals grind

theorem Recorded.continues {s s' : Store} {decision : DecisionRow} (h : Recorded s decision)
    (hcontinues : ∀ id ∈ decision.connectionId, ContinuesAt s s' id) : Recorded s' decision := by
  obtain ⟨connection, hreads⟩ := h.reads
  cases hid : decision.connectionId with
  | none =>
      have hsame : decisionConnection s' decision = decisionConnection s decision := by
        unfold decisionConnection
        rw [hid]
      exact ReadsDecision.recorded ⟨hsame.trans hreads.connection_read, hreads.digest,
        hreads.unchallenged, hreads.state⟩
  | some id =>
      obtain ⟨record, rfl, hread⟩ := hreads.of_connection hid
      obtain ⟨record', hread', hrequested, hstatus⟩ := hcontinues id hid record hread
      refine ReadsDecision.recorded ⟨decisionConnection_of_read hid hread', ?_,
        hreads.unchallenged, decisionStateMatches_continues hreads.state hstatus⟩
      intro found hfound
      obtain rfl := Option.some.inj hfound
      rw [hrequested]
      exact hreads.digest record rfl

/-- A session that ended at a time. -/
def ConnectionRow.expiredOn (endedAt : TimeUnixMs) (row : ConnectionRow) : ConnectionRow :=
  { row with status := .expired, updatedAt := endedAt, authorizedUntil := none }

/-- An expired connection keeps its grants and has no limit. -/
theorem connectionReadable_expiredOn {row : ConnectionRow} {requested granted : PermissionSet}
    {endedAt : TimeUnixMs} (h : connectionReadable row requested granted = true)
    (hactive : row.status = .active) (hlater : row.updatedAt ≤ endedAt) :
    connectionReadable (row.expiredOn endedAt) requested granted = true := by
  have hcreated : ¬ endedAt < row.createdAt ∨ row.updatedAt < row.createdAt := by
    change ¬ endedAt.get < row.createdAt.get ∨ row.updatedAt.get < row.createdAt.get
    have hlater : row.updatedAt.get ≤ endedAt.get := hlater
    omega
  simp [connectionReadable, ConnectionRow.expiredOn, hactive] at h ⊢
  simp_all

/-- Ending active sessions no earlier than their last update lets every connection continue. -/
theorem Continues.of_ended {s : Store} {matching : ConnectionRow → Bool}
    (endedAt : ConnectionRow → TimeUnixMs)
    (hunique : Table.Unique ConnectionRow.connectionId s.connections)
    (hends : ∀ row ∈ s.connections, matching row = true →
      row.status = .active ∧ row.updatedAt ≤ endedAt row) :
    Continues s { s with
      connections := Table.update matching (fun row => row.expiredOn (endedAt row))
        s.connections } := by
  intro id record hread
  obtain ⟨row, requested, granted, h⟩ := readConnection_eq_ok hread
  have hunique' : Table.Unique ConnectionRow.connectionId
      (Table.update matching (fun row => row.expiredOn (endedAt row)) s.connections) :=
    hunique.update fun _ _ => rfl
  have honly : ∀ new ∈ Table.update matching (fun row => row.expiredOn (endedAt row)) s.connections,
      new.connectionId = id → ∀ other ∈ Table.update matching
        (fun row => row.expiredOn (endedAt row)) s.connections,
        other.connectionId = id → other = new :=
    fun new hnew hid other hother hother_id =>
      hunique'.eq_of_key_eq hother hnew (hother_id.trans hid.symm)
  by_cases hmatch : matching row = true
  · obtain ⟨hactive, hlater⟩ := hends row h.mem hmatch
    have hnew : row.expiredOn (endedAt row) ∈ Table.update matching
        (fun row => row.expiredOn (endedAt row)) s.connections := Table.set_mem_update h.mem hmatch
    refine ⟨_, ReadsConnection.read hunique' ⟨hnew, h.id_eq, honly _ hnew h.id_eq,
      h.requested_read, h.granted_read, connectionReadable_expiredOn h.readable hactive hlater,
      rfl⟩, ?_, ?_⟩
    · rw [h.record_eq]
      rfl
    · rw [h.record_eq]
      exact .inr ⟨hactive, rfl⟩
  · have hkept : row ∈ Table.update matching (fun row => row.expiredOn (endedAt row))
        s.connections := Table.mem_update_of_not h.mem (by simpa using hmatch)
    exact ⟨record, ReadsConnection.read hunique' ⟨hkept, h.id_eq, honly _ hkept h.id_eq,
      h.requested_read, h.granted_read, h.readable, h.record_eq⟩, rfl, .inl rfl⟩

/-- New permissions of one connection leave those of the others as they are. -/
theorem permissionsOf_append {s : Store} {permissions : List PermissionRow} {id read : Id32}
    (hpermissions : ∀ row ∈ permissions, row.connectionId = id) (hne : id ≠ read)
    (scope : PermissionScope) :
    permissionsOf { s with permissions := s.permissions ++ permissions } read scope =
      permissionsOf s read scope := by
  unfold permissionsOf
  rw [List.filter_append, (List.filter_eq_nil_iff (l := permissions)).mpr, List.append_nil]
  intro row hrow
  simp [hpermissions row hrow, hne]

/-- New connections under a fresh identity leave the others as they are. -/
theorem Continues.of_added {s : Store} {connections : List ConnectionRow}
    {permissions : List PermissionRow} {id : Id32}
    (hconnections : ∀ row ∈ connections, row.connectionId = id)
    (hpermissions : ∀ row ∈ permissions, row.connectionId = id)
    (hfresh : ∀ row ∈ s.connections, row.connectionId ≠ id) :
    Continues s { s with
      connections := s.connections ++ connections
      permissions := s.permissions ++ permissions } := by
  intro read record hread
  obtain ⟨row, requested, granted, hreads⟩ := readConnection_eq_ok hread
  have hne : id ≠ read := fun heq => hfresh row hreads.mem (hreads.id_eq.trans heq.symm)
  refine ContinuesAt.of_eq ?_ record hread
  have hrows : ((s.connections ++ connections).filter fun row => row.connectionId = read) =
      s.connections.filter fun row => row.connectionId = read := by
    rw [List.filter_append, (List.filter_eq_nil_iff (l := connections)).mpr, List.append_nil]
    intro row hrow
    simp [hconnections row hrow, hne]
  have hsets : ∀ scope, permissionsOf { s with
      connections := s.connections ++ connections
      permissions := s.permissions ++ permissions } read scope = permissionsOf s read scope :=
    permissionsOf_append hpermissions hne
  unfold readConnection readPermissions
  rw [hrows, hsets, hsets]

namespace AdmissionRequest

theorem connectionRows_named (request : AdmissionRequest) :
    ∀ row ∈ request.connectionRows, row.connectionId = request.connectionId := by
  intro row hrow
  unfold connectionRows at hrow
  split at hrow
  next => rw [List.mem_singleton.mp hrow]; rfl
  next => rw [List.mem_singleton.mp hrow]; rfl
  next => cases hrow

theorem permissionRows_named (request : AdmissionRequest) :
    ∀ row ∈ request.permissionRows, row.connectionId = request.connectionId := by
  intro row hrow
  unfold permissionRows at hrow
  split at hrow
  next =>
    rcases List.mem_append.mp hrow with hrow | hrow
    · exact (SessionInv.mem_permissionRows hrow).1
    · exact (SessionInv.mem_permissionRows hrow).1
  next => exact (SessionInv.mem_permissionRows hrow).1
  next => cases hrow

theorem decidedConnection_isSome (request : AdmissionRequest)
    (h : request.decidedConnection.isSome = true) :
    request.policy ≠ .denied ∧ request.decidedConnection = some request.connectionId := by
  unfold decidedConnection at h ⊢
  cases hpolicy : request.policy with
  | trusted => simp
  | explicitApproval => simp
  | denied => simp [hpolicy] at h

/-- The decision of an admission passes its own check. -/
theorem decisionCheck_new (request : AdmissionRequest) :
    decisionCheck (newAdmissionDecision request request.decidedConnection) = true := by
  unfold newAdmissionDecision decidedConnection
  cases request.policy with
  | trusted => rfl
  | explicitApproval => rfl
  | denied => rfl

end AdmissionRequest

/-- An admission leaves every connection that is there as it is. -/
theorem Admits.continues {config : Configuration} {s : Store} {request : AdmissionRequest}
    (guard : Admits config s request) : Continues s (s.admitted request) := by
  by_cases hpolicy : request.policy = .denied
  · refine Continues.of_tables ?_ ?_
    · simp [Store.admitted, AdmissionRequest.connectionRows, hpolicy]
    · simp [Store.admitted, AdmissionRequest.permissionRows, hpolicy]
  · exact Continues.of_added request.connectionRows_named request.permissionRows_named
      (guard.fresh hpolicy)

theorem Continues.of_endSession {s : Store} {connectionId : Id32} {generation : PolicyGeneration}
    {observedAt : TimeUnixMs} {limited : ConnectionRow → Bool}
    (hunique : Table.Unique ConnectionRow.connectionId s.connections)
    (hlater : ∀ row ∈ s.connections, row.connectionId = connectionId → row.updatedAt ≤ observedAt) :
    Continues s (s.ended connectionId generation observedAt limited) := by
  refine Continues.of_ended (fun _ => observedAt) hunique ?_
  intro row hrow hmatch
  obtain ⟨hid, hactive, -⟩ := of_decide_eq_true hmatch
  exact ⟨hactive, hlater row hrow hid⟩

/-- Settling a pending connection leaves the others as they are. -/
theorem readConnection_settled {s : Store} {id read : Id32} {generation : PolicyGeneration}
    {observedAt : TimeUnixMs} {status : ConnectionStatus} {authorizedUntil : Option TimeUnixMs}
    (hne : id ≠ read) :
    readConnection (s.settled id generation observedAt status authorizedUntil) read =
      readConnection s read := by
  have hrows : ((s.settled id generation observedAt status authorizedUntil).connections.filter
      fun row => row.connectionId = read) = s.connections.filter fun row => row.connectionId = read := by
    refine Table.filter_update_of_disjoint _ ?_
    intro row hrow
    have hid := (of_decide_eq_true hrow).1
    simp [hid, hne]
  unfold readConnection
  rw [hrows]
  rfl

theorem readConnection_granted {s : Store} {id read : Id32} {set : PermissionSet}
    (hne : id ≠ read) : readConnection (s.granted id set) read = readConnection s read := by
  have hsets : ∀ scope, permissionsOf (s.granted id set) read scope =
      permissionsOf s read scope :=
    permissionsOf_append (fun row hrow => (SessionInv.mem_permissionRows hrow).1) hne
  unfold readConnection readPermissions
  rw [hsets, hsets]
  rfl

theorem permissionsOf_granted_requested {s : Store} {id read : Id32} {set : PermissionSet} :
    permissionsOf (s.granted id set) read .requested = permissionsOf s read .requested := by
  unfold permissionsOf Store.granted
  rw [List.filter_append, (List.filter_eq_nil_iff (l := permissionRows id .granted set)).mpr,
    List.append_nil]
  intro row hrow
  simp [(SessionInv.mem_permissionRows hrow).2.1]

theorem Decides.pending {s : Store} {operationId connectionId : Id32}
    {generation : PolicyGeneration} {observedAt : TimeUnixMs}
    (guard : Decides s operationId connectionId generation observedAt) :
    ∀ row ∈ s.connections, row.connectionId = connectionId →
      row.status = .pending ∧ row.policyGeneration = generation := by
  intro row hrow hid
  obtain ⟨waiting, hwaiting, hwaitingId, hpending, hgeneration, -⟩ := guard.connection
  rw [guard.only row hrow waiting hwaiting hid hwaitingId]
  exact ⟨hpending, hgeneration⟩

/-- A pending connection that is settled reads back in its new status. -/
theorem settled_status {s s' : Store} {id : Id32} {generation : PolicyGeneration}
    {observedAt : TimeUnixMs} {status : ConnectionStatus} {authorizedUntil : Option TimeUnixMs}
    {record : ConnectionRecord}
    (hpending : ∀ row ∈ s.connections, row.connectionId = id →
      row.status = .pending ∧ row.policyGeneration = generation)
    (h : readConnection s' id = .ok record)
    (hconnections : s'.connections =
      (s.settled id generation observedAt status authorizedUntil).connections) :
    record.status = status := by
  obtain ⟨row, requested, granted, hreads⟩ := readConnection_eq_ok h
  obtain rfl := hreads.record_eq
  have hmem := hreads.mem
  have hid := hreads.id_eq
  rw [hconnections] at hmem
  obtain ⟨old, hold, rfl⟩ := Table.mem_update.mp hmem
  simp only [apply_ite ConnectionRow.connectionId, ite_self] at hid
  obtain ⟨hstatus, hgeneration⟩ := hpending old hold hid
  simp [ConnectionRow.record, hid, hstatus, hgeneration]

/-! ## The invariant -/

/-- No two decisions without a challenge name the same connection. -/
def NamedOnce (decisions : List DecisionRow) : Prop :=
  ∀ left ∈ decisions, ∀ right ∈ decisions, left.challengeId = none → right.challengeId = none →
    left.connectionId.isSome = true → left.connectionId = right.connectionId → left = right

theorem NamedOnce.update {decisions : List DecisionRow} {matching : DecisionRow → Bool}
    {set : DecisionRow → DecisionRow} (h : NamedOnce decisions)
    (hchallenge : ∀ row, (set row).challengeId = row.challengeId)
    (hconnection : ∀ row, (set row).connectionId = row.connectionId) :
    NamedOnce (Table.update matching set decisions) := by
  intro left hleft right hright hnone₁ hnone₂ hsome heq
  obtain ⟨first, hfirst, rfl⟩ := Table.mem_update.mp hleft
  obtain ⟨second, hsecond, rfl⟩ := Table.mem_update.mp hright
  simp only [apply_ite DecisionRow.challengeId, apply_ite DecisionRow.connectionId, hchallenge,
    hconnection, ite_self] at hnone₁ hnone₂ hsome heq
  rw [h first hfirst second hsecond hnone₁ hnone₂ hsome heq]

/-- What the decisions satisfy beside the session tables. -/
structure DecisionInv (s : Store) : Prop where
  session : SessionInv s
  checked : ∀ decision ∈ s.decisions, decisionCheck decision = true
  challenge_known : ∀ decision ∈ s.decisions, decision.challengeId.isSome = true →
    ∃ challenge ∈ s.challenges, challenge.operationId = decision.operationId
  recorded : ∀ decision ∈ s.decisions, decision.challengeId = none → Recorded s decision
  named_once : NamedOnce s.decisions
  agreed : ∀ challenge ∈ s.challenges, ∀ decision ∈ s.decisions,
    decision.operationId = challenge.operationId → challenge.state.agrees decision.decision = true

namespace DecisionInv

variable {s : Store}

theorem initial (metadata : PersistedMetadata) (appliedAtUnixS : ℕ) :
    DecisionInv (Store.initial metadata appliedAtUnixS) where
  session := .initial metadata appliedAtUnixS
  checked := by simp [Store.initial]
  challenge_known := by simp [Store.initial]
  recorded := by simp [Store.initial]
  named_once := by simp [NamedOnce, Store.initial]
  agreed := by simp [Store.initial]

/-- The decision of a connect request names no challenge. -/
theorem unchallenged_of_connect (inv : DecisionInv s) {request : RequestRow}
    (hrequest : request ∈ s.requests) (hconnect : request.method = .connect)
    {decision : DecisionRow} (hdecision : decision ∈ s.decisions)
    (hid : decision.operationId = request.operationId) : decision.challengeId = none := by
  by_contra hsome
  obtain ⟨challenge, hchallenge, hop⟩ := inv.challenge_known decision hdecision
    (Option.isSome_iff_ne_none.mpr hsome)
  exact inv.session.unchallenged_of_connect hrequest hconnect challenge hchallenge (hop.trans hid)

theorem consistent (inv : DecisionInv s) : DecisionsConsistent s where
  recorded := by
    intro request hrequest hconnect decision hdecision hid
    have hnone := inv.unchallenged_of_connect hrequest hconnect hdecision hid
    exact ⟨inv.checked decision hdecision, inv.recorded decision hdecision hnone⟩
  agreed := inv.agreed

/-- A decision that waits for the operator names no challenge. -/
theorem unchallenged_of_pending (inv : DecisionInv s) {decision : DecisionRow}
    (hdecision : decision ∈ s.decisions) (hpending : decision.decision = .pendingApproval) :
    decision.challengeId = none := by
  by_contra hsome
  obtain ⟨challenge, hchallenge, hop⟩ := inv.challenge_known decision hdecision
    (Option.isSome_iff_ne_none.mpr hsome)
  obtain ⟨other, hother, hagrees⟩ := inv.session.challenge_decided challenge hchallenge
  obtain rfl := inv.session.decisions_unique.eq_of_key_eq hother hdecision
    (hagrees.operation.trans hop)
  exact hagrees.not_pendingApproval hpending

/-- Connections that continue carry their decisions along. -/
theorem continues {s' : Store} (inv : DecisionInv s) (session : SessionInv s')
    (hcontinues : Continues s s') (hdecisions : s'.decisions = s.decisions)
    (hchallenges : s'.challenges = s.challenges) : DecisionInv s' where
  session := session
  checked := hdecisions ▸ inv.checked
  challenge_known := hdecisions ▸ hchallenges ▸ inv.challenge_known
  recorded := by
    rw [hdecisions]
    intro decision hdecision hnone
    exact (inv.recorded decision hdecision hnone).continues fun id _ => hcontinues id
  named_once := hdecisions ▸ inv.named_once
  agreed := hdecisions ▸ hchallenges ▸ inv.agreed

/-- The invariant only reads the session view. -/
theorem of_view {s' : Store} (inv : DecisionInv s) (h : s'.sessionView = s.sessionView) :
    DecisionInv s' := by
  have hdecisions : s'.decisions = s.decisions := (congrArg Store.decisions h :)
  have hchallenges : s'.challenges = s.challenges := (congrArg Store.challenges h :)
  have hcontinues : Continues s s' :=
    .of_tables (congrArg Store.connections h :) (congrArg Store.permissions h :)
  exact inv.continues (inv.session.of_view h) hcontinues hdecisions hchallenges

/-! ### The steps -/

theorem admitted {config : Configuration} {request : AdmissionRequest} (inv : DecisionInv s)
    (guard : Admits config s request) : DecisionInv (s.admitted request) := by
  have hcontinues : Continues s (s.admitted request) := guard.continues
  have hunnamed : request.decidedConnection.isSome = true → ∀ decision ∈ s.decisions,
      decision.challengeId = none → decision.connectionId ≠ request.decidedConnection := by
    intro hsome decision hdecision hnone heq
    obtain ⟨hpolicy, hnamed⟩ := request.decidedConnection_isSome hsome
    obtain ⟨connection, hreads⟩ := (inv.recorded decision hdecision hnone).reads
    obtain ⟨record, -, hread⟩ := hreads.of_connection (heq.trans hnamed)
    obtain ⟨row, requested, granted, hrow⟩ := readConnection_eq_ok hread
    exact guard.fresh hpolicy row hrow.mem hrow.id_eq
  exact {
    session := inv.session.admitted guard
    checked := by
      intro decision hdecision
      rcases List.mem_append.mp hdecision with hold | hnew
      · exact inv.checked decision hold
      · rw [List.mem_singleton.mp hnew]
        exact request.decisionCheck_new
    challenge_known := by
      intro decision hdecision hsome
      rcases List.mem_append.mp hdecision with hold | hnew
      · exact inv.challenge_known decision hold hsome
      · rw [List.mem_singleton.mp hnew] at hsome
        cases hsome
    recorded := by
      intro decision hdecision hnone
      rcases List.mem_append.mp hdecision with hold | hnew
      · exact (inv.recorded decision hold hnone).continues fun id _ => hcontinues id
      · rw [List.mem_singleton.mp hnew]
        exact guard.reads
    named_once := by
      intro left hleft right hright hnone₁ hnone₂ hsome heq
      rcases List.mem_append.mp hleft with hleft | hleft
      · rcases List.mem_append.mp hright with hright | hright
        · exact inv.named_once left hleft right hright hnone₁ hnone₂ hsome heq
        · rw [List.mem_singleton.mp hright] at heq
          have hsome : request.decidedConnection.isSome = true := (congrArg Option.isSome heq) ▸ hsome
          exact absurd heq (hunnamed hsome left hleft hnone₁)
      · rcases List.mem_append.mp hright with hright | hright
        · rw [List.mem_singleton.mp hleft] at heq hsome
          exact absurd heq.symm (hunnamed hsome right hright hnone₂)
        · rw [List.mem_singleton.mp hleft, List.mem_singleton.mp hright]
    agreed := by
      intro challenge hchallenge decision hdecision hid
      rcases List.mem_append.mp hdecision with hold | hnew
      · exact inv.agreed challenge hchallenge decision hold hid
      · obtain ⟨known, hknown, hagrees⟩ := inv.session.challenge_decided challenge hchallenge
        rw [List.mem_singleton.mp hnew] at hid
        exact absurd (hagrees.operation.trans hid.symm) (guard.undecided known hknown) }

/-- The operator's decision settles its connection and the one decision that names it. -/
theorem settledBy {s' : Store} {operationId connectionId : Id32} {generation : PolicyGeneration}
    {observedAt : TimeUnixMs} {decision : Decision} {reason : DecisionReason}
    {status : ConnectionStatus} (inv : DecisionInv s) (session : SessionInv s')
    (guard : Decides s operationId connectionId generation observedAt)
    (hothers : ∀ id, connectionId ≠ id → readConnection s' id = readConnection s id)
    (hsettled : ∃ record, readConnection s' connectionId = .ok record ∧ record.status = status)
    (hrequested : permissionsOf s' connectionId .requested = permissionsOf s connectionId .requested)
    (hstate : (decision = .allowed ∧ reason = .operatorApproved ∧ status = .active) ∨
      (decision = .denied ∧ reason = .operatorDenied ∧ status = .denied))
    (hdecisions : s'.decisions =
      (s.decided operationId connectionId generation observedAt decision reason).decisions)
    (hchallenges : s'.challenges = s.challenges) : DecisionInv s' := by
  obtain ⟨waiting, hwaiting, hwaitingId, hwaitingConnection, hwaitingDecision,
    hwaitingGeneration⟩ := guard.decision
  have hwaitingNone := inv.unchallenged_of_pending hwaiting hwaitingDecision
  exact {
    session := session
    checked := by
      rw [hdecisions]
      intro row hrow
      obtain ⟨old, hold, rfl⟩ := Table.mem_update.mp hrow
      split
      next hmatch =>
        obtain ⟨-, hnamed, hpending, -⟩ := of_decide_eq_true hmatch
        have hnone := inv.unchallenged_of_pending hold hpending
        rcases hstate with ⟨rfl, rfl, -⟩ | ⟨rfl, rfl, -⟩
        · simp [decisionCheck, hnamed, hnone]
        · simp [decisionCheck, hnamed, hnone]
      next => exact inv.checked old hold
    challenge_known := by
      rw [hdecisions, hchallenges]
      intro row hrow hsome
      obtain ⟨old, hold, rfl⟩ := Table.mem_update.mp hrow
      split at hsome
      next hmatch =>
        rw [if_pos hmatch]
        exact inv.challenge_known old hold hsome
      next hmatch =>
        rw [if_neg hmatch]
        exact inv.challenge_known old hold hsome
    recorded := by
      rw [hdecisions]
      intro row hrow hnone
      obtain ⟨old, hold, rfl⟩ := Table.mem_update.mp hrow
      split at hnone
      next hmatch =>
        rw [if_pos hmatch]
        obtain ⟨-, hnamed, hpending, -⟩ := of_decide_eq_true hmatch
        obtain ⟨connection, hreads⟩ := (inv.recorded old hold hnone).reads
        obtain ⟨before, rfl, hbefore⟩ := hreads.of_connection hnamed
        obtain ⟨record, hread, hstatus⟩ := hsettled
        have hsame := requestedPermissions_eq hbefore hread hrequested
        refine ReadsDecision.recorded ⟨decisionConnection_of_read hnamed hread, ?_, hnone, ?_⟩
        · intro found hfound
          obtain rfl := Option.some.inj hfound
          rw [hsame]
          exact hreads.digest before rfl
        · rcases hstate with ⟨rfl, rfl, rfl⟩ | ⟨rfl, rfl, rfl⟩
          · simp [decisionStateMatches, DecisionReason.admissionPolicy, hstatus]
          · simp [decisionStateMatches, DecisionReason.admissionPolicy, hstatus]
      next hmatch =>
        rw [if_neg hmatch]
        refine (inv.recorded old hold hnone).continues fun id hid => .of_eq (hothers id ?_)
        -- a second decision naming the connection would be the waiting one
        rintro rfl
        refine hmatch ?_
        obtain rfl := inv.named_once old hold waiting hwaiting hnone hwaitingNone
          (by simp [Option.mem_def.mp hid]) (hid.trans hwaitingConnection.symm)
        simp [hwaitingId, hwaitingConnection, hwaitingDecision, hwaitingGeneration]
    named_once := by
      rw [hdecisions]
      exact inv.named_once.update (fun _ => rfl) fun _ => rfl
    agreed := by
      rw [hdecisions, hchallenges]
      intro challenge hchallenge row hrow hid
      obtain ⟨old, hold, rfl⟩ := Table.mem_update.mp hrow
      split at hid
      next hmatch =>
        obtain ⟨-, -, hpending, -⟩ := of_decide_eq_true hmatch
        have hagrees := inv.agreed challenge hchallenge old hold hid
        rw [hpending] at hagrees
        cases hstate : challenge.state with
        | pending => simp [hstate, ChallengeState.agrees] at hagrees
        | authorized => simp [hstate, ChallengeState.agrees] at hagrees
        | expired => simp [hstate, ChallengeState.agrees] at hagrees
      next hmatch =>
        rw [if_neg hmatch]
        exact inv.agreed challenge hchallenge old hold hid }

theorem approved {operationId connectionId : Id32} {generation : PolicyGeneration}
    {observedAt : TimeUnixMs} {set : PermissionSet} {authorizedUntil : Option TimeUnixMs}
    (inv : DecisionInv s) (guard : Decides s operationId connectionId generation observedAt)
    (hreads : ∃ record, readConnection (s.approved operationId connectionId generation observedAt
      set authorizedUntil) connectionId = .ok record) :
    DecisionInv (s.approved operationId connectionId generation observedAt set authorizedUntil) := by
  refine inv.settledBy (inv.session.approved guard) guard ?_ ?_ ?_ (.inl ⟨rfl, rfl, rfl⟩) rfl rfl
  · intro id hne
    exact (readConnection_settled hne).trans (readConnection_granted hne)
  · obtain ⟨record, hread⟩ := hreads
    exact ⟨record, hread, settled_status guard.pending hread rfl⟩
  · exact permissionsOf_granted_requested

theorem denied {operationId connectionId : Id32} {generation : PolicyGeneration}
    {observedAt : TimeUnixMs} (inv : DecisionInv s)
    (guard : Decides s operationId connectionId generation observedAt)
    (hreads : ∃ record, readConnection (s.denied operationId connectionId generation observedAt)
      connectionId = .ok record) :
    DecisionInv (s.denied operationId connectionId generation observedAt) := by
  refine inv.settledBy inv.session.denied guard ?_ ?_ rfl (.inr ⟨rfl, rfl, rfl⟩) rfl rfl
  · intro id hne
    exact readConnection_settled hne
  · obtain ⟨record, hread⟩ := hreads
    exact ⟨record, hread, settled_status guard.pending hread rfl⟩

theorem ended {connectionId : Id32} {generation : PolicyGeneration} {observedAt : TimeUnixMs}
    {limited : ConnectionRow → Bool} (inv : DecisionInv s)
    (hlater : ∀ row ∈ s.connections, row.connectionId = connectionId → row.updatedAt ≤ observedAt) :
    DecisionInv (s.ended connectionId generation observedAt limited) := by
  have hunique := inv.session.connections_unique
  exact inv.continues inv.session.ended (Continues.of_endSession hunique hlater) rfl rfl

theorem challenged {request : ChallengeRequest} {connection : ConnectionRecord}
    (inv : DecisionInv s) (guard : Issues s request) :
    DecisionInv (s.challenged request connection) where
  session := inv.session.challenged guard
  checked := by
    intro decision hdecision
    rcases List.mem_append.mp hdecision with hold | hnew
    · exact inv.checked decision hold
    · rw [List.mem_singleton.mp hnew]
      rfl
  challenge_known := by
    intro decision hdecision hsome
    rcases List.mem_append.mp hdecision with hold | hnew
    · obtain ⟨challenge, hchallenge, hid⟩ := inv.challenge_known decision hold hsome
      exact ⟨challenge, List.mem_append_left _ hchallenge, hid⟩
    · rw [List.mem_singleton.mp hnew]
      exact ⟨newChallengeRow request, by simp [Store.challenged], rfl⟩
  recorded := by
    intro decision hdecision hnone
    rcases List.mem_append.mp hdecision with hold | hnew
    · exact (inv.recorded decision hold hnone).continues fun _ _ => .of_eq rfl
    · rw [List.mem_singleton.mp hnew] at hnone
      cases hnone
  named_once := by
    intro left hleft right hright hnone₁ hnone₂
    rcases List.mem_append.mp hleft with hleft | hleft
    · rcases List.mem_append.mp hright with hright | hright
      · exact inv.named_once left hleft right hright hnone₁ hnone₂
      · rw [List.mem_singleton.mp hright] at hnone₂
        cases hnone₂
    · rw [List.mem_singleton.mp hleft] at hnone₁
      cases hnone₁
  agreed := by
    intro challenge hchallenge decision hdecision hid
    rcases List.mem_append.mp hchallenge with hchallenge | hchallenge
    · rcases List.mem_append.mp hdecision with hold | hnew
      · exact inv.agreed challenge hchallenge decision hold hid
      · rw [List.mem_singleton.mp hnew] at hid
        exact absurd hid.symm (guard.unchallenged challenge hchallenge).1
    · rw [List.mem_singleton.mp hchallenge] at hid ⊢
      rcases List.mem_append.mp hdecision with hold | hnew
      · exact absurd hid (guard.undecided decision hold)
      · rw [List.mem_singleton.mp hnew]
        rfl

theorem challengeResolved {challenge : ChallengeRow} {state : ChallengeState} {decision : Decision}
    {reason : DecisionReason} {observedAt : TimeUnixMs} (inv : DecisionInv s)
    (guard : Resolvable s challenge state decision reason) :
    DecisionInv (s.challengeResolved challenge state decision reason observedAt) where
  session := inv.session.challengeResolved guard
  checked := by
    intro row hrow
    obtain ⟨old, hold, rfl⟩ := Table.mem_update.mp hrow
    split
    next hmatch =>
      obtain ⟨-, hconnection, hnamed, -⟩ := of_decide_eq_true hmatch
      rcases guard.states with ⟨-, rfl, rfl⟩ | ⟨-, rfl, rfl⟩
      · simp [decisionCheck, hconnection, hnamed]
      · simp [decisionCheck, hconnection, hnamed]
    next => exact inv.checked old hold
  challenge_known := by
    intro row hrow hsome
    obtain ⟨old, hold, rfl⟩ := Table.mem_update.mp hrow
    have hsome : old.challengeId.isSome = true := by
      split at hsome
      next => exact hsome
      next => exact hsome
    obtain ⟨known, hknown, hid⟩ := inv.challenge_known old hold hsome
    refine ⟨_, Table.mem_update.mpr ⟨known, hknown, rfl⟩, ?_⟩
    simpa only [apply_ite ChallengeRow.operationId, apply_ite DecisionRow.operationId, ite_self]
      using hid
  recorded := by
    intro row hrow hnone
    obtain ⟨old, hold, rfl⟩ := Table.mem_update.mp hrow
    split at hnone
    next hmatch =>
      obtain ⟨-, -, hnamed, -⟩ := of_decide_eq_true hmatch
      rw [hnamed] at hnone
      cases hnone
    next hmatch =>
      rw [if_neg hmatch]
      exact (inv.recorded old hold hnone).continues fun _ _ => .of_eq rfl
  named_once := inv.named_once.update (fun _ => rfl) fun _ => rfl
  agreed := by
    intro row hrow decided hdecided hid
    obtain ⟨old, hold, rfl⟩ := Table.mem_update.mp hrow
    obtain ⟨before, hbefore, rfl⟩ := Table.mem_update.mp hdecided
    simp only [apply_ite ChallengeRow.operationId, apply_ite DecisionRow.operationId,
      ite_self] at hid
    by_cases hop : old.operationId = challenge.operationId
    · obtain rfl := inv.session.challenges_unique.eq_of_key_eq hold guard.challenge_mem hop
      obtain ⟨known, hknown, hagrees⟩ := inv.session.challenge_decided old hold
      obtain rfl := inv.session.decisions_unique.eq_of_key_eq hbefore hknown
        (hid.trans hagrees.operation.symm)
      simp only [guard.pending, hagrees.operation, hagrees.connection, hagrees.named,
        hagrees.generation, hagrees.pending guard.pending, and_self, decide_true, if_true]
      rcases guard.states with ⟨rfl, rfl, -⟩ | ⟨rfl, rfl, -⟩
      · rfl
      · rfl
    · have hagrees := inv.agreed old hold before hbefore hid
      simpa [hop, hid] using hagrees

theorem completed {request : ResponseCommitRequest} {policy : DeliveryPolicies}
    (inv : DecisionInv s) (guard : Completes s request) :
    DecisionInv (s.completed request policy) := by
  have heffect : DecisionInv (s.effected request.completion) := by
    have hlater := guard.later
    unfold Store.effected CommitRequest.effect
    split
    next hconnection _ _ => exact inv.ended (hlater _ hconnection)
    next => exact inv
  exact heffect.continues inv.session.completed (.of_tables rfl rfl) rfl rfl

/-- Every operation keeps the decisions beside what they are about. -/
theorem step {config : Configuration} {operation : Operation} {s₁ : Store} (inv : DecisionInv s)
    (h : SessionStep config s operation s₁) : DecisionInv s₁ := by
  cases h with
  | quiet => exact inv
  | requests hadmits =>
      refine inv.continues (inv.session.requests hadmits) (.of_tables ?_ ?_) ?_ ?_
      · exact (congrArg Store.connections hadmits.outside :)
      · exact (congrArg Store.permissions hadmits.outside :)
      · exact (congrArg Store.decisions hadmits.outside :)
      · exact (congrArg Store.challenges hadmits.outside :)
  | outbox houtside => exact inv.of_view (sessionView_of_outbox houtside)
  | connect guard => exact inv.admitted guard
  | approve _ guard hreads => exact inv.approved guard hreads
  | deny guard hreads => exact inv.denied guard hreads
  | finish _ hlater => exact inv.ended hlater
  | issue guard => exact inv.challenged guard
  | resolve guard => exact inv.challengeResolved guard
  | complete guard => exact inv.completed guard
  | answerPending guard =>
      exact inv.continues (inv.session.step (.answerPending guard)) (.of_tables rfl rfl) rfl rfl

/-- A changed identity that finds nothing pending only ends active sessions. -/
theorem identitiesEnded {appliedAtUnixS : ℕ} (inv : DecisionInv s)
    (session : SessionInv (s.identitiesEnded appliedAtUnixS))
    (hconnections : ∀ row ∈ s.connections, row.status ≠ .pending)
    (hchallenges : ∀ row ∈ s.challenges, row.state ≠ .pending) :
    DecisionInv (s.identitiesEnded appliedAtUnixS) := by
  have hended : Table.update (fun row => row.status = .pending)
      (ConnectionRow.endedAs .denied appliedAtUnixS)
      (Table.update (fun row => row.status = .active)
        (ConnectionRow.endedAs .expired appliedAtUnixS) s.connections) =
      Table.update (fun row => row.status = .active)
        (ConnectionRow.endedAs .expired appliedAtUnixS) s.connections := by
    refine Table.update_eq_self fun row hrow => ?_
    obtain ⟨old, hold, rfl⟩ := Table.mem_update.mp hrow
    split
    next => simp [ConnectionRow.endedAs]
    next => simpa using hconnections old hold
  refine inv.continues session ?_ rfl (Table.update_eq_self fun row hrow => ?_)
  · unfold Store.identitiesEnded
    rw [hended]
    refine Continues.of_ended (fun row => row.updatedAt.noEarlier appliedAtUnixS)
      inv.session.connections_unique fun row _ hmatch => ?_
    exact ⟨of_decide_eq_true hmatch, row.updatedAt.le_noEarlier appliedAtUnixS⟩
  · simpa using hchallenges row hrow

/-- A narrower ceiling that finds no pending challenge to expire only ends active sessions. -/
theorem narrowed {appliedAtUnixS : ℕ} {ceiling : PermissionSet} (inv : DecisionInv s)
    (session : SessionInv (s.narrowed appliedAtUnixS ceiling))
    (hchallenges : ∀ row ∈ s.challenges, row.state = .pending →
      exceedsCeiling s ceiling .requested row.connectionId = false) :
    DecisionInv (s.narrowed appliedAtUnixS ceiling) := by
  refine inv.continues session ?_ rfl (Table.update_eq_self fun row hrow => ?_)
  · refine Continues.of_ended (fun row => row.updatedAt.noEarlier appliedAtUnixS)
      inv.session.connections_unique fun row _ hmatch => ?_
    exact ⟨(of_decide_eq_true hmatch).1, row.updatedAt.le_noEarlier appliedAtUnixS⟩
  · refine decide_eq_false ?_
    rintro ⟨hpending, hexceeds⟩
    rw [hchallenges row hrow hpending] at hexceeds
    cases hexceeds

/-- Applying a configuration that finds nothing pending to end keeps the invariant. -/
theorem reconfigured {current candidate : Configuration} {appliedAtUnixS : ℕ}
    (inv : DecisionInv s) (hmetadata : candidate.metadata ≠ current.metadata)
    (hguard : (Event.apply candidate appliedAtUnixS).keepsDecisions ⟨current, s⟩ = true) :
    DecisionInv (s.reconfigured current candidate appliedAtUnixS) := by
  have hsession : SessionInv (s.reconfigured current candidate appliedAtUnixS) :=
    inv.session.reconfigured
  simp only [Event.keepsDecisions, hmetadata, decide_false, Bool.false_or] at hguard
  unfold Store.reconfigured at hsession ⊢
  split at hsession
  next hidentities =>
    rw [if_pos hidentities] at hguard ⊢
    simp only [Bool.and_eq_true, List.all_eq_true, bne_iff_ne] at hguard
    exact inv.identitiesEnded hsession hguard.1 hguard.2
  next hidentities =>
    rw [if_neg hidentities] at hguard ⊢
    split at hsession
    next hnarrowed =>
      rw [if_pos hnarrowed] at hguard ⊢
      refine inv.narrowed hsession fun row hrow hpending => ?_
      simpa [hpending] using List.all_eq_true.mp hguard row hrow
    next hnarrowed =>
      rw [if_neg hnarrowed]
      exact inv

theorem perform {codec : EventCodec} {system : System} (inv : DecisionInv system.store)
    (event : Event) (hguard : event.keepsDecisions system = true) :
    DecisionInv (system.perform codec event).store := by
  refine System.perform_sessions (P := fun system => DecisionInv system.store) event inv ?_ ?_
  · intro operation s₁ s' _ hstep hview
    exact (inv.step hstep).of_view (sessionView_of_governance hview)
  · intro candidate appliedAtUnixS bindings hevent hmetadata
    subst hevent
    exact (inv.reconfigured hmetadata hguard).of_view rfl

end DecisionInv

/-! ## Runs -/

/-- In every run in which no configuration that is applied ends a connection or a challenge that
waits for its decision, the decisions of connect requests can be read and challenges agree with
theirs. -/
theorem decisions_consistent_unless_pending_ended (codec : EventCodec) (config : Configuration)
    (appliedAtUnixS : ℕ) (events : List Event)
    (h : Run.EveryStep (System.perform codec) (Run.Changing (System.perform codec)
      fun system event => event.keepsDecisions system = true) (.initial config appliedAtUnixS)
      events) :
    DecisionsConsistent
      (Run.after (System.perform codec) (.initial config appliedAtUnixS) events).store := by
  have hinv := Run.invariant_changing (I := fun system : System => DecisionInv system.store)
    (fun _ event inv hguard => inv.perform event hguard) (.initial config.metadata appliedAtUnixS) h
  exact hinv.consistent

namespace SampleService

/-- The configuration under another transport identity. -/
def otherIdentityConfig : Configuration :=
  { config with metadata := { config.metadata with transportPublicKey := client } }

/-- The transport identity changes while a connection waits for its approval. -/
def identityChangedWhilePending : List Event :=
  [.operation (.admitRequest strangerConnect), .operation (.admitConnection strangerAdmission),
    .apply otherIdentityConfig 2]

end SampleService

open SampleService in
/-- The connection is denied and its decision still waits: the record cannot be read. -/
theorem pending_decision_unreadable :
    ¬ ∀ (codec : EventCodec) (config : Configuration) (appliedAtUnixS : ℕ) (events : List Event),
      DecisionsConsistent
        (Run.after (System.perform codec) (.initial config appliedAtUnixS) events).store := by
  intro h
  have hfacts :
      let s := (Run.after (System.perform codec) (.initial config 1)
        identityChangedWhilePending).store
      ∃ request ∈ s.requests, request.method = .connect ∧ ∃ decision ∈ s.decisions,
        decision.operationId = request.operationId ∧
        (decisionRecord s decision.operationId decision).isOk = false := by
    decide +kernel
  obtain ⟨request, hrequest, hconnect, decision, hdecision, hid, hfails⟩ := hfacts
  obtain ⟨-, record, hrecord⟩ := (h codec config 1 identityChangedWhilePending).recorded request
    hrequest hconnect decision hdecision hid
  rw [hrecord] at hfails
  cases hfails

open SampleService in
/-- A trusted session ended by a narrower ceiling keeps its decision. -/
theorem decisions_consistent_after_narrowing :
    DecisionsConsistent (Run.after (System.perform codec) (.initial config 1)
      (connects ++ [.apply narrowerConfig 2])).store := by
  have hsteps : Run.EveryStep (System.perform codec)
      (fun system event => event.keepsDecisions system = true) (.initial config 1)
      (connects ++ [.apply narrowerConfig 2]) := by
    decide +kernel
  exact decisions_consistent_unless_pending_ended codec config 1 _ hsteps.changing

end MycSigner
