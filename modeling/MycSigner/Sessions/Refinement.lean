import MycSigner.Sessions.Steps

/-!
# The operations refine the session steps

A successful read is inverted once for each reader.  Each operation is then taken apart once,
and its committed effect is one of the steps.
-/

namespace MycSigner

open Transaction

/-! ## Readers -/

theorem oneRow_eq_ok {α : Type} {rows : List α} {row : α} : oneRow rows = .ok row ↔ rows = [row] := by
  unfold oneRow
  split
  next other => simp
  next hrows =>
    constructor
    · intro h
      cases h
    · intro h
      exact absurd h (hrows row)

theorem atMostOneRow_eq_some {α : Type} {rows : List α} {row : α} :
    atMostOneRow rows = .ok (some row) ↔ rows = [row] := by
  unfold atMostOneRow
  split <;> simp

theorem atMostOneRow_eq_none {α : Type} {rows : List α} :
    atMostOneRow rows = .ok none ↔ rows = [] := by
  unfold atMostOneRow
  split <;> simp

/-- The only match of a query is a row of the table, and every match is that row. -/
theorem mem_of_filter_eq_singleton {α : Type} {rows : List α} {p : α → Bool} {row : α}
    (h : rows.filter p = [row]) :
    row ∈ rows ∧ p row = true ∧ ∀ other ∈ rows, p other = true → other = row := by
  have hmem : row ∈ rows.filter p := by
    rw [h]
    exact List.mem_singleton.mpr rfl
  refine ⟨(List.mem_filter.mp hmem).1, (List.mem_filter.mp hmem).2, ?_⟩
  intro other hother hp
  have hother' : other ∈ rows.filter p := List.mem_filter.mpr ⟨hother, hp⟩
  rw [h] at hother'
  exact List.mem_singleton.mp hother'

theorem readPermissions_eq_ok {s : Store} {connectionId : Id32} {scope : PermissionScope}
    {set : PermissionSet} (h : readPermissions s connectionId scope = .ok set)
    (permission : Permission) :
    permission ∈ set.permissions ↔ permission ∈ permissionsOf s connectionId scope := by
  unfold readPermissions at h
  obtain ⟨_, hlength, h⟩ := Except.bind_eq_ok_iff.mp h
  have hlength := Except.require_eq_ok.mp hlength
  have hnew := Except.ofOption_eq_ok.mp h
  have hall : (permissionsOf s connectionId scope).take 65 = permissionsOf s connectionId scope := by
    refine List.take_of_length_le ?_
    rw [List.length_take] at hlength
    omega
  rw [hall] at hnew
  exact PermissionSet.mem_of_new hnew permission

/-- What a connection record says about the store. -/
structure ReadsConnection (s : Store) (id : Id32) (record : ConnectionRecord)
    (row : ConnectionRow) (requested granted : PermissionSet) : Prop where
  mem : row ∈ s.connections
  id_eq : row.connectionId = id
  only : ∀ other ∈ s.connections, other.connectionId = id → other = row
  requested_read : readPermissions s id .requested = .ok requested
  granted_read : readPermissions s id .granted = .ok granted
  readable : connectionReadable row requested granted = true
  record_eq : record = row.record requested granted

theorem readConnection_eq_ok {s : Store} {id : Id32} {record : ConnectionRecord}
    (h : readConnection s id = .ok record) :
    ∃ row requested granted, ReadsConnection s id record row requested granted := by
  unfold readConnection at h
  obtain ⟨row, hrow, h⟩ := Except.bind_eq_ok_iff.mp h
  obtain ⟨requested, hrequested, h⟩ := Except.bind_eq_ok_iff.mp h
  obtain ⟨granted, hgranted, h⟩ := Except.bind_eq_ok_iff.mp h
  obtain ⟨_, hreadable, h⟩ := Except.bind_eq_ok_iff.mp h
  obtain ⟨hmem, hid, honly⟩ := mem_of_filter_eq_singleton (oneRow_eq_ok.mp hrow)
  refine ⟨row, requested, granted, hmem, of_decide_eq_true hid, ?_, hrequested, hgranted,
    Except.require_eq_ok.mp hreadable, (Except.ok.inj h).symm⟩
  intro other hother heq
  exact honly other hother (decide_eq_true heq)

/-- A decision record is read from the connections and their permissions. -/
theorem decisionRecord_congr {s s' : Store} (hconnections : s'.connections = s.connections)
    (hpermissions : s'.permissions = s.permissions) :
    decisionRecord s' = decisionRecord s := by
  have hread : readConnection s' = readConnection s := by
    funext id
    unfold readConnection readPermissions permissionsOf
    rw [hconnections, hpermissions]
  funext operationId decision
  unfold decisionRecord decisionConnection
  rw [hread]

/-- A pending connection has no grants. -/
theorem ReadsConnection.ungranted {s : Store} {id : Id32} {record : ConnectionRecord}
    {row : ConnectionRow} {requested granted : PermissionSet}
    (h : ReadsConnection s id record row requested granted) (hpending : record.status = .pending) :
    permissionsOf s id .granted = [] := by
  have hstatus : row.status = .pending := by
    rw [h.record_eq] at hpending
    exact hpending
  have hreadable := h.readable
  unfold connectionReadable at hreadable
  have hempty : granted.permissions = [] := by
    simp [hstatus] at hreadable
    exact hreadable.2
  refine List.eq_nil_iff_forall_not_mem.mpr fun permission hmem => ?_
  have hgranted := (readPermissions_eq_ok h.granted_read permission).mpr hmem
  rw [hempty] at hgranted
  cases hgranted

theorem readDecision_eq_some {s : Store} {operationId : Id32} {row : DecisionRow}
    (h : readDecision s operationId = .ok (some row)) :
    row ∈ s.decisions ∧ row.operationId = operationId ∧ decisionCheck row = true := by
  unfold readDecision at h
  obtain ⟨found, hfound, h⟩ := Except.bind_eq_ok_iff.mp h
  cases found with
  | none => cases h
  | some found =>
      obtain ⟨_, hchecked, h⟩ := Except.bind_eq_ok_iff.mp h
      obtain rfl := Option.some.inj (Except.ok.inj h)
      obtain ⟨hmem, hid, -⟩ := mem_of_filter_eq_singleton (atMostOneRow_eq_some.mp hfound)
      exact ⟨hmem, of_decide_eq_true hid, Except.require_eq_ok.mp hchecked⟩

theorem readDecision_eq_none {s : Store} {operationId : Id32}
    (h : readDecision s operationId = .ok none) :
    ∀ row ∈ s.decisions, row.operationId ≠ operationId := by
  unfold readDecision at h
  obtain ⟨found, hfound, h⟩ := Except.bind_eq_ok_iff.mp h
  cases found with
  | none =>
      intro row hrow heq
      have hnil := List.filter_eq_nil_iff.mp (atMostOneRow_eq_none.mp hfound) row hrow
      exact hnil (decide_eq_true heq)
  | some found =>
      obtain ⟨_, -, h⟩ := Except.bind_eq_ok_iff.mp h
      cases h

theorem readChallenge_eq_some {s : Store} {operationId : Id32} {row : ChallengeRow}
    (h : readChallenge s operationId = .ok (some row)) :
    row ∈ s.challenges ∧ row.operationId = operationId := by
  unfold readChallenge at h
  obtain ⟨found, hfound, h⟩ := Except.bind_eq_ok_iff.mp h
  cases found with
  | none => cases h
  | some found =>
      obtain ⟨_, -, h⟩ := Except.bind_eq_ok_iff.mp h
      obtain rfl := Option.some.inj (Except.ok.inj h)
      obtain ⟨hmem, hid, -⟩ := mem_of_filter_eq_singleton (atMostOneRow_eq_some.mp hfound)
      exact ⟨hmem, of_decide_eq_true hid⟩

theorem readRequestBinding_eq_ok {s : Store} {operationId : Id32} {row : RequestRow}
    (h : readRequestBinding s operationId = .ok row) :
    row ∈ s.requests ∧ row.operationId = operationId := by
  obtain ⟨hmem, hid, -⟩ := mem_of_filter_eq_singleton (oneRow_eq_ok.mp h)
  exact ⟨hmem, of_decide_eq_true hid⟩

/-! ## Admission -/

theorem run_insertPermissions {connectionId : Id32} {scope : PermissionScope} {set : PermissionSet}
    {s s' : Store} {u : Unit} (h : (insertPermissions connectionId scope set).run s = .ok (u, s')) :
    s' = { s with permissions := s.permissions ++ permissionRows connectionId scope set } := by
  unfold insertPermissions at h
  unfold permissionRows
  generalize set.permissions = permissions at h ⊢
  induction permissions generalizing s with
  | nil =>
      obtain ⟨-, rfl⟩ := run_pure_eq_ok.mp h
      simp
  | cons permission rest ih =>
      obtain ⟨_, s₁, hinsert, h⟩ := run_bind_eq_ok.mp h
      obtain ⟨-, rfl⟩ := permissionsTable.run_insert_eq_ok.mp hinsert
      rw [ih h]
      simp [permissionsTable]

theorem run_insertConnectionRow {row : ConnectionRow} {s s' : Store} {u : Unit}
    (h : (insertConnectionRow row).run s = .ok (u, s')) :
    (∀ other ∈ s.connections, other.connectionId ≠ row.connectionId) ∧
      s' = { s with connections := s.connections ++ [row] } := by
  obtain ⟨hallowed, rfl⟩ := connectionsTable.run_insert_eq_ok.mp h
  refine ⟨?_, rfl⟩
  intro other hother heq
  unfold connectionInsertAllowed at hallowed
  rw [Bool.and_eq_true] at hallowed
  have hne := List.all_eq_true.mp hallowed.2 other hother
  simp [heq] at hne

/-- The rows of an admission without its decision. -/
theorem run_insertConnection {request : AdmissionRequest} {s s' : Store} {id : Option Id32}
    (h : (insertConnection request).run s = .ok (id, s')) :
    id = request.decidedConnection ∧
      (request.policy ≠ .denied →
        ∀ row ∈ s.connections, row.connectionId ≠ request.connectionId) ∧
      s' = { s with
        connections := s.connections ++ request.connectionRows
        permissions := s.permissions ++ request.permissionRows } := by
  dsimp only [insertConnection] at h
  cases hpolicy : request.policy with
  | trusted =>
      simp only [hpolicy] at h
      obtain ⟨_, s₁, hrow, h⟩ := run_bind_eq_ok.mp h
      obtain ⟨_, s₂, hrequested, h⟩ := run_bind_eq_ok.mp h
      obtain ⟨_, s₃, hgranted, h⟩ := run_bind_eq_ok.mp h
      obtain ⟨rfl, rfl⟩ := run_pure_eq_ok.mp h
      obtain ⟨hfresh, rfl⟩ := run_insertConnectionRow hrow
      obtain rfl := run_insertPermissions hrequested
      obtain rfl := run_insertPermissions hgranted
      refine ⟨?_, fun _ => hfresh, ?_⟩
      · simp [AdmissionRequest.decidedConnection, hpolicy, AdmissionRequest.connectionId]
      · simp [AdmissionRequest.connectionRows, AdmissionRequest.permissionRows, hpolicy,
          AdmissionRequest.connectionId]
  | explicitApproval =>
      simp only [hpolicy] at h
      obtain ⟨_, s₁, hrow, h⟩ := run_bind_eq_ok.mp h
      obtain ⟨_, s₂, hrequested, h⟩ := run_bind_eq_ok.mp h
      obtain ⟨rfl, rfl⟩ := run_pure_eq_ok.mp h
      obtain ⟨hfresh, rfl⟩ := run_insertConnectionRow hrow
      obtain rfl := run_insertPermissions hrequested
      refine ⟨?_, fun _ => hfresh, ?_⟩
      · simp [AdmissionRequest.decidedConnection, hpolicy, AdmissionRequest.connectionId]
      · simp [AdmissionRequest.connectionRows, AdmissionRequest.permissionRows, hpolicy,
          AdmissionRequest.connectionId]
  | denied =>
      simp only [hpolicy] at h
      obtain ⟨rfl, rfl⟩ := run_pure_eq_ok.mp h
      refine ⟨?_, fun hne => absurd rfl hne, ?_⟩
      · simp [AdmissionRequest.decidedConnection, hpolicy]
      · simp [AdmissionRequest.connectionRows, AdmissionRequest.permissionRows, hpolicy]

theorem run_insertDecision {row : DecisionRow} {s s' : Store} {u : Unit}
    (h : (insertDecision row).run s = .ok (u, s')) :
    s' = { s with decisions := s.decisions ++ [row] } := by
  obtain ⟨-, rfl⟩ := decisionsTable.run_insert_eq_ok.mp h
  rfl

theorem governAdmission_keeps (policy : RateLimitPolicy) (request : AdmissionRequest)
    (evidence : AuditEvidence) :
    Keeps Store.withoutGovernance (governAdmission policy request evidence) := by
  unfold governAdmission
  split
  next => exact .pure _
  next => exact governRateAttempt_keeps _ _ _ _ _

/-- A first admission inserts its rows, or is refused by a rate window. -/
theorem decideAdmission_cases {policy : RateLimitPolicy} {request : AdmissionRequest}
    {evidence : AuditEvidence} {s s' : Store} {admission : ConnectionAdmission}
    (hundecided : ∀ row ∈ s.decisions, row.operationId ≠ request.operationId)
    (h : (decideAdmission policy request evidence).run s = .ok (admission, s')) :
    s'.withoutGovernance = s.withoutGovernance ∨
      ((request.policy ≠ .denied →
        ∀ row ∈ s.connections, row.connectionId ≠ request.connectionId) ∧
        ∃ record, decisionRecord (s.admitted request) request.operationId
          (newAdmissionDecision request request.decidedConnection) = .ok record) ∧
        s'.withoutGovernance = (s.admitted request).withoutGovernance := by
  unfold decideAdmission at h
  obtain ⟨governed, s₁, hgovern, h⟩ := run_bind_eq_ok.mp h
  have hkept : s₁.withoutGovernance = s.withoutGovernance := governAdmission_keeps _ _ _ hgovern
  cases governed with
  | false =>
      obtain ⟨-, rfl⟩ := run_pure_eq_ok.mp h
      exact .inl hkept
  | true =>
      obtain ⟨id, s₂, hconnection, h⟩ := run_bind_eq_ok.mp h
      obtain ⟨_, s₃, hdecision, h⟩ := run_bind_eq_ok.mp h
      obtain ⟨_, hpersisted, h⟩ := run_query_bind_eq_ok.mp h
      obtain ⟨persisted, rfl, h⟩ := run_orFail_bind_eq_ok.mp h
      obtain ⟨record, hrecord, h⟩ := run_query_bind_eq_ok.mp h
      obtain ⟨_, s₄, haudit, h⟩ := run_bind_eq_ok.mp h
      obtain ⟨-, rfl⟩ := run_pure_eq_ok.mp h
      have haudited := recordAudit_keeps _ _ _ _ haudit
      obtain ⟨rfl, hfresh, rfl⟩ := run_insertConnection hconnection
      obtain rfl := run_insertDecision hdecision
      have hconnections : s₁.connections = s.connections := (congrArg Store.connections hkept :)
      have hpermissions : s₁.permissions = s.permissions := (congrArg Store.permissions hkept :)
      have hdecisions : s₁.decisions = s.decisions := (congrArg Store.decisions hkept :)
      have hnew : persisted = newAdmissionDecision request request.decidedConnection := by
        obtain ⟨hmem, hid, -⟩ := readDecision_eq_some hpersisted
        rcases List.mem_append.mp hmem with hold | hlast
        · exact absurd hid (hundecided persisted (hdecisions ▸ hold))
        · exact List.mem_singleton.mp hlast
      refine .inr ⟨⟨?_, record, ?_⟩, ?_⟩
      · rwa [hconnections] at hfresh
      · rw [← hrecord, hnew]
        refine congrFun (congrFun (decisionRecord_congr ?_ ?_) _) _
        · simp [Store.admitted, hconnections]
        · simp [Store.admitted, hpermissions]
      · rw [haudited]
        exact congrArg (Store.admitted · request) hkept

/-- A committed admission decides the request for the first time, or changes nothing. -/
theorem admitConnection_cases {config : Configuration} {request : AdmissionRequest} {s s' : Store}
    {admission : ConnectionAdmission}
    (h : (admitConnection config request).run s = .ok (admission, s')) :
    s'.withoutGovernance = s.withoutGovernance ∨
      Admits config s request ∧
        s'.withoutGovernance = (s.admitted request).withoutGovernance := by
  unfold admitConnection at h
  obtain ⟨⟨-, hadmitted⟩, h⟩ := run_require_bind_eq_ok.mp h
  have h := run_withBinding_eq_ok h
  unfold admitConnectionBody at h
  obtain ⟨binding, hbinding, h⟩ := run_query_bind_eq_ok.mp h
  obtain ⟨⟨hclient, hmethod, -⟩, h⟩ := run_require_bind_eq_ok.mp h
  obtain ⟨decision, hdecision, h⟩ := run_query_bind_eq_ok.mp h
  obtain ⟨hmem, hid⟩ := readRequestBinding_eq_ok hbinding
  cases decision with
  | some existing =>
      obtain ⟨_, s₂, hreplay, h⟩ := run_bind_eq_ok.mp h
      obtain ⟨-, rfl⟩ := run_pure_eq_ok.mp h
      unfold replayAdmission at hreplay
      obtain ⟨-, hreplay⟩ := run_require_bind_eq_ok.mp hreplay
      obtain ⟨_, -, hreplay⟩ := run_query_bind_eq_ok.mp hreplay
      obtain ⟨-, hreplay⟩ := run_require_bind_eq_ok.mp hreplay
      obtain ⟨-, rfl⟩ := run_pure_eq_ok.mp hreplay
      exact .inl rfl
  | none =>
      have hundecided := readDecision_eq_none hdecision
      rcases decideAdmission_cases hundecided h with hsame | ⟨⟨hfresh, hreads⟩, heq⟩
      · exact .inl hsame
      · exact .inr ⟨⟨hadmitted, ⟨binding, hmem, hid, hclient, hmethod⟩, hundecided, hfresh,
          hreads⟩, heq⟩

/-! ## Operator decisions -/

theorem run_updateConnections {matching : ConnectionRow → Bool} {set : ConnectionRow → ConnectionRow}
    {s s' : Store} {n : ℕ} (h : (updateConnections matching set).run s = .ok (n, s')) :
    s' = { s with connections := Table.update matching set s.connections } := by
  obtain ⟨-, -, rfl⟩ := connectionsTable.run_update_eq_ok.mp h
  rfl

theorem run_updateDecisions {matching : DecisionRow → Bool} {set : DecisionRow → DecisionRow}
    {s s' : Store} {n : ℕ} (h : (updateDecisions matching set).run s = .ok (n, s')) :
    s' = { s with decisions := Table.update matching set s.decisions } := by
  obtain ⟨-, -, rfl⟩ := decisionsTable.run_update_eq_ok.mp h
  rfl

theorem run_updateChallenges {matching : ChallengeRow → Bool} {set : ChallengeRow → ChallengeRow}
    {s s' : Store} {n : ℕ} (h : (updateChallenges matching set).run s = .ok (n, s')) :
    s' = { s with challenges := Table.update matching set s.challenges } := by
  obtain ⟨-, -, rfl⟩ := challengesTable.run_update_eq_ok.mp h
  rfl

theorem run_updateApprovalDecision {operationId connectionId : Id32}
    {generation : PolicyGeneration} {observedAt : TimeUnixMs} {decision : Decision}
    {reason : DecisionReason} {s s' : Store} {u : Unit}
    (h : (updateApprovalDecision operationId connectionId generation observedAt decision
      reason).run s = .ok (u, s')) :
    s' = s.decided operationId connectionId generation observedAt decision reason := by
  obtain ⟨_, s₁, hupdate, h⟩ := run_bind_eq_ok.mp h
  obtain ⟨-, rfl⟩ := run_requireOne_eq_ok.mp h
  exact run_updateDecisions hupdate

/-- The guard of a decision, from what the operation read. -/
theorem Decides.of_read {s : Store} {operationId connectionId : Id32}
    {generation : PolicyGeneration} {observedAt : TimeUnixMs} {existing : DecisionRow}
    {record : ConnectionRecord} {row : ConnectionRow} {requested granted : PermissionSet}
    (hexisting : readDecision s operationId = .ok (some existing))
    (hbound : existing.connectionId = some connectionId ∧ existing.policyGeneration = generation)
    (hread : ReadsConnection s connectionId record row requested granted)
    (hgeneration : record.policyGeneration = generation)
    (hpending : record.status = .pending ∧ existing.decision = .pendingApproval ∧
      record.updatedAt ≤ observedAt) :
    Decides s operationId connectionId generation observedAt := by
  obtain ⟨hmem, hid, -⟩ := readDecision_eq_some hexisting
  have hungranted := hread.ungranted hpending.1
  obtain rfl := hread.record_eq
  refine ⟨⟨row, hread.mem, hread.id_eq, hpending.1, hgeneration, hpending.2.2⟩, ?_, hungranted,
    ⟨existing, hmem, hid, hbound.1, hpending.2.1, hbound.2⟩⟩
  intro first hfirst second hsecond hid₁ hid₂
  rw [hread.only first hfirst hid₁, hread.only second hsecond hid₂]

theorem approveConnection_cases {operationId connectionId : Id32} {generation : PolicyGeneration}
    {observedAt : TimeUnixMs} {correlation : Id32} {existing : DecisionRow}
    {connection record : ConnectionRecord} {set : PermissionSet}
    {authorizedUntil : Option TimeUnixMs} {s s' : Store}
    (h : (approveConnection operationId connectionId generation observedAt correlation existing
      connection set authorizedUntil).run s = .ok (record, s')) :
    s'.withoutGovernance = s.withoutGovernance ∨
      ((connection.status = .pending ∧ existing.decision = .pendingApproval ∧
        connection.updatedAt ≤ observedAt) ∧
        ∃ record, readConnection (s.approved operationId connectionId generation observedAt set
          authorizedUntil) connectionId = .ok record) ∧
        s'.withoutGovernance = (s.approved operationId connectionId generation observedAt set
          authorizedUntil).withoutGovernance := by
  unfold approveConnection at h
  obtain ⟨-, h⟩ := run_require_bind_eq_ok.mp h
  split at h
  next =>
    obtain ⟨-, h⟩ := run_require_bind_eq_ok.mp h
    obtain ⟨_, _, haudit, h⟩ := run_bind_eq_ok.mp h
    obtain ⟨-, rfl⟩ := run_pure_eq_ok.mp h
    exact .inl (recordAudit_keeps _ _ _ _ haudit)
  next =>
    obtain ⟨hpending, h⟩ := run_require_bind_eq_ok.mp h
    obtain ⟨_, _, hgrant, h⟩ := run_bind_eq_ok.mp h
    obtain ⟨_, _, hrow, h⟩ := run_bind_eq_ok.mp h
    obtain ⟨-, h⟩ := run_require_bind_eq_ok.mp h
    obtain ⟨_, _, hdecision, h⟩ := run_bind_eq_ok.mp h
    obtain ⟨after, hread, h⟩ := run_query_bind_eq_ok.mp h
    obtain ⟨_, _, haudit, h⟩ := run_bind_eq_ok.mp h
    obtain ⟨-, rfl⟩ := run_pure_eq_ok.mp h
    obtain rfl := run_insertPermissions hgrant
    obtain rfl := run_updateConnections hrow
    obtain rfl := run_updateApprovalDecision hdecision
    exact .inr ⟨⟨hpending, after, hread⟩, recordAudit_keeps _ _ _ _ haudit⟩

theorem denyConnection_cases {operationId connectionId : Id32} {generation : PolicyGeneration}
    {observedAt : TimeUnixMs} {correlation : Id32} {existing : DecisionRow}
    {connection record : ConnectionRecord} {s s' : Store}
    (h : (denyConnection operationId connectionId generation observedAt correlation existing
      connection).run s = .ok (record, s')) :
    s'.withoutGovernance = s.withoutGovernance ∨
      ((connection.status = .pending ∧ existing.decision = .pendingApproval ∧
        connection.updatedAt ≤ observedAt) ∧
        ∃ record, readConnection (s.denied operationId connectionId generation observedAt)
          connectionId = .ok record) ∧
        s'.withoutGovernance =
          (s.denied operationId connectionId generation observedAt).withoutGovernance := by
  unfold denyConnection at h
  split at h
  next =>
    obtain ⟨_, _, haudit, h⟩ := run_bind_eq_ok.mp h
    obtain ⟨-, rfl⟩ := run_pure_eq_ok.mp h
    exact .inl (recordAudit_keeps _ _ _ _ haudit)
  next =>
    obtain ⟨hpending, h⟩ := run_require_bind_eq_ok.mp h
    obtain ⟨_, _, hrow, h⟩ := run_bind_eq_ok.mp h
    obtain ⟨-, h⟩ := run_require_bind_eq_ok.mp h
    obtain ⟨_, _, hdecision, h⟩ := run_bind_eq_ok.mp h
    obtain ⟨after, hread, h⟩ := run_query_bind_eq_ok.mp h
    obtain ⟨_, _, haudit, h⟩ := run_bind_eq_ok.mp h
    obtain ⟨-, rfl⟩ := run_pure_eq_ok.mp h
    obtain rfl := run_updateConnections hrow
    obtain rfl := run_updateApprovalDecision hdecision
    exact .inr ⟨⟨hpending, after, hread⟩, recordAudit_keeps _ _ _ _ haudit⟩

/-- The store that a decision of a pending connection leaves. -/
def Store.afterDecision (s : Store) (operationId connectionId : Id32)
    (generation : PolicyGeneration) (observedAt : TimeUnixMs) : OperatorDecision → Store
  | .approve set authorizedUntil =>
      s.approved operationId connectionId generation observedAt set authorizedUntil
  | .deny => s.denied operationId connectionId generation observedAt

/-- A committed decision settles a pending connection, or changes nothing. -/
theorem decideConnection_cases {operationId connectionId : Id32} {generation : PolicyGeneration}
    {observedAt : TimeUnixMs} {correlation : Id32} {decision : OperatorDecision}
    {record : ConnectionRecord} {s s' : Store}
    (h : (decideConnection operationId connectionId generation observedAt correlation
      decision).run s = .ok (record, s')) :
    s'.withoutGovernance = s.withoutGovernance ∨
      (Decides s operationId connectionId generation observedAt ∧
        ∃ record, readConnection (s.afterDecision operationId connectionId generation observedAt
          decision) connectionId = .ok record) ∧
        s'.withoutGovernance = (s.afterDecision operationId connectionId generation observedAt
          decision).withoutGovernance := by
  unfold decideConnection at h
  obtain ⟨_, hdecision, h⟩ := run_query_bind_eq_ok.mp h
  obtain ⟨existing, rfl, h⟩ := run_orFail_bind_eq_ok.mp h
  obtain ⟨hbound, h⟩ := run_require_bind_eq_ok.mp h
  obtain ⟨connection, hconnection, h⟩ := run_query_bind_eq_ok.mp h
  obtain ⟨hgeneration, h⟩ := run_require_bind_eq_ok.mp h
  obtain ⟨row, requested, granted, hreads⟩ := readConnection_eq_ok hconnection
  cases decision with
  | approve set authorizedUntil =>
      rcases approveConnection_cases h with hsame | ⟨⟨hpending, hafter⟩, heq⟩
      · exact .inl hsame
      · exact .inr ⟨⟨.of_read hdecision hbound hreads hgeneration hpending, hafter⟩, heq⟩
  | deny =>
      rcases denyConnection_cases h with hsame | ⟨⟨hpending, hafter⟩, heq⟩
      · exact .inl hsame
      · exact .inr ⟨⟨.of_read hdecision hbound hreads hgeneration hpending, hafter⟩, heq⟩

/-! ## Ending a session -/

theorem run_revokeConnectionRow {connectionId : Id32} {generation : PolicyGeneration}
    {observedAt : TimeUnixMs} {s s' : Store} {n : ℕ}
    (h : (revokeConnectionRow connectionId generation observedAt).run s = .ok (n, s')) :
    s' = s.ended connectionId generation observedAt fun _ => true := by
  rw [run_updateConnections h]
  simp [Store.ended, endSession]

theorem run_expireConnectionRow {connectionId : Id32} {generation : PolicyGeneration}
    {observedAt : TimeUnixMs} {s s' : Store} {n : ℕ}
    (h : (expireConnectionRow connectionId generation observedAt).run s = .ok (n, s')) :
    s' = s.ended connectionId generation observedAt fun row =>
      row.authorizedUntil.any fun limit => decide (limit < observedAt) :=
  run_updateConnections h

theorem Ends.of_read {s : Store} {connectionId : Id32} {generation : PolicyGeneration}
    {record : ConnectionRecord} {row : ConnectionRow} {requested granted : PermissionSet}
    (hread : ReadsConnection s connectionId record row requested granted)
    (hgeneration : record.policyGeneration = generation) (hactive : record.status = .active) :
    Ends s connectionId generation := by
  obtain rfl := hread.record_eq
  exact ⟨row, hread.mem, hread.id_eq, hactive, hgeneration⟩

/-- An update of a session is no earlier than what the operation read of it. -/
theorem ReadsConnection.later {s : Store} {id : Id32} {record : ConnectionRecord}
    {row : ConnectionRow} {requested granted : PermissionSet} {observedAt : TimeUnixMs}
    (h : ReadsConnection s id record row requested granted) (hlater : record.updatedAt ≤ observedAt) :
    ∀ row ∈ s.connections, row.connectionId = id → row.updatedAt ≤ observedAt := by
  intro other hother hid
  obtain rfl := h.record_eq
  rw [h.only other hother hid]
  exact hlater

/-- The limit of an active session that was read is later than its last update. -/
theorem ReadsConnection.limited {s : Store} {id : Id32} {record : ConnectionRecord}
    {row : ConnectionRow} {requested granted : PermissionSet} {observedAt : TimeUnixMs}
    (h : ReadsConnection s id record row requested granted) (hactive : record.status = .active)
    (hlimit : record.authorizedUntil.any (fun limit => decide (limit < observedAt)) = true) :
    record.updatedAt ≤ observedAt := by
  obtain rfl := h.record_eq
  have hreadable := h.readable
  have hactive : row.status = .active := hactive
  have hlimit : row.authorizedUntil.any (fun limit => decide (limit < observedAt)) = true := hlimit
  cases hrow : row.authorizedUntil with
  | none =>
      rw [hrow] at hlimit
      cases hlimit
  | some limit =>
      rw [hrow] at hlimit
      have hpassed : limit < observedAt := of_decide_eq_true hlimit
      unfold connectionReadable at hreadable
      simp only [hactive, hrow, Bool.not_eq_true', Bool.or_eq_false_iff, beq_self_eq_true,
        Bool.true_and, Option.any_some, decide_eq_false_iff_not] at hreadable
      exact Nat.le_of_lt (Nat.lt_trans (Nat.lt_of_not_le hreadable.1.2) hpassed)

/-- A committed revocation ends the session, or changes nothing. -/
theorem revokeConnection_cases {connectionId : Id32} {generation : PolicyGeneration}
    {observedAt : TimeUnixMs} {correlation : Id32} {before record : ConnectionRecord} {s s' : Store}
    (h : (revokeConnection connectionId generation observedAt correlation before).run s =
      .ok (record, s')) :
    s'.withoutGovernance = s.withoutGovernance ∨
      (before.status = .active ∧ before.updatedAt ≤ observedAt) ∧ s'.withoutGovernance =
        (s.ended connectionId generation observedAt fun _ => true).withoutGovernance := by
  unfold revokeConnection at h
  split at h
  next =>
    obtain ⟨-, rfl⟩ := run_pure_eq_ok.mp h
    exact .inl rfl
  next =>
    obtain ⟨hactive, h⟩ := run_require_bind_eq_ok.mp h
    obtain ⟨_, _, hrow, h⟩ := run_bind_eq_ok.mp h
    obtain ⟨-, h⟩ := run_require_bind_eq_ok.mp h
    obtain ⟨_, -, h⟩ := run_query_bind_eq_ok.mp h
    obtain ⟨_, _, haudit, h⟩ := run_bind_eq_ok.mp h
    obtain ⟨-, rfl⟩ := run_pure_eq_ok.mp h
    obtain rfl := run_revokeConnectionRow hrow
    exact .inr ⟨hactive, recordAudit_keeps _ _ _ _ haudit⟩

/-- A committed mutation of the administrator. -/
theorem applyAdminConnectionMutation_cases {config : Configuration} {connectionId : Id32}
    {generation : PolicyGeneration} {observedAt : TimeUnixMs} {correlation : Id32}
    {action : AdminAction} {records : ConnectionRecord × ConnectionRecord} {s s' : Store}
    (h : (applyAdminConnectionMutation connectionId generation observedAt correlation action).run s =
      .ok (records, s')) :
    ∃ s₁, SessionStep config s
        (.adminConnection connectionId generation observedAt correlation action) s₁ ∧
      s'.withoutGovernance = s₁.withoutGovernance := by
  unfold applyAdminConnectionMutation at h
  obtain ⟨before, hbefore, h⟩ := run_query_bind_eq_ok.mp h
  obtain ⟨hgeneration, h⟩ := run_require_bind_eq_ok.mp h
  cases action with
  | approve set authorizedUntil =>
      obtain ⟨operationId, -, h⟩ := run_query_bind_eq_ok.mp h
      obtain ⟨_, _, hdecide, h⟩ := run_bind_eq_ok.mp h
      obtain ⟨-, rfl⟩ := run_pure_eq_ok.mp h
      rcases decideConnection_cases hdecide with hsame | ⟨⟨hguard, hreads⟩, heq⟩
      · exact ⟨s, .quiet _, hsame⟩
      · exact ⟨_, .approve .admin hguard hreads, heq⟩
  | reject =>
      obtain ⟨operationId, -, h⟩ := run_query_bind_eq_ok.mp h
      obtain ⟨_, _, hdecide, h⟩ := run_bind_eq_ok.mp h
      obtain ⟨-, rfl⟩ := run_pure_eq_ok.mp h
      rcases decideConnection_cases hdecide with hsame | ⟨⟨hguard, hreads⟩, heq⟩
      · exact ⟨s, .quiet _, hsame⟩
      · exact ⟨_, .deny hguard hreads, heq⟩
  | revoke =>
      obtain ⟨_, _, hrevoke, h⟩ := run_bind_eq_ok.mp h
      obtain ⟨-, rfl⟩ := run_pure_eq_ok.mp h
      obtain ⟨row, requested, granted, hread⟩ := readConnection_eq_ok hbefore
      rcases revokeConnection_cases hrevoke with hsame | ⟨⟨hactive, hlater⟩, heq⟩
      · exact ⟨s, .quiet _, hsame⟩
      · exact ⟨_, .finish (.of_read hread hgeneration hactive) (hread.later hlater), heq⟩

/-- A committed expiry ends the session, or changes nothing. -/
theorem expireConnection_cases {config : Configuration} {connectionId : Id32}
    {generation : PolicyGeneration} {observedAt : TimeUnixMs} {correlation : Id32}
    {record : ConnectionRecord} {s s' : Store}
    (h : (expireConnection connectionId generation observedAt correlation).run s =
      .ok (record, s')) :
    ∃ s₁, SessionStep config s
        (.expireConnection connectionId generation observedAt correlation) s₁ ∧
      s'.withoutGovernance = s₁.withoutGovernance := by
  unfold expireConnection at h
  obtain ⟨before, hbefore, h⟩ := run_query_bind_eq_ok.mp h
  obtain ⟨hgeneration, h⟩ := run_require_bind_eq_ok.mp h
  obtain ⟨row, requested, granted, hread⟩ := readConnection_eq_ok hbefore
  split at h
  next =>
    obtain ⟨_, _, haudit, h⟩ := run_bind_eq_ok.mp h
    obtain ⟨-, rfl⟩ := run_pure_eq_ok.mp h
    exact ⟨s, .quiet _, recordAudit_keeps _ _ _ _ haudit⟩
  next =>
    obtain ⟨⟨hactive, hlimit⟩, h⟩ := run_require_bind_eq_ok.mp h
    obtain ⟨_, _, hrow, h⟩ := run_bind_eq_ok.mp h
    obtain ⟨-, h⟩ := run_require_bind_eq_ok.mp h
    obtain ⟨_, -, h⟩ := run_query_bind_eq_ok.mp h
    obtain ⟨_, _, haudit, h⟩ := run_bind_eq_ok.mp h
    obtain ⟨-, rfl⟩ := run_pure_eq_ok.mp h
    obtain rfl := run_expireConnectionRow hrow
    exact ⟨_, .finish (.of_read hread hgeneration hactive)
      (hread.later (hread.limited hactive hlimit)), recordAudit_keeps _ _ _ _ haudit⟩

/-! ## Challenges -/

theorem run_insertChallenge {row : ChallengeRow} {s s' : Store} {u : Unit}
    (h : (insertChallenge row).run s = .ok (u, s')) :
    (∀ other ∈ s.challenges, other.operationId ≠ row.operationId ∧
      other.challengeId ≠ row.challengeId) ∧
      s' = { s with challenges := s.challenges ++ [row] } := by
  obtain ⟨hallowed, rfl⟩ := challengesTable.run_insert_eq_ok.mp h
  refine ⟨?_, rfl⟩
  intro other hother
  unfold challengeInsertAllowed at hallowed
  rw [Bool.and_eq_true] at hallowed
  have hne := List.all_eq_true.mp hallowed.2 other hother
  simp only [Bool.and_eq_true, bne_iff_ne] at hne
  exact ⟨hne.2, hne.1⟩

/-- A committed issue inserts the challenge and its decision, or changes nothing. -/
theorem issueChallenge_cases {policy : RateLimitPolicy} {request : ChallengeRequest}
    {admission : ChallengeAdmission} {s s' : Store}
    (h : (issueChallenge policy request).run s = .ok (admission, s')) :
    s'.withoutGovernance = s.withoutGovernance ∨
      ∃ connection, Issues s request ∧
        s'.withoutGovernance = (s.challenged request connection).withoutGovernance := by
  unfold issueChallenge at h
  obtain ⟨binding, hbinding, h⟩ := run_query_bind_eq_ok.mp h
  obtain ⟨hmethod, h⟩ := run_require_bind_eq_ok.mp h
  obtain ⟨connection, hconnection, h⟩ := run_query_bind_eq_ok.mp h
  obtain ⟨-, h⟩ := run_require_bind_eq_ok.mp h
  obtain ⟨existing, -, h⟩ := run_query_bind_eq_ok.mp h
  obtain ⟨hmem, hid⟩ := readRequestBinding_eq_ok hbinding
  obtain ⟨row, requested, granted, hread⟩ := readConnection_eq_ok hconnection
  cases existing with
  | some existing =>
      obtain ⟨-, h⟩ := run_require_bind_eq_ok.mp h
      obtain ⟨-, rfl⟩ := run_pure_eq_ok.mp h
      exact .inl rfl
  | none =>
      dsimp only [createChallenge] at h
      obtain ⟨⟨-, -, hactive, -⟩, h⟩ := run_require_bind_eq_ok.mp h
      obtain ⟨decision, hdecision, h⟩ := run_query_bind_eq_ok.mp h
      obtain ⟨hnone, h⟩ := run_require_bind_eq_ok.mp h
      rw [hnone] at hdecision
      obtain ⟨governed, s₁, hgovern, h⟩ := run_bind_eq_ok.mp h
      have hkept : s₁.withoutGovernance = s.withoutGovernance :=
        governRateAttempt_keeps _ _ _ _ _ hgovern
      cases governed with
      | false =>
          obtain ⟨-, rfl⟩ := run_pure_eq_ok.mp h
          exact .inl hkept
      | true =>
          obtain ⟨_, _, hchallenge, h⟩ := run_bind_eq_ok.mp h
          obtain ⟨_, _, hinsert, h⟩ := run_bind_eq_ok.mp h
          obtain ⟨_, -, h⟩ := run_query_bind_eq_ok.mp h
          obtain ⟨_, -, h⟩ := run_orFail_bind_eq_ok.mp h
          obtain ⟨_, _, haudit, h⟩ := run_bind_eq_ok.mp h
          obtain ⟨-, rfl⟩ := run_pure_eq_ok.mp h
          have haudited := recordAudit_keeps _ _ _ _ haudit
          obtain ⟨hfresh, rfl⟩ := run_insertChallenge hchallenge
          obtain rfl := run_insertDecision hinsert
          have hchallenges : s₁.challenges = s.challenges := (congrArg Store.challenges hkept :)
          obtain rfl := hread.record_eq
          refine .inr ⟨row.record requested granted, ⟨⟨binding, hmem, hid, hmethod⟩,
            ⟨row, hread.mem, hread.id_eq, hactive⟩, ?_, readDecision_eq_none hdecision⟩, ?_⟩
          · rwa [hchallenges] at hfresh
          · rw [haudited]
            exact congrArg (Store.challenged · request _) hkept

theorem resolveChallenge_cases {before : ChallengeRow} {connection : ConnectionRecord}
    {evidence : AuditEvidence} {observedAt : TimeUnixMs} {authorization : ChallengeAuthorization}
    {s s' : Store}
    (h : (resolveChallenge before connection evidence observedAt).run s =
      .ok (authorization, s')) :
    ∃ state decision reason,
      ((state = .authorized ∧ decision = .allowed ∧ reason = .authorizationChallengeAuthorized) ∨
        (state = .expired ∧ decision = .denied ∧ reason = .authorizationChallengeExpired)) ∧
      s'.withoutGovernance =
        (s.challengeResolved before state decision reason observedAt).withoutGovernance := by
  dsimp only [resolveChallenge] at h
  obtain ⟨_, _, hchallenge, h⟩ := run_bind_eq_ok.mp h
  obtain ⟨-, h⟩ := run_require_bind_eq_ok.mp h
  obtain ⟨_, _, hdecision, h⟩ := run_bind_eq_ok.mp h
  obtain ⟨-, h⟩ := run_require_bind_eq_ok.mp h
  obtain ⟨_, -, h⟩ := run_query_bind_eq_ok.mp h
  obtain ⟨_, -, h⟩ := run_orFail_bind_eq_ok.mp h
  obtain rfl := run_updateChallenges hchallenge
  obtain rfl := run_updateDecisions hdecision
  split at h
  next =>
    obtain ⟨_, _, haudit, h⟩ := run_bind_eq_ok.mp h
    obtain ⟨-, rfl⟩ := run_pure_eq_ok.mp h
    rw [recordAudit_keeps _ _ _ _ haudit]
    exact ⟨_, _, _, .inr ⟨rfl, rfl, rfl⟩, rfl⟩
  next =>
    obtain ⟨_, _, haudit, h⟩ := run_bind_eq_ok.mp h
    obtain ⟨-, rfl⟩ := run_pure_eq_ok.mp h
    rw [recordAudit_keeps _ _ _ _ haudit]
    exact ⟨_, _, _, .inl ⟨rfl, rfl, rfl⟩, rfl⟩

/-- A committed authorization resolves the pending challenge, or changes nothing. -/
theorem authorizeChallengeBody_cases {policy : RateLimitPolicy}
    {challengeId connectionId operationId : Id32} {generation : PolicyGeneration}
    {observedAt : TimeUnixMs} {authorization : ChallengeAuthorization} {s s' : Store}
    (h : (authorizeChallengeBody policy challengeId connectionId operationId generation
      observedAt).run s = .ok (authorization, s')) :
    s'.withoutGovernance = s.withoutGovernance ∨
      ∃ challenge state decision reason, Resolvable s challenge state decision reason ∧
        challenge.issuedAt ≤ observedAt ∧ s'.withoutGovernance =
          (s.challengeResolved challenge state decision reason observedAt).withoutGovernance := by
  unfold authorizeChallengeBody at h
  obtain ⟨_, hread, h⟩ := run_query_bind_eq_ok.mp h
  obtain ⟨before, rfl, h⟩ := run_orFail_bind_eq_ok.mp h
  obtain ⟨-, h⟩ := run_require_bind_eq_ok.mp h
  obtain ⟨binding, -, h⟩ := run_query_bind_eq_ok.mp h
  obtain ⟨connection, -, h⟩ := run_query_bind_eq_ok.mp h
  obtain ⟨⟨-, -, -, hissued⟩, h⟩ := run_require_bind_eq_ok.mp h
  obtain ⟨hmem, -⟩ := readChallenge_eq_some hread
  split at h
  next =>
    obtain ⟨-, rfl⟩ := run_pure_eq_ok.mp h
    exact .inl rfl
  next hpending =>
    obtain ⟨governed, s₁, hgovern, h⟩ := run_bind_eq_ok.mp h
    have hkept : s₁.withoutGovernance = s.withoutGovernance :=
      governRateAttempt_keeps _ _ _ _ _ hgovern
    cases governed with
    | false =>
        obtain ⟨-, rfl⟩ := run_pure_eq_ok.mp h
        exact .inl hkept
    | true =>
        obtain ⟨state, decision, reason, hstates, heq⟩ := resolveChallenge_cases h
        refine .inr ⟨before, state, decision, reason, ⟨hmem, not_not.mp hpending, hstates⟩, hissued,
          ?_⟩
        rw [heq]
        exact congrArg (Store.challengeResolved · before state decision reason observedAt) hkept

/-! ## Completions -/

theorem readCommit_eq_none {s : Store} {request : CommitRequest}
    (h : readCommit s request = .ok none) :
    ∀ row ∈ s.commits, row.operationId ≠ request.request.operationId := by
  unfold readCommit at h
  obtain ⟨found, hfound, h⟩ := Except.bind_eq_ok_iff.mp h
  cases found with
  | none =>
      intro row hrow heq
      have hnil := List.filter_eq_nil_iff.mp (atMostOneRow_eq_none.mp hfound) row hrow
      exact hnil (decide_eq_true heq)
  | some found =>
      obtain ⟨_, -, h⟩ := Except.bind_eq_ok_iff.mp h
      cases h

theorem readCommit_eq_some {s : Store} {request : CommitRequest} {row : CommitRow}
    (h : readCommit s request = .ok (some row)) : row ∈ s.commits ∧ row = request.row := by
  unfold readCommit at h
  obtain ⟨found, hfound, h⟩ := Except.bind_eq_ok_iff.mp h
  cases found with
  | none => cases h
  | some found =>
      obtain ⟨_, hsame, h⟩ := Except.bind_eq_ok_iff.mp h
      obtain rfl := Option.some.inj (Except.ok.inj h)
      exact ⟨(mem_of_filter_eq_singleton (atMostOneRow_eq_some.mp hfound)).1,
        Except.require_eq_ok.mp hsame⟩

theorem run_verifyRequest {request : CommitRequest} {s s' : Store} {u : Unit}
    (h : (verifyRequest request).run s = .ok (u, s')) :
    s = s' ∧ ∃ row ∈ s.requests, row.operationId = request.request.operationId ∧
      row.method = request.request.method := by
  unfold verifyRequest at h
  obtain ⟨row, hrow, h⟩ := run_query_bind_eq_ok.mp h
  obtain ⟨⟨-, hmethod, -⟩, rfl⟩ := run_require_eq_ok.mp h
  obtain ⟨hmem, hid⟩ := readRequestBinding_eq_ok hrow
  exact ⟨rfl, row, hmem, hid, hmethod⟩

theorem run_verifyConnectDecision {request : CommitRequest} {s s' : Store} {u : Unit}
    (h : (verifyConnectDecision request).run s = .ok (u, s')) :
    s = s' ∧ ∀ expected ∈ request.connectDecision,
      ∃ row ∈ s.decisions, row.operationId = request.request.operationId ∧
        row.decision = expected ∧ (expected = .allowed ∨ expected = .denied) := by
  unfold verifyConnectDecision at h
  cases hdecision : request.connectDecision with
  | none =>
      simp only [hdecision] at h
      obtain ⟨-, rfl⟩ := run_pure_eq_ok.mp h
      exact ⟨rfl, by simp⟩
  | some expected =>
      simp only [hdecision] at h
      obtain ⟨row, hrow, h⟩ := run_query_bind_eq_ok.mp h
      obtain ⟨⟨hterminal, hexpected, -⟩, rfl⟩ := run_require_eq_ok.mp h
      obtain ⟨hmem, hid, -⟩ := mem_of_filter_eq_singleton (oneRow_eq_ok.mp hrow)
      refine ⟨rfl, fun other hother => ?_⟩
      obtain rfl := Option.some.inj hother
      exact ⟨row, hmem, of_decide_eq_true hid, hexpected, hterminal⟩

theorem run_verifyOrApplySessionEffect {request : CommitRequest} {s s' : Store} {u : Unit}
    (h : (verifyOrApplySessionEffect request).run s = .ok (u, s')) :
    s' = s.effected request ∧ sessionActive s request ∧
      ∀ connectionId ∈ request.connectionId, ∀ row ∈ s.connections,
        row.connectionId = connectionId → row.updatedAt ≤ request.completedAt := by
  unfold verifyOrApplySessionEffect at h
  unfold Store.effected CommitRequest.effect sessionActive
  cases hconnection : request.connectionId with
  | none =>
      simp only [hconnection] at h
      obtain ⟨⟨-, heffect⟩, rfl⟩ := run_require_eq_ok.mp h
      refine ⟨rfl, heffect, ?_⟩
      intro _ hid
      cases hid
  | some connectionId =>
      simp only [hconnection] at h
      obtain ⟨generation, hgeneration, h⟩ := run_orFail_bind_eq_ok.mp h
      obtain ⟨row, hrow, h⟩ := run_query_bind_eq_ok.mp h
      obtain ⟨⟨hrowGeneration, hlater⟩, h⟩ := run_require_bind_eq_ok.mp h
      obtain ⟨hactive, h⟩ := run_require_bind_eq_ok.mp h
      obtain ⟨hmem, hid, honly⟩ := mem_of_filter_eq_singleton (oneRow_eq_ok.mp hrow)
      refine ⟨?_, ⟨row, hmem, of_decide_eq_true hid, hactive, ?_⟩, ?_⟩
      · rw [hgeneration]
        split at h
        next heffect =>
          obtain ⟨_, _, hrevoke, h⟩ := run_bind_eq_ok.mp h
          obtain ⟨-, rfl⟩ := run_requireOne_eq_ok.mp h
          rw [run_revokeConnectionRow hrevoke, heffect]
          rfl
        next heffect =>
          obtain ⟨-, rfl⟩ := run_pure_eq_ok.mp h
          cases hsession : request.sessionEffect with
          | none => rfl
          | connectionAdmitted => rfl
          | connectionRevoked => exact absurd hsession heffect
      · rw [hgeneration, hrowGeneration]
      · intro id hnamed other hother hotherId
        obtain rfl := Option.some.inj hnamed
        rw [honly other hother (decide_eq_true hotherId)]
        exact hlater

/-- A committed completion is new, with its session active, or is already retained. -/
theorem commitOperation_cases {request : CommitRequest} {admission : CommitAdmission}
    {s s' : Store} (h : (commitOperation request).run s = .ok (admission, s')) :
    (∃ row ∈ s.requests, row.operationId = request.request.operationId ∧
        row.method = request.request.method) ∧
      ((admission = .exactReplay ∧ s = s' ∧ request.row ∈ s.commits) ∨
        admission = .committed ∧
          (∀ row ∈ s.commits, row.operationId ≠ request.request.operationId) ∧
          commitCheck request.row = true ∧
          (∀ expected ∈ request.connectDecision,
            ∃ row ∈ s.decisions, row.operationId = request.request.operationId ∧
              row.decision = expected ∧ (expected = .allowed ∨ expected = .denied)) ∧
          (sessionActive s request ∧
            ∀ connectionId ∈ request.connectionId, ∀ row ∈ s.connections,
              row.connectionId = connectionId → row.updatedAt ≤ request.completedAt) ∧
          s' = { s.effected request with commits := s.commits ++ [request.row] }) := by
  unfold commitOperation at h
  obtain ⟨_, _, hverify, h⟩ := run_bind_eq_ok.mp h
  obtain ⟨rfl, hbinding⟩ := run_verifyRequest hverify
  refine ⟨hbinding, ?_⟩
  obtain ⟨existing, hread, h⟩ := run_query_bind_eq_ok.mp h
  cases existing with
  | some existing =>
      obtain ⟨rfl, rfl⟩ := run_pure_eq_ok.mp h
      obtain ⟨hmem, rfl⟩ := readCommit_eq_some hread
      exact .inl ⟨rfl, rfl, hmem⟩
  | none =>
      obtain ⟨_, _, hdecision, h⟩ := run_bind_eq_ok.mp h
      obtain ⟨rfl, hdecided⟩ := run_verifyConnectDecision hdecision
      obtain ⟨_, _, heffect, h⟩ := run_bind_eq_ok.mp h
      obtain ⟨rfl, hactive⟩ := run_verifyOrApplySessionEffect heffect
      obtain ⟨_, _, hinsert, h⟩ := run_bind_eq_ok.mp h
      obtain ⟨_, -, h⟩ := run_query_bind_eq_ok.mp h
      obtain ⟨_, -, h⟩ := run_orFail_bind_eq_ok.mp h
      obtain ⟨rfl, rfl⟩ := run_pure_eq_ok.mp h
      obtain ⟨hallowed, rfl⟩ := commitsTable.run_insert_eq_ok.mp hinsert
      unfold commitInsertAllowed at hallowed
      rw [Bool.and_eq_true] at hallowed
      exact .inr ⟨rfl, readCommit_eq_none hread, hallowed.1, hdecided, hactive, rfl⟩

/-! ## Responses -/

theorem run_readExactResponse {codec : EventCodec} {authority : ResponseAuthority}
    {response : ResponseRecord} {s s' : Store}
    (h : (readExactResponse codec authority).run s = .ok (response, s')) : s = s' := by
  unfold readExactResponse at h
  obtain ⟨_, -, h⟩ := run_query_bind_eq_ok.mp h
  obtain ⟨_, -, h⟩ := run_orFail_bind_eq_ok.mp h
  obtain ⟨-, h⟩ := run_require_bind_eq_ok.mp h
  obtain ⟨-, rfl⟩ := run_pure_eq_ok.mp h
  rfl

/-- The job of a response is new. -/
theorem run_createResponseJob {operationId digest : Id32} {committedAt : TimeUnixMs}
    {policy : DeliveryPolicies} {s s' : Store} {u : Unit}
    (h : (createResponseJob operationId digest committedAt policy).run s = .ok (u, s')) :
    activeJobCount s < policy.outboxMaximum ∧
      jobInsertAllowed s (newJobRow ⟨.signerResponse, operationId⟩ digest committedAt policy) = true ∧
      s' = s.created ⟨.signerResponse, operationId⟩ digest committedAt policy := by
  unfold createResponseJob at h
  obtain ⟨admission, s₁, hcreate, h⟩ := run_bind_eq_ok.mp h
  rcases createJob_eq_ok hcreate with ⟨-, record, -, -, rfl⟩ |
    ⟨-, hcapacity, hallowed, rfl, record, -, rfl⟩
  · cases h
  · obtain ⟨-, rfl⟩ := run_pure_eq_ok.mp h
    exact ⟨hcapacity, hallowed, rfl⟩

/-- A committed response is new, or is already retained. -/
theorem commitNip46Response_cases {codec : EventCodec} {config : Configuration}
    {request : ResponseCommitRequest} {admission : ResponseCommitAdmission} {s s' : Store}
    (h : (commitNip46Response codec config request).run s = .ok (admission, s')) :
    (request.completion.row ∈ s.commits ∧ s = s') ∨
      Completes s request ∧ s' = s.completed request config.delivery := by
  have h := run_withBinding_eq_ok h
  obtain ⟨completion, s₁, hcommit, h⟩ := run_bind_eq_ok.mp h
  obtain ⟨hbinding, hcases⟩ := commitOperation_cases hcommit
  cases completion with
  | exactReplay =>
      rcases hcases with ⟨-, rfl, hretained⟩ | ⟨hne, -⟩
      · obtain ⟨_, s₂, hread, h⟩ := run_bind_eq_ok.mp h
        obtain ⟨-, rfl⟩ := run_pure_eq_ok.mp h
        exact .inl ⟨hretained, run_readExactResponse hread⟩
      · cases hne
  | committed =>
      rcases hcases with ⟨hne, -⟩ | ⟨-, hfirst, hchecked, hdecided, ⟨hactive, hlater⟩, rfl⟩
      · cases hne
      · obtain ⟨_, s₂, hinsert, h⟩ := run_bind_eq_ok.mp h
        obtain ⟨_, s₃, hjob, h⟩ := run_bind_eq_ok.mp h
        obtain ⟨_, s₄, hread, h⟩ := run_bind_eq_ok.mp h
        obtain ⟨-, rfl⟩ := run_pure_eq_ok.mp h
        obtain rfl := run_readExactResponse hread
        obtain ⟨hallowed, rfl⟩ := signedResponsesTable.run_insert_eq_ok.mp hinsert
        obtain ⟨-, -, rfl⟩ := run_createResponseJob hjob
        unfold signedResponseInsertAllowed at hallowed
        simp only [Bool.and_eq_true] at hallowed
        refine .inr ⟨⟨hbinding, hfirst, hchecked, hdecided, hactive, ?_, ?_, hlater⟩, rfl⟩
        · intro row hrow heq
          have hne := List.all_eq_true.mp hallowed.1.2 row hrow
          simp [heq, ResponseCommitRequest.row] at hne
        · intro row hrow heq
          have hne := List.all_eq_true.mp hallowed.2 row hrow
          simp [heq, ResponseCommitRequest.row] at hne

theorem pendingBindings_eq_singleton {s : Store} {operationId : Id32} {decision : DecisionRow}
    {connection : ConnectionRow} (h : pendingBindings s operationId = [(decision, connection)]) :
    decision ∈ s.decisions ∧ decision.operationId = operationId ∧
      connection ∈ s.connections ∧ some connection.connectionId = decision.connectionId := by
  have hmem : (decision, connection) ∈ pendingBindings s operationId := by
    rw [h]
    exact List.mem_singleton.mpr rfl
  unfold pendingBindings at hmem
  obtain ⟨decision', hdecision, hmem⟩ := List.mem_flatMap.mp hmem
  obtain ⟨connection', hconnection, hmem⟩ := List.mem_flatMap.mp hmem
  obtain ⟨request, -, hpair⟩ := List.mem_map.mp hmem
  obtain ⟨rfl, rfl⟩ := Prod.mk.inj hpair
  obtain ⟨hdecision, hid⟩ := List.mem_filter.mp hdecision
  obtain ⟨hconnection, hnamed⟩ := List.mem_filter.mp hconnection
  exact ⟨hdecision, of_decide_eq_true hid, hconnection, (of_decide_eq_true hnamed).1⟩

/-- A committed pending response is new, or is already retained. -/
theorem commitNip46PendingResponse_cases {codec : EventCodec} {config : Configuration}
    {request : PendingResponseCommitRequest} {response : ResponseRecord} {s s' : Store}
    (h : (commitNip46PendingResponse codec config request).run s = .ok (response, s')) :
    (AwaitsDecision s request.operationId request.connectionId ∧ s = s') ∨
      AnswersPending s request ∧ s' = s.answeredPending request config.delivery := by
  have h := run_withBinding_eq_ok h
  obtain ⟨_, s₁, hpending, h⟩ := run_bind_eq_ok.mp h
  unfold requirePendingBinding at hpending
  obtain ⟨⟨decision, connection⟩, hbinding, hpending⟩ := run_query_bind_eq_ok.mp hpending
  obtain ⟨⟨hnamed, -, -, hundecided, -, hstatus, -⟩, rfl⟩ := run_require_eq_ok.mp hpending
  obtain ⟨hdecision, hid, hconnection, hconnected⟩ :=
    pendingBindings_eq_singleton (oneRow_eq_ok.mp hbinding)
  have hid' : connection.connectionId = request.connectionId :=
    Option.some.inj (hconnected.trans hnamed)
  have hawaits : AwaitsDecision s request.operationId request.connectionId :=
    ⟨⟨decision, hdecision, hid, hnamed, hundecided⟩, connection, hconnection, hid', hstatus⟩
  obtain ⟨existing, -, h⟩ := run_query_bind_eq_ok.mp h
  cases existing with
  | some existing =>
      obtain ⟨-, h⟩ := run_require_bind_eq_ok.mp h
      obtain ⟨-, rfl⟩ := run_pure_eq_ok.mp h
      exact .inl ⟨hawaits, rfl⟩
  | none =>
      obtain ⟨_, s₂, hinsert, h⟩ := run_bind_eq_ok.mp h
      obtain ⟨_, s₃, hjob, h⟩ := run_bind_eq_ok.mp h
      obtain rfl := run_readExactResponse h
      obtain ⟨hallowed, rfl⟩ := pendingResponsesTable.run_insert_eq_ok.mp hinsert
      obtain ⟨-, -, rfl⟩ := run_createResponseJob hjob
      unfold pendingResponseInsertAllowed at hallowed
      simp only [Bool.and_eq_true] at hallowed
      refine .inr ⟨⟨hawaits, ?_, ?_⟩, rfl⟩
      · intro row hrow heq
        have hne := List.all_eq_true.mp hallowed.1.1.2 row hrow
        simp [heq, PendingResponseCommitRequest.row] at hne
      · intro row hrow heq
        have hne := List.all_eq_true.mp hallowed.2 row hrow
        simp [heq, PendingResponseCommitRequest.row] at hne

/-! ## Operations -/

theorem SessionStep.of_cases {config : Configuration} {operation : Operation} {s s₁ s' : Store}
    {P : Prop} (h : s'.withoutGovernance = s.withoutGovernance ∨
      P ∧ s'.withoutGovernance = s₁.withoutGovernance)
    (hstep : P → SessionStep config s operation s₁) :
    ∃ s₁, SessionStep config s operation s₁ ∧ s'.withoutGovernance = s₁.withoutGovernance := by
  rcases h with hsame | ⟨hP, heq⟩
  · exact ⟨s, .quiet _, hsame⟩
  · exact ⟨s₁, hstep hP, heq⟩

theorem SessionStep.of_outbox {α : Type} {config : Configuration} {operation : Operation}
    {body : Tx α} {s s' : Store} {a : α} (hlabel : operation.ofOutbox = true)
    (hkeeps : Keeps Store.withoutOutbox body) (h : (withBinding config body).run s = .ok (a, s')) :
    ∃ s₁, SessionStep config s operation s₁ ∧ s'.withoutGovernance = s₁.withoutGovernance :=
  ⟨s', .outbox (hkeeps (run_withBinding_eq_ok h)) hlabel, rfl⟩

/-- Every committed operation is a session step. -/
theorem Operation.step {codec : EventCodec} {config : Configuration} {operation : Operation}
    {s s' : Store} {u : Unit} (h : (operation.body codec config).run s = .ok (u, s')) :
    ∃ s₁, SessionStep config s operation s₁ ∧ s'.withoutGovernance = s₁.withoutGovernance := by
  cases operation with
  | admitRequest request =>
      obtain ⟨_, h⟩ := run_forEffect_eq_ok h
      exact ⟨s', .requests (admitRequest_admits request (run_withBinding_eq_ok h)), rfl⟩
  | admitConnection request =>
      obtain ⟨_, h⟩ := run_forEffect_eq_ok h
      exact SessionStep.of_cases (admitConnection_cases h) .connect
  | decidePending operationId connectionId generation observedAt correlation decision =>
      obtain ⟨_, h⟩ := run_forEffect_eq_ok h
      unfold decidePendingConnection at h
      obtain ⟨hadmits, h⟩ := run_require_bind_eq_ok.mp h
      refine SessionStep.of_cases (decideConnection_cases (run_withBinding_eq_ok h))
        fun ⟨hguard, hreads⟩ => ?_
      cases decision with
      | approve set authorizedUntil =>
          rw [ConnectionPolicies.admitsOperatorDecision, Bool.and_eq_true] at hadmits
          exact .approve (.operator hadmits.1) hguard hreads
      | deny => exact .deny hguard hreads
  | adminConnection =>
      obtain ⟨_, h⟩ := run_forEffect_eq_ok h
      exact applyAdminConnectionMutation_cases (run_withBinding_eq_ok h)
  | expireConnection =>
      obtain ⟨_, h⟩ := run_forEffect_eq_ok h
      exact expireConnection_cases (run_withBinding_eq_ok h)
  | issueChallenge request =>
      obtain ⟨_, h⟩ := run_forEffect_eq_ok h
      unfold issueAuthorizationChallenge at h
      obtain ⟨-, h⟩ := run_require_bind_eq_ok.mp h
      rcases issueChallenge_cases (run_withBinding_eq_ok h) with hsame | ⟨connection, hguard, heq⟩
      · exact ⟨s, .quiet _, hsame⟩
      · exact ⟨_, .issue hguard, heq⟩
  | authorizeChallenge =>
      obtain ⟨_, h⟩ := run_forEffect_eq_ok h
      rcases authorizeChallengeBody_cases (run_withBinding_eq_ok h) with
        hsame | ⟨_, _, _, _, hguard, hissued, heq⟩
      · exact ⟨s, .quiet _, hsame⟩
      · exact ⟨_, .resolve hguard hissued, heq⟩
  | adminRequireChallenge request =>
      obtain ⟨-, h⟩ := run_require_bind_eq_ok.mp h
      obtain ⟨_, h⟩ := run_forEffect_eq_ok h
      have h := run_withBinding_eq_ok h
      unfold applyAdminChallengeRequire at h
      obtain ⟨admission, s₁, hissue, h⟩ := run_bind_eq_ok.mp h
      have hcases := issueChallenge_cases hissue
      cases admission with
      | rateLimited => cases h
      | created | exactReplay =>
          obtain ⟨-, rfl⟩ := run_pure_eq_ok.mp h
          rcases hcases with hsame | ⟨connection, hguard, heq⟩
          · exact ⟨s, .quiet _, hsame⟩
          · exact ⟨_, .issue hguard, heq⟩
  | adminAuthorizeChallenge =>
      obtain ⟨_, h⟩ := run_forEffect_eq_ok h
      have h := run_withBinding_eq_ok h
      unfold applyAdminChallengeAuthorize at h
      obtain ⟨_, -, h⟩ := run_query_bind_eq_ok.mp h
      obtain ⟨_, -, h⟩ := run_query_bind_eq_ok.mp h
      obtain ⟨_, -, h⟩ := run_orFail_bind_eq_ok.mp h
      obtain ⟨-, h⟩ := run_require_bind_eq_ok.mp h
      obtain ⟨authorization, s₁, hresolve, h⟩ := run_bind_eq_ok.mp h
      have hcases := authorizeChallengeBody_cases hresolve
      cases authorization with
      | rateLimited => cases h
      | resolved | exactReplay =>
          obtain ⟨-, rfl⟩ := run_pure_eq_ok.mp h
          rcases hcases with hsame | ⟨_, _, _, _, hguard, hissued, heq⟩
          · exact ⟨s, .quiet _, hsame⟩
          · exact ⟨_, .resolve hguard hissued, heq⟩
  | commitResponse request =>
      obtain ⟨_, h⟩ := run_forEffect_eq_ok h
      rcases commitNip46Response_cases h with ⟨-, rfl⟩ | ⟨hguard, rfl⟩
      · exact ⟨s, .quiet _, rfl⟩
      · exact ⟨_, .complete hguard, rfl⟩
  | commitPendingResponse request =>
      obtain ⟨_, h⟩ := run_forEffect_eq_ok h
      rcases commitNip46PendingResponse_cases h with ⟨-, rfl⟩ | ⟨hguard, rfl⟩
      · exact ⟨s, .quiet _, rfl⟩
      · exact ⟨_, .answerPending hguard, rfl⟩
  | commitDiscovery request =>
      obtain ⟨_, h⟩ := run_forEffect_eq_ok h
      exact SessionStep.of_outbox rfl
        (.bind (.orFail _ _) fun policy => commitDesired_keeps codec _ _ policy) h
  | promoteDiscovery => exact SessionStep.of_outbox rfl (promoteCurrent_keeps _ _) h
  | claimDelivery =>
      obtain ⟨_, h⟩ := run_forEffect_eq_ok h
      exact SessionStep.of_outbox rfl (keeps_outbox (claimTarget_keeps _ _ _ _)) h
  | markSubmitted =>
      obtain ⟨_, h⟩ := run_forEffect_eq_ok h
      exact SessionStep.of_outbox rfl (keeps_outbox (markSubmitted_keeps _ _ _ _)) h
  | recordOutcome =>
      obtain ⟨_, h⟩ := run_forEffect_eq_ok h
      exact SessionStep.of_outbox rfl (keeps_outbox (recordOutcome_keeps _ _ _ _ _ _)) h
  | recoverExpired =>
      obtain ⟨_, h⟩ := run_forEffect_eq_ok h
      exact SessionStep.of_outbox rfl (keeps_outbox (recoverExpired_keeps _ _ _ _ _)) h
  | recoverBatch =>
      obtain ⟨_, h⟩ := run_forEffect_eq_ok h
      exact SessionStep.of_outbox rfl (recoverBatch_keeps _ _ _ _ _ _) h
  | compactGovernance =>
      obtain ⟨_, h⟩ := run_forEffect_eq_ok h
      exact ⟨s, .quiet _, compactGovernance_keeps _ _ _ _ (run_withBinding_eq_ok h)⟩

/-! ## Applying a configuration -/

theorem run_revokeForConfiguration {current candidate : Configuration} {appliedAtUnixS : ℕ}
    {counts : ℕ × ℕ} {s s' : Store}
    (h : (revokeForConfiguration current candidate appliedAtUnixS).run s = .ok (counts, s')) :
    s' = s.reconfigured current candidate appliedAtUnixS := by
  unfold revokeForConfiguration at h
  unfold Store.reconfigured
  split at h
  next hidentity =>
    rw [if_pos hidentity]
    unfold revokeForIdentityChange at h
    obtain ⟨_, _, hactive, h⟩ := run_bind_eq_ok.mp h
    obtain ⟨_, _, hpending, h⟩ := run_bind_eq_ok.mp h
    obtain ⟨_, _, hchallenges, h⟩ := run_bind_eq_ok.mp h
    obtain ⟨-, rfl⟩ := run_pure_eq_ok.mp h
    obtain rfl := run_updateConnections hactive
    obtain rfl := run_updateConnections hpending
    exact run_updateChallenges hchallenges
  next hidentity =>
    rw [if_neg hidentity]
    split at h
    next hnarrowed =>
      rw [if_pos hnarrowed]
      unfold revokeForPermissionNarrowing at h
      obtain ⟨_, _, hconnections, h⟩ := run_bind_eq_ok.mp h
      obtain ⟨_, _, hchallenges, h⟩ := run_bind_eq_ok.mp h
      obtain ⟨-, rfl⟩ := run_pure_eq_ok.mp h
      unfold updateAffectedConnections at hconnections
      obtain ⟨_, hexceeding, hconnections⟩ := run_query_bind_eq_ok.mp hconnections
      obtain rfl := Except.ok.inj hexceeding
      obtain rfl := run_updateConnections hconnections
      unfold updateAffectedChallenges at hchallenges
      obtain ⟨_, hexceeding, hchallenges⟩ := run_query_bind_eq_ok.mp hchallenges
      obtain rfl := Except.ok.inj hexceeding
      exact run_updateChallenges hchallenges
    next hnarrowed =>
      rw [if_neg hnarrowed]
      obtain ⟨-, rfl⟩ := run_pure_eq_ok.mp h
      rfl

theorem run_readLatestHeader {latest : ConfigBindingRow} {s s' : Store}
    (h : readLatestHeader.run s = .ok (latest, s')) : s = s' := by
  unfold readLatestHeader at h
  obtain ⟨_, -, h⟩ := run_query_bind_eq_ok.mp h
  obtain ⟨_, -, h⟩ := run_orFail_bind_eq_ok.mp h
  obtain ⟨-, h⟩ := run_require_bind_eq_ok.mp h
  exact (run_pure_eq_ok.mp h).2

/-- A committed application is a replay, or ends what the new configuration ends. -/
theorem applyConfiguration_cases {current candidate : Configuration} {appliedAtUnixS : ℕ}
    {outcome : ConfigApplyOutcome} {s s' : Store}
    (h : (applyConfiguration current candidate appliedAtUnixS).run s = .ok (outcome, s')) :
    (candidate.metadata = current.metadata ∧ s = s') ∨
      candidate.metadata ≠ current.metadata ∧ ∃ bindings, s' =
        { s.reconfigured current candidate appliedAtUnixS with configBindings := bindings } := by
  unfold applyConfiguration at h
  obtain ⟨_, s₁, hmetadata, h⟩ := run_bind_eq_ok.mp h
  obtain rfl := (run_requireExpectedMetadata_eq_ok hmetadata).symm
  obtain ⟨latest, s₂, hlatest, h⟩ := run_bind_eq_ok.mp h
  obtain rfl := run_readLatestHeader hlatest
  split at h
  next hsame =>
    exact .inl ⟨hsame, (run_pure_eq_ok.mp h).2⟩
  next hdiffers =>
    obtain ⟨-, h⟩ := run_require_bind_eq_ok.mp h
    obtain ⟨-, h⟩ := run_require_bind_eq_ok.mp h
    obtain ⟨_, -, h⟩ := run_query_bind_eq_ok.mp h
    obtain ⟨-, h⟩ := run_require_bind_eq_ok.mp h
    obtain ⟨_, _, hrevoke, h⟩ := run_bind_eq_ok.mp h
    obtain ⟨_, _, hinsert, h⟩ := run_bind_eq_ok.mp h
    obtain ⟨_, s₄, hexpected, h⟩ := run_bind_eq_ok.mp h
    obtain ⟨_, _, hactual, h⟩ := run_bind_eq_ok.mp h
    obtain ⟨-, h⟩ := run_require_bind_eq_ok.mp h
    obtain ⟨-, rfl⟩ := run_pure_eq_ok.mp h
    obtain rfl := run_revokeForConfiguration hrevoke
    obtain ⟨-, rfl⟩ := configBindingsTable.run_insert_eq_ok.mp hinsert
    obtain rfl := run_readLatestHeader hactual
    exact .inr ⟨hdiffers, _, run_requireExpectedMetadata_eq_ok hexpected⟩

end MycSigner
