import MycSigner.Governance.Attempts
import MycSigner.Governance.Audit
import MycSigner.Sessions.Refinement

/-!
# Governance in the running service

The audit trail and the rate windows change in three ways: an operation records itself with
the evidence of its request, it counts itself in the windows of its subjects, or compaction
removes old rows.  What all three keep, every operation of the service keeps.
-/

namespace MycSigner

open Transaction

/-- The tables of governance. -/
def Store.trail (s : Store) : ℕ × List AuditRow × List RequestAuditRow × List RateWindowRow :=
  (s.nextAuditSequence, s.audit, s.requestAudit, s.rateWindows)

/-- The tables of governance and the requests that they name. -/
def Store.governance (s : Store) :
    List RequestRow × ℕ × List AuditRow × List RequestAuditRow × List RateWindowRow :=
  (s.requests, s.trail)

/-- The store after a compaction has removed its rows. -/
def Store.compacted (s : Store) (sequences : List ℕ) (windows : List RateWindowRow) : Store :=
  { s with
    requestAudit := s.requestAudit.filter fun row => row.auditSequence ∉ sequences
    audit := s.audit.filter fun row => row.auditSequence ∉ sequences
    rateWindows := s.rateWindows.filter fun row => row ∉ windows }

/-- The rate policies of a configuration. -/
def Configuration.ratePolicies (config : Configuration) : List RateLimitPolicy :=
  [config.governance.connectionAdmission, config.governance.challengeCreation,
    config.governance.challengeAuthorization]

/-- What the three changes of governance keep. -/
structure GovernanceInvariant (config : Configuration) (Inv : Store → Prop) : Prop where
  grows : ∀ {s s' : Store}, s'.trail = s.trail → RequestsGrow s s' → Inv s → Inv s'
  recorded : ∀ {s : Store} {evidence : AuditEvidence} {kind : AuditKind} {outcome : AuditOutcome}
    {reason : AuditReason}, evidence.BoundIn s kind →
    readAuditById s (deriveAuditId evidence.correlation kind) = .ok none →
    Recordable s evidence kind outcome reason → Inv s →
    Inv (s.recorded evidence kind outcome reason)
  counted : ∀ {s s' : Store} {policy : RateLimitPolicy} {subjects : List RateSubject}
    {observedAt : TimeUnixMs} {admitted : Bool}, policy ∈ config.ratePolicies →
    (∀ subject ∈ subjects, subject.scope.allowedFor policy.rateClass = true) →
    (subjects.map RateSubject.scope).Nodup → Counted policy subjects observedAt admitted s s' → Inv s → Inv s'
  compacted : ∀ {s : Store} (sequences : List ℕ) (windows : List RateWindowRow), Inv s →
    Inv (s.compacted sequences windows)

/-- The invariant is kept while the request that a transaction works for stays stored. -/
def Governs (Inv : Store → Prop) (request : Option RequestRow) (s s' : Store) : Prop :=
  (∀ row ∈ request, row ∈ s.requests) → (∀ row ∈ request, row ∈ s'.requests) ∧ (Inv s → Inv s')

instance (Inv : Store → Prop) (request : Option RequestRow) : Std.Refl (Governs Inv request) :=
  ⟨fun _ h => ⟨h, fun inv => inv⟩⟩

instance (Inv : Store → Prop) (request : Option RequestRow) :
    IsTrans Store (Governs Inv request) :=
  ⟨fun _ _ _ first second h =>
    ⟨(second (first h).1).1, fun inv => (second (first h).1).2 ((first h).2 inv)⟩⟩

/-- The evidence of a transaction that works for a request, or for none. -/
def AuditEvidence.Of (evidence : AuditEvidence) (request : Option RequestRow) (kind : AuditKind) :
    Prop :=
  match request with
  | some row => evidence.operationId = some row.operationId ∧
      evidence.correlation = row.correlationId ∧ kind.requestBound = true
  | none => evidence.operationId = none ∧ kind.requestBound = false

theorem AuditEvidence.Of.boundIn {evidence : AuditEvidence} {request : Option RequestRow}
    {kind : AuditKind} (h : evidence.Of request kind) {s : Store}
    (hstored : ∀ row ∈ request, row ∈ s.requests) : evidence.BoundIn s kind := by
  unfold AuditEvidence.BoundIn
  cases request with
  | none =>
      rw [h.1]
      exact h.2
  | some row =>
      rw [h.1]
      exact ⟨h.2.2, row, hstored row rfl, rfl, h.2.1.symm⟩

section
variable {config : Configuration} {Inv : Store → Prop} {request : Option RequestRow}

/-- A body that leaves governance alone governs. -/
theorem governs_of_keeps (hinv : GovernanceInvariant config Inv) {α : Type} {body : Tx α}
    (h : Keeps Store.governance body) : Respects (Governs Inv request) body := by
  intro s a s' hrun hstored
  have hkept := h hrun
  have hrequests : s'.requests = s.requests := congrArg Prod.fst hkept
  exact ⟨by rwa [hrequests], hinv.grows (congrArg Prod.snd hkept) (.of_eq hrequests)⟩

theorem recordAudit_governs (hinv : GovernanceInvariant config Inv) {evidence : AuditEvidence}
    {kind : AuditKind} (hof : evidence.Of request kind) (outcome : AuditOutcome)
    (reason : AuditReason) :
    Respects (Governs Inv request) (recordAudit evidence kind outcome reason) := by
  intro s _ s' hrun hstored
  rcases recordAudit_cases hrun with rfl | ⟨hnone, hrecordable, rfl⟩
  · exact ⟨hstored, fun inv => inv⟩
  · exact ⟨hstored, hinv.recorded (hof.boundIn hstored) hnone hrecordable⟩

theorem governRateAttempt_governs (hinv : GovernanceInvariant config Inv)
    {policy : RateLimitPolicy} (hpolicy : policy ∈ config.ratePolicies)
    {subjects : List RateSubject}
    (hscopes : ∀ subject ∈ subjects, subject.scope.allowedFor policy.rateClass = true)
    (hdistinct : (subjects.map RateSubject.scope).Nodup)
    {evidence : AuditEvidence} {kind : AuditKind} (hof : evidence.Of request kind)
    (expectedClass : RateLimitClass) :
    Respects (Governs Inv request)
      (governRateAttempt policy expectedClass subjects evidence kind) := by
  intro s admitted s' hrun hstored
  obtain ⟨-, ⟨-, rfl, -⟩ | ⟨-, s₁, hcounted, hend⟩⟩ := governRateAttempt_cases hrun
  · exact ⟨hstored, fun inv => inv⟩
  · have hrequests : s₁.requests = s.requests := by rw [hcounted.frame]
    rcases hend with ⟨-, rfl⟩ | ⟨-, hrecord⟩
    · exact ⟨by rwa [hrequests], hinv.counted hpolicy hscopes hdistinct hcounted⟩
    · obtain ⟨hstored', hkeeps⟩ := recordAudit_governs hinv hof _ _ hrecord (by rwa [hrequests])
      exact ⟨hstored', fun inv => hkeeps (hinv.counted hpolicy hscopes hdistinct hcounted inv)⟩

/-- What a compaction leaves behind. -/
theorem compactGovernance_cases {observedAt : TimeUnixMs}
    {auditRetentionMs maximumRowsPerClass : ℕ} {correlation : Id32} {s s' : Store} {u : Unit}
    (h : (compactGovernance observedAt auditRetentionMs maximumRowsPerClass correlation).run s =
      .ok (u, s')) :
    s' = s ∨ ∃ sequences windows,
      (recordAudit ⟨correlation, observedAt, none⟩ .governanceCompaction .succeeded .compacted).run
        (s.compacted sequences windows) = .ok (u, s') := by
  unfold compactGovernance at h
  obtain ⟨existing, -, h⟩ := run_query_bind_eq_ok.mp h
  cases existing with
  | some existing =>
      obtain ⟨-, rfl⟩ := run_require_eq_ok.mp h
      exact .inl rfl
  | none =>
      obtain ⟨sequences, hsequences, h⟩ := run_query_bind_eq_ok.mp h
      obtain ⟨windows, hwindows, h⟩ := run_query_bind_eq_ok.mp h
      obtain ⟨_, s₁, haudit, h⟩ := run_bind_eq_ok.mp h
      cases run_modify_eq_ok.mp haudit
      obtain ⟨_, s₂, hrates, h⟩ := run_bind_eq_ok.mp h
      cases run_modify_eq_ok.mp hrates
      obtain ⟨-, h⟩ := run_require_bind_eq_ok.mp h
      exact .inr ⟨sequences, windows, h⟩

theorem compactGovernance_governs (hinv : GovernanceInvariant config Inv) (observedAt : TimeUnixMs)
    (auditRetentionMs maximumRowsPerClass : ℕ) (correlation : Id32) :
    Respects (Governs Inv none)
      (compactGovernance observedAt auditRetentionMs maximumRowsPerClass correlation) := by
  intro s _ s' hrun _
  refine ⟨by simp, fun inv => ?_⟩
  rcases compactGovernance_cases hrun with rfl | ⟨sequences, windows, hrecord⟩
  · exact inv
  · have hgoverns := @recordAudit_governs config Inv none hinv _ _ ⟨rfl, rfl⟩ _ _ _ _ _ hrecord
    exact (hgoverns (by simp)).2 (hinv.compacted sequences windows inv)

/-! ## Bodies that leave governance alone -/

theorem insertPermissions_keeps_governance (connectionId : Id32) (scope : PermissionScope)
    (set : PermissionSet) : Keeps Store.governance (insertPermissions connectionId scope set) :=
  .forM _ fun _ => permissionsTable.respects_insert fun _ _ => rfl

theorem insertConnection_keeps_governance (admission : AdmissionRequest) :
    Keeps Store.governance (insertConnection admission) := by
  unfold insertConnection
  cases admission.policy with
  | trusted =>
      exact .bind (connectionsTable.respects_insert fun _ _ => rfl) fun _ =>
        .bind (insertPermissions_keeps_governance _ _ _) fun _ =>
          .bind (insertPermissions_keeps_governance _ _ _) fun _ => .pure _
  | explicitApproval =>
      exact .bind (connectionsTable.respects_insert fun _ _ => rfl) fun _ =>
        .bind (insertPermissions_keeps_governance _ _ _) fun _ => .pure _
  | denied => exact .pure _

theorem insertDecision_keeps_governance (row : DecisionRow) :
    Keeps Store.governance (insertDecision row) :=
  decisionsTable.respects_insert fun _ _ => rfl

theorem updateConnections_keeps_governance (matching : ConnectionRow → Bool)
    (set : ConnectionRow → ConnectionRow) : Keeps Store.governance (updateConnections matching set) :=
  connectionsTable.respects_update fun _ _ => rfl

theorem updateDecisions_keeps_governance (matching : DecisionRow → Bool)
    (set : DecisionRow → DecisionRow) : Keeps Store.governance (updateDecisions matching set) :=
  decisionsTable.respects_update fun _ _ => rfl

theorem updateChallenges_keeps_governance (matching : ChallengeRow → Bool)
    (set : ChallengeRow → ChallengeRow) : Keeps Store.governance (updateChallenges matching set) :=
  challengesTable.respects_update fun _ _ => rfl

/-! ## Operations -/

theorem governAdmission_governs (hinv : GovernanceInvariant config Inv)
    {admission : AdmissionRequest} {evidence : AuditEvidence}
    (hof : evidence.Of request .connectionAdmission) :
    Respects (Governs Inv request)
      (governAdmission config.governance.connectionAdmission admission evidence) := by
  unfold governAdmission
  split
  next => exact .pure _
  next =>
    refine governRateAttempt_governs hinv (List.mem_cons_self ..) ?_ ?_ hof _
    · rw [config.governance.admission_class]
      simp [RateSubject.scope, relaySubject, SubjectScope.allowedFor]
    · simp [RateSubject.scope, relaySubject]

theorem decideAdmission_governs (hinv : GovernanceInvariant config Inv)
    {admission : AdmissionRequest} {evidence : AuditEvidence}
    (hof : evidence.Of request .connectionAdmission) :
    Respects (Governs Inv request)
      (decideAdmission config.governance.connectionAdmission admission evidence) := by
  unfold decideAdmission
  refine .bind (governAdmission_governs hinv hof) fun governed => ?_
  cases governed with
  | false => exact .pure _
  | true =>
      exact .bind (governs_of_keeps hinv (insertConnection_keeps_governance _)) fun _ =>
        .bind (governs_of_keeps hinv (insertDecision_keeps_governance _)) fun _ =>
          .bind (.query _) fun _ => .bind (.orFail _ _) fun _ => .bind (.query _) fun _ =>
            .bind (recordAudit_governs hinv hof _ _) fun _ => .pure _

/-- A body that works for a request it has read. -/
theorem governs_request {α : Type} {operationId : Id32} {next : RequestRow → Tx α}
    (h : ∀ row : RequestRow, row.operationId = operationId →
      Respects (Governs Inv (some row)) (next row)) :
    Respects (fun s s' => Inv s → Inv s')
      (query (readRequestBinding · operationId) >>= next) := by
  intro s a s' hrun
  obtain ⟨row, hread, hrun⟩ := run_query_bind_eq_ok.mp hrun
  obtain ⟨hmem, hid⟩ := readRequestBinding_eq_ok hread
  refine (h row hid hrun ?_).2
  rintro _ ⟨⟩
  exact hmem

theorem admitConnectionBody_preserves (hinv : GovernanceInvariant config Inv)
    (admission : AdmissionRequest) :
    Respects (fun s s' => Inv s → Inv s')
      (admitConnectionBody config.governance.connectionAdmission admission) := by
  unfold admitConnectionBody
  refine governs_request fun row hid => .bind (.require _ _) fun _ => .bind (.query _) fun existing => ?_
  cases existing with
  | some existing =>
      unfold replayAdmission
      exact .bind (.bind (.require _ _) fun _ => .bind (.query _) fun _ => .bind (.require _ _)
        fun _ => .pure _) fun _ => .pure _
  | none => exact decideAdmission_governs hinv ⟨congrArg some hid.symm, rfl, rfl⟩

/-- A body that works for no request. -/
theorem preserves_of_governs {α : Type} {body : Tx α} (h : Respects (Governs Inv none) body) :
    Respects (fun s s' => Inv s → Inv s') body := by
  intro s a s' hrun
  exact (h hrun (by simp)).2

theorem recordOperatorAudit_governs (hinv : GovernanceInvariant config Inv) (correlation : Id32)
    (occurredAt : TimeUnixMs) (outcome : AuditOutcome) (reason : AuditReason) :
    Respects (Governs Inv none) (recordOperatorAudit correlation occurredAt outcome reason) := by
  unfold recordOperatorAudit
  refine recordAudit_governs hinv ?_ _ _
  exact ⟨rfl, rfl⟩

theorem updateApprovalDecision_keeps_governance (operationId connectionId : Id32)
    (generation : PolicyGeneration) (observedAt : TimeUnixMs) (decision : Decision)
    (reason : DecisionReason) :
    Keeps Store.governance
      (updateApprovalDecision operationId connectionId generation observedAt decision reason) :=
  .bind (updateDecisions_keeps_governance _ _) fun _ => .require _ _

theorem approveConnection_governs (hinv : GovernanceInvariant config Inv)
    (operationId connectionId : Id32) (generation : PolicyGeneration) (observedAt : TimeUnixMs)
    (correlation : Id32) (existing : DecisionRow) (connection : ConnectionRecord)
    (granted : PermissionSet) (authorizedUntil : Option TimeUnixMs) :
    Respects (Governs Inv none)
      (approveConnection operationId connectionId generation observedAt correlation existing
        connection granted authorizedUntil) := by
  unfold approveConnection
  refine .bind (.require _ _) fun _ => ?_
  split
  next =>
    exact .bind (.require _ _) fun _ =>
      .bind (recordOperatorAudit_governs hinv _ _ _ _) fun _ => .pure _
  next =>
    exact .bind (.require _ _) fun _ =>
      .bind (governs_of_keeps hinv (insertPermissions_keeps_governance _ _ _)) fun _ =>
        .bind (governs_of_keeps hinv (updateConnections_keeps_governance _ _)) fun _ =>
          .bind (.require _ _) fun _ =>
            .bind (governs_of_keeps hinv (updateApprovalDecision_keeps_governance _ _ _ _ _ _))
              fun _ => .bind (.query _) fun _ =>
                .bind (recordOperatorAudit_governs hinv _ _ _ _) fun _ => .pure _

theorem denyConnection_governs (hinv : GovernanceInvariant config Inv)
    (operationId connectionId : Id32) (generation : PolicyGeneration) (observedAt : TimeUnixMs)
    (correlation : Id32) (existing : DecisionRow) (connection : ConnectionRecord) :
    Respects (Governs Inv none)
      (denyConnection operationId connectionId generation observedAt correlation existing
        connection) := by
  unfold denyConnection
  split
  next => exact .bind (recordOperatorAudit_governs hinv _ _ _ _) fun _ => .pure _
  next =>
    exact .bind (.require _ _) fun _ =>
      .bind (governs_of_keeps hinv (updateConnections_keeps_governance _ _)) fun _ =>
        .bind (.require _ _) fun _ =>
          .bind (governs_of_keeps hinv (updateApprovalDecision_keeps_governance _ _ _ _ _ _))
            fun _ => .bind (.query _) fun _ =>
              .bind (recordOperatorAudit_governs hinv _ _ _ _) fun _ => .pure _

theorem decideConnection_governs (hinv : GovernanceInvariant config Inv)
    (operationId connectionId : Id32) (generation : PolicyGeneration) (observedAt : TimeUnixMs)
    (correlation : Id32) (decision : OperatorDecision) :
    Respects (Governs Inv none)
      (decideConnection operationId connectionId generation observedAt correlation decision) := by
  unfold decideConnection
  refine .bind (.query _) fun _ => .bind (.orFail _ _) fun existing => .bind (.require _ _) fun _ =>
    .bind (.query _) fun connection => .bind (.require _ _) fun _ => ?_
  cases decision with
  | approve granted authorizedUntil => exact approveConnection_governs hinv _ _ _ _ _ _ _ _ _
  | deny => exact denyConnection_governs hinv _ _ _ _ _ _ _

theorem applyAdminConnectionMutation_governs (hinv : GovernanceInvariant config Inv)
    (connectionId : Id32) (generation : PolicyGeneration) (observedAt : TimeUnixMs)
    (correlation : Id32) (action : AdminAction) :
    Respects (Governs Inv none)
      (applyAdminConnectionMutation connectionId generation observedAt correlation action) := by
  unfold applyAdminConnectionMutation
  refine .bind (.query _) fun before => .bind (.require _ _) fun _ => ?_
  cases action with
  | approve permissions authorizedUntil =>
      exact .bind (.query _) fun _ => .bind (decideConnection_governs hinv _ _ _ _ _ _) fun _ =>
        .pure _
  | reject =>
      exact .bind (.query _) fun _ => .bind (decideConnection_governs hinv _ _ _ _ _ _) fun _ =>
        .pure _
  | revoke =>
      refine .bind ?_ fun _ => .pure _
      unfold revokeConnection
      split
      next => exact .pure _
      next =>
        exact .bind (.require _ _) fun _ =>
          .bind (governs_of_keeps hinv (updateConnections_keeps_governance _ _)) fun _ =>
            .bind (.require _ _) fun _ => .bind (.query _) fun _ =>
              .bind (recordOperatorAudit_governs hinv _ _ _ _) fun _ => .pure _

theorem recordConnectionExpiryAudit_governs (hinv : GovernanceInvariant config Inv)
    (correlation : Id32) (occurredAt : TimeUnixMs) :
    Respects (Governs Inv none) (recordConnectionExpiryAudit correlation occurredAt) := by
  unfold recordConnectionExpiryAudit
  refine recordAudit_governs hinv ?_ _ _
  exact ⟨rfl, rfl⟩

theorem expireConnection_governs (hinv : GovernanceInvariant config Inv) (connectionId : Id32)
    (generation : PolicyGeneration) (observedAt : TimeUnixMs) (correlation : Id32) :
    Respects (Governs Inv none)
      (expireConnection connectionId generation observedAt correlation) := by
  unfold expireConnection
  refine .bind (.query _) fun before => .bind (.require _ _) fun _ => ?_
  split
  next => exact .bind (recordConnectionExpiryAudit_governs hinv _ _) fun _ => .pure _
  next =>
    exact .bind (.require _ _) fun _ =>
      .bind (governs_of_keeps hinv (updateConnections_keeps_governance _ _)) fun _ =>
        .bind (.require _ _) fun _ => .bind (.query _) fun _ =>
          .bind (recordConnectionExpiryAudit_governs hinv _ _) fun _ => .pure _

/-! ## Challenges -/

theorem createChallenge_governs (hinv : GovernanceInvariant config Inv)
    (challenge : ChallengeRequest) {row : RequestRow}
    (hid : row.operationId = challenge.operationId) (connection : ConnectionRecord) :
    Respects (Governs Inv (some row))
      (createChallenge config.governance.challengeCreation challenge row connection) := by
  have hof : AuditEvidence.Of
      ⟨row.correlationId, challenge.issuedAt, some challenge.operationId⟩ (some row)
      .challengeCreation := ⟨congrArg some hid.symm, rfl, rfl⟩
  unfold createChallenge
  refine .bind (.require _ _) fun _ => .bind (.query _) fun _ => .bind (.require _ _) fun _ =>
    .bind (governRateAttempt_governs hinv (by simp [Configuration.ratePolicies]) ?_
      (by simp) hof _) fun governed => ?_
  · rw [config.governance.creation_class]
    simp [RateSubject.scope, SubjectScope.allowedFor]
  · cases governed with
    | false => exact .pure _
    | true =>
        exact .bind (governs_of_keeps hinv (challengesTable.respects_insert fun _ _ => rfl)) fun _ =>
          .bind (governs_of_keeps hinv (insertDecision_keeps_governance _)) fun _ =>
            .bind (.query _) fun _ => .bind (.orFail _ _) fun _ =>
              .bind (recordAudit_governs hinv hof _ _) fun _ => .pure _

theorem issueChallenge_preserves (hinv : GovernanceInvariant config Inv)
    (challenge : ChallengeRequest) :
    Respects (fun s s' => Inv s → Inv s')
      (issueChallenge config.governance.challengeCreation challenge) := by
  unfold issueChallenge
  refine governs_request fun row hid => .bind (.require _ _) fun _ => .bind (.query _)
    fun connection => .bind (.require _ _) fun _ => .bind (.query _) fun existing => ?_
  cases existing with
  | some existing => exact .bind (.require _ _) fun _ => .pure _
  | none => exact createChallenge_governs hinv challenge hid connection

theorem resolveChallenge_governs (hinv : GovernanceInvariant config Inv) (before : ChallengeRow)
    (connection : ConnectionRecord) {evidence : AuditEvidence}
    (hof : evidence.Of request .challengeAuthorization) (observedAt : TimeUnixMs) :
    Respects (Governs Inv request) (resolveChallenge before connection evidence observedAt) := by
  unfold resolveChallenge
  refine .bind (governs_of_keeps hinv (updateChallenges_keeps_governance _ _)) fun _ =>
    .bind (.require _ _) fun _ =>
      .bind (governs_of_keeps hinv (updateDecisions_keeps_governance _ _)) fun _ =>
        .bind (.require _ _) fun _ => .bind (.query _) fun _ => .bind (.orFail _ _) fun _ => ?_
  dsimp only
  split
  next => exact .bind (recordAudit_governs hinv hof _ _) fun _ => .pure _
  next => exact .bind (recordAudit_governs hinv hof _ _) fun _ => .pure _

theorem authorizeChallengeBody_preserves (hinv : GovernanceInvariant config Inv)
    (challengeId connectionId operationId : Id32) (generation : PolicyGeneration)
    (observedAt : TimeUnixMs) :
    Respects (fun s s' => Inv s → Inv s')
      (authorizeChallengeBody config.governance.challengeAuthorization challengeId connectionId
        operationId generation observedAt) := by
  unfold authorizeChallengeBody
  refine .bind (.query _) fun _ => .bind (.orFail _ _) fun before => .bind (.require _ _) fun _ =>
    governs_request fun row hid => .bind (.query _) fun connection => .bind (.require _ _)
      fun _ => ?_
  split
  next => exact .pure _
  next =>
    have hof : AuditEvidence.Of ⟨row.correlationId, observedAt, some operationId⟩ (some row)
        .challengeAuthorization := ⟨congrArg some hid.symm, rfl, rfl⟩
    refine .bind (governRateAttempt_governs hinv (by simp [Configuration.ratePolicies]) ?_
      (by simp) hof _) fun governed => ?_
    · rw [config.governance.authorization_class]
      simp [RateSubject.scope, SubjectScope.allowedFor]
    · cases governed with
      | false => exact .pure _
      | true => exact resolveChallenge_governs hinv before connection hof observedAt

/-! ## The running service -/

/-- A body of the outbox leaves governance alone. -/
theorem preserves_of_outbox (hinv : GovernanceInvariant config Inv) {α : Type} {body : Tx α}
    (h : Keeps Store.withoutOutbox body) : Respects (fun s s' => Inv s → Inv s') body := by
  intro s a s' hrun
  have hkept := h hrun
  have htrail : s'.trail = s.trail := (congrArg Store.trail hkept :)
  have hrequests : s'.requests = s.requests := (congrArg Store.requests hkept :)
  exact hinv.grows htrail (.of_eq hrequests)

/-- A committed operation keeps what governance keeps. -/
theorem GovernanceInvariant.operation (hinv : GovernanceInvariant config Inv) {codec : EventCodec}
    {operation : Operation} {s s' : Store} {u : Unit}
    (h : (operation.body codec config).run s = .ok (u, s')) (inv : Inv s) : Inv s' := by
  cases operation with
  | admitRequest request =>
      obtain ⟨_, h⟩ := run_forEffect_eq_ok h
      have hadmits := admitRequest_admits request (run_withBinding_eq_ok h)
      have htrail : s'.trail = s.trail := (congrArg Store.trail hadmits.outside :)
      exact hinv.grows htrail hadmits.grows inv
  | admitConnection request =>
      obtain ⟨_, h⟩ := run_forEffect_eq_ok h
      unfold admitConnection at h
      obtain ⟨-, h⟩ := run_require_bind_eq_ok.mp h
      exact admitConnectionBody_preserves hinv request (run_withBinding_eq_ok h) inv
  | decidePending operationId connectionId generation observedAt correlation decision =>
      obtain ⟨_, h⟩ := run_forEffect_eq_ok h
      unfold decidePendingConnection at h
      obtain ⟨-, h⟩ := run_require_bind_eq_ok.mp h
      exact preserves_of_governs (decideConnection_governs hinv _ _ _ _ _ _)
        (run_withBinding_eq_ok h) inv
  | adminConnection =>
      obtain ⟨_, h⟩ := run_forEffect_eq_ok h
      exact preserves_of_governs (applyAdminConnectionMutation_governs hinv _ _ _ _ _)
        (run_withBinding_eq_ok h) inv
  | expireConnection =>
      obtain ⟨_, h⟩ := run_forEffect_eq_ok h
      exact preserves_of_governs (expireConnection_governs hinv _ _ _ _)
        (run_withBinding_eq_ok h) inv
  | issueChallenge request =>
      obtain ⟨_, h⟩ := run_forEffect_eq_ok h
      unfold issueAuthorizationChallenge at h
      obtain ⟨-, h⟩ := run_require_bind_eq_ok.mp h
      exact issueChallenge_preserves hinv request (run_withBinding_eq_ok h) inv
  | authorizeChallenge =>
      obtain ⟨_, h⟩ := run_forEffect_eq_ok h
      exact authorizeChallengeBody_preserves hinv _ _ _ _ _ (run_withBinding_eq_ok h) inv
  | adminRequireChallenge request =>
      obtain ⟨-, h⟩ := run_require_bind_eq_ok.mp h
      obtain ⟨_, h⟩ := run_forEffect_eq_ok h
      have h := run_withBinding_eq_ok h
      unfold applyAdminChallengeRequire at h
      obtain ⟨admission, s₁, hissue, h⟩ := run_bind_eq_ok.mp h
      have inv₁ := issueChallenge_preserves hinv request hissue inv
      cases admission with
      | rateLimited => cases h
      | created | exactReplay =>
          obtain ⟨-, rfl⟩ := run_pure_eq_ok.mp h
          exact inv₁
  | adminAuthorizeChallenge =>
      obtain ⟨_, h⟩ := run_forEffect_eq_ok h
      have h := run_withBinding_eq_ok h
      unfold applyAdminChallengeAuthorize at h
      obtain ⟨_, -, h⟩ := run_query_bind_eq_ok.mp h
      obtain ⟨_, -, h⟩ := run_query_bind_eq_ok.mp h
      obtain ⟨_, -, h⟩ := run_orFail_bind_eq_ok.mp h
      obtain ⟨-, h⟩ := run_require_bind_eq_ok.mp h
      obtain ⟨authorization, s₁, hresolve, h⟩ := run_bind_eq_ok.mp h
      have inv₁ := authorizeChallengeBody_preserves hinv _ _ _ _ _ hresolve inv
      cases authorization with
      | rateLimited => cases h
      | resolved | exactReplay =>
          obtain ⟨-, rfl⟩ := run_pure_eq_ok.mp h
          exact inv₁
  | commitResponse request =>
      obtain ⟨_, h⟩ := run_forEffect_eq_ok h
      rcases commitNip46Response_cases h with ⟨-, rfl⟩ | ⟨-, rfl⟩
      · exact inv
      · have htrail : (s.completed request config.delivery).trail = s.trail := rfl
        exact hinv.grows htrail (.of_eq rfl) inv
  | commitPendingResponse request =>
      obtain ⟨_, h⟩ := run_forEffect_eq_ok h
      rcases commitNip46PendingResponse_cases h with ⟨-, rfl⟩ | ⟨-, rfl⟩
      · exact inv
      · have htrail : (s.answeredPending request config.delivery).trail = s.trail := rfl
        exact hinv.grows htrail (.of_eq rfl) inv
  | commitDiscovery request =>
      obtain ⟨_, h⟩ := run_forEffect_eq_ok h
      exact preserves_of_outbox hinv
        (.bind (.orFail _ _) fun policy => commitDesired_keeps codec _ _ policy)
        (run_withBinding_eq_ok h) inv
  | promoteDiscovery =>
      exact preserves_of_outbox hinv (promoteCurrent_keeps _ _) (run_withBinding_eq_ok h) inv
  | claimDelivery =>
      obtain ⟨_, h⟩ := run_forEffect_eq_ok h
      exact preserves_of_outbox hinv (keeps_outbox (claimTarget_keeps _ _ _ _))
        (run_withBinding_eq_ok h) inv
  | markSubmitted =>
      obtain ⟨_, h⟩ := run_forEffect_eq_ok h
      exact preserves_of_outbox hinv (keeps_outbox (markSubmitted_keeps _ _ _ _))
        (run_withBinding_eq_ok h) inv
  | recordOutcome =>
      obtain ⟨_, h⟩ := run_forEffect_eq_ok h
      exact preserves_of_outbox hinv (keeps_outbox (recordOutcome_keeps _ _ _ _ _ _))
        (run_withBinding_eq_ok h) inv
  | recoverExpired =>
      obtain ⟨_, h⟩ := run_forEffect_eq_ok h
      exact preserves_of_outbox hinv (keeps_outbox (recoverExpired_keeps _ _ _ _ _))
        (run_withBinding_eq_ok h) inv
  | recoverBatch =>
      obtain ⟨_, h⟩ := run_forEffect_eq_ok h
      exact preserves_of_outbox hinv (recoverBatch_keeps _ _ _ _ _ _) (run_withBinding_eq_ok h) inv
  | compactGovernance =>
      obtain ⟨_, h⟩ := run_forEffect_eq_ok h
      exact preserves_of_governs (compactGovernance_governs hinv _ _ _ _)
        (run_withBinding_eq_ok h) inv

/-- An application of a configuration leaves governance alone. -/
theorem GovernanceInvariant.apply (hinv : GovernanceInvariant config Inv)
    {current candidate : Configuration} {appliedAtUnixS : ℕ} {outcome : ConfigApplyOutcome}
    {s s' : Store}
    (h : (applyConfiguration current candidate appliedAtUnixS).run s = .ok (outcome, s'))
    (inv : Inv s) : Inv s' := by
  rcases applyConfiguration_cases h with ⟨-, rfl⟩ | ⟨-, bindings, rfl⟩
  · exact inv
  · refine hinv.grows ?_ (.of_eq ?_) inv
    · unfold Store.reconfigured
      split
      next => rfl
      next => split <;> rfl
    · unfold Store.reconfigured
      split
      next => rfl
      next => split <;> rfl

end

/-- What governance keeps under every configuration is kept by every run. -/
theorem GovernanceInvariant.after {Inv : Store → Prop}
    (hinv : ∀ config, GovernanceInvariant config Inv) (codec : EventCodec) {system : System}
    (hinit : Inv system.store) (events : List Event) :
    Inv (Run.after (System.perform codec) system events).store := by
  refine Run.invariant_always (I := fun system : System => Inv system.store) ?_ events hinit
  intro system event inv
  refine System.perform_cases (R := fun next => Inv next.store) event inv ?_ ?_
  · intro operation u s' _ hrun
    exact (hinv system.config).operation hrun inv
  · intro candidate appliedAt outcome s' _ hrun
    exact (hinv system.config).apply hrun inv

/-- What governance keeps under every configuration holds of every reachable store. -/
theorem GovernanceInvariant.reachable {Inv : Store → Prop}
    (hinv : ∀ config, GovernanceInvariant config Inv) (codec : EventCodec) (config : Configuration)
    (appliedAtUnixS : ℕ) (hinit : Inv (Store.initial config.metadata appliedAtUnixS))
    (events : List Event) :
    Inv (Run.after (System.perform codec) (System.initial config appliedAtUnixS) events).store :=
  GovernanceInvariant.after hinv codec hinit events

end MycSigner
