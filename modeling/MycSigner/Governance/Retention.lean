import MycSigner.Governance.Refusals
import MycSigner.Sessions.Challenges

/-!
# Retained refusals

A refusal names its operation through the link of its record.  While the record is stored no
path grants the operation, so the operation stays ungranted along every run, whatever other
operations and changes of configuration it holds.
-/

namespace MycSigner

open Transaction

/-- A stored record of a refused attempt of an operation. -/
structure Refusal (s : Store) (row : AuditRow) (operationId : Id32) : Prop where
  stored : row ∈ s.audit
  reason : row.reasonCode = .rateLimited
  linked : ∃ link ∈ s.requestAudit, link.auditSequence = row.auditSequence ∧
    link.operationId = operationId

section
variable {s s' : Store} {row : AuditRow} {operationId : Id32} {config : Configuration}

/-! ## The paths of a refused operation -/

/-- The request of a refused operation finds the record. -/
theorem Refusal.recorded (refusal : Refusal s row operationId) (inv : AuditInv s)
    {request : RequestRow} (hrequest : request ∈ s.requests)
    (hid : request.operationId = operationId) :
    ∃ record, readAuditById s (deriveAuditId request.correlationId row.auditKind) =
      .ok (some record) ∧ record.reason = .rateLimited := by
  obtain ⟨link, hlink, hsequence, rfl⟩ := refusal.linked
  obtain ⟨-, -, other, hother, hotherId, hcorrelation⟩ :=
    inv.of_link refusal.stored hlink hsequence
  obtain rfl := inv.requests.eq_of_key_eq hother hrequest (hotherId.trans hid.symm)
  refine ⟨row.record (s.linkOf row), ?_, refusal.reason⟩
  rw [hcorrelation, ← inv.identified row refusal.stored]
  exact inv.readable refusal.stored

/-- No path grants a refused operation, and outside governance it changes nothing. -/
theorem Refusal.not_granted (refusal : Refusal s row operationId) (inv : AuditInv s)
    (hungranted : Ungranted s operationId row.auditKind) {path : RatePath}
    (hkind : path.auditKind = row.auditKind) (hworks : path.WorksFor s operationId)
    {answer : RateAnswer} (h : (path.answer config).run s = .ok (answer, s')) :
    answer ≠ .granted ∧ s'.withoutGovernance = s.withoutGovernance := by
  obtain ⟨request, hrequest, hid, hend⟩ := RatePath.answer_cases hworks h
  rw [hkind] at hend
  rcases hend with ⟨rfl, -, hgranted⟩ | ⟨-, ⟨rfl, hrun⟩ | ⟨-, hnone⟩⟩
  · exact ⟨fun heq => hgranted heq hungranted, rfl⟩
  · exact ⟨by simp, governRateAttempt_keeps _ _ _ _ _ hrun⟩
  · obtain ⟨record, hrecord, hreason⟩ := refusal.recorded inv hrequest hid
    have hread : readAuditById s (path.attempt s request).auditId = .ok (some record) := by
      rw [← hrecord, ← hkind]
      rfl
    exact absurd hreason (hnone record hread)

/-! ## Steps that leave the challenges alone -/

theorem challenges_of_withoutGovernance (h : s'.withoutGovernance = s.withoutGovernance) :
    s'.challenges = s.challenges := (congrArg Store.challenges h :)

theorem challenges_of_outbox {α : Type} {body : Tx α} {a : α} (hkeeps : Keeps Store.withoutOutbox body)
    (h : (withBinding config body).run s = .ok (a, s')) : s'.challenges = s.challenges := by
  have hkept := hkeeps (run_withBinding_eq_ok h)
  exact (congrArg Store.challenges hkept :)

theorem decideConnection_challenges {id connectionId : Id32} {generation : PolicyGeneration}
    {observedAt : TimeUnixMs} {correlation : Id32} {decision : OperatorDecision}
    {record : ConnectionRecord}
    (h : (decideConnection id connectionId generation observedAt correlation decision).run s =
      .ok (record, s')) : s'.challenges = s.challenges := by
  rcases decideConnection_cases h with hsame | ⟨-, hsame⟩
  · exact challenges_of_withoutGovernance hsame
  · refine (challenges_of_withoutGovernance hsame).trans ?_
    cases decision <;> rfl

theorem applyAdminConnectionMutation_challenges {connectionId : Id32}
    {generation : PolicyGeneration} {observedAt : TimeUnixMs} {correlation : Id32}
    {action : AdminAction} {records : ConnectionRecord × ConnectionRecord}
    (h : (applyAdminConnectionMutation connectionId generation observedAt correlation action).run s =
      .ok (records, s')) : s'.challenges = s.challenges := by
  unfold applyAdminConnectionMutation at h
  obtain ⟨before, -, h⟩ := run_query_bind_eq_ok.mp h
  obtain ⟨-, h⟩ := run_require_bind_eq_ok.mp h
  cases action with
  | approve set authorizedUntil =>
      obtain ⟨_, -, h⟩ := run_query_bind_eq_ok.mp h
      obtain ⟨_, _, hdecide, h⟩ := run_bind_eq_ok.mp h
      obtain ⟨-, rfl⟩ := run_pure_eq_ok.mp h
      exact decideConnection_challenges hdecide
  | reject =>
      obtain ⟨_, -, h⟩ := run_query_bind_eq_ok.mp h
      obtain ⟨_, _, hdecide, h⟩ := run_bind_eq_ok.mp h
      obtain ⟨-, rfl⟩ := run_pure_eq_ok.mp h
      exact decideConnection_challenges hdecide
  | revoke =>
      obtain ⟨_, _, hrevoke, h⟩ := run_bind_eq_ok.mp h
      obtain ⟨-, rfl⟩ := run_pure_eq_ok.mp h
      rcases revokeConnection_cases hrevoke with hsame | ⟨-, hsame⟩
      · exact challenges_of_withoutGovernance hsame
      · exact (challenges_of_withoutGovernance hsame).trans rfl

theorem expireConnection_challenges {connectionId : Id32} {generation : PolicyGeneration}
    {observedAt : TimeUnixMs} {correlation : Id32} {record : ConnectionRecord}
    (h : (expireConnection connectionId generation observedAt correlation).run s =
      .ok (record, s')) : s'.challenges = s.challenges := by
  have hkeeps : Keeps Store.challenges
      (expireConnection connectionId generation observedAt correlation) := by
    have haudit : ∀ kind outcome reason evidence,
        Keeps Store.challenges (recordAudit evidence kind outcome reason) :=
      fun _ _ _ _ _ _ _ hrun => challenges_of_withoutGovernance (recordAudit_keeps _ _ _ _ hrun)
    unfold expireConnection
    refine .bind (.query _) fun before => .bind (.require _ _) fun _ => ?_
    split
    next => exact .bind (haudit _ _ _ _) fun _ => .pure _
    next =>
      exact .bind (.require _ _) fun _ =>
        .bind (connectionsTable.respects_update fun _ _ => rfl) fun _ =>
          .bind (.require _ _) fun _ => .bind (.query _) fun _ =>
            .bind (haudit _ _ _ _) fun _ => .pure _
  exact hkeeps h

/-- An authorization resolves the challenge of its operation, or changes nothing. -/
theorem authorizeChallengeBody_resolves {policy : RateLimitPolicy}
    {challengeId connectionId : Id32} {generation : PolicyGeneration} {observedAt : TimeUnixMs}
    {authorization : ChallengeAuthorization}
    (h : (authorizeChallengeBody policy challengeId connectionId operationId generation
      observedAt).run s = .ok (authorization, s')) :
    s'.challenges = s.challenges ∨
      ∃ before state decision reason, before.operationId = operationId ∧ s'.challenges =
        (s.challengeResolved before state decision reason observedAt).challenges := by
  unfold authorizeChallengeBody at h
  obtain ⟨_, hread, h⟩ := run_query_bind_eq_ok.mp h
  obtain ⟨before, rfl, h⟩ := run_orFail_bind_eq_ok.mp h
  obtain ⟨-, h⟩ := run_require_bind_eq_ok.mp h
  obtain ⟨binding, -, h⟩ := run_query_bind_eq_ok.mp h
  obtain ⟨connection, -, h⟩ := run_query_bind_eq_ok.mp h
  obtain ⟨-, h⟩ := run_require_bind_eq_ok.mp h
  split at h
  next =>
    obtain ⟨-, rfl⟩ := run_pure_eq_ok.mp h
    exact .inl rfl
  next =>
    obtain ⟨governed, s₁, hgovern, h⟩ := run_bind_eq_ok.mp h
    have hkept : s₁.challenges = s.challenges :=
      challenges_of_withoutGovernance (governRateAttempt_keeps _ _ _ _ _ hgovern)
    cases governed with
    | false =>
        obtain ⟨-, rfl⟩ := run_pure_eq_ok.mp h
        exact .inl hkept
    | true =>
        obtain ⟨state, decision, reason, -, heq⟩ := resolveChallenge_cases h
        refine .inr ⟨before, state, decision, reason, (readChallenge_eq_some hread).2, ?_⟩
        rw [challenges_of_withoutGovernance heq]
        simp only [Store.challengeResolved, hkept]

/-- The operation issues or resolves challenges. -/
def Operation.challenges : Operation → Bool
  | .issueChallenge .. | .authorizeChallenge .. | .adminRequireChallenge ..
  | .adminAuthorizeChallenge .. => true
  | _ => false

/-- Every other operation leaves the challenges alone. -/
theorem Operation.challenges_kept {codec : EventCodec} {operation : Operation} {u : Unit}
    (hother : operation.challenges = false)
    (h : (operation.body codec config).run s = .ok (u, s')) : s'.challenges = s.challenges := by
  cases operation with
  | admitRequest request =>
      obtain ⟨_, h⟩ := run_forEffect_eq_ok h
      exact (congrArg Store.challenges
        (admitRequest_admits request (run_withBinding_eq_ok h)).outside :)
  | admitConnection request =>
      obtain ⟨_, h⟩ := run_forEffect_eq_ok h
      rcases admitConnection_cases h with hsame | ⟨-, hsame⟩
      · exact challenges_of_withoutGovernance hsame
      · exact (challenges_of_withoutGovernance hsame).trans rfl
  | decidePending =>
      obtain ⟨_, h⟩ := run_forEffect_eq_ok h
      unfold decidePendingConnection at h
      obtain ⟨-, h⟩ := run_require_bind_eq_ok.mp h
      exact decideConnection_challenges (run_withBinding_eq_ok h)
  | adminConnection =>
      obtain ⟨_, h⟩ := run_forEffect_eq_ok h
      exact applyAdminConnectionMutation_challenges (run_withBinding_eq_ok h)
  | expireConnection =>
      obtain ⟨_, h⟩ := run_forEffect_eq_ok h
      exact expireConnection_challenges (run_withBinding_eq_ok h)
  | issueChallenge | authorizeChallenge | adminRequireChallenge | adminAuthorizeChallenge =>
      cases hother
  | commitResponse request =>
      obtain ⟨_, h⟩ := run_forEffect_eq_ok h
      rcases commitNip46Response_cases h with ⟨-, rfl⟩ | ⟨-, rfl⟩
      · rfl
      · rfl
  | commitPendingResponse request =>
      obtain ⟨_, h⟩ := run_forEffect_eq_ok h
      rcases commitNip46PendingResponse_cases h with ⟨-, rfl⟩ | ⟨-, rfl⟩
      · rfl
      · rfl
  | commitDiscovery request =>
      obtain ⟨_, h⟩ := run_forEffect_eq_ok h
      exact challenges_of_outbox
        (.bind (.orFail _ _) fun policy => commitDesired_keeps codec _ _ policy) h
  | promoteDiscovery =>
      exact challenges_of_outbox (promoteCurrent_keeps _ _) h
  | claimDelivery =>
      obtain ⟨_, h⟩ := run_forEffect_eq_ok h
      exact challenges_of_outbox (keeps_outbox (claimTarget_keeps _ _ _ _)) h
  | markSubmitted =>
      obtain ⟨_, h⟩ := run_forEffect_eq_ok h
      exact challenges_of_outbox (keeps_outbox (markSubmitted_keeps _ _ _ _)) h
  | recordOutcome =>
      obtain ⟨_, h⟩ := run_forEffect_eq_ok h
      exact challenges_of_outbox (keeps_outbox (recordOutcome_keeps _ _ _ _ _ _)) h
  | recoverExpired =>
      obtain ⟨_, h⟩ := run_forEffect_eq_ok h
      exact challenges_of_outbox (keeps_outbox (recoverExpired_keeps _ _ _ _ _)) h
  | recoverBatch =>
      obtain ⟨_, h⟩ := run_forEffect_eq_ok h
      exact challenges_of_outbox (recoverBatch_keeps _ _ _ _ _ _) h
  | compactGovernance =>
      obtain ⟨_, h⟩ := run_forEffect_eq_ok h
      exact challenges_of_withoutGovernance
        (compactGovernance_keeps _ _ _ _ (run_withBinding_eq_ok h))

/-! ## A refused operation stays ungranted -/

/-- A body under the binding may be exchanged for another that ran from the same state. -/
theorem run_withBinding_body {α β : Type} {body : Tx α} {other : Tx β} {a : α}
    (h : (withBinding config body).run s = .ok (a, s'))
    (hother : body.run s = .ok (a, s') → ∃ b, other.run s = .ok (b, s')) :
    ∃ b, (withBinding config other).run s = .ok (b, s') := by
  obtain ⟨_, s₁, hbinding, hbody⟩ := run_bind_eq_ok.mp h
  obtain rfl := (run_requireExpectedMetadata_eq_ok hbinding).symm
  obtain ⟨b, hrun⟩ := hother hbody
  exact ⟨b, run_bind_eq_ok.mpr ⟨_, _, hbinding, hrun⟩⟩

/-- The administrator's authorization maps the answer of its body. -/
theorem run_applyAdminChallengeAuthorize {policy : RateLimitPolicy} {challengeId : Id32}
    {generation : PolicyGeneration} {observedAt : TimeUnixMs} {record : ChallengeRow}
    (h : (applyAdminChallengeAuthorize policy challengeId generation observedAt).run s =
      .ok (record, s')) :
    ∃ authorization, (adminAuthorizationBody policy challengeId generation observedAt).run s =
      .ok (authorization, s') ∧ authorization ≠ .rateLimited := by
  unfold applyAdminChallengeAuthorize at h
  obtain ⟨id, hid, h⟩ := run_query_bind_eq_ok.mp h
  obtain ⟨found, hfound, h⟩ := run_query_bind_eq_ok.mp h
  obtain ⟨before, rfl, h⟩ := run_orFail_bind_eq_ok.mp h
  obtain ⟨hgeneration, h⟩ := run_require_bind_eq_ok.mp h
  obtain ⟨authorization, s₁, hauthorize, h⟩ := run_bind_eq_ok.mp h
  have hbody : (adminAuthorizationBody policy challengeId generation observedAt).run s =
      .ok (authorization, s₁) :=
    run_query_bind_eq_ok.mpr ⟨id, hid, run_query_bind_eq_ok.mpr ⟨_, hfound,
      run_orFail_bind_eq_ok.mpr ⟨before, rfl,
        run_require_bind_eq_ok.mpr ⟨hgeneration, hauthorize⟩⟩⟩⟩
  cases authorization with
  | rateLimited => cases h
  | resolved | exactReplay =>
      obtain ⟨-, rfl⟩ := run_pure_eq_ok.mp h
      exact ⟨_, hbody, by simp⟩

theorem run_applyAdminChallengeRequire {policy : RateLimitPolicy} {request : ChallengeRequest}
    {record : ChallengeRow}
    (h : (applyAdminChallengeRequire policy request).run s = .ok (record, s')) :
    ∃ admission, (issueChallenge policy request).run s = .ok (admission, s') ∧
      admission ≠ .rateLimited := by
  unfold applyAdminChallengeRequire at h
  obtain ⟨admission, s₁, hissue, h⟩ := run_bind_eq_ok.mp h
  cases admission with
  | rateLimited => cases h
  | created | exactReplay =>
      obtain ⟨-, rfl⟩ := run_pure_eq_ok.mp h
      exact ⟨_, hissue, by simp⟩

/-- The answer of a path whose operation is committed. -/
theorem RatePath.answer_of_operation {codec : EventCodec} {path : RatePath} {u : Unit}
    (h : (path.operation.body codec config).run s = .ok (u, s')) :
    ∃ answer, (path.answer config).run s = .ok (answer, s') := by
  cases path with
  | admission | creation | authorization =>
      obtain ⟨a, h⟩ := run_forEffect_eq_ok h
      exact ⟨a.answer, run_bind_eq_ok.mpr ⟨a, s', h, rfl⟩⟩
  | adminCreation request =>
      obtain ⟨hadmits, h⟩ := run_require_bind_eq_ok.mp h
      obtain ⟨record, h⟩ := run_forEffect_eq_ok h
      obtain ⟨a, hrun⟩ := run_withBinding_body h fun hrun =>
        (run_applyAdminChallengeRequire hrun).imp fun _ => And.left
      exact ⟨a.answer, run_require_bind_eq_ok.mpr ⟨hadmits, run_bind_eq_ok.mpr ⟨a, s', hrun, rfl⟩⟩⟩
  | adminAuthorization challengeId generation observedAt =>
      obtain ⟨record, h⟩ := run_forEffect_eq_ok h
      obtain ⟨a, hrun⟩ := run_withBinding_body h fun hrun =>
        (run_applyAdminChallengeAuthorize hrun).imp fun _ => And.left
      exact ⟨a.answer, run_bind_eq_ok.mpr ⟨a, s', hrun, rfl⟩⟩

theorem Ungranted.of_withoutGovernance {kind : AuditKind}
    (h : s'.withoutGovernance = s.withoutGovernance) (hungranted : Ungranted s operationId kind) :
    Ungranted s' operationId kind := by
  have hrequests : s'.requests = s.requests := (congrArg Store.requests h :)
  have hdecisions : s'.decisions = s.decisions := (congrArg Store.decisions h :)
  have hchallenges : s'.challenges = s.challenges := (congrArg Store.challenges h :)
  cases kind <;> simp_all [Ungranted]

/-- A path of the refused operation itself changes nothing that its refusal forbids. -/
theorem Refusal.own_path (refusal : Refusal s row operationId) (inv : AuditInv s)
    (hungranted : Ungranted s operationId row.auditKind) {codec : EventCodec} {path : RatePath}
    (hkind : path.auditKind = row.auditKind) (hworks : path.WorksFor s operationId) {u : Unit}
    (h : (path.operation.body codec config).run s = .ok (u, s')) :
    Ungranted s' operationId row.auditKind := by
  obtain ⟨answer, hanswer⟩ := RatePath.answer_of_operation h
  exact hungranted.of_withoutGovernance
    (refusal.not_granted inv hungranted hkind hworks hanswer).2

/-- Requests stay. -/
theorem request_kept (config : Configuration) (request : RequestRow) :
    GovernanceInvariant config fun s => request ∈ s.requests where
  grows := fun _ hgrows hmem => hgrows.kept request hmem
  recorded := fun _ _ _ hmem => hmem
  counted := by
    intro s s' policy subjects observedAt admitted _ _ _ hcounted hmem
    rw [hcounted.frame]
    exact hmem
  compacted := fun _ _ hmem => hmem

/-- No other session step decides a refused connect. -/
theorem SessionStep.undecided {operation : Operation} (inv : AuditInv s)
    (hconnect : ∃ request ∈ s.requests, request.operationId = operationId ∧
      request.method = .connect)
    (hundecided : ∀ row ∈ s.decisions, row.operationId ≠ operationId)
    (hother : ∀ request, operation = .admitConnection request → request.operationId ≠ operationId)
    (h : SessionStep config s operation s') : ∀ row ∈ s'.decisions, row.operationId ≠ operationId := by
  have happend : ∀ {new : DecisionRow}, new.operationId ≠ operationId →
      ∀ row ∈ s.decisions ++ [new], row.operationId ≠ operationId := by
    intro new hnew row hrow
    rcases List.mem_append.mp hrow with hold | hlast
    · exact hundecided row hold
    · rwa [List.mem_singleton.mp hlast]
  cases h with
  | quiet => exact hundecided
  | requests admits =>
      have hsame : s'.decisions = s.decisions := (congrArg Store.decisions admits.outside :)
      rwa [hsame]
  | outbox outside label =>
      have hsame : s'.decisions = s.decisions := (congrArg Store.decisions outside :)
      rwa [hsame]
  | connect guard => exact happend (hother _ rfl)
  | approve => exact Table.forall_update (fun _ h => h) hundecided
  | deny => exact Table.forall_update (fun _ h => h) hundecided
  | finish => exact hundecided
  | issue guard =>
      obtain ⟨binding, hbinding, hbindingId, hmethod⟩ := guard.binding
      refine happend fun heq => ?_
      obtain ⟨request, hrequest, hid, hconnect⟩ := hconnect
      obtain rfl := inv.requests.eq_of_key_eq hbinding hrequest
        (hbindingId.trans (heq.trans hid.symm))
      exact hmethod hconnect
  | resolve => exact Table.forall_update (fun _ h => h) hundecided
  | complete => exact hundecided
  | answerPending => exact hundecided

/-- A challenge that is issued is pending. -/
theorem Ungranted.of_issue {policy : RateLimitPolicy} {request : ChallengeRequest}
    {admission : ChallengeAdmission} {kind : AuditKind}
    (hkind : kind = .challengeAuthorization ∨
      (kind = .challengeCreation ∧ request.operationId ≠ operationId))
    (hungranted : Ungranted s operationId kind)
    (h : (issueChallenge policy request).run s = .ok (admission, s')) :
    Ungranted s' operationId kind := by
  rcases issueChallenge_cases h with hsame | ⟨connection, -, hsame⟩
  · exact hungranted.of_withoutGovernance hsame
  · have hchallenges : s'.challenges = s.challenges ++ [newChallengeRow request] :=
      (challenges_of_withoutGovernance hsame).trans rfl
    rcases hkind with rfl | ⟨rfl, hother⟩
    · intro row hrow hid
      rw [hchallenges] at hrow
      rcases List.mem_append.mp hrow with hold | hlast
      · exact hungranted row hold hid
      · rw [List.mem_singleton.mp hlast]
        simp [newChallengeRow]
    · intro row hrow
      rw [hchallenges] at hrow
      rcases List.mem_append.mp hrow with hold | hlast
      · exact hungranted row hold
      · rw [List.mem_singleton.mp hlast]
        exact hother

/-- A challenge of another operation is resolved. -/
theorem Ungranted.of_authorize {policy : RateLimitPolicy} {challengeId connectionId id : Id32}
    {generation : PolicyGeneration} {observedAt : TimeUnixMs}
    {authorization : ChallengeAuthorization} {kind : AuditKind}
    (hkind : kind = .challengeCreation ∨ (kind = .challengeAuthorization ∧ id ≠ operationId))
    (hungranted : Ungranted s operationId kind)
    (h : (authorizeChallengeBody policy challengeId connectionId id generation observedAt).run s =
      .ok (authorization, s')) : Ungranted s' operationId kind := by
  rcases authorizeChallengeBody_resolves h with hsame | ⟨before, state, decision, reason, hid, heq⟩
  · rcases hkind with rfl | ⟨rfl, -⟩
    · unfold Ungranted
      rwa [hsame]
    · unfold Ungranted
      rwa [hsame]
  · rcases hkind with rfl | ⟨rfl, hother⟩
    · unfold Ungranted
      rw [heq]
      exact Table.forall_update (fun _ h => h) hungranted
    · intro row hrow hrowId
      rw [heq] at hrow
      obtain ⟨old, hold, rfl⟩ := Table.mem_update.mp hrow
      split at hrowId
      next hmatches =>
        -- only the challenge of the authorized operation is touched
        simp only [decide_eq_true_eq] at hmatches
        exact absurd (hid.symm.trans (hmatches.2.2.1.symm.trans hrowId)) hother
      next hmatches =>
        rw [if_neg hmatches]
        exact hungranted old hold hrowId

/-- The operation that an administrator's authorization resolves. -/
theorem adminAuthorizationBody_worksFor {policy : RateLimitPolicy} {challengeId : Id32}
    {generation : PolicyGeneration} {observedAt : TimeUnixMs}
    {authorization : ChallengeAuthorization}
    (h : (adminAuthorizationBody policy challengeId generation observedAt).run s =
      .ok (authorization, s')) :
    ∃ id connectionId,
      (RatePath.adminAuthorization challengeId generation observedAt).WorksFor s id ∧
      (authorizeChallengeBody policy challengeId connectionId id generation observedAt).run s =
        .ok (authorization, s') := by
  unfold adminAuthorizationBody at h
  obtain ⟨id, hfound, h⟩ := run_query_bind_eq_ok.mp h
  obtain ⟨_, hread, h⟩ := run_query_bind_eq_ok.mp h
  obtain ⟨before, rfl, h⟩ := run_orFail_bind_eq_ok.mp h
  obtain ⟨-, hrun⟩ := run_require_bind_eq_ok.mp h
  obtain ⟨found, hfilter, rfl⟩ := oneRow_map_eq_ok hfound
  obtain ⟨hmem, hmatch, -⟩ := mem_of_filter_eq_singleton hfilter
  obtain ⟨-, hid⟩ := readChallenge_eq_some hread
  exact ⟨before.operationId, before.connectionId,
    ⟨found, hmem, of_decide_eq_true hmatch, hid.symm⟩, hrun⟩

/-- No operation grants a challenge, or its authorization, that was refused. -/
theorem Refusal.challenge_ungranted (refusal : Refusal s row operationId) (inv : AuditInv s)
    (hkind : row.auditKind = .challengeCreation ∨ row.auditKind = .challengeAuthorization)
    (hungranted : Ungranted s operationId row.auditKind) {codec : EventCodec}
    {operation : Operation} {u : Unit} (h : (operation.body codec config).run s = .ok (u, s')) :
    Ungranted s' operationId row.auditKind := by
  have hkept : s'.challenges = s.challenges → Ungranted s' operationId row.auditKind := by
    intro hsame
    rcases hkind with hkind | hkind
    · rw [hkind] at hungranted ⊢
      unfold Ungranted
      rwa [hsame]
    · rw [hkind] at hungranted ⊢
      unfold Ungranted
      rwa [hsame]
  have hissue : ∀ {request : ChallengeRequest} {admission : ChallengeAdmission},
      ¬ (row.auditKind = .challengeCreation ∧ request.operationId = operationId) →
      (issueChallenge config.governance.challengeCreation request).run s = .ok (admission, s') →
      Ungranted s' operationId row.auditKind := by
    intro request admission hother hrun
    rcases hkind with hkind | hkind
    · exact hungranted.of_issue (.inr ⟨hkind, fun hid => hother ⟨hkind, hid⟩⟩) hrun
    · exact hungranted.of_issue (.inl hkind) hrun
  have hauthorize : ∀ {challengeId connectionId id : Id32} {generation : PolicyGeneration}
      {observedAt : TimeUnixMs} {authorization : ChallengeAuthorization},
      ¬ (row.auditKind = .challengeAuthorization ∧ id = operationId) →
      (authorizeChallengeBody config.governance.challengeAuthorization challengeId connectionId id
        generation observedAt).run s = .ok (authorization, s') →
      Ungranted s' operationId row.auditKind := by
    intro challengeId connectionId id generation observedAt authorization hother hrun
    rcases hkind with hkind | hkind
    · exact hungranted.of_authorize (.inl hkind) hrun
    · exact hungranted.of_authorize (.inr ⟨hkind, fun hid => hother ⟨hkind, hid⟩⟩) hrun
  by_cases hchallenges : operation.challenges = false
  · exact hkept (Operation.challenges_kept hchallenges h)
  -- the operation is the refused one itself, or one that leaves it ungranted
  cases operation with
  | issueChallenge request =>
      by_cases hown : row.auditKind = .challengeCreation ∧ request.operationId = operationId
      · exact @Refusal.own_path s s' row operationId config refusal inv hungranted codec
          (.creation request) hown.1.symm hown.2 u h
      · obtain ⟨_, hrun⟩ := run_forEffect_eq_ok h
        unfold issueAuthorizationChallenge at hrun
        obtain ⟨-, hrun⟩ := run_require_bind_eq_ok.mp hrun
        exact hissue hown (run_withBinding_eq_ok hrun)
  | adminRequireChallenge request =>
      by_cases hown : row.auditKind = .challengeCreation ∧ request.operationId = operationId
      · exact @Refusal.own_path s s' row operationId config refusal inv hungranted codec
          (.adminCreation request) hown.1.symm hown.2 u h
      · obtain ⟨-, hrun⟩ := run_require_bind_eq_ok.mp h
        obtain ⟨_, hrun⟩ := run_forEffect_eq_ok hrun
        obtain ⟨_, hrun, -⟩ := run_applyAdminChallengeRequire (run_withBinding_eq_ok hrun)
        exact hissue hown hrun
  | authorizeChallenge challengeId connectionId id generation observedAt =>
      by_cases hown : row.auditKind = .challengeAuthorization ∧ id = operationId
      · exact @Refusal.own_path s s' row operationId config refusal inv hungranted codec
          (.authorization challengeId connectionId id generation observedAt) hown.1.symm hown.2 u h
      · obtain ⟨_, hrun⟩ := run_forEffect_eq_ok h
        exact hauthorize hown (run_withBinding_eq_ok hrun)
  | adminAuthorizeChallenge challengeId generation observedAt =>
      obtain ⟨_, hrun⟩ := run_forEffect_eq_ok h
      obtain ⟨_, hrun, -⟩ := run_applyAdminChallengeAuthorize (run_withBinding_eq_ok hrun)
      obtain ⟨id, connectionId, hworks, hrun⟩ := adminAuthorizationBody_worksFor hrun
      by_cases hown : row.auditKind = .challengeAuthorization ∧ id = operationId
      · obtain ⟨hkind, rfl⟩ := hown
        exact @Refusal.own_path s s' row id config refusal inv hungranted codec
          (.adminAuthorization challengeId generation observedAt) hkind.symm hworks u h
      · exact hauthorize hown hrun
  | _ => exact absurd rfl hchallenges

/-- No operation decides a connect that was refused. -/
theorem Refusal.admission_ungranted (refusal : Refusal s row operationId) (inv : AuditInv s)
    (hkind : row.auditKind = .connectionAdmission)
    (hungranted : Ungranted s operationId row.auditKind) {codec : EventCodec}
    {operation : Operation} {u : Unit} (h : (operation.body codec config).run s = .ok (u, s')) :
    Ungranted s' operationId row.auditKind := by
  by_cases hown : ∃ request, operation = .admitConnection request ∧
      request.operationId = operationId
  · obtain ⟨request, rfl, hid⟩ := hown
    exact @Refusal.own_path s s' row operationId config refusal inv hungranted codec
      (.admission request) hkind.symm hid u h
  · rw [hkind] at hungranted ⊢
    obtain ⟨⟨request, hrequest, hid, hconnect⟩, hundecided⟩ := hungranted
    refine ⟨⟨request, (request_kept config request).operation h hrequest, hid, hconnect⟩, ?_⟩
    obtain ⟨s₁, hstep, hsame⟩ := Operation.step h
    have hdecisions : s'.decisions = s₁.decisions := (congrArg Store.decisions hsame :)
    rw [hdecisions]
    exact hstep.undecided inv ⟨request, hrequest, hid, hconnect⟩ hundecided
      fun other hoperation hotherId => hown ⟨other, hoperation, hotherId⟩

/-- While its refusal is stored, no operation grants what was refused. -/
theorem Refusal.ungranted (refusal : Refusal s row operationId) (inv : AuditInv s)
    (hungranted : Ungranted s operationId row.auditKind) {codec : EventCodec}
    {operation : Operation} {u : Unit} (h : (operation.body codec config).run s = .ok (u, s')) :
    Ungranted s' operationId row.auditKind := by
  cases hkind : row.auditKind with
  | connectionAdmission =>
      rw [← hkind]
      exact refusal.admission_ungranted inv hkind hungranted h
  | challengeCreation =>
      rw [← hkind]
      exact refusal.challenge_ungranted inv (.inl hkind) hungranted h
  | challengeAuthorization =>
      rw [← hkind]
      exact refusal.challenge_ungranted inv (.inr hkind) hungranted h
  | connectionOperatorDecision | connectionExpiry | governanceCompaction => trivial

/-- A change of the configuration may expire challenges. -/
theorem reconfigured_challenges (s : Store) (current candidate : Configuration)
    (appliedAtUnixS : ℕ) :
    ∃ matching, (s.reconfigured current candidate appliedAtUnixS).challenges =
      Table.update matching (ChallengeRow.expiredAt appliedAtUnixS) s.challenges := by
  unfold Store.reconfigured
  split
  next => exact ⟨_, rfl⟩
  next =>
    split
    next => exact ⟨_, rfl⟩
    next => exact ⟨fun _ => false, by simp [Table.update]⟩

theorem reconfigured_others (s : Store) (current candidate : Configuration)
    (appliedAtUnixS : ℕ) :
    (s.reconfigured current candidate appliedAtUnixS).requests = s.requests ∧
      (s.reconfigured current candidate appliedAtUnixS).decisions = s.decisions := by
  unfold Store.reconfigured
  split
  next => exact ⟨rfl, rfl⟩
  next => split <;> exact ⟨rfl, rfl⟩

/-- A change of the configuration grants nothing. -/
theorem Ungranted.of_apply {current candidate : Configuration} {appliedAtUnixS : ℕ}
    {outcome : ConfigApplyOutcome} {kind : AuditKind}
    (hungranted : Ungranted s operationId kind)
    (h : (applyConfiguration current candidate appliedAtUnixS).run s = .ok (outcome, s')) :
    Ungranted s' operationId kind := by
  rcases applyConfiguration_cases h with ⟨-, rfl⟩ | ⟨-, bindings, rfl⟩
  · exact hungranted
  · obtain ⟨hrequests, hdecisions⟩ := reconfigured_others s current candidate appliedAtUnixS
    obtain ⟨matching, hchallenges⟩ := reconfigured_challenges s current candidate appliedAtUnixS
    cases kind with
    | connectionAdmission =>
        unfold Ungranted at hungranted ⊢
        dsimp only
        rwa [hrequests, hdecisions]
    | challengeCreation =>
        unfold Ungranted at hungranted ⊢
        dsimp only
        rw [hchallenges]
        exact Table.forall_update (fun _ h => h) hungranted
    | challengeAuthorization =>
        unfold Ungranted at hungranted ⊢
        dsimp only
        rw [hchallenges]
        exact Table.forall_update (fun _ _ _ => by simp [ChallengeRow.expiredAt]) hungranted
    | connectionOperatorDecision | connectionExpiry | governanceCompaction => trivial

/-! ## Along a run -/

/-- A record that is not stored is not written again. -/
theorem gone_kept (config : Configuration) (row : AuditRow) :
    GovernanceInvariant config fun s =>
      row.auditSequence ≤ s.nextAuditSequence ∧ row ∉ s.audit where
  grows := by
    intro s s' htrail _ inv
    have hsequence : s'.nextAuditSequence = s.nextAuditSequence := congrArg (·.1) htrail
    have haudit : s'.audit = s.audit := congrArg (·.2.1) htrail
    rwa [hsequence, haudit]
  recorded := by
    intro s evidence kind outcome reason _ _ _ inv
    refine ⟨inv.1.trans (Nat.le_succ _), fun hmem => ?_⟩
    rcases List.mem_append.mp hmem with hold | hlast
    · exact inv.2 hold
    · have hsequence := congrArg AuditRow.auditSequence (List.mem_singleton.mp hlast)
      have hnext : row.auditSequence = s.nextAuditSequence + 1 := hsequence
      exact absurd inv.1 (by omega)
  counted := by
    intro s s' policy subjects observedAt admitted _ _ _ hcounted inv
    rw [hcounted.frame]
    exact inv
  compacted := fun _ _ inv => ⟨inv.1, fun hmem => inv.2 (List.mem_filter.mp hmem).1⟩

/-- The link of a record stays as long as the record does. -/
theorem linked_kept (config : Configuration) (row : AuditRow) (operationId : Id32) :
    GovernanceInvariant config fun s => row.auditSequence ≤ s.nextAuditSequence ∧
      (row ∈ s.audit → ∃ link ∈ s.requestAudit, link.auditSequence = row.auditSequence ∧
        link.operationId = operationId) where
  grows := by
    intro s s' htrail _ inv
    have hsequence : s'.nextAuditSequence = s.nextAuditSequence := congrArg (·.1) htrail
    have haudit : s'.audit = s.audit := congrArg (·.2.1) htrail
    have hlinks : s'.requestAudit = s.requestAudit := congrArg (·.2.2.1) htrail
    rwa [hsequence, haudit, hlinks]
  recorded := by
    intro s evidence kind outcome reason _ _ _ inv
    refine ⟨inv.1.trans (Nat.le_succ _), fun hmem => ?_⟩
    rcases List.mem_append.mp hmem with hold | hlast
    · obtain ⟨link, hlink, hrest⟩ := inv.2 hold
      exact ⟨link, List.mem_append_left _ hlink, hrest⟩
    · have hsequence := congrArg AuditRow.auditSequence (List.mem_singleton.mp hlast)
      have hnext : row.auditSequence = s.nextAuditSequence + 1 := hsequence
      exact absurd inv.1 (by omega)
  counted := by
    intro s s' policy subjects observedAt admitted _ _ _ hcounted inv
    rw [hcounted.frame]
    exact inv
  compacted := by
    intro s sequences windows inv
    refine ⟨inv.1, fun hmem => ?_⟩
    obtain ⟨hold, hkept⟩ := List.mem_filter.mp hmem
    obtain ⟨link, hlink, hsequence, hid⟩ := inv.2 hold
    rw [← hsequence] at hkept
    exact ⟨link, List.mem_filter.mpr ⟨hlink, hkept⟩, hsequence, hid⟩

/-- A refusal, as far as it is still stored: its operation is ungranted. -/
structure Retained (row : AuditRow) (operationId : Id32) (s : Store) : Prop where
  trail : AuditInv s
  numbered : row.auditSequence ≤ s.nextAuditSequence
  linked : row ∈ s.audit → ∃ link ∈ s.requestAudit, link.auditSequence = row.auditSequence ∧
    link.operationId = operationId
  ungranted : row ∈ s.audit → Ungranted s operationId row.auditKind

/-- Every step keeps what a stored refusal forbids. -/
theorem Retained.perform {codec : EventCodec} {system : System}
    (hretained : Retained row operationId system.store) (hreason : row.reasonCode = .rateLimited)
    (event : Event) : Retained row operationId (system.perform codec event).store := by
  obtain ⟨inv, hnumbered, hlinked, hungranted⟩ := hretained
  refine System.perform_cases (R := fun next => Retained row operationId next.store) event
    ⟨inv, hnumbered, hlinked, hungranted⟩ ?_ ?_
  · intro operation u s' _ hrun
    have hlinked' := (linked_kept system.config row operationId).operation hrun
      ⟨hnumbered, hlinked⟩
    refine ⟨(AuditInv.governance system.config).operation hrun inv, hlinked'.1, hlinked'.2,
      fun hstored' => ?_⟩
    by_cases hstored : row ∈ system.store.audit
    · exact Refusal.ungranted ⟨hstored, hreason, hlinked hstored⟩ inv (hungranted hstored) hrun
    · exact absurd hstored' ((gone_kept system.config row).operation hrun ⟨hnumbered, hstored⟩).2
  · intro candidate appliedAt outcome s' _ hrun
    have hlinked' := (linked_kept system.config row operationId).apply hrun ⟨hnumbered, hlinked⟩
    refine ⟨(AuditInv.governance system.config).apply hrun inv, hlinked'.1, hlinked'.2,
      fun hstored' => ?_⟩
    by_cases hstored : row ∈ system.store.audit
    · exact (hungranted hstored).of_apply hrun
    · exact absurd hstored' ((gone_kept system.config row).apply hrun ⟨hnumbered, hstored⟩).2

/-! ## A refusal -/

/-- What a committed refusal leaves: one record of its correlation and kind, which names its
operation, and one more rejected attempt in the windows of its subjects; a replay finds its
record and leaves everything as it was. -/
structure RefusalCommitted (policy : RateLimitPolicy) (path : RatePath) (operationId : Id32)
    (s s' : Store) (row : AuditRow) : Prop where
  request : ∃ request ∈ s.requests, request.operationId = operationId ∧
    row.correlationId = request.correlationId
  sole : (s'.audit.filter fun other => other.correlationId = row.correlationId ∧
    other.auditKind = path.auditKind) = [row]
  outcome : row.outcome = .rejected ∧ row.reasonCode = .rateLimited
  linked : ∃ link ∈ s'.requestAudit, link.auditSequence = row.auditSequence ∧
    link.operationId = operationId
  counted : (row ∈ s.audit ∧ s' = s) ∨
    (s'.audit = s.audit ++ [row] ∧
      (∃ subject ∈ path.subjects s,
        policy.maxAttempts ≤ (s.rateStateAt policy subject path.observedAt.get).accepted) ∧
      ∀ subject ∈ path.subjects s, s'.windowsOf (subject.key policy.rateClass) =
        [(s.rateStateAt policy subject path.observedAt.get).written policy path.observedAt false])

/-- A refusal that changes nothing was stored before. -/
theorem RefusalCommitted.stored {policy : RateLimitPolicy} {path : RatePath}
    (h : RefusalCommitted policy path operationId s s' row) (hsame : s' = s) : row ∈ s.audit := by
  rcases h.counted with ⟨hstored, -⟩ | ⟨hgrown, -⟩
  · exact hstored
  · rw [hsame] at hgrown
    exact absurd hgrown (by simp)

/-- The records of a correlation and a kind. -/
theorem AuditInv.sole (inv : AuditInv s) (hrow : row ∈ s.audit) :
    (s.audit.filter fun other => other.correlationId = row.correlationId ∧
      other.auditKind = row.auditKind) = [row] := by
  have hids := inv.ids.filter_eq_singleton hrow
  rw [← hids]
  refine List.filter_congr fun other hother => ?_
  rw [Bool.eq_iff_iff]
  simp only [decide_eq_true_eq]
  constructor
  · rintro ⟨hcorrelation, hkind⟩
    rw [inv.identified other hother, inv.identified row hrow, hcorrelation, hkind]
  · intro hid
    obtain rfl := inv.ids.eq_of_key_eq hother hrow hid
    exact ⟨rfl, rfl⟩

/-- A record that is read is a stored row. -/
theorem AuditInv.row_of_read (inv : AuditInv s) {auditId : Id32} {record : AuditRecord}
    (h : readAuditById s auditId = .ok (some record)) :
    ∃ row ∈ s.audit, row.auditId = auditId ∧ record = row.record (s.linkOf row) := by
  by_contra hnone
  push Not at hnone
  by_cases hrow : ∃ row ∈ s.audit, row.auditId = auditId
  · obtain ⟨row, hrow, hid⟩ := hrow
    have hread := inv.readable hrow
    rw [hid, h] at hread
    exact hnone row hrow hid (Option.some.inj (Except.ok.inj hread))
  · push Not at hrow
    rw [readAuditById_eq_none.mpr hrow] at h
    cases h

theorem link_of_linkOf (h : s.linkOf row = some operationId) :
    ∃ link ∈ s.requestAudit, link.auditSequence = row.auditSequence ∧
      link.operationId = operationId := by
  unfold Store.linkOf at h
  obtain ⟨link, hfind, hid⟩ := Option.map_eq_some_iff.mp h
  have hsequence := List.find?_some hfind
  exact ⟨link, List.mem_of_find?_eq_some hfind, by simpa using hsequence, hid⟩

/-- A replayed refusal found its record. -/
theorem refusal_replayed (inv : AuditInv s) {policy : RateLimitPolicy} {path : RatePath}
    {request : RequestRow} (hrequest : request ∈ s.requests)
    (hid : request.operationId = operationId) {record : AuditRecord}
    (hread : readAuditById s (path.attempt s request).auditId = .ok (some record))
    (hrefusal : RefusalOf (path.attempt s request).evidence path.auditKind record) :
    ∃ row, RefusalCommitted policy path operationId s s row ∧ row.auditKind = path.auditKind := by
  obtain ⟨row, hrow, -, rfl⟩ := inv.row_of_read hread
  obtain ⟨hcorrelation, hoperation, hkind, houtcome, hreason⟩ := hrefusal
  have hlinked : s.linkOf row = some operationId := hid ▸ hoperation
  have hrowKind : row.auditKind = path.auditKind := hkind
  refine ⟨row, ⟨⟨request, hrequest, hid, hcorrelation⟩, ?_, ⟨houtcome, hreason⟩,
    link_of_linkOf hlinked, .inl ⟨hrow, rfl⟩⟩, hrowKind⟩
  rw [← hrowKind]
  exact inv.sole hrow

/-- A new refusal counted itself and left its record. -/
theorem refusal_recorded (hwindows : WindowInv s) {policy : RateLimitPolicy}
    {path : RatePath} {request : RequestRow} (hrequest : request ∈ s.requests)
    (hid : request.operationId = operationId) (hinv' : AuditInv s') {s₁ : Store}
    (hnone : readAuditById s (path.attempt s request).auditId = .ok none)
    (hcounted : Counted policy (path.subjects s) path.observedAt false s s₁)
    (hrecord : (recordAudit (path.attempt s request).evidence path.auditKind .rejected
      .rateLimited).run s₁ = .ok ((), s')) :
    ∃ row, RefusalCommitted policy path operationId s s' row ∧ row.auditKind = path.auditKind := by
  have hnone₁ : readAuditById s₁ (path.attempt s request).auditId = .ok none := by
    rw [hcounted.frame]
    exact hnone
  obtain ⟨-, rfl⟩ := (run_recordAudit_fresh hnone₁).mp hrecord
  have haudit : s₁.audit = s.audit := by rw [hcounted.frame]
  have hmem : s₁.nextAudit (path.attempt s request).evidence path.auditKind .rejected .rateLimited ∈
      (s₁.recorded (path.attempt s request).evidence path.auditKind .rejected
        .rateLimited).audit := List.mem_append_right _ (List.mem_singleton_self _)
  refine ⟨_, ⟨⟨request, hrequest, hid, rfl⟩, hinv'.sole hmem, ⟨rfl, rfl⟩,
    ⟨s₁.nextLink path.auditKind operationId, ?_, rfl, rfl⟩, .inr ⟨?_, ?_, ?_⟩⟩, rfl⟩
  · rw [← hid]
    exact List.mem_append_right _ (List.mem_singleton_self _)
  · rw [← haudit]
    rfl
  · by_contra hroom
    push Not at hroom
    have hall := hcounted.decided.mpr fun subject hsubject state hload => by
      obtain ⟨rfl, -⟩ := hwindows.loadRateState_iff.mp hload
      exact decide_eq_true (hroom subject hsubject)
    cases hall
  · intro subject hsubject
    obtain ⟨state, hload, -, hwritten⟩ := hcounted.touched subject hsubject
    obtain ⟨rfl, -⟩ := hwindows.loadRateState_iff.mp hload
    exact hwritten

/-- Every refused attempt of a path leaves its record, its count and an ungranted operation. -/
theorem RatePath.refusal_committed (inv : AuditInv s) (hwindows : WindowInv s) {path : RatePath}
    (hworks : path.WorksFor s operationId) (hinv' : AuditInv s')
    (h : (path.answer config).run s = .ok (.rateLimited, s')) :
    ∃ row, RefusalCommitted (path.policy config) path operationId s s' row ∧
      row.auditKind = path.auditKind ∧ Ungranted s' operationId path.auditKind := by
  obtain ⟨request, hrequest, hid, hend⟩ := RatePath.answer_cases hworks h
  rcases hend with ⟨-, hlimited, -⟩ | ⟨hungranted, ⟨-, hrun⟩ | ⟨hlimited, -⟩⟩
  · exact absurd rfl hlimited
  · have hkept := hungranted.of_withoutGovernance (governRateAttempt_keeps _ _ _ _ _ hrun)
    obtain ⟨-, ⟨-, rfl, record, hread, hrefusal⟩ | ⟨hnone, s₁, hcounted, hend⟩⟩ :=
      governRateAttempt_cases hrun
    · obtain ⟨row, hcommitted, hkind⟩ := refusal_replayed inv hrequest hid hread hrefusal
      exact ⟨row, hcommitted, hkind, hkept⟩
    · rcases hend with ⟨hfalse, -⟩ | ⟨-, hrecord⟩
      · cases hfalse
      · obtain ⟨row, hcommitted, hkind⟩ :=
          refusal_recorded hwindows hrequest hid hinv' hnone hcounted hrecord
        exact ⟨row, hcommitted, hkind, hkept⟩
  · exact absurd rfl hlimited

theorem ChallengeAdmission.answer_eq {admission : ChallengeAdmission}
    (h : admission.answer = .rateLimited) : admission = .rateLimited := by
  cases admission <;> simp_all [ChallengeAdmission.answer]

theorem ChallengeAuthorization.answer_eq {authorization : ChallengeAuthorization}
    (h : authorization.answer = .rateLimited) : authorization = .rateLimited := by
  cases authorization with
  | rateLimited => rfl
  | resolved record | exactReplay record =>
      dsimp only [ChallengeAuthorization.answer] at h
      split at h <;> cases h

/-- A path of the repository commits its answer. -/
theorem RatePath.run_operation {codec : EventCodec} {path : RatePath} (hadmin : path.admin = false)
    {answer : RateAnswer} (h : (path.answer config).run s = .ok (answer, s')) :
    (path.operation.body codec config).run s = .ok ((), s') := by
  cases path with
  | admission | creation | authorization =>
      obtain ⟨a, s₁, hrun, hanswer⟩ := run_bind_eq_ok.mp h
      obtain ⟨-, rfl⟩ := run_pure_eq_ok.mp hanswer
      exact run_bind_eq_ok.mpr ⟨a, _, hrun, rfl⟩
  | adminCreation | adminAuthorization => cases hadmin

/-- A route of the administrator does not commit a refusal. -/
theorem RatePath.run_operation_admin {codec : EventCodec} {path : RatePath}
    (hadmin : path.admin = true) (h : (path.answer config).run s = .ok (.rateLimited, s')) :
    ∃ e, (path.operation.body codec config).run s = .error e := by
  cases hbody : (path.operation.body codec config).run s with
  | error e => exact ⟨e, rfl⟩
  | ok result =>
      obtain ⟨u, s₂⟩ := result
      exfalso
      cases path with
      | admission | creation | authorization => cases hadmin
      | adminCreation request =>
          obtain ⟨-, hrest⟩ := run_require_bind_eq_ok.mp h
          obtain ⟨a, s₁, hrun, hanswer⟩ := run_bind_eq_ok.mp hrest
          have hlimited := ChallengeAdmission.answer_eq (run_pure_eq_ok.mp hanswer).1
          obtain ⟨-, hbody⟩ := run_require_bind_eq_ok.mp hbody
          obtain ⟨_, hbody⟩ := run_forEffect_eq_ok hbody
          obtain ⟨admission, hissue, hne⟩ :=
            run_applyAdminChallengeRequire (run_withBinding_eq_ok hbody)
          have hsame := (run_withBinding_eq_ok hrun).symm.trans hissue
          cases hsame
          exact hne hlimited
      | adminAuthorization challengeId generation observedAt =>
          obtain ⟨a, s₁, hrun, hanswer⟩ := run_bind_eq_ok.mp h
          have hlimited := ChallengeAuthorization.answer_eq (run_pure_eq_ok.mp hanswer).1
          obtain ⟨_, hbody⟩ := run_forEffect_eq_ok hbody
          obtain ⟨authorization, hauthorize, hne⟩ :=
            run_applyAdminChallengeAuthorize (run_withBinding_eq_ok hbody)
          have hsame := (run_withBinding_eq_ok hrun).symm.trans hauthorize
          cases hsame
          exact hne hlimited

end

/-! ## The refusals of the running service -/

/-- A refused route of the administrator leaves the service as it was. -/
theorem RatePath.perform_admin {codec : EventCodec} {system : System} {path : RatePath} {s' : Store}
    (hadmin : path.admin = true)
    (h : (path.answer system.config).run system.store = .ok (.rateLimited, s')) :
    system.perform codec (.operation path.operation) = system := by
  have hfails : ∃ e, (path.operation.body codec system.config).run system.store = .error e :=
    RatePath.run_operation_admin hadmin h
  obtain ⟨e, herror⟩ := hfails
  dsimp only [System.perform]
  rw [atomically_of_error herror]

/-- No path of an operation is granted. -/
def NotGranted (system : System) (kind : AuditKind) (operationId : Id32) : Prop :=
  ∀ (path : RatePath) (answer : RateAnswer) (s' : Store), path.auditKind = kind →
    path.WorksFor system.store operationId →
    (path.answer system.config).run system.store = .ok (answer, s') → answer ≠ .granted

/-- A refused attempt of the repository commits one record and its count, and while the record is
kept no path grants the operation.  A refused attempt of an administrator's route leaves the
service as it was. -/
theorem refusals_retained_by_repository (codec : EventCodec) (config : Configuration)
    (appliedAtUnixS : ℕ) (events : List Event) (path : RatePath) (operationId : Id32) :
    let system := Run.after (System.perform codec) (System.initial config appliedAtUnixS) events
    let next := system.perform codec (.operation path.operation)
    path.Refuses system.config system.store → path.WorksFor system.store operationId →
    (path.admin = true → next = system) ∧
      (path.admin = false → ∃ row,
        RefusalCommitted (path.policy system.config) path operationId system.store next.store row ∧
        ∀ later : List Event, row ∈ (Run.after (System.perform codec) next later).store.audit →
          NotGranted (Run.after (System.perform codec) next later) path.auditKind operationId) := by
  intro system next hrefuses hworks
  obtain ⟨s', hanswer⟩ := hrefuses
  have inv := AuditInv.reachable codec config appliedAtUnixS events
  have hwindows := WindowInv.reachable codec config appliedAtUnixS events
  constructor
  · exact fun hadmin => RatePath.perform_admin hadmin hanswer
  · intro hadmin
    have hrun : (path.operation.body codec system.config).run system.store = .ok ((), s') :=
      RatePath.run_operation hadmin hanswer
    have hstore : next.store = s' := by
      change ((path.operation.body codec system.config).atomically system.store).2 = _
      rw [atomically_of_ok hrun]
    have inv' : AuditInv s' := (AuditInv.governance system.config).operation hrun inv
    obtain ⟨row, hcommitted, hkind, hungranted⟩ :=
      RatePath.refusal_committed inv hwindows hworks inv' hanswer
    have hrow : row ∈ s'.audit := by
      have hmem : row ∈ s'.audit.filter fun other =>
          other.correlationId = row.correlationId ∧ other.auditKind = path.auditKind := by
        rw [hcommitted.sole]
        exact List.mem_singleton_self row
      exact (List.mem_filter.mp hmem).1
    have hretained : Retained row operationId next.store := by
      rw [hstore]
      exact ⟨inv', inv'.numbered row hrow, fun _ => hcommitted.linked,
        fun _ => hkind.symm ▸ hungranted⟩
    refine ⟨row, hstore.symm ▸ hcommitted, fun later hstored => ?_⟩
    have hlater : Retained row operationId (Run.after (System.perform codec) next later).store :=
      Run.invariant_always (I := fun system : System => Retained row operationId system.store)
        (fun _ event hheld => hheld.perform hcommitted.outcome.2 event) later hretained
    intro other answer s'' hother hworks' hrun'
    refine (Refusal.not_granted ⟨hstored, hcommitted.outcome.2, hlater.linked hstored⟩ hlater.trail
      (hlater.ungranted hstored) ?_ hworks' hrun').1
    rw [hother, hkind]

/-! ## A second challenge in the window of the first -/

namespace SampleService

/-- The service in which the second challenge of a connection is refused. -/
def saturated : System := Run.after (System.perform pongCodec) (.initial strictConfig 1) challengedOnce

theorem saturated_config : saturated.config = strictConfig := rfl

theorem saturated_issue : ∃ s', (withBinding saturated.config (issueChallenge
    saturated.config.governance.challengeCreation secondChallenge)).run saturated.store =
      .ok (.rateLimited, s') := by
  obtain ⟨-, -, hissue, -⟩ := challengedOnce_evaluates
  rw [saturated_config]
  obtain ⟨⟨admission, s'⟩, hresult, hlimited⟩ := Option.map_eq_some_iff.mp hissue
  obtain rfl : admission = .rateLimited := hlimited
  refine ⟨s', ?_⟩
  unfold saturated
  revert hresult
  cases (withBinding strictConfig (issueChallenge strictConfig.governance.challengeCreation
    secondChallenge)).run
      (Run.after (System.perform pongCodec) (.initial strictConfig 1) challengedOnce).store with
  | error e => simp [Except.toOption]
  | ok result => simp [Except.toOption]

theorem saturated_admits :
    saturated.config.connection.admitsChallengeRequest secondChallenge = true := by
  obtain ⟨-, hadmits, -⟩ := challengedOnce_evaluates
  exact hadmits

theorem saturated_refuses_admin :
    (RatePath.adminCreation secondChallenge).Refuses saturated.config saturated.store := by
  obtain ⟨s', hissue⟩ := saturated_issue
  exact ⟨s', run_require_bind_eq_ok.mpr
    ⟨saturated_admits, run_bind_eq_ok.mpr ⟨_, _, hissue, rfl⟩⟩⟩

theorem saturated_refuses :
    (RatePath.creation secondChallenge).Refuses saturated.config saturated.store := by
  obtain ⟨s', hissue⟩ := saturated_issue
  exact ⟨s', run_bind_eq_ok.mpr ⟨_, _,
    run_require_bind_eq_ok.mpr ⟨saturated_admits, hissue⟩, rfl⟩⟩

end SampleService

open SampleService in
/-- The refusal of a challenge on an administrator's route leaves no record. -/
theorem admin_refusal_not_retained :
    ¬ ∀ (codec : EventCodec) (config : Configuration) (appliedAtUnixS : ℕ) (events : List Event)
        (path : RatePath) (operationId : Id32),
      let system := Run.after (System.perform codec) (System.initial config appliedAtUnixS) events
      let next := system.perform codec (.operation path.operation)
      path.Refuses system.config system.store → path.WorksFor system.store operationId →
      ∃ row, RefusalCommitted (path.policy system.config) path operationId system.store next.store
        row := by
  intro h
  obtain ⟨row, hcommitted⟩ := h pongCodec strictConfig 1 challengedOnce
    (.adminCreation secondChallenge) laterPing.operationId saturated_refuses_admin rfl
  obtain ⟨s', hanswer⟩ := saturated_refuses_admin
  have hsame : saturated.perform pongCodec (.operation
      (RatePath.adminCreation secondChallenge).operation) = saturated :=
    RatePath.perform_admin rfl hanswer
  obtain ⟨-, -, -, hnone⟩ := challengedOnce_evaluates
  exact hnone row (hcommitted.stored (congrArg System.store hsame)) hcommitted.outcome.2

open SampleService in
/-- The repository retains the refusal of the second challenge. -/
theorem repository_refusal_retained :
    ∃ row, RefusalCommitted strictConfig.governance.challengeCreation (.creation secondChallenge)
      laterPing.operationId saturated.store
      (saturated.perform pongCodec (.operation (.issueChallenge secondChallenge))).store row := by
  obtain ⟨row, hcommitted, -⟩ := (refusals_retained_by_repository pongCodec strictConfig 1
    challengedOnce (.creation secondChallenge) laterPing.operationId saturated_refuses rfl).2 rfl
  exact ⟨row, hcommitted⟩

end MycSigner
