import MycSigner.Governance.Healing

/-!
# Refused attempts

Five entry points consume a governed rate: the repository's admission of a connection, its
creation and its authorization of a challenge, and the administrator's two challenge routes.
The repository commits a refusal: its record and its count in the windows stay, and while the
record is kept the same operation is not granted by any of the paths.  An administrator's
route turns the refusal into an error, and its transaction is rolled back with the evidence.
-/

namespace MycSigner

open Transaction

/-! ## The paths -/

/-- How a governed path answers. -/
inductive RateAnswer where
  | granted
  | expired
  | rateLimited
deriving DecidableEq

def ConnectionAdmission.answer : ConnectionAdmission → RateAnswer
  | .admitted _ | .exactReplay _ => .granted
  | .rateLimited => .rateLimited

def ChallengeAdmission.answer : ChallengeAdmission → RateAnswer
  | .created _ | .exactReplay _ => .granted
  | .rateLimited => .rateLimited

def ChallengeAuthorization.answer : ChallengeAuthorization → RateAnswer
  | .resolved record | .exactReplay record =>
      if record.state = .authorized then .granted else .expired
  | .rateLimited => .rateLimited

/-- The entry points that consume a governed rate. -/
inductive RatePath where
  | admission (request : AdmissionRequest)
  | creation (request : ChallengeRequest)
  | authorization (challengeId connectionId operationId : Id32) (generation : PolicyGeneration)
      (observedAt : TimeUnixMs)
  | adminCreation (request : ChallengeRequest)
  | adminAuthorization (challengeId : Id32) (generation : PolicyGeneration)
      (observedAt : TimeUnixMs)

/-- The administrator's authorization up to its answer. -/
def adminAuthorizationBody (policy : RateLimitPolicy) (challengeId : Id32)
    (generation : PolicyGeneration) (observedAt : TimeUnixMs) : Tx ChallengeAuthorization := do
  let operationId ← query fun s =>
    (oneRow (s.challenges.filter fun row => row.challengeId = challengeId)).map
      ChallengeRow.operationId
  let before ← query (readChallenge · operationId)
  let before ← orFail before .binding
  require (before.policyGeneration = generation) .conflict
  authorizeChallengeBody policy challengeId before.connectionId before.operationId generation
    observedAt

namespace RatePath

/-- The transaction of a path. -/
def operation : RatePath → Operation
  | admission request => .admitConnection request
  | creation request => .issueChallenge request
  | authorization challengeId connectionId operationId generation observedAt =>
      .authorizeChallenge challengeId connectionId operationId generation observedAt
  | adminCreation request => .adminRequireChallenge request
  | adminAuthorization challengeId generation observedAt =>
      .adminAuthorizeChallenge challengeId generation observedAt

/-- The path is a route of the administrator. -/
def admin : RatePath → Bool
  | admission .. | creation .. | authorization .. => false
  | adminCreation .. | adminAuthorization .. => true

def auditKind : RatePath → AuditKind
  | admission .. => .connectionAdmission
  | creation .. | adminCreation .. => .challengeCreation
  | authorization .. | adminAuthorization .. => .challengeAuthorization

def policy (config : Configuration) : RatePath → RateLimitPolicy
  | admission .. => config.governance.connectionAdmission
  | creation .. | adminCreation .. => config.governance.challengeCreation
  | authorization .. | adminAuthorization .. => config.governance.challengeAuthorization

def observedAt : RatePath → TimeUnixMs
  | admission request => request.observedAt
  | creation request | adminCreation request => request.issuedAt
  | authorization _ _ _ _ observedAt | adminAuthorization _ _ observedAt => observedAt

/-- The operation that a path works for. -/
def WorksFor (s : Store) (operationId : Id32) : RatePath → Prop
  | admission request => request.operationId = operationId
  | creation request | adminCreation request => request.operationId = operationId
  | authorization _ _ id _ _ => id = operationId
  | adminAuthorization challengeId _ _ => ∃ row ∈ s.challenges, row.challengeId = challengeId ∧
      row.operationId = operationId

/-- The subjects that a path counts. -/
def subjects (s : Store) : RatePath → List RateSubject
  | admission request => [.global, relaySubject request.relayId]
  | creation request | adminCreation request => [.connection request.connectionId]
  | authorization _ connectionId _ _ _ => [.connection connectionId]
  | adminAuthorization challengeId _ _ =>
      (s.challenges.filter fun row => row.challengeId = challengeId).map fun row =>
        .connection row.connectionId

/-- The transaction of a path up to its answer. -/
def answer (config : Configuration) : RatePath → Tx RateAnswer
  | admission request => do return (← admitConnection config request).answer
  | creation request => do return (← issueAuthorizationChallenge config request).answer
  | authorization challengeId connectionId operationId generation observedAt => do
      return (← authorizeChallenge config challengeId connectionId operationId generation
        observedAt).answer
  | adminCreation request => do
      require (config.connection.admitsChallengeRequest request = true) .conflict
      return (← withBinding config
        (issueChallenge config.governance.challengeCreation request)).answer
  | adminAuthorization challengeId generation observedAt => do
      return (← withBinding config (adminAuthorizationBody
        config.governance.challengeAuthorization challengeId generation observedAt)).answer

/-- The attempt of the path is refused by a rate window or by the record of a refusal. -/
def Refuses (config : Configuration) (s : Store) (path : RatePath) : Prop :=
  ∃ s', (path.answer config).run s = .ok (.rateLimited, s')

/-- The attempt that a path makes for a request. -/
def attempt (s : Store) (path : RatePath) (request : RequestRow) : Attempt :=
  ⟨path.subjects s, ⟨request.correlationId, path.observedAt, some request.operationId⟩,
    path.auditKind⟩

end RatePath

/-! ## What a path reads before its attempt -/

/-- The operation has not been granted in a kind. -/
def Ungranted (s : Store) (operationId : Id32) : AuditKind → Prop
  | .connectionAdmission =>
      (∃ request ∈ s.requests, request.operationId = operationId ∧ request.method = .connect) ∧
        ∀ row ∈ s.decisions, row.operationId ≠ operationId
  | .challengeCreation => ∀ row ∈ s.challenges, row.operationId ≠ operationId
  | .challengeAuthorization => ∀ row ∈ s.challenges, row.operationId = operationId →
      row.state ≠ .authorized
  | .connectionOperatorDecision | .connectionExpiry | .governanceCompaction => True

/-- An answered attempt: it was refused, or no refusal of its correlation was recorded. -/
def Governed (policy : RateLimitPolicy) (s s' : Store) (attempt : Attempt) (answer : RateAnswer) :
    Prop :=
  (answer = .rateLimited ∧ (attempt.body policy).run s = .ok (false, s')) ∨
    (answer ≠ .rateLimited ∧ ∀ record, readAuditById s attempt.auditId = .ok (some record) →
      record.reason ≠ .rateLimited)

section
variable {policy : RateLimitPolicy} {s s' : Store}

theorem readAuditById_congr (h : s'.governance = s.governance) (auditId : Id32) :
    readAuditById s' auditId = readAuditById s auditId := by
  have hrequests : s'.requests = s.requests := congrArg (·.1) h
  have haudit : s'.audit = s.audit := congrArg (·.2.2.1) h
  have hlinks : s'.requestAudit = s.requestAudit := congrArg (·.2.2.2.1) h
  unfold readAuditById auditMatches
  rw [hrequests, haudit, hlinks]

/-- An admitted attempt had no record. -/
theorem governRateAttempt_unrecorded {expectedClass : RateLimitClass}
    {subjects : List RateSubject} {evidence : AuditEvidence} {kind : AuditKind}
    (h : (governRateAttempt policy expectedClass subjects evidence kind).run s = .ok (true, s')) :
    readAuditById s (deriveAuditId evidence.correlation kind) = .ok none := by
  obtain ⟨-, ⟨hfalse, -⟩ | ⟨hnone, -⟩⟩ := governRateAttempt_cases h
  · cases hfalse
  · exact hnone

theorem admitConnectionBody_governed {request : AdmissionRequest}
    {admission : ConnectionAdmission} (hclass : policy.rateClass = .connectionAdmission)
    (h : (admitConnectionBody policy request).run s = .ok (admission, s')) :
    ∃ binding ∈ s.requests, binding.operationId = request.operationId ∧
      binding.method = .connect ∧
      ((s' = s ∧ admission.answer = .granted ∧
          ∃ row ∈ s.decisions, row.operationId = request.operationId) ∨
        ((∀ row ∈ s.decisions, row.operationId ≠ request.operationId) ∧
          Governed policy s s' ((RatePath.admission request).attempt s binding)
            admission.answer)) := by
  unfold admitConnectionBody at h
  obtain ⟨binding, hbinding, h⟩ := run_query_bind_eq_ok.mp h
  obtain ⟨⟨-, hmethod, -⟩, h⟩ := run_require_bind_eq_ok.mp h
  obtain ⟨hmem, hid⟩ := readRequestBinding_eq_ok hbinding
  refine ⟨binding, hmem, hid, hmethod, ?_⟩
  obtain ⟨decision, hdecision, h⟩ := run_query_bind_eq_ok.mp h
  cases decision with
  | some existing =>
      obtain ⟨hrow, hrowId, -⟩ := readDecision_eq_some hdecision
      obtain ⟨_, s₂, hreplay, h⟩ := run_bind_eq_ok.mp h
      obtain ⟨rfl, rfl⟩ := run_pure_eq_ok.mp h
      refine .inl ⟨?_, rfl, existing, hrow, hrowId⟩
      unfold replayAdmission at hreplay
      obtain ⟨-, hreplay⟩ := run_require_bind_eq_ok.mp hreplay
      obtain ⟨_, -, hreplay⟩ := run_query_bind_eq_ok.mp hreplay
      obtain ⟨-, hreplay⟩ := run_require_bind_eq_ok.mp hreplay
      obtain ⟨-, rfl⟩ := run_pure_eq_ok.mp hreplay
      rfl
  | none =>
      refine .inr ⟨readDecision_eq_none hdecision, ?_⟩
      unfold decideAdmission at h
      obtain ⟨governed, s₁, hgovern, h⟩ := run_bind_eq_ok.mp h
      cases governed with
      | false =>
          obtain ⟨rfl, rfl⟩ := run_pure_eq_ok.mp h
          unfold governAdmission at hgovern
          split at hgovern
          next =>
            obtain ⟨hfalse, -⟩ := run_pure_eq_ok.mp hgovern
            cases hfalse
          next =>
            refine .inl ⟨rfl, ?_⟩
            unfold Attempt.body RatePath.attempt
            rw [hclass, hid]
            exact hgovern
      | true =>
          obtain ⟨id, s₂, hconnection, h⟩ := run_bind_eq_ok.mp h
          obtain ⟨_, s₃, hinsert, h⟩ := run_bind_eq_ok.mp h
          obtain ⟨_, -, h⟩ := run_query_bind_eq_ok.mp h
          obtain ⟨_, -, h⟩ := run_orFail_bind_eq_ok.mp h
          obtain ⟨_, -, h⟩ := run_query_bind_eq_ok.mp h
          obtain ⟨_, s₄, haudit, h⟩ := run_bind_eq_ok.mp h
          obtain ⟨rfl, rfl⟩ := run_pure_eq_ok.mp h
          refine .inr ⟨by simp [ConnectionAdmission.answer], fun record hrecord => ?_⟩
          unfold governAdmission at hgovern
          split at hgovern
          next hdenied =>
            -- a direct denial is not governed, but a record of its correlation has to match
            obtain ⟨-, rfl⟩ := run_pure_eq_ok.mp hgovern
            have hkept := insertConnection_keeps_governance request hconnection
            have hkept' := (insertDecision_keeps_governance _ hinsert).trans hkept
            have hsame : readAuditById s₃ (deriveAuditId binding.correlationId
                .connectionAdmission) = .ok (some record) :=
              (readAuditById_congr hkept' _).trans hrecord
            unfold recordAudit at haudit
            obtain ⟨existing, hexisting, haudit⟩ := run_query_bind_eq_ok.mp haudit
            rw [hsame] at hexisting
            cases hexisting
            obtain ⟨⟨-, -, -, -, hreason, -⟩, -⟩ := run_require_eq_ok.mp haudit
            rw [hreason, hdenied]
            simp
          next =>
            have hnone := governRateAttempt_unrecorded hgovern
            have hsome : readAuditById s (deriveAuditId binding.correlationId
              .connectionAdmission) = .ok (some record) := hrecord
            rw [hnone] at hsome
            cases hsome

theorem readChallenge_eq_none {operationId : Id32} (h : readChallenge s operationId = .ok none) :
    ∀ row ∈ s.challenges, row.operationId ≠ operationId := by
  unfold readChallenge at h
  obtain ⟨found, hfound, h⟩ := Except.bind_eq_ok_iff.mp h
  cases found with
  | none =>
      intro row hrow heq
      have hnil := List.filter_eq_nil_iff.mp (atMostOneRow_eq_none.mp hfound) row hrow
      exact hnil (decide_eq_true heq)
  | some found =>
      obtain ⟨_, -, h⟩ := Except.bind_eq_ok_iff.mp h
      cases h

theorem oneRow_map_eq_ok {α β : Type} {rows : List α} {f : α → β} {b : β}
    (h : (oneRow rows).map f = .ok b) : ∃ row, rows = [row] ∧ f row = b := by
  cases hone : oneRow rows with
  | error e => simp [hone, Except.map] at h
  | ok row =>
      rw [hone] at h
      exact ⟨row, oneRow_eq_ok.mp hone, Except.ok.inj h⟩

theorem readChallenge_only {operationId : Id32} {found : ChallengeRow}
    (h : readChallenge s operationId = .ok (some found)) :
    ∀ row ∈ s.challenges, row.operationId = operationId → row = found := by
  unfold readChallenge at h
  obtain ⟨rows, hrows, h⟩ := Except.bind_eq_ok_iff.mp h
  cases rows with
  | none => cases h
  | some other =>
      obtain ⟨_, -, h⟩ := Except.bind_eq_ok_iff.mp h
      obtain rfl := Option.some.inj (Except.ok.inj h)
      obtain ⟨-, -, honly⟩ := mem_of_filter_eq_singleton (atMostOneRow_eq_some.mp hrows)
      intro row hrow hid
      exact honly row hrow (decide_eq_true hid)

theorem issueChallenge_governed {request : ChallengeRequest} {admission : ChallengeAdmission}
    (hclass : policy.rateClass = .challengeCreation)
    (h : (issueChallenge policy request).run s = .ok (admission, s')) :
    ∃ binding ∈ s.requests, binding.operationId = request.operationId ∧
      ((s' = s ∧ admission.answer = .granted ∧
          ∃ row ∈ s.challenges, row.operationId = request.operationId) ∨
        ((∀ row ∈ s.challenges, row.operationId ≠ request.operationId) ∧
          Governed policy s s' ((RatePath.creation request).attempt s binding)
            admission.answer)) := by
  unfold issueChallenge at h
  obtain ⟨binding, hbinding, h⟩ := run_query_bind_eq_ok.mp h
  obtain ⟨-, h⟩ := run_require_bind_eq_ok.mp h
  obtain ⟨connection, -, h⟩ := run_query_bind_eq_ok.mp h
  obtain ⟨-, h⟩ := run_require_bind_eq_ok.mp h
  obtain ⟨existing, hexisting, h⟩ := run_query_bind_eq_ok.mp h
  obtain ⟨hmem, hid⟩ := readRequestBinding_eq_ok hbinding
  refine ⟨binding, hmem, hid, ?_⟩
  cases existing with
  | some existing =>
      obtain ⟨-, h⟩ := run_require_bind_eq_ok.mp h
      obtain ⟨rfl, rfl⟩ := run_pure_eq_ok.mp h
      obtain ⟨hrow, hrowId⟩ := readChallenge_eq_some hexisting
      exact .inl ⟨rfl, rfl, existing, hrow, hrowId⟩
  | none =>
      refine .inr ⟨readChallenge_eq_none hexisting, ?_⟩
      unfold createChallenge at h
      obtain ⟨-, h⟩ := run_require_bind_eq_ok.mp h
      obtain ⟨_, -, h⟩ := run_query_bind_eq_ok.mp h
      obtain ⟨-, h⟩ := run_require_bind_eq_ok.mp h
      obtain ⟨governed, s₁, hgovern, h⟩ := run_bind_eq_ok.mp h
      cases governed with
      | false =>
          obtain ⟨rfl, rfl⟩ := run_pure_eq_ok.mp h
          refine .inl ⟨rfl, ?_⟩
          unfold Attempt.body RatePath.attempt
          rw [hclass, hid]
          exact hgovern
      | true =>
          obtain ⟨_, _, -, h⟩ := run_bind_eq_ok.mp h
          obtain ⟨_, _, -, h⟩ := run_bind_eq_ok.mp h
          obtain ⟨_, -, h⟩ := run_query_bind_eq_ok.mp h
          obtain ⟨_, -, h⟩ := run_orFail_bind_eq_ok.mp h
          obtain ⟨_, _, -, h⟩ := run_bind_eq_ok.mp h
          obtain ⟨rfl, -⟩ := run_pure_eq_ok.mp h
          refine .inr ⟨by simp [ChallengeAdmission.answer], fun record hrecord => ?_⟩
          have hsome : readAuditById s (deriveAuditId binding.correlationId .challengeCreation) =
            .ok (some record) := hrecord
          rw [governRateAttempt_unrecorded hgovern] at hsome
          cases hsome

theorem resolveChallenge_answer {before : ChallengeRow} {connection : ConnectionRecord}
    {evidence : AuditEvidence} {observedAt : TimeUnixMs} {authorization : ChallengeAuthorization}
    (h : (resolveChallenge before connection evidence observedAt).run s = .ok (authorization, s')) :
    authorization.answer ≠ .rateLimited := by
  dsimp only [resolveChallenge] at h
  obtain ⟨_, _, -, h⟩ := run_bind_eq_ok.mp h
  obtain ⟨-, h⟩ := run_require_bind_eq_ok.mp h
  obtain ⟨_, _, -, h⟩ := run_bind_eq_ok.mp h
  obtain ⟨-, h⟩ := run_require_bind_eq_ok.mp h
  obtain ⟨_, -, h⟩ := run_query_bind_eq_ok.mp h
  obtain ⟨record, -, h⟩ := run_orFail_bind_eq_ok.mp h
  have hanswer : authorization = .resolved record := by
    split at h
    next =>
      obtain ⟨_, _, -, h⟩ := run_bind_eq_ok.mp h
      exact (run_pure_eq_ok.mp h).1.symm
    next =>
      obtain ⟨_, _, -, h⟩ := run_bind_eq_ok.mp h
      exact (run_pure_eq_ok.mp h).1.symm
  rw [hanswer, ChallengeAuthorization.answer]
  split <;> simp

theorem authorizeChallengeBody_governed {challengeId connectionId operationId : Id32}
    {generation : PolicyGeneration} {observedAt : TimeUnixMs}
    {authorization : ChallengeAuthorization} (hclass : policy.rateClass = .challengeAuthorization)
    (h : (authorizeChallengeBody policy challengeId connectionId operationId generation
      observedAt).run s = .ok (authorization, s')) :
    ∃ binding ∈ s.requests, binding.operationId = operationId ∧
      ∃ before ∈ s.challenges, before.operationId = operationId ∧
        (∀ row ∈ s.challenges, row.operationId = operationId → row = before) ∧
        before.connectionId = connectionId ∧
        ((s' = s ∧ before.state ≠ .pending ∧ authorization = .exactReplay before) ∨
          (before.state = .pending ∧
            Governed policy s s'
              ((RatePath.authorization challengeId connectionId operationId generation
                observedAt).attempt s binding) authorization.answer)) := by
  unfold authorizeChallengeBody at h
  obtain ⟨_, hread, h⟩ := run_query_bind_eq_ok.mp h
  obtain ⟨before, rfl, h⟩ := run_orFail_bind_eq_ok.mp h
  obtain ⟨⟨-, hconnection, -, -⟩, h⟩ := run_require_bind_eq_ok.mp h
  obtain ⟨binding, hbinding, h⟩ := run_query_bind_eq_ok.mp h
  obtain ⟨connection, -, h⟩ := run_query_bind_eq_ok.mp h
  obtain ⟨-, h⟩ := run_require_bind_eq_ok.mp h
  obtain ⟨hmem, hid⟩ := readRequestBinding_eq_ok hbinding
  obtain ⟨hbefore, hbeforeId⟩ := readChallenge_eq_some hread
  refine ⟨binding, hmem, hid, before, hbefore, hbeforeId, readChallenge_only hread, hconnection, ?_⟩
  split at h
  next hstate =>
    obtain ⟨rfl, rfl⟩ := run_pure_eq_ok.mp h
    exact .inl ⟨rfl, hstate, rfl⟩
  next hstate =>
    refine .inr ⟨not_not.mp hstate, ?_⟩
    obtain ⟨governed, s₁, hgovern, h⟩ := run_bind_eq_ok.mp h
    cases governed with
    | false =>
        obtain ⟨rfl, rfl⟩ := run_pure_eq_ok.mp h
        refine .inl ⟨rfl, ?_⟩
        unfold Attempt.body RatePath.attempt
        rw [hclass, hid]
        exact hgovern
    | true =>
        refine .inr ⟨resolveChallenge_answer h, fun record hrecord => ?_⟩
        have hsome : readAuditById s (deriveAuditId binding.correlationId
          .challengeAuthorization) = .ok (some record) := hrecord
        rw [governRateAttempt_unrecorded hgovern] at hsome
        cases hsome

/-- A challenge that is not pending answers for itself; a pending one is governed. -/
theorem authorization_answer_cases {before : ChallengeRow} {operationId : Id32}
    {authorization : ChallengeAuthorization} {G : Prop} (hbefore : before ∈ s.challenges)
    (hid : before.operationId = operationId)
    (honly : ∀ row ∈ s.challenges, row.operationId = operationId → row = before)
    (h : (s' = s ∧ before.state ≠ .pending ∧ authorization = .exactReplay before) ∨
      (before.state = .pending ∧ G)) :
    (s' = s ∧ authorization.answer ≠ .rateLimited ∧ (authorization.answer = .granted →
        ¬ Ungranted s operationId .challengeAuthorization)) ∨
      (Ungranted s operationId .challengeAuthorization ∧ G) := by
  rcases h with ⟨hsame, -, rfl⟩ | ⟨hpending, hgoverned⟩
  · refine .inl ⟨hsame, ?_, fun hgranted hungranted => ?_⟩
    · dsimp only [ChallengeAuthorization.answer]
      split <;> simp
    · refine hungranted before hbefore hid ?_
      by_contra hstate
      simp [ChallengeAuthorization.answer, hstate] at hgranted
  · refine .inr ⟨fun row hrow hrowId => ?_, hgoverned⟩
    rw [honly row hrow hrowId, hpending]
    simp

/-- What an answered path read before its attempt: it was granted or expired before, or its
attempt was governed. -/
theorem RatePath.answer_cases {config : Configuration} {path : RatePath} {answer : RateAnswer}
    {operationId : Id32} (hworks : path.WorksFor s operationId)
    (h : (path.answer config).run s = .ok (answer, s')) :
    ∃ request ∈ s.requests, request.operationId = operationId ∧
      ((s' = s ∧ answer ≠ .rateLimited ∧
          (answer = .granted → ¬ Ungranted s operationId path.auditKind)) ∨
        (Ungranted s operationId path.auditKind ∧
          Governed (path.policy config) s s' (path.attempt s request) answer)) := by
  cases path with
  | admission request =>
      obtain ⟨_, _, hrun, hanswer⟩ := run_bind_eq_ok.mp h
      obtain ⟨rfl, rfl⟩ := run_pure_eq_ok.mp hanswer
      obtain rfl := hworks
      unfold admitConnection at hrun
      obtain ⟨-, hrun⟩ := run_require_bind_eq_ok.mp hrun
      obtain ⟨binding, hmem, hid, hmethod, hend⟩ :=
        admitConnectionBody_governed config.governance.admission_class (run_withBinding_eq_ok hrun)
      refine ⟨binding, hmem, hid, ?_⟩
      rcases hend with ⟨hsame, hgranted, row, hrow, hrowId⟩ | ⟨hundecided, hgoverned⟩
      · exact .inl ⟨hsame, by simp [hgranted], fun _ hungranted => hungranted.2 row hrow hrowId⟩
      · exact .inr ⟨⟨⟨binding, hmem, hid, hmethod⟩, hundecided⟩, hgoverned⟩
  | creation request =>
      obtain ⟨_, _, hrun, hanswer⟩ := run_bind_eq_ok.mp h
      obtain ⟨rfl, rfl⟩ := run_pure_eq_ok.mp hanswer
      obtain rfl := hworks
      unfold issueAuthorizationChallenge at hrun
      obtain ⟨-, hrun⟩ := run_require_bind_eq_ok.mp hrun
      obtain ⟨binding, hmem, hid, hend⟩ :=
        issueChallenge_governed config.governance.creation_class (run_withBinding_eq_ok hrun)
      refine ⟨binding, hmem, hid, ?_⟩
      rcases hend with ⟨hsame, hgranted, row, hrow, hrowId⟩ | ⟨hundecided, hgoverned⟩
      · exact .inl ⟨hsame, by simp [hgranted], fun _ hungranted => hungranted row hrow hrowId⟩
      · exact .inr ⟨hundecided, hgoverned⟩
  | adminCreation request =>
      obtain ⟨-, hrest⟩ := run_require_bind_eq_ok.mp h
      obtain ⟨_, _, hrun, hanswer⟩ := run_bind_eq_ok.mp hrest
      obtain ⟨rfl, rfl⟩ := run_pure_eq_ok.mp hanswer
      obtain rfl := hworks
      obtain ⟨binding, hmem, hid, hend⟩ :=
        issueChallenge_governed config.governance.creation_class (run_withBinding_eq_ok hrun)
      refine ⟨binding, hmem, hid, ?_⟩
      rcases hend with ⟨hsame, hgranted, row, hrow, hrowId⟩ | ⟨hundecided, hgoverned⟩
      · exact .inl ⟨hsame, by simp [hgranted], fun _ hungranted => hungranted row hrow hrowId⟩
      · exact .inr ⟨hundecided, hgoverned⟩
  | authorization challengeId connectionId id generation observedAt =>
      obtain ⟨_, _, hrun, hanswer⟩ := run_bind_eq_ok.mp h
      obtain ⟨rfl, rfl⟩ := run_pure_eq_ok.mp hanswer
      obtain rfl := hworks
      obtain ⟨binding, hmem, hid, before, hbefore, hbeforeId, honly, -, hend⟩ :=
        authorizeChallengeBody_governed config.governance.authorization_class
          (run_withBinding_eq_ok hrun)
      exact ⟨binding, hmem, hid, authorization_answer_cases hbefore hbeforeId honly hend⟩
  | adminAuthorization challengeId generation observedAt =>
      obtain ⟨_, _, hrun, hanswer⟩ := run_bind_eq_ok.mp h
      obtain ⟨rfl, rfl⟩ := run_pure_eq_ok.mp hanswer
      obtain ⟨row, hrow, hchallengeId, rfl⟩ := hworks
      have hrun := run_withBinding_eq_ok hrun
      unfold adminAuthorizationBody at hrun
      obtain ⟨id, hfound, hrun⟩ := run_query_bind_eq_ok.mp hrun
      obtain ⟨_, hread, hrun⟩ := run_query_bind_eq_ok.mp hrun
      obtain ⟨before, rfl, hrun⟩ := run_orFail_bind_eq_ok.mp hrun
      obtain ⟨-, hrun⟩ := run_require_bind_eq_ok.mp hrun
      obtain ⟨found, hfilter, rfl⟩ := oneRow_map_eq_ok hfound
      obtain ⟨hfoundMem, -, hfoundOnly⟩ := mem_of_filter_eq_singleton hfilter
      obtain rfl := hfoundOnly row hrow (decide_eq_true hchallengeId)
      -- the challenge of the identity is the challenge of its operation
      obtain rfl := readChallenge_only hread row hrow rfl
      obtain ⟨binding, hmem, hid, before, hbefore, hbeforeId, honly, -, hend⟩ :=
        authorizeChallengeBody_governed config.governance.authorization_class hrun
      refine ⟨binding, hmem, hid, ?_⟩
      have hcases := authorization_answer_cases hbefore hbeforeId honly hend
      have hattempt : (RatePath.adminAuthorization challengeId generation observedAt).attempt s
          binding = (RatePath.authorization challengeId row.connectionId row.operationId generation
            observedAt).attempt s binding := by
        simp [RatePath.attempt, RatePath.subjects, hfilter, RatePath.observedAt,
          RatePath.auditKind]
      rw [hattempt]
      exact hcases

end

end MycSigner
