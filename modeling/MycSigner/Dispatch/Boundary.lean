import MycSigner.Governance.Invariant
import MycSigner.Sessions.Resolution

/-!
# The limit of a session

The limit of an active connection is compared in the session lookup, in expiry, in both
challenge operations and in the preparation of work, once in SQL and otherwise in the program.
All of them draw the same line: at its limit a session still lives, and after it the session can
be expired.  Expiry writes an audit record besides, and only that record can still refuse it.
-/

namespace MycSigner

open Transaction

variable {s s' : Store} {row : ConnectionRow} {record : ConnectionRecord}
  {observedAt : TimeUnixMs} {correlation : Id32}

/-- The session lookup of its client selects the connection. -/
def Selected (s : Store) (row : ConnectionRow) (observedAt : TimeUnixMs) : Prop :=
  row ∈ s.connections.filter (·.servesAt row.clientPublicKey observedAt)

/-- The expiry of the connection under its generation succeeds. -/
def Expirable (config : Configuration) (s : Store) (row : ConnectionRow)
    (observedAt : TimeUnixMs) (correlation : Id32) : Prop :=
  ∃ record s', (withBinding config (expireConnection row.connectionId row.policyGeneration
    observedAt correlation)).run s = .ok (record, s')

/-- The audit record of an expiry is there already, or there is none of its identity and a
sequence is left for it. -/
def ExpiryRecordable (s : Store) (correlation : Id32) (observedAt : TimeUnixMs) : Prop :=
  (∃ row ∈ s.audit, row.auditId = deriveAuditId correlation .connectionExpiry ∧
      row.correlationId = correlation ∧ row.auditKind = .connectionExpiry ∧
      row.outcome = .succeeded ∧ row.reasonCode = .connectionExpired ∧
      row.occurredAt = observedAt) ∨
    ((∀ row ∈ s.audit, row.auditId ≠ deriveAuditId correlation .connectionExpiry) ∧
      s.nextAuditSequence < i64Max)

/-- The connection without its limit. -/
def ConnectionRecord.unlimited (record : ConnectionRecord) : ConnectionRecord :=
  { record with authorizedUntil := none }

/-- The line that the limit of a session draws at a time. -/
structure Boundary (system : System) (row : ConnectionRow) (record : ConnectionRecord)
    (observedAt : TimeUnixMs) : Prop where
  /-- Exactly one of the lookup and the expiry takes the connection. -/
  partition : ∀ correlation, ExpiryRecordable system.store correlation observedAt →
    Xor (Selected system.store row observedAt)
      (Expirable system.config system.store row observedAt correlation)
  /-- What the lookup selects is never expired. -/
  exclusive : ∀ correlation, Expirable system.config system.store row observedAt correlation →
    ¬ Selected system.store row observedAt
  /-- A connection without a limit lives on. -/
  unlimited : row.authorizedUntil = none → Selected system.store row observedAt
  /-- Work of its client finds the session expired exactly when the lookup does not select it. -/
  work : ∀ (protocol : Protocol) (metadata : PersistedMetadata) (prepared : PreparedRequest)
      (request : RequestRecord) (deadline : Option TimeUnixMs) (method : Method),
    request.matchesRequest prepared.signerRequest = true → request.receivedAt ≤ observedAt →
    prepared.request.method = some method → method ≠ .connect →
    prepared.signerRequest.clientPublicKey = row.clientPublicKey →
    (prepareWork protocol metadata prepared request (some record) observedAt deadline =
        .error .connectionExpired ↔
      ¬ Selected system.store row observedAt)
  /-- A first challenge is issued as if there were no limit, or refused. -/
  issue : ∀ (policy : RateLimitPolicy) (request : ChallengeRequest) (binding : RequestRow),
    request.issuedAt = observedAt →
    (Selected system.store row observedAt →
      createChallenge policy request binding record =
        createChallenge policy request binding record.unlimited) ∧
    (¬ Selected system.store row observedAt → ∀ s,
      (createChallenge policy request binding record).run s = .error .binding)
  /-- After the limit an issue can only replay. -/
  replays : ∀ (policy : RateLimitPolicy) (request : ChallengeRequest)
      (admission : ChallengeAdmission) (s' : Store),
    request.connectionId = row.connectionId → request.issuedAt = observedAt →
    (issueChallenge policy request).run system.store = .ok (admission, s') →
    Selected system.store row observedAt ∨
      ∃ existing, admission = .exactReplay existing ∧ s' = system.store
  /-- A challenge in time is authorized exactly on a session that the lookup selects. -/
  authorize : ∀ (policy : RateLimitPolicy) (challengeId operationId : Id32)
      (generation : PolicyGeneration) (challenge : ChallengeRow) (s' : Store),
    (authorizeChallengeBody policy challengeId row.connectionId operationId generation
      observedAt).run system.store = .ok (.resolved challenge, s') →
    (challenge.state = .authorized ↔
      observedAt ≤ challenge.expiresAt ∧ Selected system.store row observedAt)

/-! ## The line -/

/-- An active connection is selected up to its limit. -/
theorem selected_iff (hrow : row ∈ s.connections) (hactive : row.status = .active) :
    Selected s row observedAt ↔ ∀ limit ∈ row.authorizedUntil, observedAt ≤ limit := by
  unfold Selected ConnectionRow.servesAt
  rw [List.mem_filter]
  cases hlimit : row.authorizedUntil with
  | none => simp [hrow, hactive]
  | some limit => simp [hrow, hactive]

/-- The other side of the line. -/
theorem not_selected_iff (hrow : row ∈ s.connections) (hactive : row.status = .active) :
    ¬ Selected s row observedAt ↔
      row.authorizedUntil.any (fun limit => decide (limit < observedAt)) = true := by
  rw [selected_iff hrow hactive]
  cases hlimit : row.authorizedUntil with
  | none => simp
  | some limit =>
      simp only [Option.mem_def, Option.some.injEq, forall_eq', Option.any_some, decide_eq_true_eq]
      exact Nat.not_le

/-! ## Expiry -/

/-- A record without a request is written when it is new, or found as it would be written. -/
theorem AuditInv.run_recordAudit (inv : AuditInv s) {evidence : AuditEvidence} {kind : AuditKind}
    {outcome : AuditOutcome} {reason : AuditReason} (hoperation : evidence.operationId = none)
    (hkind : kind.requestBound = false) :
    (∃ u s', (recordAudit evidence kind outcome reason).run s = .ok (u, s')) ↔
      (∃ row ∈ s.audit, row.auditId = deriveAuditId evidence.correlation kind ∧
        row.correlationId = evidence.correlation ∧ row.auditKind = kind ∧ row.outcome = outcome ∧
        row.reasonCode = reason ∧ row.occurredAt = evidence.occurredAt) ∨
      ((∀ row ∈ s.audit, row.auditId ≠ deriveAuditId evidence.correlation kind) ∧
        s.nextAuditSequence < i64Max) := by
  have hbound : evidence.BoundIn s kind := by
    unfold AuditEvidence.BoundIn
    rw [hoperation]
    exact hkind
  by_cases hnone : ∀ row ∈ s.audit, row.auditId ≠ deriveAuditId evidence.correlation kind
  · have hfresh := readAuditById_eq_none.mpr hnone
    constructor
    · rintro ⟨u, s', h⟩
      obtain ⟨hrecordable, -⟩ := (run_recordAudit_fresh hfresh).mp h
      exact .inr ⟨hnone, Nat.lt_of_succ_le hrecordable.room⟩
    · rintro (⟨found, hfound, hid, -⟩ | ⟨-, hroom⟩)
      · exact absurd hid (hnone found hfound)
      · exact ⟨(), _, (run_recordAudit_fresh hfresh).mpr
          ⟨inv.recordable hbound hfresh (Nat.succ_le_of_lt hroom), rfl⟩⟩
  · simp only [not_forall, not_not] at hnone
    obtain ⟨found, hfound, hid⟩ := hnone
    have hread := inv.readable hfound
    rw [hid] at hread
    unfold recordAudit
    constructor
    · rintro ⟨u, s', h⟩
      obtain ⟨existing, hexisting, h⟩ := run_query_bind_eq_ok.mp h
      rw [hread] at hexisting
      cases hexisting
      obtain ⟨⟨hcorrelation, -, hkind, houtcome, hreason, hoccurred⟩, -⟩ := run_require_eq_ok.mp h
      exact .inl ⟨found, hfound, hid, hcorrelation, hkind, houtcome, hreason, hoccurred⟩
    · rintro (⟨other, hother, hotherId, hcorrelation, hsame, houtcome, hreason, hoccurred⟩ |
        ⟨hnot, -⟩)
      · obtain rfl := inv.ids.eq_of_key_eq hfound hother (hid.trans hotherId.symm)
        have hunlinked : s.linkOf found = none := by
          unfold Store.linkOf
          rw [← List.head?_filter, inv.filter_links_of_unbound hfound (hsame ▸ hkind)]
          rfl
        refine ⟨(), s, run_query_bind_eq_ok.mpr ⟨_, hread, ?_⟩⟩
        refine run_require_eq_ok.mpr ⟨⟨hcorrelation, ?_, hsame, houtcome, hreason, hoccurred⟩, rfl⟩
        rw [hoperation]
        exact hunlinked
      · exact absurd hid (hnot found hfound)

theorem run_recordConnectionExpiryAudit (inv : AuditInv s) :
    (∃ u s', (recordConnectionExpiryAudit correlation observedAt).run s = .ok (u, s')) ↔
      ExpiryRecordable s correlation observedAt :=
  inv.run_recordAudit rfl rfl

/-- Ending sessions leaves the audit trail alone. -/
theorem AuditInv.ended (inv : AuditInv s) {connectionId : Id32} {generation : PolicyGeneration}
    {limited : ConnectionRow → Bool} :
    AuditInv (s.ended connectionId generation observedAt limited) :=
  ⟨inv.requests, inv.numbered, inv.sequences, inv.ids, inv.identified, inv.linkSequences,
    inv.links, inv.bound⟩

/-- The end of a session passes the triggers of its table. -/
theorem connectionUpdateAllowed_expired {requested granted : PermissionSet}
    (hreadable : connectionReadable row requested granted = true) (hactive : row.status = .active)
    (hlater : row.updatedAt ≤ observedAt) :
    connectionUpdateAllowed row
      { row with status := .expired, updatedAt := observedAt, authorizedUntil := none } = true := by
  have hcreated : row.createdAt ≤ observedAt := by
    simp only [connectionReadable, Bool.not_eq_true', Bool.or_eq_false_iff,
      decide_eq_false_iff_not] at hreadable
    exact Nat.le_trans (Nat.le_of_not_lt hreadable.1.1.1.2) hlater
  simp [connectionUpdateAllowed, connectionCheck, hactive, hlater, hcreated]
  rw [← hactive]

/-- The update of an expiry meets the session alone. -/
theorem run_expireConnectionRow_of_passed (inv : SessionInv s) (hrow : row ∈ s.connections)
    {requested granted : PermissionSet}
    (hreadable : connectionReadable row requested granted = true) (hactive : row.status = .active)
    (hlater : row.updatedAt ≤ observedAt)
    (hpassed : row.authorizedUntil.any (fun limit => decide (limit < observedAt)) = true) :
    ∃ s', (expireConnectionRow row.connectionId row.policyGeneration observedAt).run s =
      .ok (1, s') := by
  refine ⟨_, (connectionsTable.run_update_only row inv.connections_unique.nodup hrow ?_ ?_).mpr
    ⟨connectionUpdateAllowed_expired hreadable hactive hlater, rfl, rfl⟩⟩
  · simp [hactive, hpassed]
  · intro other hother hmatch
    exact inv.connections_unique.eq_of_key_eq hother hrow (of_decide_eq_true hmatch).1

/-- Expiry takes an active connection exactly when the lookup does not, and its record can be
written. -/
theorem expirable_iff {config : Configuration} (inv : ReadableInv s) (audit : AuditInv s)
    (hbound : Bound config s) (hrow : row ∈ s.connections) (hactive : row.status = .active) :
    Expirable config s row observedAt correlation ↔
      ¬ Selected s row observedAt ∧ ExpiryRecordable s correlation observedAt := by
  obtain ⟨requested, granted, hread, hreads⟩ := inv.read_connection hrow
  have hopen : (row.record requested granted).status ≠ .expired := by
    simp [ConnectionRow.record, hactive]
  rw [not_selected_iff hrow hactive]
  constructor
  · rintro ⟨record, s', h⟩
    have h := run_withBinding_eq_ok h
    unfold expireConnection at h
    obtain ⟨before, hbefore, h⟩ := run_query_bind_eq_ok.mp h
    rw [hread] at hbefore
    obtain rfl := Except.ok.inj hbefore
    obtain ⟨-, h⟩ := run_require_bind_eq_ok.mp h
    rw [if_neg hopen] at h
    obtain ⟨⟨-, hpassed⟩, h⟩ := run_require_bind_eq_ok.mp h
    obtain ⟨_, s₁, hended, h⟩ := run_bind_eq_ok.mp h
    obtain ⟨-, h⟩ := run_require_bind_eq_ok.mp h
    obtain ⟨_, -, h⟩ := run_query_bind_eq_ok.mp h
    obtain ⟨u, s₂, haudit, -⟩ := run_bind_eq_ok.mp h
    obtain rfl := run_expireConnectionRow hended
    exact ⟨hpassed, (run_recordConnectionExpiryAudit audit.ended).mp ⟨u, s₂, haudit⟩⟩
  · rintro ⟨hpassed, hrecordable⟩
    have hlater : row.updatedAt ≤ observedAt := hreads.limited hactive hpassed
    obtain ⟨s₁, hended⟩ :=
      run_expireConnectionRow_of_passed inv.session hrow hreads.readable hactive hlater hpassed
    have hstore := run_expireConnectionRow hended
    subst hstore
    obtain ⟨after, hafter, -⟩ := Continues.of_endSession inv.session.connections_unique
      (hreads.later hlater) row.connectionId _ hread
    obtain ⟨u, s₂, haudit⟩ := (run_recordConnectionExpiryAudit audit.ended).mpr hrecordable
    refine ⟨after, s₂, run_withBinding.mpr ⟨hbound, ?_⟩⟩
    unfold expireConnection
    refine run_query_bind_eq_ok.mpr ⟨_, hread, run_require_bind_eq_ok.mpr ⟨rfl, ?_⟩⟩
    rw [if_neg hopen]
    refine run_require_bind_eq_ok.mpr ⟨⟨hactive, hpassed⟩, ?_⟩
    refine run_bind_eq_ok.mpr ⟨1, _, hended, run_require_bind_eq_ok.mpr ⟨rfl, ?_⟩⟩
    refine run_query_bind_eq_ok.mpr ⟨after, hafter, run_bind_eq_ok.mpr ⟨u, s₂, haudit, rfl⟩⟩

/-! ## Work -/

theorem providerWork_ne_expired {metadata : PersistedMetadata} {request : RequestRecord}
    {deadline : Option TimeUnixMs} {input : Option ProviderInput} :
    providerWork metadata request observedAt deadline input ≠ .error .connectionExpired := by
  unfold providerWork
  refine Except.bind_ne_error (Except.ofOption_ne_error (by nofun) _) fun deadline => ?_
  refine Except.bind_ne_error (Except.require_ne_error (by nofun)) fun _ => ?_
  exact Except.bind_ne_error (Except.ofOption_ne_error (by nofun) _) fun input => nofun

/-- The payload of a session's request does not depend on the limit. -/
theorem sessionPayload_ne_expired {protocol : Protocol} {metadata : PersistedMetadata}
    {request : RequestRecord} {deadline : Option TimeUnixMs} (call : Request) :
    sessionPayload protocol metadata request observedAt deadline call ≠
      .error .connectionExpired := by
  have hlocal : (do Except.require (deadline = none) WorkError.invalidBinding
                    return WorkPayload.localWork) ≠ .error .connectionExpired :=
    Except.bind_ne_error (Except.require_ne_error (by nofun)) fun _ => nofun
  cases call with
  | connect remoteSigner secret permissions => nofun
  | custom name => nofun
  | getPublicKey => exact hlocal
  | getSessionCapability => exact hlocal
  | ping => exact hlocal
  | switchRelays => exact hlocal
  | logout => exact hlocal
  | signEvent unsigned =>
      refine Except.bind_ne_error ?_ fun input => providerWork_ne_expired
      refine Except.bind_ne_error (Except.ofOption_ne_error (by nofun) _) fun author => ?_
      exact Except.bind_ne_error (Except.require_ne_error (by nofun)) fun _ =>
        Except.ofOption_ne_error (by nofun) _
  | nip04Encrypt peer plaintext => exact providerWork_ne_expired
  | nip04Decrypt peer ciphertext => exact providerWork_ne_expired
  | nip44Encrypt peer plaintext => exact providerWork_ne_expired
  | nip44Decrypt peer ciphertext => exact providerWork_ne_expired

/-- Only the limit and the status make a session of the client expired. -/
theorem requireSession_expired_iff {protocol : Protocol} {prepared : PreparedRequest}
    (hclient : record.clientPublicKey = prepared.signerRequest.clientPublicKey) :
    requireSession protocol prepared (some record) observedAt = .error .connectionExpired ↔
      ¬ (record.status = .active ∧
        record.authorizedUntil.all (fun limit => decide (observedAt ≤ limit)) = true) := by
  unfold requireSession
  by_cases hlive : record.status = .active ∧
      record.authorizedUntil.all (fun limit => decide (observedAt ≤ limit)) = true
  · refine iff_of_false (fun h => ?_) (not_not.mpr hlive)
    rcases Except.bind_eq_error_iff.mp h with h | ⟨connection, hfound, h⟩
    · exact Except.ofOption_ne_error (by nofun) _ h
    · obtain rfl := Except.ok.inj hfound
      revert h
      refine Except.bind_ne_error (Except.require_ne_error (by nofun)) fun _ => ?_
      refine Except.bind_ne_error (fun h => (Except.require_eq_error.mp h).1 hlive) fun _ => ?_
      split
      next => nofun
      next =>
        refine Except.bind_ne_error (Except.ofOption_ne_error (by nofun) _) fun permission => ?_
        exact Except.bind_ne_error (Except.require_ne_error (by nofun)) fun _ => nofun
  · refine iff_of_true ?_ hlive
    simp [Except.ofOption, Except.require, bind, Except.bind, hclient, hlive]

theorem prepareWork_expired_iff {protocol : Protocol} {metadata : PersistedMetadata}
    {prepared : PreparedRequest} {request : RequestRecord} {deadline : Option TimeUnixMs}
    {method : Method} (hmatches : request.matchesRequest prepared.signerRequest = true)
    (hreceived : request.receivedAt ≤ observedAt) (hmethod : prepared.request.method = some method)
    (hsession : method ≠ .connect)
    (hclient : record.clientPublicKey = prepared.signerRequest.clientPublicKey) :
    prepareWork protocol metadata prepared request (some record) observedAt deadline =
        .error .connectionExpired ↔
      ¬ (record.status = .active ∧
        record.authorizedUntil.all (fun limit => decide (observedAt ≤ limit)) = true) := by
  rw [← @requireSession_expired_iff record observedAt protocol prepared hclient]
  have hprepared : Except.require (request.matchesRequest prepared.signerRequest = true ∧
      request.receivedAt ≤ observedAt) WorkError.invalidBinding = .ok () :=
    Except.require_eq_ok.mpr ⟨hmatches, hreceived⟩
  unfold prepareWork
  rw [hprepared]
  split
  next hcall =>
    rw [hcall] at hmethod
    exact absurd (Option.some.inj hmethod).symm hsession
  next hcall =>
    rw [hcall] at hmethod
    cases hmethod
  next =>
    change (requireSession protocol prepared (some record) observedAt >>= _) = _ ↔ _
    rw [Except.bind_eq_error_iff]
    refine or_iff_left ?_
    rintro ⟨connection, -, h⟩
    revert h
    exact Except.bind_ne_error (sessionPayload_ne_expired _) fun _ => nofun

/-! ## Challenges -/

/-- On a live session the limit does not matter to a first challenge. -/
theorem createChallenge_unlimited {policy : RateLimitPolicy} {request : ChallengeRequest}
    {binding : RequestRow} (hlive : ∀ limit ∈ record.authorizedUntil, request.issuedAt ≤ limit) :
    createChallenge policy request binding record =
      createChallenge policy request binding record.unlimited := by
  have hguard : (binding.receivedAt ≤ request.issuedAt ∧ record.updatedAt ≤ request.issuedAt ∧
        record.status = .active ∧ ∀ limit ∈ record.authorizedUntil, request.issuedAt ≤ limit) ↔
      (binding.receivedAt ≤ request.issuedAt ∧
        record.unlimited.updatedAt ≤ request.issuedAt ∧ record.unlimited.status = .active ∧
        ∀ limit ∈ record.unlimited.authorizedUntil, request.issuedAt ≤ limit) := by
    refine and_congr_right fun _ => and_congr_right fun _ => and_congr_right fun _ => ?_
    exact iff_of_true hlive nofun
  unfold createChallenge
  rw [require_congr hguard]
  rfl

/-- After the limit there is no first challenge. -/
theorem createChallenge_of_passed {policy : RateLimitPolicy} {request : ChallengeRequest}
    {binding : RequestRow} (hpassed : ¬ ∀ limit ∈ record.authorizedUntil, request.issuedAt ≤ limit)
    (s : Store) : (createChallenge policy request binding record).run s = .error .binding := by
  unfold createChallenge
  exact run_bind_of_error (run_require_of_not (fun h => hpassed h.2.2.2) s)

/-! ## The boundary of every session -/

section

variable {policy : RateLimitPolicy} {requested granted : PermissionSet}

/-- An issue that is not a replay needs a live session. -/
theorem issueChallenge_selected (inv : ReadableInv s) (hrow : row ∈ s.connections)
    (hactive : row.status = .active) {request : ChallengeRequest} {admission : ChallengeAdmission}
    (hconnection : request.connectionId = row.connectionId) (hissued : request.issuedAt = observedAt)
    (h : (issueChallenge policy request).run s = .ok (admission, s')) :
    Selected s row observedAt ∨ ∃ existing, admission = .exactReplay existing ∧ s' = s := by
  obtain ⟨requested, granted, hread, -⟩ := inv.read_connection hrow
  unfold issueChallenge at h
  obtain ⟨binding, -, hrest⟩ := run_query_bind_eq_ok.mp h
  obtain ⟨-, hrest⟩ := run_require_bind_eq_ok.mp hrest
  obtain ⟨connection, hfound, hrest⟩ := run_query_bind_eq_ok.mp hrest
  obtain ⟨-, hrest⟩ := run_require_bind_eq_ok.mp hrest
  obtain ⟨existing, -, hrest⟩ := run_query_bind_eq_ok.mp hrest
  rw [hconnection, hread] at hfound
  obtain rfl := Except.ok.inj hfound
  cases existing with
  | some existing =>
      obtain ⟨-, hrest⟩ := run_require_bind_eq_ok.mp hrest
      obtain ⟨rfl, rfl⟩ := run_pure_eq_ok.mp hrest
      exact .inr ⟨existing, rfl, rfl⟩
  | none =>
      refine .inl ((selected_iff hrow hactive).mpr ?_)
      by_contra hpassed
      rw [createChallenge_of_passed (hissued ▸ hpassed) s] at hrest
      cases hrest

/-- A challenge is authorized in time and on a live session only. -/
theorem authorizeChallengeBody_authorized (inv : ReadableInv s) (hrow : row ∈ s.connections)
    (hactive : row.status = .active) {challengeId operationId : Id32}
    {generation : PolicyGeneration} {challenge : ChallengeRow}
    (h : (authorizeChallengeBody policy challengeId row.connectionId operationId generation
      observedAt).run s = .ok (.resolved challenge, s')) :
    challenge.state = .authorized ↔
      observedAt ≤ challenge.expiresAt ∧ Selected s row observedAt := by
  obtain ⟨requested, granted, hread, -⟩ := inv.read_connection hrow
  unfold authorizeChallengeBody at h
  obtain ⟨_, hbefore, hrest⟩ := run_query_bind_eq_ok.mp h
  obtain ⟨before, hsome, hrest⟩ := run_orFail_bind_eq_ok.mp hrest
  subst hsome
  obtain ⟨-, hrest⟩ := run_require_bind_eq_ok.mp hrest
  obtain ⟨binding, -, hrest⟩ := run_query_bind_eq_ok.mp hrest
  obtain ⟨connection, hfound, hrest⟩ := run_query_bind_eq_ok.mp hrest
  obtain ⟨-, hrest⟩ := run_require_bind_eq_ok.mp hrest
  rw [hread] at hfound
  obtain rfl := Except.ok.inj hfound
  split at hrest
  next => cases (run_pure_eq_ok.mp hrest).1
  next =>
    obtain ⟨governed, s₁, hgovern, hrest⟩ := run_bind_eq_ok.mp hrest
    have hkept : s₁.challenges = s.challenges :=
      (congrArg Store.challenges (governRateAttempt_keeps _ _ _ _ _ hgovern) :)
    cases governed with
    | false => cases (run_pure_eq_ok.mp hrest).1
    | true =>
        obtain ⟨hresult, -⟩ := resolveChallenge_eq (hkept ▸ inv.session.challenges_unique)
          (hkept ▸ (readChallenge_eq_some hbefore).1) hrest
        obtain rfl := ChallengeAuthorization.resolved.inj hresult
        have hstatus : (row.record requested granted).status = .active := hactive
        have hpassed : (row.record requested granted).authorizedUntil.any
            (fun limit => decide (limit < observedAt)) = true ↔ ¬ Selected s row observedAt :=
          (not_selected_iff hrow hactive).symm
        dsimp only [ChallengeRow.resolvedOn]
        split
        next hexpired =>
          refine iff_of_false nofun ?_
          rintro ⟨hintime, hselected⟩
          rcases hexpired with hlate | hended | hlimit
          · exact Nat.not_lt.mpr hintime hlate
          · exact hended hstatus
          · exact hpassed.mp hlimit hselected
        next hlive =>
          rw [not_or, not_or] at hlive
          exact iff_of_true rfl ⟨Nat.le_of_not_lt hlive.1,
            not_not.mp fun hselected => hlive.2.2 (hpassed.mpr hselected)⟩

end

/-- Every reachable active connection has its limit as the boundary. -/
theorem expiry_boundary_partitions (codec : EventCodec) (config : Configuration) (appliedAtUnixS : ℕ)
    (events : List Event) :
    let system := Run.after (System.perform codec) (.initial config appliedAtUnixS) events
    ∀ row ∈ system.store.connections, row.status = .active → ∀ observedAt,
      ∃ record, readConnection system.store row.connectionId = .ok record ∧
        Boundary system row record observedAt := by
  intro system row hrow hactive observedAt
  have inv : ReadableInv system.store := .reachable codec config appliedAtUnixS events
  have audit : AuditInv system.store := .reachable codec config appliedAtUnixS events
  have hbound : Bound system.config system.store :=
    (Run.invariant_always (I := System.InForce) (fun _ event h => h.perform event) events
      (.initial config appliedAtUnixS)).bound
  obtain ⟨requested, granted, hread, -⟩ := inv.read_connection hrow
  have hselected := @selected_iff system.store row observedAt hrow hactive
  refine ⟨_, hread, ?_⟩
  exact {
    partition := by
      intro correlation hrecordable
      rw [expirable_iff inv audit hbound hrow hactive, and_iff_left hrecordable]
      by_cases h : Selected system.store row observedAt
      · exact .inl ⟨h, not_not.mpr h⟩
      · exact .inr ⟨h, h⟩
    exclusive := fun correlation h => ((expirable_iff inv audit hbound hrow hactive).mp h).1
    unlimited := by
      intro hnone
      rw [hselected, hnone]
      nofun
    work := by
      intro protocol metadata prepared request deadline method hmatches hreceived hmethod hsession
        hclient
      rw [prepareWork_expired_iff hmatches hreceived hmethod hsession hclient.symm, hselected]
      change ¬ (row.status = .active ∧ row.authorizedUntil.all _ = true) ↔ _
      rw [and_iff_right hactive]
      cases row.authorizedUntil with
      | none => simp
      | some limit => simp
    issue := by
      rintro policy request binding rfl
      refine ⟨fun h => createChallenge_unlimited (hselected.mp h), fun h => ?_⟩
      exact createChallenge_of_passed fun hlive => h (hselected.mpr hlive)
    replays := fun policy request admission s' => issueChallenge_selected inv hrow hactive
    authorize := fun policy challengeId operationId generation challenge s' =>
      authorizeChallengeBody_authorized inv hrow hactive }

/-! ## Two sessions that end under one correlation -/

namespace SampleService

/-- The second session of the client has the limit of the first. -/
def secondLimited : AdmissionRequest :=
  { admission secondConnect with
    authorizedUntil := some (sampleTime 9000)
    trusted_limit := by intro limit hlimit; cases hlimit; exact ⟨rfl, by decide⟩ }

/-- The client has two sessions, and the first is expired after their limit. -/
def firstExpired : List Event :=
  [.operation (.admitRequest firstConnect), .operation (.admitConnection limitedAdmission),
    .operation (.admitRequest secondConnect), .operation (.admitConnection secondLimited),
    .operation (.expireConnection limitedAdmission.connectionId limitedAdmission.policyGeneration
      (sampleTime 9500) 77)]

/-- One evaluation of the run: at a later time the second session is neither served nor expired
under the correlation of the first, and another correlation is free. -/
theorem firstExpired_evaluates :
    let s := (Run.after (System.perform codec) (.initial challengeConfig 1) firstExpired).store
    (∃ row ∈ s.connections, row.status = .active ∧ row.updatedAt ≤ sampleTime 9600 ∧
      row.servesAt row.clientPublicKey (sampleTime 9600) = false ∧
      ((withBinding challengeConfig (expireConnection row.connectionId row.policyGeneration
        (sampleTime 9600) 77)).run s).toOption.isNone = true) ∧
    (∀ row ∈ s.audit, row.auditId ≠ deriveAuditId 78 .connectionExpiry) ∧
    s.nextAuditSequence < i64Max := by
  rw [firstExpired, after_limitedConnect]
  decide +kernel

end SampleService

open SampleService in
/-- A session past its limit is neither served nor expired under a correlation that has expired
another one before. -/
theorem passed_session_not_expired :
    ¬ ∀ (codec : EventCodec) (config : Configuration) (appliedAtUnixS : ℕ) (events : List Event),
      let system := Run.after (System.perform codec) (.initial config appliedAtUnixS) events
      ∀ row ∈ system.store.connections, row.status = .active → ∀ observedAt,
        row.updatedAt ≤ observedAt → ∀ correlation,
          Xor (Selected system.store row observedAt)
            (Expirable system.config system.store row observedAt correlation) := by
  intro h
  obtain ⟨⟨row, hrow, hactive, hupdated, hserves, hrefused⟩, -⟩ := firstExpired_evaluates
  rcases h codec challengeConfig 1 firstExpired row hrow hactive _ hupdated 77 with
    ⟨hselected, -⟩ | ⟨⟨record, s', hrun⟩, -⟩
  · rw [(List.mem_filter.mp hselected).2] at hserves
    cases hserves
  · have hconfig : (Run.after (System.perform codec) (.initial challengeConfig 1)
        firstExpired).config = challengeConfig := rfl
    rw [hconfig] at hrun
    rw [hrun] at hrefused
    cases hrefused

open SampleService in
/-- Under a new correlation the second session is expired. -/
theorem passed_session_expired :
    let system := Run.after (System.perform codec) (.initial challengeConfig 1) firstExpired
    ∃ row ∈ system.store.connections, row.status = .active ∧
      Xor (Selected system.store row (sampleTime 9600))
        (Expirable system.config system.store row (sampleTime 9600) 78) := by
  intro system
  obtain ⟨⟨row, hrow, hactive, -⟩, hfresh, hroom⟩ := firstExpired_evaluates
  obtain ⟨record, -, hboundary⟩ := expiry_boundary_partitions codec challengeConfig 1 firstExpired
    row hrow hactive (sampleTime 9600)
  exact ⟨row, hrow, hactive, hboundary.partition 78 (.inr ⟨hfresh, hroom⟩)⟩

end MycSigner
