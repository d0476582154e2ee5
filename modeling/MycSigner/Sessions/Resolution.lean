import MycSigner.Configuration.History
import MycSigner.Dispatch.Redelivery
import MycSigner.Governance.Retention
import MycSigner.Sessions.Lifecycle

/-!
# The answer to an authorization

An authorization resolves a pending challenge in one transaction, and once more after the commit
the repository compares what it is about to return with the configuration: an authorized challenge
is returned within its lifetime only.  A challenge that is resolved stays as it is whatever the
service does, so a later call finds it again and answers from it alone.
-/

namespace MycSigner

open Transaction

/-- `challenge_is_current` -/
def ConnectionPolicies.challengeIsCurrent (policies : ConnectionPolicies) (record : ChallengeRow)
    (observedAt : TimeUnixMs) : Bool :=
  policies.challenge.any fun policy => record.state == .authorized &&
    record.resolvedAt.any fun resolved => decide (resolved ≤ observedAt) &&
      decide (observedAt.get - resolved.get ≤ policy.authorizedLifetimeMs)

def ChallengeAuthorization.record : ChallengeAuthorization → Option ChallengeRow
  | .resolved record | .exactReplay record => some record
  | .rateLimited => none

/-- The repository's `authorize_challenge` with the check of its result, which comes after the
commit. -/
def authorizeChallengeChecked (config : Configuration) (challengeId connectionId operationId : Id32)
    (generation : PolicyGeneration) (observedAt : TimeUnixMs) (s : Store) :
    Except OperationError ChallengeAuthorization × Store :=
  match (authorizeChallenge config challengeId connectionId operationId generation
      observedAt).atomically s with
  | (.ok result, s') =>
      if result.record.any (fun record => record.state == .authorized &&
          !config.connection.challengeIsCurrent record observedAt) then (.error .binding, s')
      else (.ok result, s')
  | (.error e, s') => (.error e, s')

variable {s s' : Store} {codec : EventCodec} {config : Configuration} {policy : RateLimitPolicy}
  {challengeId connectionId operationId : Id32} {generation : PolicyGeneration}
  {observedAt : TimeUnixMs} {record : ChallengeRow}

/-! ## The result of the transaction -/

/-- A challenge as an authorization leaves it: authorized in time on a live session, expired
otherwise. -/
def ChallengeRow.resolvedOn (before : ChallengeRow) (connection : ConnectionRecord)
    (observedAt : TimeUnixMs) : ChallengeRow :=
  { before with
    state := if before.expiresAt < observedAt ∨ connection.status ≠ .active ∨
        connection.authorizedUntil.any (fun limit => decide (limit < observedAt)) = true
      then .expired else .authorized
    resolvedAt := some observedAt }

theorem ChallengeRow.resolvedOn_state (before : ChallengeRow) (connection : ConnectionRecord)
    (observedAt : TimeUnixMs) : (before.resolvedOn connection observedAt).state ≠ .pending := by
  dsimp only [ChallengeRow.resolvedOn]
  split
  next => nofun
  next => nofun

/-- The challenge is resolved at the time of the call and stored so. -/
theorem resolveChallenge_eq {before : ChallengeRow} {connection : ConnectionRecord}
    {evidence : AuditEvidence} {result : ChallengeAuthorization}
    (hunique : Table.Unique ChallengeRow.operationId s.challenges) (hbefore : before ∈ s.challenges)
    (h : (resolveChallenge before connection evidence observedAt).run s = .ok (result, s')) :
    result = .resolved (before.resolvedOn connection observedAt) ∧
      before.resolvedOn connection observedAt ∈ s'.challenges := by
  dsimp only [resolveChallenge] at h
  obtain ⟨count, _, hchallenge, hrest⟩ := run_bind_eq_ok.mp h
  obtain ⟨hone, hrest⟩ := run_require_bind_eq_ok.mp hrest
  obtain ⟨_, s₁, hdecision, hrest⟩ := run_bind_eq_ok.mp hrest
  obtain ⟨-, hrest⟩ := run_require_bind_eq_ok.mp hrest
  obtain ⟨_, hread, hrest⟩ := run_query_bind_eq_ok.mp hrest
  obtain ⟨found, hsome, hrest⟩ := run_orFail_bind_eq_ok.mp hrest
  have hfound : result = .resolved found ∧ s'.challenges = s₁.challenges := by
    split at hrest
    next =>
      obtain ⟨_, _, haudit, hrest⟩ := run_bind_eq_ok.mp hrest
      obtain ⟨rfl, rfl⟩ := run_pure_eq_ok.mp hrest
      exact ⟨rfl, challenges_of_withoutGovernance (recordAudit_keeps _ _ _ _ haudit)⟩
    next =>
      obtain ⟨_, _, haudit, hrest⟩ := run_bind_eq_ok.mp hrest
      obtain ⟨rfl, rfl⟩ := run_pure_eq_ok.mp hrest
      exact ⟨rfl, challenges_of_withoutGovernance (recordAudit_keeps _ _ _ _ haudit)⟩
  obtain ⟨rfl, hkept⟩ := hfound
  subst hsome
  obtain rfl := run_updateDecisions hdecision
  obtain ⟨-, hcount, rfl⟩ := challengesTable.run_update_eq_ok.mp hchallenge
  obtain ⟨hmem, hid⟩ := readChallenge_eq_some hread
  -- the update met one row, and only the challenge itself can match it
  obtain ⟨met, hmet⟩ := List.exists_mem_of_length_pos (hcount.trans hone ▸ Nat.one_pos)
  obtain ⟨hmet, hmatch⟩ := List.mem_filter.mp hmet
  obtain rfl := hunique.eq_of_key_eq hmet hbefore (of_decide_eq_true hmatch).2.2.1
  obtain ⟨old, hold, hnew⟩ := Table.mem_update.mp hmem
  have hsame : old = met := by
    refine hunique.eq_of_key_eq hold hbefore ?_
    rw [← hnew] at hid
    simpa only [apply_ite ChallengeRow.operationId, ite_self] using hid
  subst hsame
  rw [if_pos hmatch] at hnew
  have hresolved : found = old.resolvedOn connection observedAt := hnew.symm
  subst hresolved
  exact ⟨rfl, hkept ▸ hmem⟩

/-- A resolved challenge with all that a later authorization of it reads. -/
structure ChallengeTerminal (s : Store) (challengeId connectionId operationId : Id32)
    (generation : PolicyGeneration) (record : ChallengeRow) : Prop where
  stored : record ∈ s.challenges
  state : record.state ≠ .pending
  names : record.challengeId = challengeId ∧ record.connectionId = connectionId ∧
    record.operationId = operationId ∧ record.policyGeneration = generation
  bound : ∃ request ∈ s.requests, request.operationId = operationId ∧ request.method ≠ .connect ∧
    ∃ row ∈ s.connections, row.connectionId = connectionId ∧ row.policyGeneration = generation ∧
      request.clientPublicKey = row.clientPublicKey

/-- A committed authorization returns a resolved challenge: one that was there, or one that it
resolved at its own time. -/
theorem authorizeChallengeBody_settled (inv : SessionInv s) {result : ChallengeAuthorization}
    (h : (authorizeChallengeBody policy challengeId connectionId operationId generation
      observedAt).run s = .ok (result, s'))
    (hrecord : result.record = some record) :
    ChallengeTerminal s' challengeId connectionId operationId generation record ∧
      record.issuedAt ≤ observedAt ∧
      ((result = .exactReplay record ∧ s' = s) ∨
        (result = .resolved record ∧ record.resolvedAt = some observedAt)) := by
  unfold authorizeChallengeBody at h
  obtain ⟨_, hread, hrest⟩ := run_query_bind_eq_ok.mp h
  obtain ⟨before, hsome, hrest⟩ := run_orFail_bind_eq_ok.mp hrest
  obtain ⟨hnames, hrest⟩ := run_require_bind_eq_ok.mp hrest
  obtain ⟨request, hrequest, hrest⟩ := run_query_bind_eq_ok.mp hrest
  obtain ⟨connection, hconnection, hrest⟩ := run_query_bind_eq_ok.mp hrest
  obtain ⟨⟨hmethod, hclient, hgeneration, hissued⟩, hrest⟩ := run_require_bind_eq_ok.mp hrest
  subst hsome
  obtain ⟨hbefore, -⟩ := readChallenge_eq_some hread
  obtain ⟨hstored, hid⟩ := readRequestBinding_eq_ok hrequest
  obtain ⟨row, requested, granted, hreads⟩ := readConnection_eq_ok hconnection
  obtain rfl := hreads.record_eq
  split at hrest
  next hterminal =>
    obtain ⟨rfl, rfl⟩ := run_pure_eq_ok.mp hrest
    obtain rfl := Option.some.inj hrecord
    exact ⟨⟨hbefore, hterminal, hnames, request, hstored, hid, hmethod, row, hreads.mem,
      hreads.id_eq, hgeneration, hclient⟩, hissued, .inl ⟨rfl, rfl⟩⟩
  next =>
    obtain ⟨governed, s₁, hgovern, hrest⟩ := run_bind_eq_ok.mp hrest
    have hkept := governRateAttempt_keeps _ _ _ _ _ hgovern
    cases governed with
    | false =>
        obtain ⟨rfl, -⟩ := run_pure_eq_ok.mp hrest
        cases hrecord
    | true =>
        have hchallenges := challenges_of_withoutGovernance hkept
        obtain ⟨rfl, hresolved⟩ :=
          resolveChallenge_eq (hchallenges ▸ inv.challenges_unique) (hchallenges ▸ hbefore) hrest
        obtain rfl := Option.some.inj hrecord
        obtain ⟨state, decision, reason, -, heq⟩ := resolveChallenge_cases hrest
        have hrequests : s'.requests = s.requests :=
          (congrArg Store.requests heq :).trans (congrArg Store.requests hkept :)
        have hconnections : s'.connections = s.connections :=
          (congrArg Store.connections heq :).trans (congrArg Store.connections hkept :)
        refine ⟨⟨hresolved, before.resolvedOn_state _ _, hnames, request, hrequests ▸ hstored, hid,
          hmethod, row, hconnections ▸ hreads.mem, hreads.id_eq, hgeneration, hclient⟩, hissued,
          .inr ⟨rfl, rfl⟩⟩

/-! ## A resolved challenge stays -/

/-- No operation touches a challenge that is not pending. -/
theorem SessionStep.challenge_stays {operation : Operation} {s₁ : Store}
    (h : SessionStep config s operation s₁) (hstored : record ∈ s.challenges)
    (hstate : record.state ≠ .pending) : record ∈ s₁.challenges := by
  cases h with
  | quiet => exact hstored
  | requests hadmits =>
      have hchallenges : s₁.challenges = s.challenges :=
        (congrArg Store.challenges hadmits.outside :)
      exact hchallenges ▸ hstored
  | outbox houtside =>
      have hchallenges : s₁.challenges = s.challenges := (congrArg Store.challenges houtside :)
      exact hchallenges ▸ hstored
  | connect _ => exact hstored
  | approve _ _ _ => exact hstored
  | deny _ _ => exact hstored
  | finish _ _ => exact hstored
  | issue _ => exact List.mem_append_left _ hstored
  | resolve _ _ => exact Table.mem_update_of_not hstored (by simp [hstate])
  | complete _ => exact hstored
  | answerPending _ => exact hstored

/-- Applying a configuration expires pending challenges only. -/
theorem Store.reconfigured_challenge_stays (s : Store) (current candidate : Configuration)
    (appliedAtUnixS : ℕ) (hstored : record ∈ s.challenges) (hstate : record.state ≠ .pending) :
    record ∈ (s.reconfigured current candidate appliedAtUnixS).challenges := by
  unfold Store.reconfigured
  split
  next => exact Table.mem_update_of_not hstored (by simp [hstate])
  next =>
    split
    next => exact Table.mem_update_of_not hstored (by simp [hstate])
    next => exact hstored

namespace ChallengeTerminal

variable {system : System}

theorem perform
    (h : ChallengeTerminal system.store challengeId connectionId operationId generation record)
    (event : Event) :
    ChallengeTerminal (system.perform codec event).store challengeId connectionId operationId
      generation record where
  stored := by
    refine System.perform_sessions (P := fun after => record ∈ after.store.challenges) event
      h.stored ?_ ?_
    · intro operation s₁ s' _ hstep hview
      exact challenges_of_withoutGovernance hview ▸ hstep.challenge_stays h.stored h.state
    · intro candidate appliedAtUnixS bindings _ _
      exact system.store.reconfigured_challenge_stays _ _ _ h.stored h.state
  state := h.state
  names := h.names
  bound := by
    obtain ⟨request, hrequest, hid, hmethod, row, hrow, hrowId, hgeneration, hclient⟩ := h.bound
    obtain ⟨row', hrow', hfollows⟩ :=
      (Progresses.perform codec system event).connections row hrow
    have hsame : row'.connectionId = row.connectionId ∧
        row'.policyGeneration = row.policyGeneration ∧
        row'.clientPublicKey = row.clientPublicKey := by
      rcases hfollows with rfl | hmoved
      · exact ⟨rfl, rfl, rfl⟩
      · exact ⟨(congrArg ConnectionRow.connectionId hmoved.identity :),
          (congrArg ConnectionRow.policyGeneration hmoved.identity :),
          (congrArg ConnectionRow.clientPublicKey hmoved.identity :)⟩
    obtain ⟨hsameId, hsameGeneration, hsameClient⟩ := hsame
    exact ⟨request, (system.perform_requestsGrow event).kept request hrequest, hid, hmethod, row',
      hrow', hsameId.trans hrowId, hsameGeneration.trans hgeneration,
      hclient.trans hsameClient.symm⟩

/-- An authorization of a resolved challenge finds it and changes nothing. -/
theorem run_authorizeChallenge
    (h : ChallengeTerminal s challengeId connectionId operationId generation record)
    (inv : ReadableInv s) (hbound : Bound config s) (hissued : record.issuedAt ≤ observedAt) :
    (authorizeChallenge config challengeId connectionId operationId generation observedAt).run s =
      .ok (.exactReplay record, s) := by
  obtain ⟨hchallenge, hconnection, hoperation, hgeneration⟩ := h.names
  obtain ⟨request, hrequest, hid, hmethod, row, hrow, hrowId, hrowGeneration, hclient⟩ := h.bound
  obtain ⟨requested, granted, hread, -⟩ := inv.read_connection hrow
  have hreadChallenge : readChallenge s operationId = .ok (some record) :=
    hoperation ▸ inv.read_challenge h.stored
  have hreadRequest : readRequestBinding s operationId = .ok request :=
    hid ▸ oneRow_eq_ok.mpr (inv.session.requests_unique.filter_eq_singleton hrequest)
  refine run_withBinding.mpr ⟨hbound, ?_⟩
  unfold authorizeChallengeBody
  refine run_query_bind_eq_ok.mpr ⟨_, hreadChallenge, run_orFail_bind_eq_ok.mpr ⟨record, rfl, ?_⟩⟩
  refine run_require_bind_eq_ok.mpr ⟨h.names, ?_⟩
  refine run_query_bind_eq_ok.mpr ⟨request, hreadRequest, ?_⟩
  refine run_query_bind_eq_ok.mpr ⟨_, hrowId ▸ hread, ?_⟩
  refine run_require_bind_eq_ok.mpr ⟨⟨hmethod, hclient, hrowGeneration, hissued⟩, ?_⟩
  rw [if_pos h.state]
  rfl

end ChallengeTerminal

/-! ## The repository's answer -/

/-- The answer leaves the store that the transaction left. -/
theorem authorizeChallengeChecked_store (system : System) (codec : EventCodec) :
    (authorizeChallengeChecked system.config challengeId connectionId operationId generation
      observedAt system.store).2 =
    (system.perform codec (.operation (.authorizeChallenge challengeId connectionId operationId
      generation observedAt))).store := by
  unfold authorizeChallengeChecked
  dsimp only [System.perform, Operation.body]
  cases hrun : (authorizeChallenge system.config challengeId connectionId operationId generation
    observedAt).run system.store with
  | error e =>
      have heffect : (forEffect (authorizeChallenge system.config challengeId connectionId
          operationId generation observedAt)).run system.store = .error e :=
        run_bind_of_error hrun
      rw [atomically_of_error hrun, atomically_of_error heffect]
  | ok result =>
      obtain ⟨result, s'⟩ := result
      have heffect : (forEffect (authorizeChallenge system.config challengeId connectionId
          operationId generation observedAt)).run system.store = .ok ((), s') :=
        run_bind_of_ok hrun
      rw [atomically_of_ok hrun, atomically_of_ok heffect]
      dsimp only
      split
      next => rfl
      next => rfl

/-- A returned result is the result of the transaction. -/
theorem run_of_checked {result : ChallengeAuthorization}
    (h : (authorizeChallengeChecked config challengeId connectionId operationId generation
      observedAt s).1 = .ok result) :
    (authorizeChallenge config challengeId connectionId operationId generation observedAt).run s =
      .ok (result, (authorizeChallengeChecked config challengeId connectionId operationId
        generation observedAt s).2) := by
  unfold authorizeChallengeChecked at h ⊢
  cases hrun : (authorizeChallenge config challengeId connectionId operationId generation
    observedAt).run s with
  | error e =>
      rw [atomically_of_error hrun] at h
      cases h
  | ok found =>
      obtain ⟨found, s'⟩ := found
      rw [atomically_of_ok hrun] at h ⊢
      dsimp only at h ⊢
      split at h
      next => cases h
      next hcurrent =>
        obtain rfl := Except.ok.inj h
        rw [if_neg hcurrent]

/-- With a challenge policy a challenge is current at the time it is authorized. -/
theorem challengeIsCurrent_resolved {policies : ConnectionPolicies}
    (hpolicy : policies.challenge.isSome = true) (hstate : record.state = .authorized)
    (hresolved : record.resolvedAt = some observedAt) :
    policies.challengeIsCurrent record observedAt = true := by
  obtain ⟨policy, hpolicy⟩ := Option.isSome_iff_exists.mp hpolicy
  have hnow : observedAt ≤ observedAt := Nat.le_refl observedAt.get
  simp [ConnectionPolicies.challengeIsCurrent, hpolicy, hstate, hresolved, hnow]

/-- With a challenge policy a refused authorization changes nothing. -/
theorem authorizeChallengeChecked_error (inv : SessionInv s)
    (hpolicy : config.connection.challenge.isSome = true) {e : OperationError}
    (h : (authorizeChallengeChecked config challengeId connectionId operationId generation
      observedAt s).1 = .error e) :
    (authorizeChallengeChecked config challengeId connectionId operationId generation observedAt
      s).2 = s := by
  unfold authorizeChallengeChecked at h ⊢
  cases hrun : (authorizeChallenge config challengeId connectionId operationId generation
    observedAt).run s with
  | error e => rw [atomically_of_error hrun]
  | ok result =>
      obtain ⟨result, s'⟩ := result
      rw [atomically_of_ok hrun] at h ⊢
      dsimp only at h ⊢
      split at h
      next hpassed =>
        rw [if_pos hpassed]
        obtain ⟨record, hrecord, hpassed⟩ := (Option.any_eq_true _ _).mp hpassed
        rw [Bool.and_eq_true, beq_iff_eq, Bool.not_eq_true'] at hpassed
        obtain ⟨-, -, hreplay | ⟨-, hresolved⟩⟩ :=
          authorizeChallengeBody_settled inv (run_withBinding_eq_ok hrun) hrecord
        · exact hreplay.2
        · rw [challengeIsCurrent_resolved hpolicy hpassed.1 hresolved] at hpassed
          cases hpassed.2
      next => cases h

/-- What a later call answers. -/
theorem ChallengeTerminal.checked
    (h : ChallengeTerminal s challengeId connectionId operationId generation record)
    (inv : ReadableInv s) (hbound : Bound config s) (hissued : record.issuedAt ≤ observedAt) :
    authorizeChallengeChecked config challengeId connectionId operationId generation observedAt s =
      (if record.state = .authorized ∧
          config.connection.challengeIsCurrent record observedAt = false
        then .error .binding else .ok (.exactReplay record), s) := by
  unfold authorizeChallengeChecked
  rw [atomically_of_ok (h.run_authorizeChallenge inv hbound hissued)]
  simp only [ChallengeAuthorization.record, Option.any_some, Bool.and_eq_true, beq_iff_eq,
    Bool.not_eq_true']
  split
  next => rfl
  next => rfl

/-- Once a call has returned a resolved challenge, every later call answers from it. -/
theorem authorization_replayed {system : System} (inv : ReadableInv system.store)
    (hforce : system.InForce) {result : ChallengeAuthorization}
    (hresult : (authorizeChallengeChecked system.config challengeId connectionId operationId
      generation observedAt system.store).1 = .ok result)
    (hrecord : result.record = some record) :
    record.state ≠ .pending ∧ ∀ (later : List Event) (laterAt : TimeUnixMs),
      observedAt ≤ laterAt →
      let next := Run.after (System.perform codec) ⟨system.config,
        (authorizeChallengeChecked system.config challengeId connectionId operationId generation
          observedAt system.store).2⟩ later
      authorizeChallengeChecked next.config challengeId connectionId operationId generation
          laterAt next.store =
        (if record.state = .authorized ∧
            next.config.connection.challengeIsCurrent record laterAt = false
          then .error .binding else .ok (.exactReplay record), next.store) := by
  obtain ⟨hterminal, hissued, -⟩ := authorizeChallengeBody_settled inv.session
    (run_withBinding_eq_ok (run_of_checked hresult)) hrecord
  refine ⟨hterminal.state, ?_⟩
  intro later laterAt hlater next
  -- the call is itself an event of the service, and the later ones follow it
  have hnext : (⟨system.config, (authorizeChallengeChecked system.config challengeId connectionId
      operationId generation observedAt system.store).2⟩ : System) = system.perform codec
        (.operation (.authorizeChallenge challengeId connectionId operationId generation
          observedAt)) := by
    rw [authorizeChallengeChecked_store system codec]
    rfl
  have hreadable : ReadableInv next.store := by
    refine ReadableInv.after ?_ later
    rw [hnext]
    exact inv.perform _
  have hbound : next.InForce := by
    refine Run.invariant_always (fun _ event h => h.perform event) later ?_
    rw [hnext]
    exact hforce.perform _
  have hstays : ChallengeTerminal next.store challengeId connectionId operationId generation
      record :=
    Run.invariant_always (I := fun system : System => ChallengeTerminal system.store challengeId
      connectionId operationId generation record) (fun _ event h => h.perform event) later hterminal
  exact hstays.checked hreadable hbound.bound (Nat.le_trans hissued hlater)

/-- The same call at a later time, with nothing between. -/
theorem authorization_repeated (codec : EventCodec) {system : System}
    (inv : ReadableInv system.store) (hforce : system.InForce) {result : ChallengeAuthorization}
    (hresult : (authorizeChallengeChecked system.config challengeId connectionId operationId
      generation observedAt system.store).1 = .ok result)
    (hrecord : result.record = some record) {laterAt : TimeUnixMs} (hlater : observedAt ≤ laterAt) :
    (authorizeChallengeChecked system.config challengeId connectionId operationId generation laterAt
      (authorizeChallengeChecked system.config challengeId connectionId operationId generation
        observedAt system.store).2).1 =
      if record.state = .authorized ∧
          system.config.connection.challengeIsCurrent record laterAt = false
        then .error .binding else .ok (.exactReplay record) :=
  congrArg Prod.fst ((@authorization_replayed codec _ _ _ _ _ _ _ inv hforce _ hresult hrecord).2
    [] laterAt hlater)

/-- With a challenge policy a refused authorization changes nothing, and once a call has returned
a resolved challenge, the same call at any later time and after any further events returns that
challenge and changes nothing; only an authorized challenge that is no longer current is refused
instead. -/
theorem authorization_atomic_and_replayed (codec : EventCodec) (config : Configuration)
    (appliedAtUnixS : ℕ) (events : List Event) (challengeId connectionId operationId : Id32)
    (generation : PolicyGeneration) (observedAt : TimeUnixMs) :
    let system := Run.after (System.perform codec) (.initial config appliedAtUnixS) events
    let answer := authorizeChallengeChecked system.config challengeId connectionId operationId
      generation observedAt system.store
    (system.config.connection.challenge.isSome = true → ∀ e, answer.1 = .error e →
      answer.2 = system.store) ∧
    ∀ result record, answer.1 = .ok result → result.record = some record →
      record.state ≠ .pending ∧ ∀ (later : List Event) (laterAt : TimeUnixMs),
        observedAt ≤ laterAt →
        let next := Run.after (System.perform codec) ⟨system.config, answer.2⟩ later
        authorizeChallengeChecked next.config challengeId connectionId operationId generation
            laterAt next.store =
          (if record.state = .authorized ∧
              next.config.connection.challengeIsCurrent record laterAt = false
            then .error .binding else .ok (.exactReplay record), next.store) := by
  intro system answer
  have inv : ReadableInv system.store := .reachable codec config appliedAtUnixS events
  have hforce : system.InForce :=
    Run.invariant_always (fun _ event h => h.perform event) events (.initial config appliedAtUnixS)
  refine ⟨fun hpolicy e h => authorizeChallengeChecked_error inv.session hpolicy h, ?_⟩
  exact fun result record hresult hrecord => authorization_replayed inv hforce hresult hrecord

/-! ## An authorization that outlives its lifetime -/

namespace SampleService

/-- The service in which the ping is challenged. -/
def challengedSystem : System :=
  Run.after (System.perform pongCodec) (.initial challengeConfig 1) challenged

/-- The authorization of the challenged ping. -/
def authorizes (observedAt : TimeUnixMs) (s : Store) :
    Except OperationError ChallengeAuthorization × Store :=
  authorizeChallengeChecked challengedSystem.config (newChallengeRow pingChallenge).challengeId
    pingChallenge.connectionId pingChallenge.operationId pingChallenge.policyGeneration observedAt s

/-- The ping is authorized half a second after its challenge was issued. -/
theorem challenged_evaluates :
    (((authorizes (sampleTime 3000) challengedSystem.store).1.toOption.bind
      ChallengeAuthorization.record).map fun record => (record.state, record.resolvedAt)) =
      some (.authorized, some (sampleTime 3000)) := by
  have hsystem : challengedSystem = Run.after (System.perform pongCodec)
      ⟨challengeConfig, limitedStore⟩
      [.operation (.admitRequest ping), .operation (.adminRequireChallenge pingChallenge)] := by
    rw [challengedSystem, challenged, after_limitedConnect]
  unfold authorizes
  rw [hsystem]
  decide +kernel

/-- The record that the authorization returns. -/
theorem challenged_record : ∃ result record,
    (authorizes (sampleTime 3000) challengedSystem.store).1 = .ok result ∧
    result.record = some record ∧ record.state = .authorized ∧
    record.resolvedAt = some (sampleTime 3000) := by
  obtain ⟨record, hrecord, heq⟩ := Option.map_eq_some_iff.mp challenged_evaluates
  obtain ⟨result, hresult, hrecord⟩ := Option.bind_eq_some_iff.mp hrecord
  obtain ⟨hstate, hresolved⟩ := Prod.mk.inj heq
  refine ⟨result, record, ?_, hrecord, hstate, hresolved⟩
  generalize (authorizes (sampleTime 3000) challengedSystem.store).1 = answer at hresult
  cases answer with
  | error e => cases hresult
  | ok found => rw [Option.some.inj hresult]

/-- A challenge that is no longer current is refused. -/
theorem challenged_refused {result : ChallengeAuthorization} {record : ChallengeRow}
    {laterAt : TimeUnixMs}
    (hresult : (authorizes (sampleTime 3000) challengedSystem.store).1 = .ok result)
    (hrecord : result.record = some record) (hlater : sampleTime 3000 ≤ laterAt)
    (hstate : record.state = .authorized)
    (hold : challengedSystem.config.connection.challengeIsCurrent record laterAt = false) :
    (authorizes laterAt (authorizes (sampleTime 3000) challengedSystem.store).2).1 =
      .error .binding := by
  have inv : ReadableInv challengedSystem.store :=
    .reachable pongCodec challengeConfig 1 challenged
  have hforce : challengedSystem.InForce :=
    Run.invariant_always (fun _ event h => h.perform event) challenged
      (.initial challengeConfig 1)
  unfold authorizes at hresult ⊢
  rw [authorization_repeated pongCodec inv hforce hresult hrecord hlater, if_pos ⟨hstate, hold⟩]

/-- The lifetime of an authorization is ten seconds. -/
theorem challengeIsCurrent_iff {record : ChallengeRow} (hstate : record.state = .authorized)
    (hresolved : record.resolvedAt = some (sampleTime 3000)) (laterAt : TimeUnixMs) :
    challengedSystem.config.connection.challengeIsCurrent record laterAt = true ↔
      3000 ≤ laterAt.get ∧ laterAt.get - 3000 ≤ 10000 := by
  have hconfig : challengedSystem.config = challengeConfig := rfl
  have hget : (sampleTime 3000).get = 3000 := sampleTime_get (by decide) (by decide)
  rw [hconfig]
  simp [ConnectionPolicies.challengeIsCurrent, challengeConfig, hstate, hresolved,
    TimeUnixMs.le_def, hget]

end SampleService

open SampleService in
/-- After its lifetime an authorized challenge is no longer returned. -/
theorem authorized_challenge_not_returned :
    ¬ ∀ (codec : EventCodec) (config : Configuration) (appliedAtUnixS : ℕ) (events : List Event)
        (challengeId connectionId operationId : Id32) (generation : PolicyGeneration)
        (observedAt : TimeUnixMs),
      let system := Run.after (System.perform codec) (.initial config appliedAtUnixS) events
      let answer := authorizeChallengeChecked system.config challengeId connectionId operationId
        generation observedAt system.store
      (∀ e, answer.1 = .error e → answer.2 = system.store) ∧
      ∀ result record, answer.1 = .ok result → result.record = some record →
        ∀ laterAt, observedAt ≤ laterAt → ∃ again,
          (authorizeChallengeChecked system.config challengeId connectionId operationId generation
            laterAt answer.2).1 = .ok again ∧ again.record = some record := by
  intro h
  obtain ⟨result, record, hresult, hrecord, hstate, hresolved⟩ := challenged_record
  have hlater : sampleTime 3000 ≤ sampleTime 13001 := by decide
  have hold : challengedSystem.config.connection.challengeIsCurrent record
      (sampleTime 13001) = false := by
    refine Bool.eq_false_iff.mpr fun hcurrent => ?_
    exact absurd ((challengeIsCurrent_iff hstate hresolved _).mp hcurrent).2 (by decide)
  have hanswer := challenged_refused hresult hrecord hlater hstate hold
  unfold authorizes challengedSystem at hanswer hresult
  obtain ⟨again, hagain, -⟩ := (h pongCodec challengeConfig 1 challenged
    (newChallengeRow pingChallenge).challengeId pingChallenge.connectionId
    pingChallenge.operationId pingChallenge.policyGeneration (sampleTime 3000)).2 result
    record hresult hrecord (sampleTime 13001) hlater
  rw [hanswer] at hagain
  cases hagain

open SampleService in
/-- Whatever follows it, the authorization of the ping is answered from its record. -/
theorem authorized_challenge_returned :
    let system := Run.after (System.perform pongCodec) (.initial challengeConfig 1) challenged
    let answer := authorizeChallengeChecked system.config (newChallengeRow pingChallenge).challengeId
      pingChallenge.connectionId pingChallenge.operationId pingChallenge.policyGeneration
      (sampleTime 3000) system.store
    ∃ result record, answer.1 = .ok result ∧ result.record = some record ∧
      record.state = .authorized ∧ ∀ (later : List Event) (laterAt : TimeUnixMs),
        sampleTime 3000 ≤ laterAt →
        let next := Run.after (System.perform pongCodec) ⟨system.config, answer.2⟩ later
        authorizeChallengeChecked next.config (newChallengeRow pingChallenge).challengeId
            pingChallenge.connectionId pingChallenge.operationId pingChallenge.policyGeneration
            laterAt next.store =
          (if record.state = .authorized ∧
              next.config.connection.challengeIsCurrent record laterAt = false
            then .error .binding else .ok (.exactReplay record), next.store) := by
  obtain ⟨result, record, hresult, hrecord, hstate, -⟩ := challenged_record
  unfold authorizes challengedSystem at hresult
  exact ⟨result, record, hresult, hrecord, hstate, ((authorization_atomic_and_replayed pongCodec
    challengeConfig 1 challenged (newChallengeRow pingChallenge).challengeId
    pingChallenge.connectionId pingChallenge.operationId pingChallenge.policyGeneration
    (sampleTime 3000)).2 result record hresult hrecord).2⟩

end MycSigner
