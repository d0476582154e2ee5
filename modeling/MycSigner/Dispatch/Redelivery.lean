import MycSigner.Dispatch.Work
import MycSigner.Sessions.Revocation

/-!
# Redelivery of an admitted request

Admission recognizes a request by its client and its identifier under any event, and keeps
the operation, event and time of its first delivery.  Work preparation compares the record
with the delivery at hand in these columns too.  A redelivery is therefore accepted only
when it repeats the operation, the event and the time of the first.
-/

namespace MycSigner

open Transaction

/-- The same request of the same client, delivered again. -/
structure Redelivers (first second : PreparedRequest) : Prop where
  client : second.signerRequest.clientPublicKey = first.signerRequest.clientPublicKey
  requestId : second.signerRequest.requestId = first.signerRequest.requestId
  method : second.signerRequest.method = first.signerRequest.method
  digest : second.signerRequest.requestDigest = first.signerRequest.requestDigest
  request : second.request = first.request

theorem Redelivers.identity {first second : PreparedRequest} (h : Redelivers first second) :
    second.signerRequest.requestIdentity = first.signerRequest.requestIdentity := by
  unfold SignerRequest.requestIdentity
  rw [h.client, h.requestId]

/-- The session of a delivery still serves at a time. -/
def sessionServes (connection : Option ConnectionRecord) (observedAt : TimeUnixMs) : Prop :=
  ∀ record ∈ connection, ∀ limit ∈ record.authorizedUntil, observedAt ≤ limit

/-- A fresh deadline for the same work lies ahead of its delivery. -/
structure Redated (deadline fresh : Option TimeUnixMs) (observedAt : TimeUnixMs) : Prop where
  same : fresh.isSome = deadline.isSome
  ahead : ∀ limit ∈ fresh, observedAt < limit

/-! ## Acceptance of a delivery -/

theorem providerWork_accepts {metadata : PersistedMetadata} {record record' : RequestRecord}
    {observedAt observedAt' : TimeUnixMs} {deadline deadline' : Option TimeUnixMs}
    {input : Option ProviderInput} {payload : WorkPayload}
    (h : providerWork metadata record observedAt deadline input = .ok payload)
    (hfresh : Redated deadline deadline' observedAt') :
    ∃ payload, providerWork metadata record' observedAt' deadline' input = .ok payload := by
  unfold providerWork at h
  obtain ⟨limit, hlimit, h⟩ := Except.bind_eq_ok_iff.mp h
  obtain ⟨_, -, h⟩ := Except.bind_eq_ok_iff.mp h
  obtain ⟨value, hvalue, -⟩ := Except.bind_eq_ok_iff.mp h
  obtain rfl := Except.ofOption_eq_ok.mp hlimit
  obtain rfl := Except.ofOption_eq_ok.mp hvalue
  obtain ⟨limit', rfl⟩ := Option.isSome_iff_exists.mp (hfresh.same.trans rfl)
  refine Except.exists_bind_eq_ok.mpr ⟨limit', rfl, ?_⟩
  refine Except.exists_bind_eq_ok.mpr ⟨(), Except.require_eq_ok.mpr (hfresh.ahead limit' rfl), ?_⟩
  exact ⟨_, rfl⟩

theorem sessionPayload_accepts {protocol : Protocol} {metadata : PersistedMetadata}
    {record record' : RequestRecord} {observedAt observedAt' : TimeUnixMs}
    {deadline deadline' : Option TimeUnixMs} {request : Request} {payload : WorkPayload}
    (h : sessionPayload protocol metadata record observedAt deadline request = .ok payload)
    (hfresh : Redated deadline deadline' observedAt') :
    ∃ payload, sessionPayload protocol metadata record' observedAt' deadline' request =
      .ok payload := by
  cases request with
  | connect _ _ _ => cases h
  | custom _ => cases h
  | getPublicKey | getSessionCapability | ping | switchRelays | logout =>
      obtain ⟨_, hnone, -⟩ := Except.bind_eq_ok_iff.mp h
      obtain rfl := Except.require_eq_ok.mp hnone
      have hnone' : deadline' = none := Option.not_isSome_iff_eq_none.mp (by simp [hfresh.same])
      exact ⟨.localWork, Except.bind_eq_ok_iff.mpr ⟨(), Except.require_eq_ok.mpr hnone', rfl⟩⟩
  | signEvent unsigned =>
      obtain ⟨input, hinput, h⟩ := Except.bind_eq_ok_iff.mp h
      obtain ⟨payload, hpayload⟩ := providerWork_accepts h hfresh
      exact ⟨payload, Except.bind_eq_ok_iff.mpr ⟨input, hinput, hpayload⟩⟩
  | nip04Encrypt _ _ | nip04Decrypt _ _ | nip44Encrypt _ _ | nip44Decrypt _ _ =>
      exact providerWork_accepts h hfresh

theorem requireSession_accepts {protocol : Protocol} {first second : PreparedRequest}
    {connection : Option ConnectionRecord} {observedAt observedAt' : TimeUnixMs}
    {record : ConnectionRecord} (hredelivers : Redelivers first second)
    (hserves : sessionServes connection observedAt')
    (h : requireSession protocol first connection observedAt = .ok record) :
    requireSession protocol second connection observedAt' = .ok record := by
  unfold requireSession at h ⊢
  obtain ⟨session, hsession, h⟩ := Except.bind_eq_ok_iff.mp h
  obtain ⟨_, hclient, h⟩ := Except.bind_eq_ok_iff.mp h
  obtain ⟨_, hlive, h⟩ := Except.bind_eq_ok_iff.mp h
  have hlive := Except.require_eq_ok.mp hlive
  have hclient := Except.require_eq_ok.mp hclient
  refine Except.bind_eq_ok_iff.mpr ⟨session, hsession, ?_⟩
  refine Except.bind_eq_ok_iff.mpr ⟨(), Except.require_eq_ok.mpr ?_, ?_⟩
  · rw [hclient, hredelivers.client]
  refine Except.bind_eq_ok_iff.mpr ⟨(), Except.require_eq_ok.mpr ⟨hlive.1, ?_⟩, ?_⟩
  · have hlimit := hserves session (Except.ofOption_eq_ok.mp hsession)
    exact Option.all_eq_true _ _ |>.mpr fun limit hsome => decide_eq_true (hlimit limit hsome)
  · rw [hredelivers.request]
    exact h

/-- Under the same session and configuration a redelivery is accepted like the first delivery
as soon as the record matches it. -/
theorem prepareWork_accepts {protocol : Protocol} {metadata : PersistedMetadata}
    {first second : PreparedRequest} {record record' : RequestRecord}
    {connection : Option ConnectionRecord} {observedAt observedAt' : TimeUnixMs}
    {deadline deadline' : Option TimeUnixMs} {work : Work} (hredelivers : Redelivers first second)
    (hserves : sessionServes connection observedAt')
    (hfresh : Redated deadline deadline' observedAt')
    (hmatches : record'.matchesRequest second.signerRequest = true ∧ record'.receivedAt ≤ observedAt')
    (h : prepareWork protocol metadata first record connection observedAt deadline = .ok work) :
    ∃ work, prepareWork protocol metadata second record' connection observedAt' deadline' =
      .ok work := by
  have hrequest := hredelivers.request
  unfold prepareWork at h ⊢
  obtain ⟨_, -, h⟩ := Except.bind_eq_ok_iff.mp h
  refine Except.exists_bind_eq_ok.mpr ⟨(), Except.require_eq_ok.mpr hmatches, ?_⟩
  rw [hrequest]
  cases hfirst : first.request with
  | connect remoteSigner secret requested =>
      simp only [hfirst] at h ⊢
      obtain ⟨_, hplain, h⟩ := Except.bind_eq_ok_iff.mp h
      obtain ⟨_, hsigner, h⟩ := Except.bind_eq_ok_iff.mp h
      obtain ⟨permissions, hpermissions, -⟩ := Except.bind_eq_ok_iff.mp h
      obtain ⟨hconnection, rfl, hsecret⟩ := Except.require_eq_ok.mp hplain
      have hnone : deadline' = none := Option.not_isSome_iff_eq_none.mp (by simp [hfresh.same])
      refine Except.exists_bind_eq_ok.mpr
        ⟨(), Except.require_eq_ok.mpr ⟨hconnection, hnone, hsecret⟩, ?_⟩
      refine Except.exists_bind_eq_ok.mpr ⟨(), hsigner, ?_⟩
      exact Except.exists_bind_eq_ok.mpr ⟨permissions, hpermissions, _, rfl⟩
  | custom method => simp [hfirst] at h
  | getPublicKey | getSessionCapability | signEvent | nip04Encrypt | nip04Decrypt | nip44Encrypt
  | nip44Decrypt | ping | switchRelays | logout =>
      simp only [hfirst] at h ⊢
      obtain ⟨session, hsession, h⟩ := Except.bind_eq_ok_iff.mp h
      obtain ⟨payload, hpayload, -⟩ := Except.bind_eq_ok_iff.mp h
      obtain ⟨payload', hpayload'⟩ := sessionPayload_accepts hpayload hfresh
      refine Except.exists_bind_eq_ok.mpr
        ⟨session, requireSession_accepts hredelivers hserves hsession, ?_⟩
      exact Except.exists_bind_eq_ok.mpr ⟨payload', hpayload', _, rfl⟩

theorem prepareWork_matches {protocol : Protocol} {metadata : PersistedMetadata}
    {prepared : PreparedRequest} {record : RequestRecord} {connection : Option ConnectionRecord}
    {observedAt : TimeUnixMs} {deadline : Option TimeUnixMs} {work : Work}
    (h : prepareWork protocol metadata prepared record connection observedAt deadline = .ok work) :
    record.matchesRequest prepared.signerRequest = true ∧ record.receivedAt ≤ observedAt := by
  unfold prepareWork at h
  obtain ⟨_, hmatches, -⟩ := Except.bind_eq_ok_iff.mp h
  exact Except.require_eq_ok.mp hmatches

/-! ## The record of an admitted request -/

/-- The record keeps the columns of the first delivery. -/
structure RecordsFirst (record : RequestRecord) (row : RequestRow) : Prop where
  operationId : record.operationId = row.operationId
  correlationId : record.correlationId = row.correlationId
  clientPublicKey : record.clientPublicKey = row.clientPublicKey
  requestId : record.requestId = row.requestId
  firstEventId : record.firstEventId = row.firstEventId
  method : record.method = row.method
  requestDigest : record.requestDigest = row.requestSha256
  receivedAt : record.receivedAt = row.receivedAt

theorem parseRecord_eq_ok {identity : Id32} {selected logical : DedupRow} {row : RequestRow}
    {record : RequestRecord}
    (h : parseRecord .request identity (selected, row, logical) = .ok record) :
    row.requestIdentitySha256 = identity ∧ RecordsFirst record row := by
  unfold parseRecord at h
  obtain ⟨_, hbound, h⟩ := Except.bind_eq_ok_iff.mp h
  obtain ⟨_, -, h⟩ := Except.bind_eq_ok_iff.mp h
  have hbound := Except.require_eq_ok.mp hbound
  obtain rfl := Except.ok.inj h
  refine ⟨?_, rfl, rfl, rfl, rfl, rfl, rfl, rfl, rfl⟩
  by_contra hne
  exact hbound (.inl ⟨rfl, fun heq => hne heq.symm⟩)

theorem readByDedup_eq_some {s : Store} {identity : Id32} {record : RequestRecord}
    (h : readByDedup s .request identity = .ok (some record)) :
    ∃ row ∈ s.requests, row.requestIdentitySha256 = identity ∧ RecordsFirst record row := by
  unfold readByDedup at h
  split at h
  next => cases h
  next found hmatches =>
    obtain ⟨selected, request, logical⟩ := found
    have hmem : (selected, request, logical) ∈ dedupMatches s .request identity := by
      rw [hmatches]
      exact List.mem_singleton.mpr rfl
    unfold dedupMatches at hmem
    obtain ⟨_, -, hmem⟩ := List.mem_flatMap.mp hmem
    obtain ⟨row, hrow, hmem⟩ := List.mem_flatMap.mp hmem
    obtain ⟨_, -, heq⟩ := List.mem_map.mp hmem
    simp only [Prod.mk.injEq] at heq
    obtain ⟨-, rfl, -⟩ := heq
    cases hparsed : parseRecord .request identity (selected, row, logical) with
    | error e => simp [hparsed, Except.map] at h
    | ok parsed =>
        simp only [hparsed, Except.map, Except.ok.injEq, Option.some.injEq] at h
        subst h
        exact ⟨row, (List.mem_filter.mp hrow).1, parseRecord_eq_ok hparsed⟩
  next => cases h

theorem readOutcome_eq_ok {kind : DedupKind} {identity : Id32} {record : RequestRecord}
    {s s' : Store} (h : (readOutcome kind identity).run s = .ok (record, s')) :
    s = s' ∧ readByDedup s kind identity = .ok (some record) := by
  unfold readOutcome at h
  obtain ⟨found, hfound, h⟩ := run_query_bind_eq_ok.mp h
  obtain ⟨rfl, rfl⟩ := run_orFail_eq_ok.mp h
  exact ⟨rfl, hfound⟩

/-- A delivery that is not in conflict is recorded under its logical identity. -/
theorem admitRequest_record {request : SignerRequest} {admission : RequestAdmission}
    {s s' : Store} {record : RequestRecord}
    (h : (admitRequest request).run s = .ok (admission, s'))
    (hrecord : admission = .admitted record ∨ admission = .exactReplay record) :
    readByDedup s' .request request.requestIdentity = .ok (some record) := by
  unfold admitRequest at h
  obtain ⟨requestMatch, -, h⟩ := run_query_bind_eq_ok.mp h
  obtain ⟨eventMatch, -, h⟩ := run_query_bind_eq_ok.mp h
  split at h
  next =>
    unfold insertNewRequest at h
    obtain ⟨_, _, -, h⟩ := run_bind_eq_ok.mp h
    obtain ⟨_, _, -, h⟩ := run_bind_eq_ok.mp h
    obtain ⟨_, _, -, h⟩ := run_bind_eq_ok.mp h
    obtain ⟨found, _, hread, h⟩ := run_bind_eq_ok.mp h
    obtain ⟨rfl, rfl⟩ := run_pure_eq_ok.mp h
    obtain ⟨rfl, hfound⟩ := readOutcome_eq_ok hread
    simp only [RequestAdmission.admitted.injEq, reduceCtorEq, or_false] at hrecord
    rw [← hrecord]
    exact hfound
  next =>
    split at h
    next =>
      obtain ⟨_, _, -, h⟩ := run_bind_eq_ok.mp h
      obtain ⟨_, _, -, h⟩ := run_bind_eq_ok.mp h
      obtain ⟨found, _, hread, h⟩ := run_bind_eq_ok.mp h
      obtain ⟨rfl, rfl⟩ := run_pure_eq_ok.mp h
      obtain ⟨rfl, hfound⟩ := readOutcome_eq_ok hread
      simp only [RequestAdmission.exactReplay.injEq, reduceCtorEq, false_or] at hrecord
      rw [← hrecord]
      exact hfound
    next =>
      obtain ⟨_, _, -, h⟩ := run_bind_eq_ok.mp h
      obtain ⟨found, _, -, h⟩ := run_bind_eq_ok.mp h
      obtain ⟨rfl, rfl⟩ := run_pure_eq_ok.mp h
      simp at hrecord
  next =>
    obtain ⟨_, _, -, h⟩ := run_bind_eq_ok.mp h
    obtain ⟨found, _, -, h⟩ := run_bind_eq_ok.mp h
    obtain ⟨rfl, rfl⟩ := run_pure_eq_ok.mp h
    simp at hrecord

/-! ## Requests over a run -/

theorem SessionStep.requestsGrow {config : Configuration} {s s₁ : Store} {operation : Operation}
    (h : SessionStep config s operation s₁) : RequestsGrow s s₁ := by
  cases h with
  | quiet => exact .of_eq rfl
  | requests hadmits => exact hadmits.grows
  | outbox houtside => exact .of_eq (congrArg Store.requests houtside :)
  | connect _ => exact .of_eq rfl
  | approve _ _ _ => exact .of_eq rfl
  | deny _ _ => exact .of_eq rfl
  | finish _ _ => exact .of_eq rfl
  | issue _ => exact .of_eq rfl
  | resolve _ => exact .of_eq rfl
  | complete _ => exact .of_eq rfl
  | answerPending _ => exact .of_eq rfl

theorem Store.reconfigured_requests (s : Store) (current candidate : Configuration)
    (appliedAtUnixS : ℕ) :
    (s.reconfigured current candidate appliedAtUnixS).requests = s.requests := by
  unfold Store.reconfigured
  split
  next => rfl
  next =>
    split
    next => rfl
    next => rfl

theorem System.perform_requestsGrow {codec : EventCodec} (system : System) (event : Event) :
    RequestsGrow system.store (system.perform codec event).store := by
  refine System.perform_sessions (P := fun after => RequestsGrow system.store after.store) event
    (.of_eq rfl) ?_ ?_
  · intro operation s₁ s' _ hstep hview
    have hrequests : s'.requests = s₁.requests := (congrArg Store.requests hview :)
    exact IsTrans.trans _ _ _ hstep.requestsGrow (.of_eq hrequests)
  · intro candidate appliedAtUnixS bindings _ _
    exact .of_eq (system.store.reconfigured_requests system.config candidate appliedAtUnixS)

/-- The logical identities of requests are unique in every state that a run reaches. -/
theorem requests_identified_run (codec : EventCodec) (config : Configuration) (appliedAtUnixS : ℕ)
    (events : List Event) :
    Table.Unique RequestRow.requestIdentitySha256
      (Run.after (System.perform codec) (.initial config appliedAtUnixS) events).store.requests :=
  Run.invariant_always (I := fun system : System =>
      Table.Unique RequestRow.requestIdentitySha256 system.store.requests)
    (fun system event hunique => (system.perform_requestsGrow event).identified hunique) events
    .nil

/-! ## Redelivery -/

/-- The record that a redelivery finds is that of the first delivery. -/
theorem redelivery_record {config : Configuration} {s s' : Store} {first second : PreparedRequest}
    {admission : RequestAdmission} {record : RequestRecord}
    (hunique : Table.Unique RequestRow.requestIdentitySha256 s.requests)
    (hrecorded : newRequestRow first.signerRequest ∈ s.requests)
    (hredelivers : Redelivers first second)
    (hadmits : (admitSignerRequest config second.signerRequest).run s = .ok (admission, s'))
    (hrecord : admission = .admitted record ∨ admission = .exactReplay record) :
    RecordsFirst record (newRequestRow first.signerRequest) := by
  have hrun := run_withBinding_eq_ok hadmits
  have hgrows := (admitRequest_admits second.signerRequest hrun).grows
  obtain ⟨row, hrow, hidentity, hfirst⟩ := readByDedup_eq_some (admitRequest_record hrun hrecord)
  have hsame : row = newRequestRow first.signerRequest :=
    (hgrows.identified hunique).eq_of_key_eq hrow (hgrows.kept _ hrecorded)
      (hidentity.trans hredelivers.identity)
  rw [← hsame]
  exact hfirst

/-- The record of the first delivery matches a redelivery exactly when the redelivery repeats
its operation, event and time. -/
theorem matchesRequest_redelivery {record : RequestRecord} {first second : PreparedRequest}
    (hrecord : RecordsFirst record (newRequestRow first.signerRequest))
    (hredelivers : Redelivers first second) :
    record.matchesRequest second.signerRequest = true ↔
      second.signerRequest.operationId = first.signerRequest.operationId ∧
        second.signerRequest.eventId = first.signerRequest.eventId ∧
        second.signerRequest.receivedAt = first.signerRequest.receivedAt := by
  unfold RequestRecord.matchesRequest
  rw [hrecord.operationId, hrecord.correlationId, hrecord.clientPublicKey, hrecord.requestId,
    hrecord.firstEventId, hrecord.method, hrecord.requestDigest, hrecord.receivedAt,
    hredelivers.client, hredelivers.requestId, hredelivers.method, hredelivers.digest]
  simp only [newRequestRow, beq_self_eq_true, Bool.and_true, Bool.and_eq_true, beq_iff_eq]
  constructor
  · rintro ⟨⟨⟨hoperation, -⟩, hevent⟩, hreceived⟩
    exact ⟨hoperation.symm, hevent.symm, hreceived.symm⟩
  · rintro ⟨hoperation, hevent, hreceived⟩
    exact ⟨⟨⟨hoperation.symm, by rw [hoperation]⟩, hevent.symm⟩, hreceived.symm⟩

/-- In every reachable store, a redelivery of a recorded request under the session and the
configuration of its first delivery is accepted if and only if it has the operation, the event
and the receive time of the first. -/
theorem redelivery_accepted_iff_unchanged (codec : EventCodec) (config : Configuration)
    (appliedAtUnixS : ℕ) (events : List Event) (protocol : Protocol)
    (first second : PreparedRequest) (firstRecord record : RequestRecord)
    (admission : RequestAdmission) (connection : Option ConnectionRecord)
    (deadline fresh : Option TimeUnixMs) (work : Work) (s' : Store) :
    let system := Run.after (System.perform codec) (.initial config appliedAtUnixS) events
    newRequestRow first.signerRequest ∈ system.store.requests → Redelivers first second →
    prepareWork protocol system.config.metadata first firstRecord connection
      first.signerRequest.receivedAt deadline = .ok work →
    (admitSignerRequest system.config second.signerRequest).run system.store =
      .ok (admission, s') →
    admission = .admitted record ∨ admission = .exactReplay record →
    sessionServes connection second.signerRequest.receivedAt →
    Redated deadline fresh second.signerRequest.receivedAt →
    ((∃ work, prepareWork protocol system.config.metadata second record connection
        second.signerRequest.receivedAt fresh = .ok work) ↔
      second.signerRequest.operationId = first.signerRequest.operationId ∧
        second.signerRequest.eventId = first.signerRequest.eventId ∧
        second.signerRequest.receivedAt = first.signerRequest.receivedAt) := by
  intro system hrecorded hredelivers hfirst hadmits hrecord hserves hfresh
  have hcolumns := redelivery_record
    (requests_identified_run codec config appliedAtUnixS events) hrecorded hredelivers hadmits hrecord
  constructor
  · rintro ⟨accepted, haccepted⟩
    exact (matchesRequest_redelivery hcolumns hredelivers).mp (prepareWork_matches haccepted).1
  · intro hsame
    refine prepareWork_accepts hredelivers hserves hfresh
      ⟨(matchesRequest_redelivery hcolumns hredelivers).mpr hsame, ?_⟩ hfirst
    rw [hcolumns.receivedAt, hsame.2.2]
    exact Nat.le_refl _

/-! ## A ping delivered twice -/

/-- The record and the store of an admission as an exact replay. -/
def exactReplay : Except OperationError (RequestAdmission × Store) → Option (RequestRecord × Store)
  | .ok (.exactReplay record, store) => some (record, store)
  | _ => none

theorem exactReplay_eq_some {outcome : Except OperationError (RequestAdmission × Store)}
    {record : RequestRecord} {store : Store} (h : exactReplay outcome = some (record, store)) :
    outcome = .ok (.exactReplay record, store) := by
  unfold exactReplay at h
  split at h
  next => cases h; rfl
  next => cases h

namespace SampleService

/-- A library that asks for no permission. -/
def plainProtocol : Protocol where
  verifyEvent _ _ := none
  readRequest _ _ := none
  requiredPermission _ := none
  unsignedAuthor _ := none
  envelope _ _ := none
  unsignedResponse _ _ _ _ := []
  isText _ := true
  isSignedEvent _ := false
  capability _ _ _ := none

def firstPing : PreparedRequest := ⟨ping, .ping, .nip44V2⟩

/-- The same ping in another event, received later. -/
def secondPing : PreparedRequest :=
  ⟨{ ping with eventId := 9, operationNonce := 9, receivedAt := sampleTime 2500 }, .ping,
    .nip44V2⟩

/-- The ping is admitted and nothing answers it. -/
def pinged : List Event := connects ++ [.operation (.admitRequest ping)]

abbrev pingSystem : System := Run.after (System.perform codec) (.initial config 1) pinged

/-- The record and the store that an exact replay of the ping leaves. -/
def replay (second : PreparedRequest) : Option (RequestRecord × Store) :=
  exactReplay ((admitSignerRequest pingSystem.config second.signerRequest).run pingSystem.store)

/-- The session of the client. -/
def pingSession : Option ConnectionRecord :=
  ((readActiveConnectionForClient pingSystem.store client ping.receivedAt).toOption).bind id

/-- The ping is recorded, unanswered and acceptable, and both deliveries are exact replays. -/
theorem ping_recorded :
    newRequestRow firstPing.signerRequest ∈ pingSystem.store.requests ∧
      pingSystem.store.outcomes firstPing.signerRequest.operationId = .none ∧
      (prepareWork plainProtocol pingSystem.config.metadata firstPing (record ping) pingSession
        firstPing.signerRequest.receivedAt none).isOk = true ∧
      (replay firstPing).isSome = true ∧ (replay secondPing).isSome = true ∧
      secondPing.signerRequest.operationId ≠ firstPing.signerRequest.operationId ∧
      pingSession.all (fun record => record.authorizedUntil.isNone) = true := by
  have hsystem : pingSystem =
      Run.after (System.perform codec) ⟨config, connectedStore⟩ [.operation (.admitRequest ping)] := by
    rw [pingSystem, pinged, Run.after_append, after_connects]
  unfold replay pingSession
  rw [hsystem]
  decide +kernel

theorem pingSession_serves
    (h : pingSession.all (fun record => record.authorizedUntil.isNone) = true)
    (observedAt : TimeUnixMs) : sessionServes pingSession observedAt := by
  intro session hsession limit hlimit
  have hnone := (Option.all_eq_true _ _).mp h session hsession
  rw [hlimit] at hnone
  cases hnone

end SampleService

open SampleService in
/-- The ping is recorded and unanswered; its redelivery is admitted as an exact replay and then
refused. -/
theorem redelivered_ping_refused :
    ¬ ∀ (codec : EventCodec) (config : Configuration) (appliedAtUnixS : ℕ) (events : List Event)
        (protocol : Protocol) (first second : PreparedRequest) (firstRecord record : RequestRecord)
        (admission : RequestAdmission) (connection : Option ConnectionRecord)
        (deadline fresh : Option TimeUnixMs) (work : Work) (s' : Store),
      let system := Run.after (System.perform codec) (.initial config appliedAtUnixS) events
      newRequestRow first.signerRequest ∈ system.store.requests →
      system.store.outcomes first.signerRequest.operationId = .none → Redelivers first second →
      prepareWork protocol system.config.metadata first firstRecord connection
        first.signerRequest.receivedAt deadline = .ok work →
      (admitSignerRequest system.config second.signerRequest).run system.store =
        .ok (admission, s') →
      admission = .admitted record ∨ admission = .exactReplay record →
      sessionServes connection second.signerRequest.receivedAt →
      Redated deadline fresh second.signerRequest.receivedAt →
      ∃ work, prepareWork protocol system.config.metadata second record connection
        second.signerRequest.receivedAt fresh = .ok work := by
  intro h
  obtain ⟨hrecorded, hunanswered, hfirst, -, hadmits, hother, hunlimited⟩ := ping_recorded
  obtain ⟨work, hwork⟩ := Except.exists_of_isOk hfirst
  obtain ⟨⟨replayed, s'⟩, hreplay⟩ := Option.isSome_iff_exists.mp hadmits
  have hredelivers : Redelivers firstPing secondPing := ⟨rfl, rfl, rfl, rfl, rfl⟩
  have haccepted := h codec config 1 pinged plainProtocol firstPing secondPing (record ping) replayed
    (.exactReplay replayed) pingSession none none work s' hrecorded hunanswered hredelivers hwork
    (exactReplay_eq_some hreplay) (.inr rfl) (pingSession_serves hunlimited _) ⟨rfl, nofun⟩
  have hcolumns := redelivery_record (requests_identified_run codec config 1 pinged) hrecorded
    hredelivers (exactReplay_eq_some hreplay) (.inr rfl)
  obtain ⟨_, hsecond⟩ := haccepted
  exact hother ((matchesRequest_redelivery hcolumns hredelivers).mp (prepareWork_matches hsecond).1).1

open SampleService in
/-- The same delivery of the ping is accepted again. -/
theorem repeated_ping_accepted :
    ∃ record work, prepareWork plainProtocol pingSystem.config.metadata firstPing record pingSession
      firstPing.signerRequest.receivedAt none = .ok work := by
  obtain ⟨hrecorded, -, hfirst, hadmits, -, -, hunlimited⟩ := ping_recorded
  obtain ⟨work, hwork⟩ := Except.exists_of_isOk hfirst
  obtain ⟨⟨replayed, s'⟩, hreplay⟩ := Option.isSome_iff_exists.mp hadmits
  refine ⟨replayed, (redelivery_accepted_iff_unchanged codec config 1 pinged plainProtocol firstPing
    firstPing (record ping) replayed (.exactReplay replayed) pingSession none none work s' hrecorded
    ⟨rfl, rfl, rfl, rfl, rfl⟩ hwork (exactReplay_eq_some hreplay) (.inr rfl)
    (pingSession_serves hunlimited _) ⟨rfl, nofun⟩).mpr ⟨rfl, rfl, rfl⟩⟩

end MycSigner
