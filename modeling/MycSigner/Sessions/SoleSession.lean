import MycSigner.Delivery.Evidence
import MycSigner.Sessions.Invariant

/-!
# The session of a client

A client may be admitted or approved more than once, and each time its new connection becomes
active.  The session lookup does not choose between several active connections; it fails.  A
run has at most one active connection for each client as long as no step of it activates a
connection of a client that already has one.
-/

namespace MycSigner

/-- The client has an active connection. -/
def hasActiveConnection (s : Store) (client : PublicKey) : Bool :=
  s.connections.any fun row => row.clientPublicKey == client && row.status == .active

/-- The operation would activate a connection of a client that has an active one: a trusted
admission of an undecided request, or an approval of a pending connection. -/
def Operation.activatesAnother (s : Store) : Operation → Bool
  | .admitConnection request =>
      request.policy == .trusted && s.decisions.all (·.operationId != request.operationId) &&
        hasActiveConnection s request.clientPublicKey
  | .decidePending _ connectionId _ _ _ (.approve _ _)
  | .adminConnection connectionId _ _ _ (.approve _ _) =>
      s.connections.any fun row => row.connectionId == connectionId && row.status == .pending &&
        hasActiveConnection s row.clientPublicKey
  | _ => false

def Event.activatesAnother (system : System) : Event → Bool
  | .operation op => op.activatesAnother system.store
  | .apply _ _ => false

/-- Two active connections of one client are the same row. -/
def SoleSession (s : Store) : Prop :=
  ∀ left ∈ s.connections, ∀ right ∈ s.connections,
    left.clientPublicKey = right.clientPublicKey → left.status = .active →
      right.status = .active → left = right

/-! ## Steps -/

theorem hasActiveConnection_of_mem {s : Store} {row : ConnectionRow} (hrow : row ∈ s.connections)
    (hactive : row.status = .active) : hasActiveConnection s row.clientPublicKey = true :=
  List.any_eq_true.mpr ⟨row, hrow, by simp [hactive]⟩

/-- A step that activates nothing keeps the sole session. -/
theorem SoleSession.of_no_new {s s₁ : Store} (h : SoleSession s)
    (hnew : ∀ row ∈ s₁.connections, row.status = .active → row ∈ s.connections) :
    SoleSession s₁ := by
  intro left hleft right hright hclient hactive₁ hactive₂
  exact h left (hnew left hleft hactive₁) right (hnew right hright hactive₂) hclient hactive₁ hactive₂

theorem no_new_active_update {matching : ConnectionRow → Bool} {set : ConnectionRow → ConnectionRow}
    {rows : List ConnectionRow} (hset : ∀ row, (set row).status ≠ .active) {row : ConnectionRow}
    (hrow : row ∈ Table.update matching set rows) (hactive : row.status = .active) : row ∈ rows := by
  obtain ⟨old, hold, rfl⟩ := Table.mem_update.mp hrow
  split at hactive
  next => exact absurd hactive (hset old)
  next hmatch => simpa [hmatch] using hold

theorem SoleSession.ended {s : Store} {connectionId : Id32} {generation : PolicyGeneration}
    {observedAt : TimeUnixMs} {limited : ConnectionRow → Bool} (h : SoleSession s) :
    SoleSession (s.ended connectionId generation observedAt limited) :=
  h.of_no_new fun _ hrow hactive => no_new_active_update (by simp) hrow hactive

theorem SoleSession.admitted {s : Store} {request : AdmissionRequest} (h : SoleSession s)
    (hundecided : ∀ row ∈ s.decisions, row.operationId ≠ request.operationId)
    (hguard : (Operation.admitConnection request).activatesAnother s = false) :
    SoleSession (s.admitted request) := by
  cases hpolicy : request.policy with
  | denied =>
      refine h.of_no_new fun row hrow _ => ?_
      simpa [Store.admitted, AdmissionRequest.connectionRows, hpolicy] using hrow
  | explicitApproval =>
      refine h.of_no_new fun row hrow hactive => ?_
      rcases List.mem_append.mp hrow with hold | hnew
      · exact hold
      · simp only [AdmissionRequest.connectionRows, hpolicy, List.mem_singleton] at hnew
        subst hnew
        cases hactive
  | trusted =>
      have hnone : ∀ row ∈ s.connections, row.clientPublicKey = request.clientPublicKey →
          row.status ≠ .active := by
        intro row hrow hclient hactive
        have hhas := hasActiveConnection_of_mem hrow hactive
        rw [hclient] at hhas
        have hall : s.decisions.all (·.operationId != request.operationId) = true :=
          List.all_eq_true.mpr fun row hrow => by simpa using hundecided row hrow
        simp [Operation.activatesAnother, hpolicy, hhas] at hguard
        obtain ⟨row, hrow, heq⟩ := hguard
        exact hundecided row hrow heq
      have hrows : (s.admitted request).connections =
          s.connections ++ [newConnectionRow request .active] := by
        simp [Store.admitted, AdmissionRequest.connectionRows, hpolicy]
      intro left hleft right hright hclient hactive₁ hactive₂
      rw [hrows] at hleft hright
      rcases List.mem_append.mp hleft with hleft | hleft
      · rcases List.mem_append.mp hright with hright | hright
        · exact h left hleft right hright hclient hactive₁ hactive₂
        · rw [List.mem_singleton.mp hright] at hclient
          exact absurd hactive₁ (hnone left hleft hclient)
      · rcases List.mem_append.mp hright with hright | hright
        · rw [List.mem_singleton.mp hleft] at hclient
          exact absurd hactive₂ (hnone right hright hclient.symm)
        · rw [List.mem_singleton.mp hleft, List.mem_singleton.mp hright]

theorem SoleSession.approved {s : Store} {operationId connectionId : Id32}
    {generation : PolicyGeneration} {observedAt : TimeUnixMs} {set : PermissionSet}
    {authorizedUntil : Option TimeUnixMs} (h : SoleSession s)
    (guard : Decides s operationId connectionId generation observedAt)
    (hguard : ∀ row ∈ s.connections, row.connectionId = connectionId → row.status = .pending →
      hasActiveConnection s row.clientPublicKey = false) :
    SoleSession (s.approved operationId connectionId generation observedAt set authorizedUntil) := by
  have hnone : ∀ row ∈ s.connections, row.connectionId = connectionId → row.status = .pending →
      ∀ other ∈ s.connections, other.clientPublicKey = row.clientPublicKey →
        other.status ≠ .active := by
    intro row hrow hid hpending other hother hclient hactive
    have hhas := hasActiveConnection_of_mem hother hactive
    rw [hclient, hguard row hrow hid hpending] at hhas
    cases hhas
  intro left hleft right hright hclient hactive₁ hactive₂
  obtain ⟨first, hfirst, rfl⟩ := Table.mem_update.mp hleft
  obtain ⟨second, hsecond, rfl⟩ := Table.mem_update.mp hright
  split at hactive₁
  next hmatch₁ =>
    have hpending₁ := of_decide_eq_true hmatch₁
    split at hactive₂
    next hmatch₂ =>
      have hpending₂ := of_decide_eq_true hmatch₂
      obtain rfl := guard.only first hfirst second hsecond hpending₁.1 hpending₂.1
      rfl
    next hmatch₂ =>
      simp only [if_pos hmatch₁, if_neg hmatch₂] at hclient
      exact absurd hactive₂
        (hnone first hfirst hpending₁.1 hpending₁.2.1 second hsecond hclient.symm)
  next hmatch₁ =>
    split at hactive₂
    next hmatch₂ =>
      have hpending₂ := of_decide_eq_true hmatch₂
      simp only [if_neg hmatch₁, if_pos hmatch₂] at hclient
      exact absurd hactive₁ (hnone second hsecond hpending₂.1 hpending₂.2.1 first hfirst hclient)
    next hmatch₂ =>
      simp only [if_neg hmatch₁, if_neg hmatch₂] at hclient ⊢
      exact h first hfirst second hsecond hclient hactive₁ hactive₂

theorem Approves.guard {config : Configuration} {s : Store} {operation : Operation}
    {connectionId : Id32} {generation : PolicyGeneration} {observedAt : TimeUnixMs}
    {set : PermissionSet} {authorizedUntil : Option TimeUnixMs}
    (label : Approves config connectionId generation observedAt set authorizedUntil operation)
    (hguard : operation.activatesAnother s = false) :
    ∀ row ∈ s.connections, row.connectionId = connectionId → row.status = .pending →
      hasActiveConnection s row.clientPublicKey = false := by
  intro row hrow hid hpending
  cases label with
  | operator _ =>
      have hnot := List.any_eq_false.mp hguard row hrow
      simpa [hid, hpending] using hnot
  | admin =>
      have hnot := List.any_eq_false.mp hguard row hrow
      simpa [hid, hpending] using hnot

theorem SoleSession.step {config : Configuration} {s s₁ : Store} {operation : Operation}
    (h : SoleSession s) (hstep : SessionStep config s operation s₁)
    (hguard : operation.activatesAnother s = false) : SoleSession s₁ := by
  cases hstep with
  | quiet => exact h
  | requests hadmits =>
      have hconnections : s₁.connections = s.connections :=
        (congrArg Store.connections hadmits.outside :)
      exact h.of_no_new fun row hrow _ => hconnections ▸ hrow
  | outbox houtside =>
      have hconnections : s₁.connections = s.connections :=
        (congrArg Store.connections houtside :)
      exact h.of_no_new fun row hrow _ => hconnections ▸ hrow
  | connect guard => exact h.admitted guard.undecided hguard
  | approve label guard => exact h.approved guard (label.guard hguard)
  | deny guard =>
      exact h.of_no_new fun _ hrow hactive => no_new_active_update (by simp) hrow hactive
  | finish guard => exact h.ended
  | issue guard => exact h.of_no_new fun _ hrow _ => hrow
  | resolve guard => exact h.of_no_new fun _ hrow _ => hrow
  | @complete request guard =>
      have heffect : SoleSession (s.effected request.completion) := by
        unfold Store.effected CommitRequest.effect
        split
        next => exact h.ended
        next => exact h
      exact heffect.of_no_new fun _ hrow _ => hrow
  | answerPending guard => exact h.of_no_new fun _ hrow _ => hrow

theorem SoleSession.reconfigured {s : Store} {current candidate : Configuration}
    {appliedAtUnixS : ℕ} (h : SoleSession s) :
    SoleSession (s.reconfigured current candidate appliedAtUnixS) := by
  unfold Store.reconfigured
  split
  next =>
    refine h.of_no_new fun row hrow hactive => ?_
    have hrow := no_new_active_update (by simp [ConnectionRow.endedAs]) hrow hactive
    exact no_new_active_update (by simp [ConnectionRow.endedAs]) hrow hactive
  next =>
    split
    next =>
      exact h.of_no_new fun _ hrow hactive => no_new_active_update (by simp [ConnectionRow.endedAs]) hrow hactive
    next => exact h

theorem SoleSession.perform {codec : EventCodec} {system : System} (h : SoleSession system.store)
    (event : Event) (hguard : event.activatesAnother system = false) :
    SoleSession (system.perform codec event).store := by
  refine System.perform_sessions (P := fun system => SoleSession system.store) event h ?_ ?_
  · intro operation s₁ s' hevent hstep hview
    subst hevent
    have hconnections : s'.connections = s₁.connections := (congrArg Store.connections hview :)
    exact (h.step hstep hguard).of_no_new fun row hrow _ => hconnections ▸ hrow
  · intro candidate appliedAtUnixS bindings _ _
    exact h.reconfigured

/-! ## Runs and the session lookup -/

theorem soleSession_run {codec : EventCodec} {config : Configuration} {appliedAtUnixS : ℕ}
    {events : List Event}
    (h : Run.EveryStep (System.perform codec)
      (fun system event => event.activatesAnother system = false) (.initial config appliedAtUnixS)
      events) :
    SoleSession (Run.after (System.perform codec) (.initial config appliedAtUnixS) events).store :=
  Run.invariant (I := fun system : System => SoleSession system.store)
    (fun _ event hsole hguard => hsole.perform event hguard) (by simp [SoleSession, System.initial,
      Store.initial]) h

theorem SoleSession.serving {s : Store} (h : SoleSession s) (inv : SessionInv s)
    (client : PublicKey) (observedAt : TimeUnixMs) :
    (s.connections.filter (·.servesAt client observedAt)).length ≤ 1 := by
  refine Table.length_le_one_of_nodup (inv.connections_unique.nodup.filter _) ?_
  intro left hleft right hright
  obtain ⟨hleft, hserves₁⟩ := List.mem_filter.mp hleft
  obtain ⟨hright, hserves₂⟩ := List.mem_filter.mp hright
  simp only [ConnectionRow.servesAt, Bool.and_eq_true, beq_iff_eq] at hserves₁ hserves₂
  exact h left hleft right hright (hserves₁.1.1.trans hserves₂.1.1.symm) hserves₁.1.2 hserves₂.1.2

/-- The lookup finds the first serving connection when there is at most one. -/
theorem readActiveConnectionForClient_of_sole {s : Store} {client : PublicKey}
    {observedAt : TimeUnixMs}
    (h : (s.connections.filter (·.servesAt client observedAt)).length ≤ 1) :
    readActiveConnectionForClient s client observedAt =
      match (s.connections.filter (·.servesAt client observedAt)).head? with
      | none => .ok none
      | some row => (readConnection s row.connectionId).map some := by
  unfold readActiveConnectionForClient
  generalize s.connections.filter (·.servesAt client observedAt) = rows at h ⊢
  match rows with
  | [] => rfl
  | [_] => rfl
  | _ :: _ :: _ => simp at h

theorem readActiveConnectionForClient_of_several {s : Store} {client : PublicKey}
    {observedAt : TimeUnixMs}
    (h : 1 < (s.connections.filter (·.servesAt client observedAt)).length) :
    readActiveConnectionForClient s client observedAt = .error .binding := by
  unfold readActiveConnectionForClient
  generalize s.connections.filter (·.servesAt client observedAt) = rows at h ⊢
  match rows with
  | [] => simp at h
  | [_] => simp at h
  | _ :: _ :: _ => rfl

/-- The lookup refuses to choose between several serving connections, and there are several
only after a step that activated a connection of a client with an active one. -/
theorem lookup_unambiguous_without_second_activation (codec : EventCodec) (config : Configuration)
    (appliedAtUnixS : ℕ) (events : List Event) (client : PublicKey) (observedAt : TimeUnixMs) :
    let s := (Run.after (System.perform codec) (.initial config appliedAtUnixS) events).store
    (1 < (s.connections.filter (·.servesAt client observedAt)).length →
        readActiveConnectionForClient s client observedAt = .error .binding) ∧
      (Run.EveryStep (System.perform codec)
          (fun system event => event.activatesAnother system = false)
          (.initial config appliedAtUnixS) events →
        (s.connections.filter (·.servesAt client observedAt)).length ≤ 1 ∧
        readActiveConnectionForClient s client observedAt =
          match (s.connections.filter (·.servesAt client observedAt)).head? with
          | none => .ok none
          | some row => (readConnection s row.connectionId).map some) := by
  intro s
  refine ⟨readActiveConnectionForClient_of_several, fun h => ?_⟩
  have hone := (soleSession_run h).serving (sessionInv_run codec config appliedAtUnixS events)
    client observedAt
  exact ⟨hone, readActiveConnectionForClient_of_sole hone⟩

/-! ## A service with one trusted client -/

namespace SampleService

def relay : RelayId := LostAcknowledgement.relay

def client : PublicKey := ⟨0xc6047f9441ed7d6d3045406e95c07cd85c778e4b8cef3ca7abac09b95c709ee5⟩

/-- The identity that signs responses. -/
def transport : PublicKey := ⟨0x79be667ef9dcbbac55a06295ce870b07029bfcdb2dce28d959f2815b16f81798⟩

def rateLimit (rateClass : RateLimitClass) : RateLimitPolicy where
  rateClass := rateClass
  windowMs := 1000
  maxAttempts := 10
  retentionMs := 1000
  maximumTrackedSubjects := 16
  valid := by decide

def governance : GovernancePolicies where
  connectionAdmission := rateLimit .connectionAdmission
  challengeCreation := rateLimit .challengeCreation
  challengeAuthorization := rateLimit .challengeAuthorization
  auditRetentionMs := 1000
  relays := [relay]
  admission_class := rfl
  creation_class := rfl
  authorization_class := rfl
  audit_bounded := by decide
  relays_nonempty := by decide

/-- The client is trusted with two permissions. -/
def connection : ConnectionPolicies where
  trustedClients := [client]
  deniedClients := []
  permissionCeiling := ⟨[.nip44Encrypt, .nip44Decrypt], by decide⟩
  challenge := none
  disjoint := by decide

def config : Configuration where
  metadata := { LostAcknowledgement.metadata with transportPublicKey := transport }
  relays := [⟨relay, ascii "wss://relay.example", true, true, true, ascii "none"⟩]
  connection := connection
  governance := governance
  delivery := LostAcknowledgement.policy
  discovery := none

/-- A request of the client under its own identifier and nonce. -/
def request (id : Char) (nonce : Id32) (method : Method) (receivedAt : TimeUnixMs) :
    SignerRequest where
  clientPublicKey := client
  requestId := sampleId id
  eventId := nonce
  method := method
  requestDigest := nonce
  operationNonce := nonce
  receivedAt := receivedAt

/-- The trusted admission of a connect request. -/
def admission (request : SignerRequest) : AdmissionRequest where
  operationId := request.operationId
  clientPublicKey := client
  requestedPermissions := ⟨[.nip44Decrypt], by decide⟩
  policyGeneration := ⟨1, by decide, by decide⟩
  nonce := request.operationNonce
  observedAt := request.receivedAt
  authorizedUntil := none
  policy := .trusted
  relayId := relay
  trusted_limit := by simp

/-- No event is decoded. -/
def codec : EventCodec := ⟨fun _ => none, fun _ => [], fun _ => false⟩

def firstConnect : SignerRequest := request '1' 1 .connect (sampleTime 1000)

def secondConnect : SignerRequest := request '2' 2 .connect (sampleTime 2000)

/-- The client connects. -/
def connects : List Event :=
  [.operation (.admitRequest firstConnect), .operation (.admitConnection (admission firstConnect))]

/-- The client connects again without ending its session. -/
def connectsTwice : List Event :=
  connects ++ [.operation (.admitRequest secondConnect),
    .operation (.admitConnection (admission secondConnect))]

/-- The digests of a connect: of its identity, its operation, its correlation, its connection and
its audit record. -/
structure ConnectDigests where
  (identity operation correlation connection audit : Id32)

/-- The store with the rows of one more trusted connect of the client. -/
def connectedBy (s : Store) (request : SignerRequest) (digests : ConnectDigests) : Store :=
  let permissionsDigest := 0x81ed0145235e8deb55d6a3d4a54ee5d39d83ac642eb4c6ee424d844787bedde3
  let dedup := fun (kind : DedupKind) (identity : Id32) =>
    (⟨kind, identity, request.requestDigest, digests.operation, 0, 0, request.receivedAt,
      request.receivedAt⟩ : DedupRow)
  let window := fun (scope : SubjectScope) (subject : Id32) =>
    (⟨.connectionAdmission, scope, subject, 1000, 2000, s.connections.length + 1, 0,
      s.connections.length + 1, 0, request.receivedAt.get, request.receivedAt.get + 1000⟩ :
        RateWindowRow)
  { s with
    requests := s.requests ++ [⟨digests.operation, digests.correlation, request.operationNonce,
      digests.identity, client, request.requestId, request.eventId, .connect,
      request.requestDigest, request.receivedAt⟩]
    dedup := s.dedup ++ [dedup .request digests.identity, dedup .event request.eventId]
    connections := s.connections ++ [⟨digests.connection, request.operationNonce, client,
      permissionsDigest, ⟨1, by decide, by decide⟩, .active, request.receivedAt,
      request.receivedAt, none⟩]
    permissions := s.permissions ++ [⟨digests.connection, .requested, .nip44Decrypt⟩,
      ⟨digests.connection, .granted, .nip44Decrypt⟩]
    decisions := s.decisions ++ [⟨digests.operation, some digests.connection, .allowed,
      .trustedClient, ⟨1, by decide, by decide⟩, permissionsDigest, none, request.receivedAt⟩]
    nextAuditSequence := s.nextAuditSequence + 1
    audit := s.audit ++ [⟨s.nextAuditSequence + 1, digests.audit, digests.correlation,
      .connectionAdmission, .succeeded, .trusted, request.receivedAt⟩]
    requestAudit := s.requestAudit ++ [⟨digests.operation, .connectionAdmission,
      s.nextAuditSequence + 1⟩]
    rateWindows := [
      window .global 0xbe963f28565142813ee3c1f79d754105664b780c7e7cb3be0ac57c4e7822824f,
      window .relay 0xfb08ddb8fa89497d662ca3a3ff0f61fb498dd5c6897b51c947e444de683437fb] }

def connectedStore : Store :=
  connectedBy (System.initial config 1).store firstConnect
    { identity := 0x633754c1e8b2c61f2751f1899277bbe679fde7406dcde2c6068696d76227acc3
      operation := 0x1b55caf7b5261012be9b2846e38989bcf1e45cbf6be1ab367fd82f55d52b5ecd
      correlation := 0xe7dcd067ee26356fea77ef9605762b9a191cb671084f202a656b343811038133
      connection := 0x269acf82470279e51abdd5a8ca8bbb414e775cc4b90e606f6b2ee225ee7afc38
      audit := 0x327dc645197ebacde3d8f1b6c82a67473bd3e11b59dd1e85148b4f336e9d5d04 }

def twiceConnectedStore : Store :=
  connectedBy connectedStore secondConnect
    { identity := 0xb2beaf756f3b1ba8d04f309ae75b548cdd3cf192d6c35d6e9e9b06fe240518dd
      operation := 0x8e8eef290fcdd780a2060dfd9332678296755ec204df293783d4ee112514b1cd
      correlation := 0x5486c5dd5202b4f14caddcb24ce47a10d0e45be7f4d33141f32f08c3bc699067
      connection := 0xe620d3a0588e4728281198ec6b7f5519d8aee788498e79f8ccc19fff4c0d06e
      audit := 0x4b8eace8d74714d5ffbaf8fa6427780da90972e8915ea1c1d41cd36ce32b9ba3 }

/-- A connect reads neither the codec nor changes the configuration. -/
theorem after_connect (codec codec' : EventCodec) (system : System) (request : SignerRequest)
    (admission : AdmissionRequest) :
    Run.after (System.perform codec') system
        [.operation (.admitRequest request), .operation (.admitConnection admission)] =
      ⟨system.config, (Run.after (System.perform codec) system
        [.operation (.admitRequest request), .operation (.admitConnection admission)]).store⟩ := rfl

theorem connect_evaluates :
    (Run.after (System.perform codec) (.initial config 1)
      [.operation (.admitRequest firstConnect),
        .operation (.admitConnection (admission firstConnect))]).store = connectedStore := by
  decide +kernel

theorem secondConnect_evaluates :
    (Run.after (System.perform codec) ⟨config, connectedStore⟩
      [.operation (.admitRequest secondConnect),
        .operation (.admitConnection (admission secondConnect))]).store = twiceConnectedStore := by
  decide +kernel

/-- The run of the connect, with its digests evaluated. -/
theorem after_connects (codec' : EventCodec) :
    Run.after (System.perform codec') (.initial config 1) connects = ⟨config, connectedStore⟩ := by
  rw [connects, after_connect codec, connect_evaluates]
  rfl

theorem after_connectsTwice (codec' : EventCodec) :
    Run.after (System.perform codec') (.initial config 1) connectsTwice =
      ⟨config, twiceConnectedStore⟩ := by
  rw [connectsTwice, Run.after_append, after_connects, after_connect codec, secondConnect_evaluates]

def thirdConnect : SignerRequest := request '3' 3 .connect (sampleTime 4000)

/-- A third connect of the client is received, but not yet decided. -/
def connectsAgain : List Event := connectsTwice ++ [.operation (.admitRequest thirdConnect)]

/-- The limit of a later configuration. -/
def tightened : RateLimitPolicy :=
  { rateLimit .connectionAdmission with maxAttempts := 1, valid := by decide }

/-- The attempt that the decision of a connect makes under the later limit. -/
def lateAttempt (request : RequestRow) : Tx Bool :=
  governRateAttempt tightened .connectionAdmission [.global, relaySubject relay]
    ⟨request.correlationId, sampleTime 5000, some request.operationId⟩ .connectionAdmission

/-- One evaluation of the run: the sessions of the client, and the late attempt. -/
theorem connectsAgain_evaluates :
    let s := (Run.after (System.perform codec) (.initial config 1) connectsAgain).store
    (s.connections.filter (·.servesAt client (sampleTime 3000))).length = 2 ∧
      (∃ row ∈ s.rateWindows, row.rateKind = .connectionAdmission ∧
        row.subjectScope = RateSubject.global.scope ∧
        row.subjectSha256 = RateSubject.global.digest) ∧
      ∃ request ∈ s.requests,
        (∀ row ∈ s.audit, row.auditId ≠ deriveAuditId request.correlationId .connectionAdmission) ∧
        (∀ row ∈ s.rateWindows, row.windowEndsAt < 5000) ∧
        ((lateAttempt request).run s).toOption.isNone = true := by
  rw [connectsAgain, Run.after_append, after_connectsTwice]
  decide +kernel

end SampleService

open SampleService in
/-- A trusted client that connects twice has two active connections. -/
theorem trusted_client_has_two_sessions :
    ¬ ∀ (codec : EventCodec) (config : Configuration) (appliedAtUnixS : ℕ) (events : List Event)
        (client : PublicKey) (observedAt : TimeUnixMs),
      ((Run.after (System.perform codec) (.initial config appliedAtUnixS)
        events).store.connections.filter (·.servesAt client observedAt)).length ≤ 1 := by
  intro h
  have hone := h codec config 1 connectsAgain client (sampleTime 3000)
  rw [connectsAgain_evaluates.1] at hone
  exact absurd hone (by decide)

open SampleService in
/-- After its first connect the client has one session. -/
theorem lookup_unambiguous_after_connect :
    ((Run.after (System.perform codec) (.initial config 1) connects).store.connections.filter
      (·.servesAt client (sampleTime 3000))).length ≤ 1 := by
  have hsteps : Run.EveryStep (System.perform codec)
      (fun system event => event.activatesAnother system = false) (.initial config 1) connects := by
    decide +kernel
  exact ((lookup_unambiguous_without_second_activation codec config 1 connects client
    (sampleTime 3000)).2 hsteps).1

end MycSigner
