import MycSigner.Dispatch.Coordinator

/-!
# Calls that the store or the runtime ends

A call has few places at which it can fail for another reason than a provider.  They are listed
stage by stage: a transaction that the store refuses, a missing entropy reading, and a value
that cannot be built from what the stages before have produced.  While the wall clock can be read
the list is complete.
-/

namespace MycSigner

open Process

/-- The wall clock can be read, and the deadlines it leads to can be stored. -/
def Environment.ClockWorks (env : Environment) (coordinator : Coordinator) : Prop :=
  ∀ tick, ∃ seconds, env.clock tick = some seconds ∧ 0 < seconds ∧
    seconds * 1000 + coordinator.providerTimeoutMs ≤ i64Max

/-! ## Fatal exits -/

namespace Dispatch

variable {α β : Type} {coordinator : Coordinator} {env : Environment} {world : World}

/-- The process fails from the world, and not with a provider. -/
def Fatal (p : Dispatch α) (world : World) : Prop :=
  ∃ error world', p.run world = (.error (.failed error), world') ∧ error ≠ .provider

/-- The next transaction of a call is refused by the store. -/
def Refused (coordinator : Coordinator) (env : Environment) (body : Tx α) (world : World) : Prop :=
  ∃ error, (body.atomically
    (interfere coordinator (env.others world.tick) world.store)).1 = .error error

theorem fatal_bind {p : Dispatch α} {f : α → Dispatch β} : Fatal (p >>= f) world ↔
    Fatal p world ∨ ∃ a world', p.run world = (.ok a, world') ∧ Fatal (f a) world' := by
  constructor
  · rintro ⟨error, world', hrun, hother⟩
    rcases run_bind_eq_error.mp hrun with hfirst | ⟨a, world₁, hfirst, hsecond⟩
    · exact .inl ⟨error, world', hfirst, hother⟩
    · exact .inr ⟨a, world₁, hfirst, error, world', hsecond, hother⟩
  · rintro (⟨error, world', hfirst, hother⟩ | ⟨a, world₁, hfirst, error, world', hsecond, hother⟩)
    · exact ⟨error, world', run_bind_of_error hfirst, hother⟩
    · exact ⟨error, world', run_bind_eq_error.mpr (.inr ⟨a, world₁, hfirst, hsecond⟩), hother⟩

@[simp] theorem not_fatal_pure (a : α) : ¬ Fatal (pure a) world := by
  rintro ⟨error, world', hrun, -⟩
  simp at hrun

@[simp] theorem not_fatal_ended (disposition : Disposition) :
    ¬ Fatal (Process.exit (.ended disposition) : Dispatch α) world := by
  rintro ⟨error, world', hrun, -⟩
  simp at hrun

@[simp] theorem not_fatal_step (f : World → α × World) : ¬ Fatal (Process.step f) world := by
  rintro ⟨error, world', hrun, -⟩
  simp at hrun

@[simp] theorem not_fatal_orDrop (a : Option α) : ¬ Fatal (orDrop a) world := by
  cases a with
  | some a => exact not_fatal_pure a
  | none => exact not_fatal_ended .dropped

@[simp] theorem not_fatal_orFail_provider (a : Option α) : ¬ Fatal (orFail .provider a) world := by
  cases a with
  | some a => exact not_fatal_pure a
  | none =>
      rintro ⟨error, world', hrun, hother⟩
      simp [orFail] at hrun
      exact hother hrun.1.symm

@[simp] theorem fatal_orFail_runtime {a : Option α} :
    Fatal (orFail .runtime a) world ↔ a = none := by
  cases a with
  | some a => exact iff_of_false (not_fatal_pure a) nofun
  | none => exact iff_of_true ⟨.runtime, world, rfl, nofun⟩ rfl

theorem run_orFail_eq_ok {error : DispatchError} {a : Option α} {b : α} {world world' : World} :
    (orFail error a).run world = (.ok b, world') ↔ a = some b ∧ world = world' :=
  run_orExit_eq_ok

theorem fatal_transaction {body : Tx α} :
    Fatal (transaction coordinator env body) world ↔ Refused coordinator env body world := by
  unfold Fatal Refused transaction
  rw [run_bind_of_ok (run_step _ _)]
  generalize body.atomically (interfere coordinator (env.others world.tick) world.store) = outcome
  obtain ⟨result, store⟩ := outcome
  cases result with
  | ok a => simp
  | error e => simp [fail]

theorem run_wallTimeMillis (h : env.ClockWorks coordinator) (world : World) :
    ∃ millis world', (wallTimeMillis env).run world = (.ok millis, world') ∧ 0 < millis ∧
      millis + coordinator.providerTimeoutMs ≤ i64Max := by
  obtain ⟨seconds, hclock, hpos, hbound⟩ := h world.tick
  refine ⟨seconds * 1000, { world with tick := world.tick + 1 }, ?_, Nat.mul_pos hpos (by decide),
    hbound⟩
  have hle : seconds * 1000 ≤ i64Max := Nat.le_trans (Nat.le_add_right _ _) hbound
  have hmillis : (Option.map (· * 1000) (some seconds)).filter (· ≤ i64Max) =
      some (seconds * 1000) := Option.filter_eq_some_iff.mpr ⟨rfl, decide_eq_true hle⟩
  unfold wallTimeMillis
  rw [run_bind_of_ok (run_step _ _), hclock, hmillis]
  rfl

theorem run_timeNow (h : env.ClockWorks coordinator) (world : World) :
    ∃ time world', (timeNow env).run world = (.ok time, world') := by
  obtain ⟨millis, world', hrun, hpos, hbound⟩ := run_wallTimeMillis h world
  have hle : millis ≤ i64Max := Nat.le_trans (Nat.le_add_right _ _) hbound
  refine ⟨⟨millis, hpos, hle⟩, world', ?_⟩
  unfold timeNow
  rw [run_bind_of_ok hrun, TimeUnixMs.new_of_le hpos hle]
  rfl

theorem run_providerDeadline (h : env.ClockWorks coordinator) (world : World) :
    ∃ time world', (providerDeadline coordinator env).run world = (.ok time, world') := by
  obtain ⟨millis, world', hrun, hpos, hbound⟩ := run_wallTimeMillis h world
  have hsum : 0 < millis + coordinator.providerTimeoutMs := Nat.add_pos_left hpos _
  refine ⟨⟨millis + coordinator.providerTimeoutMs, hsum, hbound⟩, world', ?_⟩
  unfold providerDeadline
  rw [run_bind_of_ok hrun, TimeUnixMs.new_of_le hsum hbound]
  rfl

theorem not_fatal_of_ok {p : Dispatch α} {a : α} {world' : World}
    (h : p.run world = (.ok a, world')) : ¬ Fatal p world := by
  rintro ⟨error, world₁, hrun, -⟩
  rw [h] at hrun
  cases hrun

theorem not_fatal_timeNow (h : env.ClockWorks coordinator) : ¬ Fatal (timeNow env) world := by
  obtain ⟨time, world', hrun⟩ := run_timeNow h world
  exact not_fatal_of_ok hrun

theorem not_fatal_providerDeadline (h : env.ClockWorks coordinator) :
    ¬ Fatal (providerDeadline coordinator env) world := by
  obtain ⟨time, world', hrun⟩ := run_providerDeadline h world
  exact not_fatal_of_ok hrun

theorem not_fatal_execute (h : env.ClockWorks coordinator) (operation : ProviderOperation) :
    ¬ Fatal (execute env operation) world := by
  unfold execute
  simp [fatal_bind, not_fatal_timeNow h]

theorem fatal_entropy : Fatal (entropy env) world ↔ env.entropy world.tick = none := by
  unfold entropy
  simp [fatal_bind]

end Dispatch

/-! ## The stages of a call -/

namespace Coordinator

open Dispatch

/-- The admission of a request fails: the store refuses it, or the lookup of its response. -/
inductive AdmissionFails (coordinator : Coordinator) (env : Environment)
    (prepared : PreparedRequest) (world : World) : Prop where
  | admission :
      Refused coordinator env (admitSignerRequest coordinator.config prepared.signerRequest) world →
      AdmissionFails coordinator env prepared world
  | response {record : RequestRecord} {admission : RequestAdmission} {world₁ : World} :
      (transaction coordinator env
        (admitSignerRequest coordinator.config prepared.signerRequest)).run world =
          (.ok admission, world₁) →
      admission = .admitted record ∨ admission = .exactReplay record →
      Refused coordinator env (withBinding coordinator.config
        (Transaction.query (readResponseByOperation coordinator.codec · record.operationId))) world₁ →
      AdmissionFails coordinator env prepared world

/-- The lookup of the session of a request is refused, as it is for a client with several. -/
def SessionFails (coordinator : Coordinator) (env : Environment) (method : Method)
    (client : PublicKey) (receivedAt : TimeUnixMs) (world : World) : Prop :=
  method ≠ .connect ∧ Refused coordinator env (withBinding coordinator.config
    (Transaction.query (readActiveConnectionForClient · client receivedAt))) world

/-- No connection request is built: the limit of a trusted session cannot be stored, the policy
header is not read, entropy fails, or the request is invalid. -/
inductive ConnectionRequestFails (coordinator : Coordinator) (env : Environment) (work : Work)
    (relayId : RelayId) (observedAt : TimeUnixMs) (world : World) : Prop where
  | limit {challenge : ChallengePolicy} :
      coordinator.admissionPolicy work.request.clientPublicKey = .trusted →
      coordinator.config.connection.challenge = some challenge →
      TimeUnixMs.new (observedAt.get + challenge.authorizedLifetimeMs) = none →
      ConnectionRequestFails coordinator env work relayId observedAt world
  | header {limit : Option TimeUnixMs} :
      (coordinator.trustedLimit (coordinator.admissionPolicy work.request.clientPublicKey)
        observedAt).run world = (.ok limit, world) →
      Refused coordinator env readLatestHeader world →
      ConnectionRequestFails coordinator env work relayId observedAt world
  | nonce {limit : Option TimeUnixMs} {latest : ConfigBindingRow} {world₁ : World} :
      (coordinator.trustedLimit (coordinator.admissionPolicy work.request.clientPublicKey)
        observedAt).run world = (.ok limit, world) →
      (transaction coordinator env readLatestHeader).run world = (.ok latest, world₁) →
      env.entropy world₁.tick = none →
      ConnectionRequestFails coordinator env work relayId observedAt world
  | request {limit : Option TimeUnixMs} {latest : ConfigBindingRow} {world₁ : World}
      {nonce : Id32} :
      (coordinator.trustedLimit (coordinator.admissionPolicy work.request.clientPublicKey)
        observedAt).run world = (.ok limit, world) →
      (transaction coordinator env readLatestHeader).run world = (.ok latest, world₁) →
      env.entropy world₁.tick = some nonce →
      connectionAdmissionRequest work latest.generation nonce observedAt limit
        (coordinator.admissionPolicy work.request.clientPublicKey) relayId = none →
      ConnectionRequestFails coordinator env work relayId observedAt world

/-- No response is signed: it has no envelope, or is too long to be encrypted or signed. -/
inductive SigningFails (coordinator : Coordinator) (env : Environment) (work : Work)
    (response : Response) (committedAt : TimeUnixMs) (world : World) : Prop where
  | envelope : coordinator.protocol.envelope work.request.requestId response = none →
      SigningFails coordinator env work response committedAt world
  | encryption {plaintext : Bytes} :
      coordinator.protocol.envelope work.request.requestId response = some plaintext →
      work.encryptInput plaintext = none →
      SigningFails coordinator env work response committedAt world
  | signature {plaintext ciphertext : Bytes} {world₁ : World} :
      coordinator.protocol.envelope work.request.requestId response = some plaintext →
      (coordinator.encryptResponse env work plaintext).run world = (.ok ciphertext, world₁) →
      coordinator.protocol.isText ciphertext = true →
      ProviderInput.newSignEvent (coordinator.protocol.unsignedResponse
        coordinator.config.metadata.transportPublicKey work.request.clientPublicKey
        (committedAt.get / 1000) ciphertext) = none →
      SigningFails coordinator env work response committedAt world

/-- The answer to a pending connect fails: it has no response, the response is not signed or makes
no commit, or the store refuses the commit. -/
inductive PendingFails (coordinator : Coordinator) (env : Environment) (work : Work)
    (decision : DecisionRecord) (world : World) : Prop where
  | response : coordinator.protocolResponse work (some decision) none = none →
      PendingFails coordinator env work decision world
  | signing {response : Response} {committedAt : TimeUnixMs} {world₁ : World} :
      coordinator.protocolResponse work (some decision) none = some response →
      (timeNow env).run world = (.ok committedAt, world₁) →
      SigningFails coordinator env work response committedAt world₁ →
      PendingFails coordinator env work decision world
  | request {response : Response} {committedAt : TimeUnixMs} {signed : SignedResponse}
      {world₁ world₂ : World} :
      coordinator.protocolResponse work (some decision) none = some response →
      (timeNow env).run world = (.ok committedAt, world₁) →
      (coordinator.signedProtocolResponse env work response committedAt).run world₁ =
        (.ok signed, world₂) →
      PendingResponseCommitRequest.new coordinator.codec work decision signed committedAt = none →
      PendingFails coordinator env work decision world
  | commit {response : Response} {committedAt : TimeUnixMs} {signed : SignedResponse}
      {world₁ world₂ : World} {commit : PendingResponseCommitRequest} :
      coordinator.protocolResponse work (some decision) none = some response →
      (timeNow env).run world = (.ok committedAt, world₁) →
      (coordinator.signedProtocolResponse env work response committedAt).run world₁ =
        (.ok signed, world₂) →
      PendingResponseCommitRequest.new coordinator.codec work decision signed committedAt =
        some commit →
      Refused coordinator env
        (commitNip46PendingResponse coordinator.codec coordinator.config commit) world₂ →
      PendingFails coordinator env work decision world

/-- What a completion has before its response is signed: the result of its provider operation, its
instant, and the world it has reached. -/
structure Executed (env : Environment) (work : Work) (world : World) where
  response : Option VerifiedResponse
  executing : World
  executes : (executeWork env work).run world = (.ok response, executing)
  completedAt : TimeUnixMs
  reached : World
  completes : (timeNow env).run executing = (.ok completedAt, reached)

/-- A completion fails after the execution of its work: it is invalid or has no response, the
response is not signed or makes no commit, or the store refuses the commit. -/
inductive CompletionFails (coordinator : Coordinator) (env : Environment) (work : Work)
    (decision : Option DecisionRecord) (world : World) : Prop where
  | completion (executed : Executed env work world) :
      CommitRequest.new work decision executed.response executed.completedAt = none →
      CompletionFails coordinator env work decision world
  | response (executed : Executed env work world) :
      coordinator.protocolResponse work decision executed.response = none →
      CompletionFails coordinator env work decision world
  | signing (executed : Executed env work world) {response : Response} :
      coordinator.protocolResponse work decision executed.response = some response →
      SigningFails coordinator env work response executed.completedAt executed.reached →
      CompletionFails coordinator env work decision world
  | request (executed : Executed env work world) {response : Response} {completion : CommitRequest}
      {signed : SignedResponse} {world₁ : World} :
      CommitRequest.new work decision executed.response executed.completedAt = some completion →
      coordinator.protocolResponse work decision executed.response = some response →
      (coordinator.signedProtocolResponse env work response executed.completedAt).run
        executed.reached = (.ok signed, world₁) →
      ResponseCommitRequest.new coordinator.codec completion signed executed.completedAt = none →
      CompletionFails coordinator env work decision world
  | commit (executed : Executed env work world) {response : Response} {completion : CommitRequest}
      {signed : SignedResponse} {world₁ : World} {commit : ResponseCommitRequest} :
      CommitRequest.new work decision executed.response executed.completedAt = some completion →
      coordinator.protocolResponse work decision executed.response = some response →
      (coordinator.signedProtocolResponse env work response executed.completedAt).run
        executed.reached = (.ok signed, world₁) →
      ResponseCommitRequest.new coordinator.codec completion signed executed.completedAt =
        some commit →
      Refused coordinator env (commitNip46Response coordinator.codec coordinator.config commit)
        world₁ →
      CompletionFails coordinator env work decision world

/-- A prepared connect fails in its admission or in what follows its decision, and all other work
in its completion. -/
inductive DecisionFails (coordinator : Coordinator) (env : Environment) (work : Work)
    (relayId : RelayId) (receivedAt : TimeUnixMs) (world : World) : Prop where
  | request {client : PublicKey} {permissions : PermissionSet} :
      work.payload = .connect client permissions →
      ConnectionRequestFails coordinator env work relayId receivedAt world →
      DecisionFails coordinator env work relayId receivedAt world
  | admission {client : PublicKey} {permissions : PermissionSet} {request : AdmissionRequest}
      {world₁ : World} :
      work.payload = .connect client permissions →
      (coordinator.connectionRequest env work relayId receivedAt).run world =
        (.ok request, world₁) →
      Refused coordinator env (admitConnection coordinator.config request) world₁ →
      DecisionFails coordinator env work relayId receivedAt world
  | decided {client : PublicKey} {permissions : PermissionSet} {request : AdmissionRequest}
      {admission : ConnectionAdmission} {decision : DecisionRecord} {world₁ world₂ : World} :
      work.payload = .connect client permissions →
      (coordinator.connectionRequest env work relayId receivedAt).run world =
        (.ok request, world₁) →
      (transaction coordinator env (admitConnection coordinator.config request)).run world₁ =
        (.ok admission, world₂) →
      admission.record = some decision →
      (decision.decision = .pendingApproval ∧ PendingFails coordinator env work decision world₂) ∨
        ((decision.decision = .allowed ∨ decision.decision = .denied) ∧
          CompletionFails coordinator env work (some decision) world₂) →
      DecisionFails coordinator env work relayId receivedAt world
  | completion :
      (∀ client permissions, work.payload ≠ .connect client permissions) →
      CompletionFails coordinator env work none world →
      DecisionFails coordinator env work relayId receivedAt world

/-- A call meets a failure of the store or the runtime at one of its stages. -/
inductive MeetsFailure (coordinator : Coordinator) (env : Environment) (item : Item)
    (evidence : Evidence) (world : World) : Prop where
  | admission {prepared : PreparedRequest} {world₁ : World} :
      (coordinator.decryptRequest env item evidence).run world = (.ok prepared, world₁) →
      AdmissionFails coordinator env prepared world₁ →
      MeetsFailure coordinator env item evidence world
  | session {prepared : PreparedRequest} {record : RequestRecord} {world₁ world₂ : World} :
      (coordinator.decryptRequest env item evidence).run world = (.ok prepared, world₁) →
      (coordinator.admitRequest env prepared).run world₁ = (.ok record, world₂) →
      SessionFails coordinator env prepared.signerRequest.method record.clientPublicKey
        evidence.receivedAt world₂ →
      MeetsFailure coordinator env item evidence world
  | decision {work : Work} {world₁ : World} :
      (coordinator.prepareItem env item evidence).run world = (.ok work, world₁) →
      DecisionFails coordinator env work item.relayId evidence.receivedAt world₁ →
      MeetsFailure coordinator env item evidence world

/-! ## The list is complete -/

variable {coordinator : Coordinator} {env : Environment} {world : World}

theorem fatal_admitRequest_iff {prepared : PreparedRequest} :
    Fatal (coordinator.admitRequest env prepared) world ↔
      AdmissionFails coordinator env prepared world := by
  unfold admitRequest
  rw [fatal_bind, fatal_transaction]
  constructor
  · rintro (hrefused | ⟨admission, world₁, hrun, hfatal⟩)
    · exact .admission hrefused
    · cases admission with
      | conflictingReuse record => exact absurd hfatal (not_fatal_ended _)
      | admitted record | exactReplay record =>
          rcases fatal_bind.mp hfatal with hrefused | ⟨response, world₂, -, hend⟩
          · exact .response hrun (by simp) (fatal_transaction.mp hrefused)
          · cases response with
            | some _ => exact absurd hend (not_fatal_ended _)
            | none => exact absurd hend (not_fatal_pure _)
  · rintro (hrefused | ⟨hrun, hrecord, hrefused⟩)
    · exact .inl hrefused
    · refine .inr ⟨_, _, hrun, ?_⟩
      rcases hrecord with rfl | rfl <;>
        exact fatal_bind.mpr (.inl (fatal_transaction.mpr hrefused))

theorem fatal_bindWork_iff (hclock : env.ClockWorks coordinator) {prepared : PreparedRequest}
    {record : RequestRecord} {receivedAt : TimeUnixMs} :
    Fatal (coordinator.bindWork env prepared record receivedAt) world ↔
      SessionFails coordinator env prepared.signerRequest.method record.clientPublicKey receivedAt
        world := by
  have hdeadline : ∀ method world, ¬ Fatal (coordinator.methodDeadline env method) world := by
    intro method world
    unfold methodDeadline
    split
    next => simp [fatal_bind, not_fatal_providerDeadline hclock]
    next => exact not_fatal_pure none
  unfold bindWork readSession SessionFails
  simp only [fatal_bind, hdeadline, not_fatal_orDrop, and_false, exists_false, or_false]
  split
  next hconnect => exact iff_of_false (not_fatal_pure none) fun h => h.1 hconnect
  next hother => rw [fatal_transaction, and_iff_right hother]

theorem fatal_trustedLimit_iff {policy : AdmissionPolicy} {observedAt : TimeUnixMs} :
    Fatal (coordinator.trustedLimit policy observedAt) world ↔
      policy = .trusted ∧ ∃ challenge, coordinator.config.connection.challenge = some challenge ∧
        TimeUnixMs.new (observedAt.get + challenge.authorizedLifetimeMs) = none := by
  unfold trustedLimit
  split
  next challenge hchallenge => simp [fatal_bind, hchallenge]
  next hother =>
    refine iff_of_false (not_fatal_pure none) ?_
    rintro ⟨rfl, challenge, hchallenge, -⟩
    exact hother challenge rfl hchallenge

/-- The limit of a trusted session is computed without an effect. -/
theorem run_trustedLimit_world {policy : AdmissionPolicy} {observedAt : TimeUnixMs}
    {limit : Option TimeUnixMs} {world' : World}
    (h : (coordinator.trustedLimit policy observedAt).run world = (.ok limit, world')) :
    world' = world := by
  unfold trustedLimit at h
  split at h
  next =>
    obtain ⟨bound, world₁, hbound, hrun⟩ := run_bind_eq_ok.mp h
    obtain ⟨-, rfl⟩ := run_orFail_eq_ok.mp hbound
    simp only [run_pure, Prod.mk.injEq] at hrun
    exact hrun.2.symm
  next =>
    simp only [run_pure, Prod.mk.injEq] at h
    exact h.2.symm

theorem run_entropy_eq_ok {nonce : Id32} {world' : World} :
    (entropy env).run world = (.ok nonce, world') ↔
      env.entropy world.tick = some nonce ∧ { world with tick := world.tick + 1 } = world' := by
  unfold entropy
  rw [run_bind_of_ok (run_step _ _)]
  exact run_orFail_eq_ok

theorem fatal_connectionRequest_iff {work : Work} {relayId : RelayId} {observedAt : TimeUnixMs} :
    Fatal (coordinator.connectionRequest env work relayId observedAt) world ↔
      ConnectionRequestFails coordinator env work relayId observedAt world := by
  unfold connectionRequest
  simp only [fatal_bind, fatal_trustedLimit_iff, fatal_transaction, fatal_entropy,
    fatal_orFail_runtime, run_entropy_eq_ok]
  constructor
  · rintro (⟨hpolicy, challenge, hchallenge, hlimit⟩ | ⟨limit, world₁, hlimit, hnext⟩)
    · exact .limit hpolicy hchallenge hlimit
    obtain rfl := run_trustedLimit_world hlimit
    rcases hnext with hheader | ⟨latest, world₂, hlatest, hnonce | ⟨nonce, world₃, hnonce, hnone⟩⟩
    · exact .header hlimit hheader
    · exact .nonce hlimit hlatest hnonce
    · exact .request hlimit hlatest hnonce.1 hnone
  · rintro (⟨hpolicy, hchallenge, hlimit⟩ | ⟨hlimit, hheader⟩ | ⟨hlimit, hlatest, hnonce⟩ |
      ⟨hlimit, hlatest, hnonce, hnone⟩)
    · exact .inl ⟨hpolicy, _, hchallenge, hlimit⟩
    · exact .inr ⟨_, _, hlimit, .inl hheader⟩
    · exact .inr ⟨_, _, hlimit, .inr ⟨_, _, hlatest, .inl hnonce⟩⟩
    · exact .inr ⟨_, _, hlimit, .inr ⟨_, _, hlatest, .inr ⟨_, _, ⟨hnonce, rfl⟩, hnone⟩⟩⟩

theorem fatal_signedProtocolResponse_iff (hclock : env.ClockWorks coordinator) {work : Work}
    {response : Response} {committedAt : TimeUnixMs} :
    Fatal (coordinator.signedProtocolResponse env work response committedAt) world ↔
      SigningFails coordinator env work response committedAt world := by
  have hencrypt : ∀ plaintext world,
      Fatal (coordinator.encryptResponse env work plaintext) world ↔
        work.encryptInput plaintext = none := by
    intro plaintext world
    unfold encryptResponse
    simp [fatal_bind, not_fatal_providerDeadline hclock, not_fatal_execute hclock]
  have hsign : ∀ ciphertext world,
      Fatal (coordinator.signResponse env work ciphertext committedAt) world ↔
        coordinator.protocol.isText ciphertext = true ∧
          ProviderInput.newSignEvent (coordinator.protocol.unsignedResponse
            coordinator.config.metadata.transportPublicKey work.request.clientPublicKey
            (committedAt.get / 1000) ciphertext) = none := by
    intro ciphertext world
    unfold signResponse
    simp only [fatal_bind, not_fatal_orFail_provider, fatal_orFail_runtime, run_orFail_eq_ok,
      not_fatal_providerDeadline hclock, not_fatal_execute hclock, not_fatal_pure, and_false,
      exists_false, or_false, false_or]
    cases coordinator.protocol.isText ciphertext <;> simp
  unfold signedProtocolResponse
  simp only [fatal_bind, fatal_orFail_runtime, run_orFail_eq_ok, hencrypt, hsign]
  constructor
  · rintro (hnone | ⟨plaintext, _, ⟨hplaintext, rfl⟩, hencryption |
      ⟨ciphertext, world₁, hrun, htext, hnone⟩⟩)
    · exact .envelope hnone
    · exact .encryption hplaintext hencryption
    · exact .signature hplaintext hrun htext hnone
  · rintro (hnone | ⟨hplaintext, hencryption⟩ | ⟨hplaintext, hrun, htext, hnone⟩)
    · exact .inl hnone
    · exact .inr ⟨_, _, ⟨hplaintext, rfl⟩, .inl hencryption⟩
    · exact .inr ⟨_, _, ⟨hplaintext, rfl⟩, .inr ⟨_, _, hrun, htext, hnone⟩⟩

theorem fatal_answerPending_iff (hclock : env.ClockWorks coordinator) {work : Work}
    {decision : DecisionRecord} :
    Fatal (coordinator.answerPending env work decision) world ↔
      PendingFails coordinator env work decision world := by
  obtain ⟨time, reached, htime⟩ := run_timeNow hclock world
  unfold answerPending
  simp only [fatal_bind, not_fatal_timeNow hclock, fatal_orFail_runtime, run_orFail_eq_ok,
    fatal_signedProtocolResponse_iff hclock, fatal_transaction, not_fatal_pure, and_false,
    exists_false, or_false, false_or]
  constructor
  · rintro ⟨committedAt, world₁, hcommitted, hnone | ⟨response, _, ⟨hresponse, rfl⟩, hsigning |
      ⟨signed, world₂, hsigned, hnone | ⟨commit, _, ⟨hcommit, rfl⟩, hrefused⟩⟩⟩⟩
    · exact .response hnone
    · exact .signing hresponse hcommitted hsigning
    · exact .request hresponse hcommitted hsigned hnone
    · exact .commit hresponse hcommitted hsigned hcommit hrefused
  · rintro (hnone | ⟨hresponse, hcommitted, hsigning⟩ | ⟨hresponse, hcommitted, hsigned, hnone⟩ |
      ⟨hresponse, hcommitted, hsigned, hcommit, hrefused⟩)
    · exact ⟨_, _, htime, .inl hnone⟩
    · exact ⟨_, _, hcommitted, .inr ⟨_, _, ⟨hresponse, rfl⟩, .inl hsigning⟩⟩
    · exact ⟨_, _, hcommitted, .inr ⟨_, _, ⟨hresponse, rfl⟩, .inr ⟨_, _, hsigned, .inl hnone⟩⟩⟩
    · exact ⟨_, _, hcommitted, .inr ⟨_, _, ⟨hresponse, rfl⟩, .inr ⟨_, _, hsigned,
        .inr ⟨_, _, ⟨hcommit, rfl⟩, hrefused⟩⟩⟩⟩

theorem not_fatal_executeWork (hclock : env.ClockWorks coordinator) (work : Work) :
    ¬ Fatal (executeWork env work) world := by
  unfold executeWork
  split
  next operation _ => simp [fatal_bind, not_fatal_execute hclock]
  next => exact not_fatal_pure none

theorem fatal_complete_iff (hclock : env.ClockWorks coordinator) {work : Work}
    {decision : Option DecisionRecord} :
    Fatal (coordinator.complete env work decision) world ↔
      CompletionFails coordinator env work decision world := by
  unfold complete
  simp only [fatal_bind, not_fatal_executeWork hclock, not_fatal_timeNow hclock,
    fatal_orFail_runtime, run_orFail_eq_ok, fatal_signedProtocolResponse_iff hclock,
    fatal_transaction, not_fatal_pure, and_false, exists_false, or_false, false_or]
  constructor
  · rintro ⟨response, executing, hexecutes, completedAt, reached, hcompletes, hnext⟩
    let executed : Executed env work world :=
      ⟨response, executing, hexecutes, completedAt, reached, hcompletes⟩
    rcases hnext with hnone | ⟨completion, _, ⟨hcompletion, rfl⟩, hnone |
      ⟨answer, _, ⟨hanswer, rfl⟩, hsigning | ⟨signed, world₁, hsigned, hnone |
        ⟨commit, _, ⟨hcommit, rfl⟩, hrefused⟩⟩⟩⟩
    · exact .completion executed hnone
    · exact .response executed hnone
    · exact .signing executed hanswer hsigning
    · exact .request executed hcompletion hanswer hsigned hnone
    · exact .commit executed hcompletion hanswer hsigned hcommit hrefused
  · intro hfails
    cases hfails with
    | completion executed hnone =>
        exact ⟨_, _, executed.executes, _, _, executed.completes, .inl hnone⟩
    | response executed hnone =>
        refine ⟨_, _, executed.executes, _, _, executed.completes, ?_⟩
        cases hcompletion :
            CommitRequest.new work decision executed.response executed.completedAt with
        | none => exact .inl rfl
        | some completion => exact .inr ⟨completion, _, ⟨rfl, rfl⟩, .inl hnone⟩
    | signing executed hanswer hsigning =>
        refine ⟨_, _, executed.executes, _, _, executed.completes, ?_⟩
        cases hcompletion :
            CommitRequest.new work decision executed.response executed.completedAt with
        | none => exact .inl rfl
        | some completion =>
            exact .inr ⟨completion, _, ⟨rfl, rfl⟩, .inr ⟨_, _, ⟨hanswer, rfl⟩, .inl hsigning⟩⟩
    | request executed hcompletion hanswer hsigned hnone =>
        exact ⟨_, _, executed.executes, _, _, executed.completes, .inr ⟨_, _, ⟨hcompletion, rfl⟩,
          .inr ⟨_, _, ⟨hanswer, rfl⟩, .inr ⟨_, _, hsigned, .inl hnone⟩⟩⟩⟩
    | commit executed hcompletion hanswer hsigned hcommit hrefused =>
        exact ⟨_, _, executed.executes, _, _, executed.completes, .inr ⟨_, _, ⟨hcompletion, rfl⟩,
          .inr ⟨_, _, ⟨hanswer, rfl⟩, .inr ⟨_, _, hsigned, .inr ⟨_, _, ⟨hcommit, rfl⟩, hrefused⟩⟩⟩⟩⟩

theorem fatal_decideAndComplete_iff (hclock : env.ClockWorks coordinator) {work : Work}
    {relayId : RelayId} {receivedAt : TimeUnixMs} :
    Fatal (coordinator.decideAndComplete env work relayId receivedAt) world ↔
      DecisionFails coordinator env work relayId receivedAt world := by
  unfold decideAndComplete
  split
  next client permissions hpayload =>
    simp only [fatal_bind, fatal_connectionRequest_iff, fatal_transaction, not_fatal_orDrop,
      false_or]
    constructor
    · rintro (hrequest | ⟨request, world₁, hrequest, hrefused | ⟨admission, world₂, hadmission,
        decision, world₃, hdecision, hfatal⟩⟩)
      · exact .request hpayload hrequest
      · exact .admission hpayload hrequest hrefused
      · obtain ⟨hrecord, rfl⟩ := run_orExit_eq_ok.mp hdecision
        refine .decided hpayload hrequest hadmission hrecord ?_
        split at hfatal
        next hkind => exact .inl ⟨hkind, (fatal_answerPending_iff hclock).mp hfatal⟩
        next => exact absurd hfatal (not_fatal_pure _)
        next hkind => exact .inr ⟨.inl hkind, (fatal_complete_iff hclock).mp hfatal⟩
        next hkind => exact .inr ⟨.inr hkind, (fatal_complete_iff hclock).mp hfatal⟩
    · intro hfails
      cases hfails with
      | request _ hrequest => exact .inl hrequest
      | admission _ hrequest hrefused => exact .inr ⟨_, _, hrequest, .inl hrefused⟩
      | decided _ hrequest hadmission hrecord hnext =>
          refine .inr ⟨_, _, hrequest, .inr ⟨_, _, hadmission, _, _,
            run_orExit_eq_ok.mpr ⟨hrecord, rfl⟩, ?_⟩⟩
          rcases hnext with ⟨hkind, hpending⟩ | ⟨hkind | hkind, hcompletion⟩
          · rw [hkind]
            exact (fatal_answerPending_iff hclock).mpr hpending
          · rw [hkind]
            exact (fatal_complete_iff hclock).mpr hcompletion
          · rw [hkind]
            exact (fatal_complete_iff hclock).mpr hcompletion
      | completion hother _ => exact absurd hpayload (hother client permissions)
  all_goals
    next hpayload =>
    rw [fatal_complete_iff hclock]
    constructor
    · exact .completion (by simp [hpayload])
    · intro hfails
      cases hfails with
      | completion _ hcompletion => exact hcompletion
      | request hconnect _ | admission hconnect _ _ | decided hconnect _ _ _ _ =>
          rw [hpayload] at hconnect
          cases hconnect

theorem not_fatal_decryptRequest (hclock : env.ClockWorks coordinator) (item : Item)
    (evidence : Evidence) : ¬ Fatal (coordinator.decryptRequest env item evidence) world := by
  unfold decryptRequest
  simp [fatal_bind, not_fatal_providerDeadline hclock, not_fatal_execute hclock]

/-- A call ends with a failure of the store or the runtime exactly when it meets one. -/
theorem fatal_processBody_iff (hclock : env.ClockWorks coordinator) {item : Item}
    {evidence : Evidence} : Fatal (coordinator.processBody env item evidence) world ↔
      MeetsFailure coordinator env item evidence world := by
  unfold processBody
  rw [fatal_bind]
  unfold prepareItem
  simp only [fatal_bind, not_fatal_decryptRequest hclock, fatal_admitRequest_iff,
    fatal_bindWork_iff hclock, fatal_decideAndComplete_iff hclock, false_or]
  constructor
  · rintro (⟨prepared, world₁, hprepared, hadmission | ⟨record, world₂, hrecord, hsession⟩⟩ |
      ⟨work, world₁, hwork, hdecision⟩)
    · exact .admission hprepared hadmission
    · exact .session hprepared hrecord hsession
    · exact .decision hwork hdecision
  · rintro (⟨hprepared, hadmission⟩ | ⟨hprepared, hrecord, hsession⟩ | ⟨hwork, hdecision⟩)
    · exact .inl ⟨_, _, hprepared, .inl hadmission⟩
    · exact .inl ⟨_, _, hprepared, .inr ⟨_, _, hrecord, hsession⟩⟩
    · exact .inr ⟨_, _, hwork, hdecision⟩

/-- A call ends with another error than a provider failure exactly when it meets a failure. -/
theorem process_stops_iff (hclock : env.ClockWorks coordinator) {item : Item}
    {evidence : Evidence} :
    (∃ error, error ≠ .provider ∧
        (coordinator.process env item evidence world).1 = .error error) ↔
      MeetsFailure coordinator env item evidence world := by
  rw [← fatal_processBody_iff hclock]
  unfold process Fatal
  match (coordinator.processBody env item evidence).run world with
  | (.ok disposition, world') => simp
  | (.error (.ended disposition), world') => simp
  | (.error (.failed error), world') => simp

end Coordinator

end MycSigner
