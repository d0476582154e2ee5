import MycSigner.Dispatch.Failures
import MycSigner.Sessions.Revocation

/-!
# Requests that a provider refuses

A provider may be unreachable, or it may refuse an operation for what it contains.  Both end a
call with the same failure, and the dispatch loop repeats an item for as long as a call fails
so.  When refusals depend on the content alone, a call fails so exactly when the decryption
of its event, or the operation of its prepared work, is refused; the refused decryption is
then repeated for ever.  A call that meets neither a refusal nor a failure of the store or the
runtime succeeds.
-/

namespace MycSigner

open Process

/-- The inputs that the transport provider encrypts and signs responses from. -/
inductive Coordinator.Answers (coordinator : Coordinator) : ProviderInput → Prop where
  | encrypt {work : Work} {requestId : RequestId} {response : Response} {plaintext : Bytes}
      {input : ProviderInput} :
      coordinator.protocol.envelope requestId response = some plaintext →
      work.encryptInput plaintext = some input → coordinator.Answers input
  | sign {client : PublicKey} {authoredAtUnixS : ℕ} {content : Bytes} {input : ProviderInput} :
      coordinator.protocol.isText content = true →
      ProviderInput.newSignEvent (coordinator.protocol.unsignedResponse
        coordinator.config.metadata.transportPublicKey client authoredAtUnixS content) = some input →
      coordinator.Answers input

/-- Both providers are available, and what they accept depends on the content alone. -/
structure Environment.AcceptsBy (env : Environment) (coordinator : Coordinator)
    (accepts : ProviderRole → ProviderInput → Bool) : Prop where
  content : ∀ tick operation observedAt,
    (env.providers tick operation observedAt).isSome = accepts operation.role operation.input
  /-- A verified ciphertext is a text. -/
  ciphertext : ∀ tick operation observedAt result (work : Work) plaintext,
    env.providers tick operation observedAt = some result →
    work.encryptInput plaintext = some operation.input →
    ∃ bytes, result = .protectedPayload bytes ∧ coordinator.protocol.isText bytes = true
  /-- The transport provider encrypts and signs the responses of this program. -/
  answers : ∀ input, coordinator.Answers input → accepts .transport input = true

/-- The transport provider refuses to decrypt the event of the item. -/
def Coordinator.decryptionRefused (coordinator : Coordinator)
    (accepts : ProviderRole → ProviderInput → Bool) (item : Coordinator.Item) : Prop :=
  ∃ event input,
    coordinator.protocol.verifyEvent item.rawEvent (item.observedAtUnixMs / 1000) = some event ∧
    coordinator.config.metadata.transportPublicKey = event.receiverPublicKey ∧
    event.decryptInput = some input ∧ accepts .transport input = false

/-- The work has a provider operation that is refused. -/
def Work.refused (accepts : ProviderRole → ProviderInput → Bool) (work : Work) : Prop :=
  ∃ operation, work.providerOperation = some operation ∧
    accepts operation.role operation.input = false

/-! ## Effects -/

namespace Dispatch

variable {α : Type} {coordinator : Coordinator} {env : Environment}

theorem avoids_orFail {error : DispatchError} (h : error ≠ .provider) (a : Option α) :
    Avoids (.failed .provider) (orFail error a) :=
  .orExit (by simp [h]) a

theorem avoids_orDrop (a : Option α) : Avoids (.failed .provider) (orDrop a) :=
  .orExit (by simp) a

theorem run_orDrop_some (a : α) (world : World) : (orDrop (some a)).run world = (.ok a, world) := rfl

theorem avoids_transaction (body : Tx α) :
    Avoids (.failed .provider) (transaction coordinator env body) := by
  refine .bind (.step _) fun result => ?_
  cases result with
  | ok a => exact .pure a
  | error e => exact .exit (by simp)

theorem avoids_wallTimeMillis : Avoids (.failed .provider) (wallTimeMillis env) :=
  .bind (.step _) fun _ => avoids_orFail (by simp) _

theorem avoids_timeNow : Avoids (.failed .provider) (timeNow env) :=
  .bind avoids_wallTimeMillis fun _ => avoids_orFail (by simp) _

theorem avoids_providerDeadline : Avoids (.failed .provider) (providerDeadline coordinator env) :=
  .bind avoids_wallTimeMillis fun _ => avoids_orFail (by simp) _

theorem avoids_entropy : Avoids (.failed .provider) (entropy env) :=
  .bind (.step _) fun _ => avoids_orFail (by simp) _

variable {accepts : ProviderRole → ProviderInput → Bool} {operation : ProviderOperation}

/-- A refused operation ends the call with a provider failure. -/
theorem execute_of_refused (hclock : env.ClockWorks coordinator)
    (haccepts : env.AcceptsBy coordinator accepts)
    (h : accepts operation.role operation.input = false) (world : World) :
    ∃ world', (execute env operation).run world = (.error (.failed .provider), world') := by
  obtain ⟨time, world₁, htime⟩ := run_timeNow hclock world
  have hnone : env.providers world₁.tick operation time = none := by
    have hcontent := haccepts.content world₁.tick operation time
    rw [h] at hcontent
    simpa using hcontent
  refine ⟨{ world₁ with tick := world₁.tick + 1 }, ?_⟩
  unfold execute
  rw [run_bind_of_ok htime, run_bind_of_ok (run_step _ _), hnone]
  exact run_bind_of_error (run_orExit_none _ _)

theorem avoids_execute (haccepts : env.AcceptsBy coordinator accepts)
    (h : accepts operation.role operation.input = true) :
    Avoids (.failed .provider) (execute env operation) := by
  refine .bind avoids_timeNow fun time => .bind_of (.step _) fun world result world' hstep => ?_
  have hsome : result.isSome = true := by
    simp only [run_step, Prod.mk.injEq, Except.ok.injEq] at hstep
    rw [← hstep.1, haccepts.content, h]
  obtain ⟨result, rfl⟩ := Option.isSome_iff_exists.mp hsome
  exact .bind (.pure result) fun _ => .pure _

/-- What the execution of an operation returns came from a provider. -/
theorem run_execute_eq_ok {response : VerifiedResponse} {world world' : World}
    (h : (execute env operation).run world = (.ok response, world')) :
    response.operation = operation ∧
      ∃ tick observedAt, env.providers tick operation observedAt = some response.result := by
  unfold execute at h
  obtain ⟨time, world₁, -, h⟩ := run_bind_eq_ok.mp h
  rw [run_bind_of_ok (run_step _ _)] at h
  obtain ⟨result, world₂, hresult, h⟩ := run_bind_eq_ok.mp h
  match hprovider : env.providers world₁.tick operation time with
  | none =>
      rw [hprovider] at hresult
      simp [orFail] at hresult
  | some found =>
      rw [hprovider] at hresult
      simp only [orFail, run_orExit_some, Prod.mk.injEq, Except.ok.injEq] at hresult
      simp only [run_pure, Prod.mk.injEq, Except.ok.injEq] at h
      obtain ⟨rfl, -⟩ := hresult
      obtain ⟨rfl, -⟩ := h
      exact ⟨rfl, world₁.tick, time, hprovider⟩

end Dispatch

/-! ## Stages -/

namespace Coordinator

variable {coordinator : Coordinator} {env : Environment}
  {accepts : ProviderRole → ProviderInput → Bool}

theorem encryptInput_ne_signEvent {work : Work} {plaintext : Bytes} {input : ProviderInput}
    (h : work.encryptInput plaintext = some input) (unsigned : Bytes) :
    input ≠ .signEvent unsigned := by
  unfold Work.encryptInput at h
  split at h
  next =>
    obtain ⟨bytes, -, rfl⟩ := Option.map_eq_some_iff.mp h
    exact nofun
  next =>
    unfold ProviderInput.newNip44Encrypt at h
    split at h
    next => cases h
    next =>
      obtain ⟨bytes, -, rfl⟩ := Option.map_eq_some_iff.mp h
      exact nofun

/-- The payload of an encrypted response is a text. -/
theorem ciphertext_of_execute (haccepts : env.AcceptsBy coordinator accepts)
    {operation : ProviderOperation} {work : Work} {plaintext : Bytes}
    (hinput : work.encryptInput plaintext = some operation.input) {world world' : World}
    {response : VerifiedResponse}
    (h : (Dispatch.execute env operation).run world = (.ok response, world')) :
    ∃ bytes, response.protectedPayload = some bytes ∧ coordinator.protocol.isText bytes = true := by
  obtain ⟨-, tick, observedAt, hresult⟩ := Dispatch.run_execute_eq_ok h
  obtain ⟨bytes, hbytes, htext⟩ :=
    haccepts.ciphertext tick operation observedAt response.result work plaintext hresult hinput
  exact ⟨bytes, by simp [VerifiedResponse.protectedPayload, hbytes], htext⟩

theorem avoids_encryptResponse (haccepts : env.AcceptsBy coordinator accepts) (work : Work)
    {requestId : RequestId} {response : Response} {plaintext : Bytes}
    (henvelope : coordinator.protocol.envelope requestId response = some plaintext) :
    Avoids (.failed .provider) (coordinator.encryptResponse env work plaintext) := by
  refine (Dispatch.avoids_orFail (by simp) _).bind_of fun _ input _ hinput => ?_
  have hinput := (run_orExit_eq_ok.mp hinput).1
  refine .bind Dispatch.avoids_providerDeadline fun deadline => ?_
  refine (Dispatch.avoids_execute haccepts
    (haccepts.answers input (.encrypt henvelope hinput))).bind_of fun _ response _ hresponse => ?_
  obtain ⟨bytes, hbytes, -⟩ := ciphertext_of_execute haccepts hinput hresponse
  rw [hbytes]
  exact .pure bytes

theorem isText_of_encryptResponse (haccepts : env.AcceptsBy coordinator accepts)
    {work : Work} {plaintext ciphertext : Bytes} {world world' : World}
    (h : (coordinator.encryptResponse env work plaintext).run world = (.ok ciphertext, world')) :
    coordinator.protocol.isText ciphertext = true := by
  unfold encryptResponse at h
  obtain ⟨input, world₁, hinput, h⟩ := run_bind_eq_ok.mp h
  obtain ⟨deadline, world₂, -, h⟩ := run_bind_eq_ok.mp h
  obtain ⟨response, world₃, hresponse, h⟩ := run_bind_eq_ok.mp h
  obtain ⟨bytes, hbytes, htext⟩ :=
    ciphertext_of_execute haccepts (run_orExit_eq_ok.mp hinput).1 hresponse
  rw [hbytes] at h
  obtain ⟨hsome, -⟩ := run_orExit_eq_ok.mp h
  obtain rfl := Option.some.inj hsome
  exact htext

theorem avoids_signResponse (haccepts : env.AcceptsBy coordinator accepts) (work : Work)
    {ciphertext : Bytes} (htext : coordinator.protocol.isText ciphertext = true)
    (completedAt : TimeUnixMs) :
    Avoids (.failed .provider) (coordinator.signResponse env work ciphertext completedAt) := by
  unfold signResponse
  rw [htext]
  refine (Avoids.pure ciphertext).bind_of fun _ content _ hcontent => ?_
  obtain ⟨rfl, -⟩ : ciphertext = content ∧ _ := by simpa using hcontent
  refine (Dispatch.avoids_orFail (by simp) _).bind_of fun _ input _ hinput => ?_
  have hanswers := Answers.sign htext (run_orExit_eq_ok.mp hinput).1
  exact .bind Dispatch.avoids_providerDeadline fun deadline =>
    .bind (Dispatch.avoids_execute haccepts (haccepts.answers input hanswers)) fun _ => .pure _

theorem avoids_signedProtocolResponse (haccepts : env.AcceptsBy coordinator accepts)
    (work : Work) (response : Response) (committedAt : TimeUnixMs) :
    Avoids (.failed .provider)
      (coordinator.signedProtocolResponse env work response committedAt) :=
  (Dispatch.avoids_orFail (by simp) _).bind_of fun _ _ _ henvelope =>
    (avoids_encryptResponse haccepts work (run_orExit_eq_ok.mp henvelope).1).bind_of fun _ _ _ hrun =>
      avoids_signResponse haccepts work (isText_of_encryptResponse haccepts hrun) committedAt

theorem avoids_admitRequest (prepared : PreparedRequest) :
    Avoids (.failed .provider) (coordinator.admitRequest env prepared) := by
  refine .bind (Dispatch.avoids_transaction _) fun admission => ?_
  cases admission with
  | conflictingReuse record => exact .exit (by simp)
  | admitted record | exactReplay record =>
      refine .bind (Dispatch.avoids_transaction _) fun response => ?_
      cases response with
      | some _ => exact .exit (by simp)
      | none => exact .pure record

theorem avoids_bindWork (prepared : PreparedRequest) (record : RequestRecord)
    (receivedAt : TimeUnixMs) :
    Avoids (.failed .provider) (coordinator.bindWork env prepared record receivedAt) := by
  refine .bind ?_ fun connection => .bind ?_ fun deadline => Dispatch.avoids_orDrop _
  · unfold readSession
    split
    next => exact .pure _
    next => exact Dispatch.avoids_transaction _
  · unfold methodDeadline
    split
    next => exact .bind Dispatch.avoids_providerDeadline fun _ => .pure _
    next => exact .pure _

theorem avoids_connectionRequest (work : Work) (relayId : RelayId) (observedAt : TimeUnixMs) :
    Avoids (.failed .provider) (coordinator.connectionRequest env work relayId observedAt) := by
  refine .bind ?_ fun limit => .bind (Dispatch.avoids_transaction _) fun latest =>
    .bind Dispatch.avoids_entropy fun nonce => Dispatch.avoids_orFail (by simp) _
  unfold trustedLimit
  split
  next => exact .bind (Dispatch.avoids_orFail (by simp) _) fun _ => .pure _
  next => exact .pure _

theorem avoids_answerPending (haccepts : env.AcceptsBy coordinator accepts) (work : Work)
    (decision : DecisionRecord) :
    Avoids (.failed .provider) (coordinator.answerPending env work decision) :=
  .bind Dispatch.avoids_timeNow fun _ => .bind (Dispatch.avoids_orFail (by simp) _) fun _ =>
    .bind (avoids_signedProtocolResponse haccepts _ _ _) fun _ =>
      .bind (Dispatch.avoids_orFail (by simp) _) fun _ =>
        .bind (Dispatch.avoids_transaction _) fun _ => .pure _

/-- A completion fails with a provider exactly for refused work. -/
theorem complete_of_refused (hclock : env.ClockWorks coordinator)
    (haccepts : env.AcceptsBy coordinator accepts) {work : Work}
    (h : work.refused accepts) (decision : Option DecisionRecord) (world : World) :
    ∃ world', (coordinator.complete env work decision).run world =
      (.error (.failed .provider), world') := by
  obtain ⟨operation, hoperation, hrefused⟩ := h
  obtain ⟨world', hexecute⟩ := Dispatch.execute_of_refused hclock haccepts hrefused world
  refine ⟨world', ?_⟩
  unfold complete executeWork
  rw [hoperation]
  exact run_bind_of_error (run_bind_of_error hexecute)

theorem avoids_complete (haccepts : env.AcceptsBy coordinator accepts) {work : Work}
    (h : ¬ work.refused accepts) (decision : Option DecisionRecord) :
    Avoids (.failed .provider) (coordinator.complete env work decision) := by
  refine .bind ?_ fun response => .bind Dispatch.avoids_timeNow fun completedAt =>
    .bind (Dispatch.avoids_orFail (by simp) _) fun _ =>
      .bind (Dispatch.avoids_orFail (by simp) _) fun _ =>
        .bind (avoids_signedProtocolResponse haccepts _ _ _) fun _ =>
          .bind (Dispatch.avoids_orFail (by simp) _) fun _ =>
            .bind (Dispatch.avoids_transaction _) fun _ => .pure _
  unfold executeWork
  split
  next operation hoperation =>
    have haccepted : accepts operation.role operation.input = true := by
      by_contra hrefused
      exact h ⟨operation, hoperation, by simpa using hrefused⟩
    exact .bind (Dispatch.avoids_execute haccepts haccepted) fun _ => .pure _
  next => exact .pure _

theorem decideAndComplete_provider_iff (hclock : env.ClockWorks coordinator)
    (haccepts : env.AcceptsBy coordinator accepts) (work : Work) (relayId : RelayId)
    (receivedAt : TimeUnixMs) (world : World) :
    (∃ world', (coordinator.decideAndComplete env work relayId receivedAt).run world =
        (.error (.failed .provider), world')) ↔ work.refused accepts := by
  unfold decideAndComplete
  cases hpayload : work.payload with
  | connect client permissions =>
      have hnot : ¬ work.refused accepts := by
        rintro ⟨operation, hoperation, -⟩
        simp [Work.providerOperation, hpayload] at hoperation
      refine iff_of_false (Avoids.not_exists (.bind (avoids_connectionRequest _ _ _) fun request =>
        .bind (Dispatch.avoids_transaction _) fun admission =>
          .bind (Dispatch.avoids_orDrop _) fun decision => ?_) world) hnot
      cases decision.decision with
      | pendingApproval => exact avoids_answerPending haccepts work decision
      | challenged => exact .pure _
      | allowed => exact avoids_complete haccepts hnot _
      | denied => exact avoids_complete haccepts hnot _
  | localWork =>
      have hnot : ¬ work.refused accepts := by
        rintro ⟨operation, hoperation, -⟩
        simp [Work.providerOperation, hpayload] at hoperation
      exact iff_of_false (Avoids.not_exists (avoids_complete haccepts hnot _) world) hnot
  | provider operation =>
      constructor
      · rintro ⟨world', h⟩
        by_contra hnot
        exact avoids_complete haccepts hnot _ world world' h
      · exact fun h => complete_of_refused hclock haccepts h none world

theorem prepareDecryptWork_eq_some {metadata : PersistedMetadata} {event : VerifiedEvent}
    {deadline : TimeUnixMs} {operation : ProviderOperation}
    (h : prepareDecryptWork metadata event deadline = some operation) :
    metadata.transportPublicKey = event.receiverPublicKey ∧
      event.decryptInput = some operation.input ∧ operation.role = .transport := by
  unfold prepareDecryptWork at h
  obtain ⟨_, hguard, h⟩ := Option.bind_eq_some_iff.mp h
  obtain ⟨input, hinput, h⟩ := Option.bind_eq_some_iff.mp h
  obtain rfl := Option.some.inj h
  refine ⟨?_, hinput, rfl⟩
  by_contra hother
  simp [guard, hother] at hguard

theorem prepareDecryptWork_of_input {metadata : PersistedMetadata} {event : VerifiedEvent}
    {input : ProviderInput} (hreceiver : metadata.transportPublicKey = event.receiverPublicKey)
    (hinput : event.decryptInput = some input) (deadline : TimeUnixMs) :
    ∃ operation, prepareDecryptWork metadata event deadline = some operation ∧
      operation.role = .transport ∧ operation.input = input := by
  refine ⟨_, Option.bind_eq_some_iff.mpr ⟨(), if_pos hreceiver,
    Option.bind_eq_some_iff.mpr ⟨input, hinput, rfl⟩⟩, rfl, rfl⟩

/-- Decryption fails with the provider exactly when the event is refused. -/
theorem decryptRequest_provider_iff (hclock : env.ClockWorks coordinator)
    (haccepts : env.AcceptsBy coordinator accepts) (item : Item) (evidence : Evidence)
    (world : World) :
    (∃ world', (coordinator.decryptRequest env item evidence).run world =
        (.error (.failed .provider), world')) ↔ coordinator.decryptionRefused accepts item := by
  constructor
  · rintro ⟨world', h⟩
    rcases run_bind_eq_error.mp h with h | ⟨event, world₁, hevent, h⟩
    · exact absurd h (Dispatch.avoids_orDrop _ _ _)
    rcases run_bind_eq_error.mp h with h | ⟨deadline, world₂, -, h⟩
    · exact absurd h (Dispatch.avoids_providerDeadline _ _)
    rcases run_bind_eq_error.mp h with h | ⟨operation, world₃, hoperation, h⟩
    · exact absurd h (Dispatch.avoids_orDrop _ _ _)
    obtain ⟨hreceiver, hinput, hrole⟩ :=
      prepareDecryptWork_eq_some (run_orExit_eq_ok.mp hoperation).1
    refine ⟨event, operation.input, (run_orExit_eq_ok.mp hevent).1, hreceiver, hinput, ?_⟩
    rw [← hrole, ← Bool.not_eq_true]
    intro haccepted
    have havoids : ∀ response : VerifiedResponse, Avoids (.failed .provider) (do
        let plaintext ← Dispatch.orDrop response.protectedPayload
        let decrypted ← Dispatch.orDrop (coordinator.protocol.readRequest event plaintext)
        Dispatch.orDrop (prepareRequest event decrypted evidence.requestNonce evidence.receivedAt) :
        Dispatch PreparedRequest) := fun response =>
      .bind (Dispatch.avoids_orDrop _) fun _ => .bind (Dispatch.avoids_orDrop _) fun _ =>
        Dispatch.avoids_orDrop _
    exact (Dispatch.avoids_execute haccepts haccepted).bind havoids _ _ h
  · rintro ⟨event, input, hevent, hreceiver, hinput, hrefused⟩
    obtain ⟨deadline, world₁, hdeadline⟩ := Dispatch.run_providerDeadline hclock world
    obtain ⟨operation, hoperation, hrole, rfl⟩ :=
      prepareDecryptWork_of_input hreceiver hinput deadline
    rw [← hrole] at hrefused
    obtain ⟨world₂, hexecute⟩ := Dispatch.execute_of_refused hclock haccepts hrefused world₁
    refine ⟨world₂, ?_⟩
    unfold decryptRequest
    rw [hevent, run_bind_of_ok (Dispatch.run_orDrop_some _ _), run_bind_of_ok hdeadline, hoperation,
      run_bind_of_ok (Dispatch.run_orDrop_some _ _)]
    exact run_bind_of_error hexecute

/-! ## Calls -/

/-- A call meets a refusal: of the decryption of its event, or of its prepared work. -/
def meetsRefusal (coordinator : Coordinator) (env : Environment)
    (accepts : ProviderRole → ProviderInput → Bool) (item : Item) (evidence : Evidence)
    (world : World) : Prop :=
  coordinator.decryptionRefused accepts item ∨
    ∃ work world', (coordinator.prepareItem env item evidence).run world = (.ok work, world') ∧
      work.refused accepts

theorem process_eq_provider {item : Item} {evidence : Evidence} {world : World} :
    (coordinator.process env item evidence world).1 = .error .provider ↔
      ∃ world', (coordinator.processBody env item evidence).run world =
        (.error (.failed .provider), world') := by
  unfold process
  match (coordinator.processBody env item evidence).run world with
  | (.ok disposition, world') => simp
  | (.error (.ended disposition), world') => simp
  | (.error (.failed error), world') => simp

theorem process_isOk {item : Item} {evidence : Evidence} {world : World} :
    (∃ disposition, (coordinator.process env item evidence world).1 = .ok disposition) ↔
      (coordinator.process env item evidence world).1 ≠ .error .provider ∧
        ¬ Dispatch.Fatal (coordinator.processBody env item evidence) world := by
  unfold process Dispatch.Fatal
  match (coordinator.processBody env item evidence).run world with
  | (.ok disposition, world') => simp
  | (.error (.ended disposition), world') => simp
  | (.error (.failed error), world') => cases error <;> simp

theorem prepareItem_provider_iff (hclock : env.ClockWorks coordinator)
    (haccepts : env.AcceptsBy coordinator accepts) (item : Item) (evidence : Evidence)
    (world : World) :
    (∃ world', (coordinator.prepareItem env item evidence).run world =
        (.error (.failed .provider), world')) ↔ coordinator.decryptionRefused accepts item := by
  rw [← decryptRequest_provider_iff hclock haccepts item evidence world]
  constructor
  · rintro ⟨world', h⟩
    rcases run_bind_eq_error.mp h with h | ⟨prepared, world₁, -, h⟩
    · exact ⟨world', h⟩
    · exact absurd h ((avoids_admitRequest prepared).bind (fun record =>
        avoids_bindWork prepared record evidence.receivedAt) _ _)
  · rintro ⟨world', h⟩
    exact ⟨world', run_bind_of_error h⟩

/-- A call fails with a provider exactly when it meets a refusal. -/
theorem process_provider_iff (hclock : env.ClockWorks coordinator)
    (haccepts : env.AcceptsBy coordinator accepts) (item : Item) (evidence : Evidence)
    (world : World) :
    (coordinator.process env item evidence world).1 = .error .provider ↔
      coordinator.meetsRefusal env accepts item evidence world := by
  rw [process_eq_provider]
  constructor
  · rintro ⟨world', h⟩
    rcases run_bind_eq_error.mp h with h | ⟨work, world₁, hwork, h⟩
    · exact .inl ((prepareItem_provider_iff hclock haccepts item evidence world).mp ⟨world', h⟩)
    · exact .inr ⟨work, world₁, hwork,
        (decideAndComplete_provider_iff hclock haccepts work _ _ _).mp ⟨world', h⟩⟩
  · rintro (h | ⟨work, world₁, hwork, hrefused⟩)
    · obtain ⟨world', h⟩ := (prepareItem_provider_iff hclock haccepts item evidence world).mpr h
      exact ⟨world', run_bind_of_error h⟩
    · obtain ⟨world', h⟩ :=
        (decideAndComplete_provider_iff hclock haccepts work item.relayId evidence.receivedAt
          world₁).mpr hrefused
      exact ⟨world', (run_bind_of_ok hwork).trans h⟩

/-! ## The dispatch loop -/

/-- A refused decryption is repeated for as long as the loop runs. -/
theorem repeatItem_of_decryptionRefused (hclock : env.ClockWorks coordinator)
    (haccepts : env.AcceptsBy coordinator accepts) {item : Item}
    (h : coordinator.decryptionRefused accepts item) (evidence : Evidence) (fuel : ℕ)
    (world : World) : (coordinator.repeatItem env item evidence fuel world).1 = none := by
  induction fuel generalizing world with
  | zero => rfl
  | succ fuel ih =>
      have hprovider := (process_provider_iff hclock haccepts item evidence world).mpr (.inl h)
      match hprocess : coordinator.process env item evidence world with
      | (outcome, world') =>
          rw [hprocess] at hprovider
          unfold repeatItem
          rw [hprocess, show outcome = .error .provider from hprovider]
          exact ih world'

/-- A call succeeds exactly when it meets no refusal and no failure. -/
theorem process_isOk_iff (hclock : env.ClockWorks coordinator)
    (haccepts : env.AcceptsBy coordinator accepts) (item : Item) (evidence : Evidence)
    (world : World) :
    (∃ disposition, (coordinator.process env item evidence world).1 = .ok disposition) ↔
      ¬ coordinator.meetsRefusal env accepts item evidence world ∧
        ¬ coordinator.MeetsFailure env item evidence world := by
  rw [process_isOk, ← process_provider_iff hclock haccepts, fatal_processBody_iff hclock]

/-- The loop moves past an item at once exactly when its call succeeds. -/
theorem repeatItem_one_iff {item : Item} {evidence : Evidence} {world : World} :
    (∃ disposition, (coordinator.repeatItem env item evidence 1 world).1 = some (.ok disposition)) ↔
      ∃ disposition, (coordinator.process env item evidence world).1 = .ok disposition := by
  unfold repeatItem
  match coordinator.process env item evidence world with
  | (.ok disposition, world') => simp
  | (.error .provider, world') => simp [repeatItem]
  | (.error .state, world') => simp
  | (.error .runtime, world') => simp

end Coordinator

/-! ## A ciphertext that does not authenticate -/

namespace SampleService

/-- An event of the client to the transport identity. -/
def requestEvent (id : Id32) (content : Bytes) (signature : ℕ) : NostrEvent where
  id := id
  pubkey := client
  createdAt := 3
  kind := 24133
  tags := [[ascii "p", transport.asHex]]
  content := content
  signature := Sha256.bigEndian 64 signature

/-- A correctly signed event with a well-shaped payload whose authentication code is wrong. -/
def tamperedEvent : NostrEvent :=
  requestEvent 0x8e60514aba0c038a11b31d5d9fc6668b0c5d289405faa330f0d04560a2279ed3
    (ascii ("AmJuHjtpNcZqLIq5yE/D3VUiUwkMbpH1lJm8y8e4/8XC5+k2a3K0dYa0HPSrmLPC/JEVQSwM4RT5" ++
      "2a8nh3tC0sQAApvEeju9yL3hDXi3Yn+3hQtN1ubZBZj4Rfev7a1X3EqK"))
    (0x96da04a5393b2d3f9e6abb5cd9a6a13dd179a37920e1581dcc2079944f095a07 * 2 ^ 256 +
      0xbb087bb173b8d1d7b20d140336faea54db51235a3b777e5d61207c9f3022958a)

/-- A correctly signed event with an encrypted ping. -/
def pingEvent : NostrEvent :=
  requestEvent 0xc52a57cd78d2d02d0ea9d878505e8433be8fec3669147454db727c667c9228d4
    (ascii ("AnWNYfJqRESDhOXERooNy3oqvkVgZ7D3tQW8KLlBH+kxLnQUim/64GNGxGOxF8w/4e/8jhVsS9E8AHgt" ++
      "5pIZ+7Q7v4IblZaze9MWAAW775dwgtgfbMW7WIU6mOpSJgD5VMUUYKOhJppZ+kydzHA/eMFgIik0oJHeXxop" ++
      "+S45Ilw1Sg0="))
    (0x9845412197b84890f251b95003a207a1bd9aaf0ca99e197f6c381e767cf571d8 * 2 ^ 256 +
      0xef5db80cb4b0719f5ed30c9c21ccf39a0fbc41422b1f1d39a06e03634a6bfd33)

/-- What is verified of an event of the client. -/
def verified (event : NostrEvent) : VerifiedEvent :=
  ⟨event.id, client, transport, .nip44V2, event.content⟩

def pingPlaintext : Bytes := ascii "\x7b\"id\":\"7\",\"method\":\"ping\",\"params\":[]\x7d"

/-- A library that verifies the two events and decodes the ping. -/
def pingProtocol : Protocol where
  verifyEvent raw _ :=
    if raw = encode tamperedEvent then some (verified tamperedEvent)
    else if raw = encode pingEvent then some (verified pingEvent)
    else none
  readRequest _ plaintext :=
    if plaintext = pingPlaintext then some ⟨⟨['7'], by decide⟩, .ping, 7, .ping⟩ else none
  requiredPermission _ := none
  unsignedAuthor _ := none
  envelope _ _ := none
  unsignedResponse _ _ _ _ := []
  isText bytes := bytes.all (· < 128)
  isSignedEvent _ := false
  capability _ _ _ := none

def coordinator : Coordinator where
  config := config
  protocol := pingProtocol
  codec := codec
  providerTimeoutMs := 5000
  responseRelays := [ascii "wss://relay.example"]

/-- Of the decryptions only that of the ping authenticates. -/
def accepts : ProviderInput → Bool
  | .signEvent _ | .nip04Encrypt _ _ | .nip44Encrypt _ _ => true
  | .nip04Decrypt _ _ => false
  | .nip44Decrypt peer ciphertext => peer = client && ciphertext == pingEvent.content

/-- Providers that are always reached. -/
def environment : Environment where
  clock _ := some 4
  entropy _ := some 8
  providers _ operation _ :=
    if accepts operation.input then
      match operation.input with
      | .signEvent _ => some (.signedEvent (ascii "\x7b\x7d"))
      | _ => some (.protectedPayload pingPlaintext)
    else none
  others _ := []

theorem environment_clockWorks : environment.ClockWorks coordinator :=
  fun _ => ⟨4, rfl, by decide⟩

theorem environment_acceptsBy : environment.AcceptsBy coordinator fun _ input => accepts input where
  content := by
    rintro _ ⟨_, _, _, _, _, input⟩ _
    cases input <;> cases h : accepts _ <;> simp [environment, h]
  ciphertext := by
    rintro _ ⟨_, _, _, _, _, input⟩ _ result work plaintext hresult hinput
    refine ⟨pingPlaintext, ?_, by decide +kernel⟩
    cases input with
    | signEvent unsigned => exact absurd rfl (Coordinator.encryptInput_ne_signEvent hinput unsigned)
    | nip04Encrypt _ _ | nip04Decrypt _ _ | nip44Encrypt _ _ | nip44Decrypt _ _ =>
        simp only [environment] at hresult
        split at hresult
        next => exact (Option.some.inj hresult).symm
        next => exact nomatch hresult
  answers := by
    rintro input (⟨henvelope, -⟩ | ⟨-, hinput⟩)
    · cases henvelope
    · cases hinput

/-- An event as it arrives from the relay. -/
def item (event : NostrEvent) : Coordinator.Item := ⟨encode event, relay, 3000⟩

def evidence : Coordinator.Evidence := ⟨6, sampleTime 3000⟩

def world : World := ⟨(System.initial config 1).store, 0⟩

/-- The ping of a client without a session is decrypted, admitted and dropped. -/
theorem process_ping :
    (coordinator.process environment (item pingEvent) evidence world).1 = .ok .dropped := by
  decide +kernel

end SampleService

end MycSigner
