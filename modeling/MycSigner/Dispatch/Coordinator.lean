import MycSigner.Dispatch.Work
import MycSigner.Lib.Process
import MycSigner.System

/-!
# The coordinator of one request event

`process` takes one raw event from decryption to the committed response.  It reads and
writes the store in separate transactions and calls the providers between them.  Everything
a call meets outside the store is its environment: the wall clock, entropy, the providers,
and the transactions that others run before each transaction of the call.  A tick counts the
effects of a call, so that every reading may differ from the one before.
-/

namespace MycSigner

open Transaction

/-! ## The world of a call -/

inductive Disposition where
  | dropped
  | pendingApproval
  | completed
  | exactResponseReplay
deriving DecidableEq

/-- The failure classes of a dispatch. -/
inductive DispatchError where
  | provider
  | state
  | runtime
deriving DecidableEq

/-- How a call ends before its last line. -/
inductive Exit where
  | ended (disposition : Disposition)
  | failed (error : DispatchError)
deriving DecidableEq

/-- The coordinator of the running service. -/
structure Coordinator where
  config : Configuration
  protocol : Protocol
  codec : EventCodec
  providerTimeoutMs : ℕ
  responseRelays : List Bytes

/-- What a call meets outside the store, by tick. -/
structure Environment where
  /-- The wall clock in seconds, unless it fails. -/
  clock : ℕ → Option ℕ
  entropy : ℕ → Option Id32
  /-- A verified result, unless the provider refuses or is not reached in time. -/
  providers : ℕ → ProviderOperation → TimeUnixMs → Option ProviderResult
  /-- The transactions of others before the next one of the call. -/
  others : ℕ → List Operation

structure World where
  store : Store
  tick : ℕ

abbrev Dispatch := Process World Exit

namespace Dispatch

variable {α : Type}

def fail (error : DispatchError) : Dispatch α := Process.exit (.failed error)

def orFail (error : DispatchError) : Option α → Dispatch α := Process.orExit (.failed error)

def orDrop : Option α → Dispatch α := Process.orExit (.ended .dropped)

/-- The transactions of others. -/
def interfere (coordinator : Coordinator) (operations : List Operation) (store : Store) : Store :=
  (Run.after (System.perform coordinator.codec) ⟨coordinator.config, store⟩
    (operations.map Event.operation)).store

/-- One transaction of the call. -/
def transaction (coordinator : Coordinator) (env : Environment) (body : Tx α) : Dispatch α := do
  let result ← Process.step fun world =>
    let outcome := body.atomically (interfere coordinator (env.others world.tick) world.store)
    (outcome.1, { store := outcome.2, tick := world.tick + 1 })
  match result with
  | .ok a => pure a
  | .error _ => fail .state

/-- `wall_time_millis` -/
def wallTimeMillis (env : Environment) : Dispatch ℕ := do
  let seconds ← Process.step fun world => (env.clock world.tick, { world with tick := world.tick + 1 })
  orFail .runtime ((seconds.map (· * 1000)).filter (· ≤ i64Max))

/-- `connection_time_now` and `provider_observed_now` -/
def timeNow (env : Environment) : Dispatch TimeUnixMs := do
  let millis ← wallTimeMillis env
  orFail .runtime (TimeUnixMs.new millis)

/-- `provider_deadline` -/
def providerDeadline (coordinator : Coordinator) (env : Environment) : Dispatch TimeUnixMs := do
  let millis ← wallTimeMillis env
  orFail .runtime (TimeUnixMs.new (millis + coordinator.providerTimeoutMs))

/-- Executes and verifies a provider operation. -/
def execute (env : Environment) (operation : ProviderOperation) : Dispatch VerifiedResponse := do
  let observedAt ← timeNow env
  let result ← Process.step fun world =>
    (env.providers world.tick operation observedAt, { world with tick := world.tick + 1 })
  let result ← orFail .provider result
  return ⟨operation, result⟩

def entropy (env : Environment) : Dispatch Id32 := do
  let bytes ← Process.step fun world => (env.entropy world.tick, { world with tick := world.tick + 1 })
  orFail .runtime bytes

end Dispatch

/-! ## Sealed requests -/

/-- `bind_provider_result`: the provider operation and its artifact. -/
def bindProviderResult (work : Work) (response : Option VerifiedResponse) :
    Option (Option Id32 × Option Bytes) :=
  match work.providerOperation, response with
  | none, none => some (none, none)
  | none, some _ => none
  | some _, none => none
  | some operation, some response => do
      guard (response.operation = operation)
      guard (response.signedEventBytes.all fun bytes =>
        !bytes.isEmpty && bytes.length ≤ providerOutputMaxBytes)
      return (some operation.operationId, response.signedEventBytes)

/-- The session, its effect and the reason of a completion. -/
structure CompletionBinding where
  connectionId : Option Id32
  connectionGeneration : Option PolicyGeneration
  connectDecision : Option Decision
  sessionEffect : SessionEffect
  reasonCode : CommitReason

/-- The part of `MycNip46CommitRequest::new` that depends on the kind of work. -/
def CompletionBinding.new (work : Work) (connectDecision : Option DecisionRecord)
    (response : Option VerifiedResponse) (completedAt : TimeUnixMs) : Option CompletionBinding :=
  let connectionId := work.connection.map ConnectionRecord.id
  let connectionGeneration := work.connection.map ConnectionRecord.policyGeneration
  match work.payload with
  | .connect _ _ => do
      guard (response = none)
      let decision ← connectDecision
      guard (decision.operationId = work.request.operationId ∧
        (decision.decision = .allowed ∨ decision.decision = .denied))
      guard (decision.decidedAt ≤ completedAt)
      let connectionId := decision.connection.map ConnectionRecord.id
      let connectionGeneration := decision.connection.map ConnectionRecord.policyGeneration
      if decision.decision = .allowed then do
        guard (decision.connection.any fun connection => connection.status = .active)
        return ⟨connectionId, connectionGeneration, some .allowed, .connectionAdmitted,
          .connectionAdmitted⟩
      else do
        guard (decision.connection = none)
        return ⟨connectionId, connectionGeneration, some .denied, .none, .connectionDenied⟩
  | .localWork => do
      guard (connectDecision = none ∧ response = none)
      if work.method = .logout then
        return ⟨connectionId, connectionGeneration, none, .connectionRevoked, .sessionRevoked⟩
      else
        return ⟨connectionId, connectionGeneration, none, .none, .completed⟩
  | .provider _ => do
      guard (connectDecision = none)
      return ⟨connectionId, connectionGeneration, none, .none, .completed⟩

/-- `MycNip46CommitRequest::new` -/
def CommitRequest.new (work : Work) (connectDecision : Option DecisionRecord)
    (response : Option VerifiedResponse) (completedAt : TimeUnixMs) : Option CommitRequest := do
  guard (work.request.receivedAt ≤ completedAt ∧
    work.connection.all fun connection => decide (connection.updatedAt ≤ completedAt))
  let binding ← CompletionBinding.new work connectDecision response completedAt
  let (providerOperationId, artifact) ← bindProviderResult work response
  return { request := work.request
           connectionId := binding.connectionId
           connectionGeneration := binding.connectionGeneration
           connectDecision := binding.connectDecision
           sessionEffect := binding.sessionEffect
           providerOperationId := providerOperationId
           artifact := artifact
           reasonCode := binding.reasonCode
           completedAt := completedAt }

/-- A response signed by the transport provider, with its operation. -/
structure SignedResponse where
  operation : ProviderOperation
  response : VerifiedResponse

/-- The checks that both response requests make of the signed response. -/
def SignedResponse.validate (codec : EventCodec) (signed : SignedResponse) (operationId : Id32)
    (client : PublicKey) (notBefore committedAt : TimeUnixMs) : Option (Bytes × NostrEvent) := do
  guard (signed.operation.role = .transport ∧
    (match signed.operation.input with | .signEvent _ => true | _ => false) = true ∧
    signed.response.operation = signed.operation ∧ signed.operation.operationId ≠ operationId)
  let bytes ← signed.response.signedEventBytes
  let event ← validateResponseEvent codec bytes client (some signed.operation.expectedIdentity)
  guard (notBefore ≤ committedAt ∧ event.createdAt * 1000 ≤ committedAt.get)
  return (bytes, event)

/-- `MycNip46ResponseCommitRequest::new` -/
def ResponseCommitRequest.new (codec : EventCodec) (completion : CommitRequest)
    (signed : SignedResponse) (committedAt : TimeUnixMs) : Option ResponseCommitRequest := do
  let (bytes, event) ← signed.validate codec completion.request.operationId
    completion.request.clientPublicKey completion.completedAt committedAt
  return { completion := completion
           responseProviderOperationId := signed.operation.operationId
           responseEventId := event.id
           responseDigest := Sha256.digest bytes
           responseBytes := bytes
           authoredAtUnixS := event.createdAt
           committedAt := committedAt }

/-- `MycNip46PendingResponseCommitRequest::new` -/
def PendingResponseCommitRequest.new (codec : EventCodec) (work : Work) (decision : DecisionRecord)
    (signed : SignedResponse) (committedAt : TimeUnixMs) : Option PendingResponseCommitRequest := do
  let connection ← decision.connection
  guard ((match work.payload with | .connect _ _ => true | _ => false) = true ∧
    work.method = .connect ∧ decision.operationId = work.request.operationId ∧
    decision.decision = .pendingApproval ∧
    decision.policyGeneration = connection.policyGeneration ∧ connection.status = .pending ∧
    connection.clientPublicKey = work.request.clientPublicKey)
  let (bytes, event) ← signed.validate codec work.request.operationId work.request.clientPublicKey
    decision.decidedAt committedAt
  return { operationId := work.request.operationId
           connectionId := connection.id
           policyGeneration := connection.policyGeneration
           clientPublicKey := connection.clientPublicKey
           decidedAt := decision.decidedAt
           responseProviderOperationId := signed.operation.operationId
           responseEventId := event.id
           responseDigest := Sha256.digest bytes
           responseBytes := bytes
           authoredAtUnixS := event.createdAt
           committedAt := committedAt }

/-! ## The response -/

/-- `protected_text` -/
def protectedText (protocol : Protocol) (response : Option VerifiedResponse) : Option Bytes :=
  (response.bind VerifiedResponse.protectedPayload).filter protocol.isText

/-- The plaintext of a response as the input of an encryption to the client, in the encryption
of its request. -/
def Work.encryptInput (work : Work) (plaintext : Bytes) : Option ProviderInput :=
  match work.encryptionContext with
  | .nip04 => ProviderInput.newNip04Encrypt work.request.clientPublicKey plaintext
  | .nip44V2 => ProviderInput.newNip44Encrypt work.request.clientPublicKey plaintext

namespace Coordinator

variable (coordinator : Coordinator)

/-- `protocol_response` -/
def protocolResponse (work : Work) (connect : Option DecisionRecord)
    (response : Option VerifiedResponse) : Option Response :=
  let user := coordinator.config.metadata.userPublicKey
  match work.method with
  | .connect =>
      match connect.map DecisionRecord.decision with
      | some .allowed => some (.userPublicKey user)
      | some .pendingApproval => some .pendingConnection
      | some .denied => some (.error (ascii "connection_denied"))
      | _ => none
  | .getPublicKey => some (.userPublicKey user)
  | .getSessionCapability => do
      let connection ← work.connection
      coordinator.protocol.capability user coordinator.responseRelays
        (connection.grantedPermissions.permissions.map Permission.code)
  | .signEvent => do
      let bytes ← response.bind VerifiedResponse.signedEventBytes
      guard (coordinator.protocol.isText bytes && coordinator.protocol.isSignedEvent bytes)
      return .signedEvent bytes
  | .nip04Encrypt => (protectedText coordinator.protocol response).map .nip04Encrypt
  | .nip04Decrypt => (protectedText coordinator.protocol response).map .nip04Decrypt
  | .nip44Encrypt => (protectedText coordinator.protocol response).map .nip44Encrypt
  | .nip44Decrypt => (protectedText coordinator.protocol response).map .nip44Decrypt
  | .ping => some .pong
  | .switchRelays => some .relayListUnchanged
  | .logout => some .logoutAcknowledged

/-- `derived_operation` -/
def derivedOperation (work : Work) (operationDomain correlationDomain : String)
    (deadline : TimeUnixMs) (input : ProviderInput) : ProviderOperation where
  role := .transport
  operationId := deriveIdentifier operationDomain work.request.operationId
  correlationId := deriveIdentifier correlationDomain work.request.operationId
  deadline := deadline
  expectedIdentity := coordinator.config.metadata.transportPublicKey
  input := input

/-- `encrypt_response` -/
def encryptResponse (env : Environment) (work : Work) (plaintext : Bytes) : Dispatch Bytes := do
  let input ← Dispatch.orFail .runtime (work.encryptInput plaintext)
  let deadline ← Dispatch.providerDeadline coordinator env
  let response ← Dispatch.execute env
    (coordinator.derivedOperation work "radroots.myc.nip46.response_encrypt.operation.v1"
      "radroots.myc.nip46.response_encrypt.correlation.v1" deadline input)
  Dispatch.orFail .provider response.protectedPayload

/-- `sign_response` -/
def signResponse (env : Environment) (work : Work) (ciphertext : Bytes) (completedAt : TimeUnixMs) :
    Dispatch SignedResponse := do
  let content ← Dispatch.orFail .provider
    (if coordinator.protocol.isText ciphertext then some ciphertext else none)
  let unsigned := coordinator.protocol.unsignedResponse
    coordinator.config.metadata.transportPublicKey work.request.clientPublicKey
    (completedAt.get / 1000) content
  let input ← Dispatch.orFail .runtime (ProviderInput.newSignEvent unsigned)
  let deadline ← Dispatch.providerDeadline coordinator env
  let operation := coordinator.derivedOperation work
    "radroots.myc.nip46.response_sign.operation.v1"
    "radroots.myc.nip46.response_sign.correlation.v1" deadline input
  let response ← Dispatch.execute env operation
  return ⟨operation, response⟩

/-- `signed_protocol_response` -/
def signedProtocolResponse (env : Environment) (work : Work) (response : Response)
    (committedAt : TimeUnixMs) : Dispatch SignedResponse := do
  let plaintext ← Dispatch.orFail .runtime
    (coordinator.protocol.envelope work.request.requestId response)
  let encrypted ← coordinator.encryptResponse env work plaintext
  coordinator.signResponse env work encrypted committedAt

/-! ## The stages of a call -/

/-- A raw event with its relay and the time it was received. -/
structure Item where
  rawEvent : Bytes
  relayId : RelayId
  observedAtUnixMs : ℕ

/-- The nonce and the receive time of an item, kept across its repetitions. -/
structure Evidence where
  requestNonce : Id32
  receivedAt : TimeUnixMs

/-- Verification and decryption of the event, up to the request ready for admission. -/
def decryptRequest (env : Environment) (item : Item) (evidence : Evidence) :
    Dispatch PreparedRequest := do
  let event ← Dispatch.orDrop
    (coordinator.protocol.verifyEvent item.rawEvent (item.observedAtUnixMs / 1000))
  let deadline ← Dispatch.providerDeadline coordinator env
  let operation ← Dispatch.orDrop (prepareDecryptWork coordinator.config.metadata event deadline)
  let response ← Dispatch.execute env operation
  let plaintext ← Dispatch.orDrop response.protectedPayload
  let decrypted ← Dispatch.orDrop (coordinator.protocol.readRequest event plaintext)
  Dispatch.orDrop (prepareRequest event decrypted evidence.requestNonce evidence.receivedAt)

/-- Admission of the request; a conflicting reuse is dropped, and an answered request needs
nothing more. -/
def admitRequest (env : Environment) (prepared : PreparedRequest) : Dispatch RequestRecord := do
  let admission ← Dispatch.transaction coordinator env
    (admitSignerRequest coordinator.config prepared.signerRequest)
  match admission with
  | .conflictingReuse _ => Process.exit (.ended .dropped)
  | .admitted record | .exactReplay record => do
      let response ← Dispatch.transaction coordinator env (withBinding coordinator.config
        (query (readResponseByOperation coordinator.codec · record.operationId)))
      match response with
      | some _ => Process.exit (.ended .exactResponseReplay)
      | none => return record

/-- The session of a request; a connect request has none. -/
def readSession (env : Environment) (method : Method) (client : PublicKey)
    (receivedAt : TimeUnixMs) : Dispatch (Option ConnectionRecord) :=
  if method = .connect then pure none
  else Dispatch.transaction coordinator env (withBinding coordinator.config
    (query (readActiveConnectionForClient · client receivedAt)))

/-- The deadline of a method that the user provider performs. -/
def methodDeadline (env : Environment) (method : Method) : Dispatch (Option TimeUnixMs) :=
  if method.usesProvider then do
    let deadline ← Dispatch.providerDeadline coordinator env
    return some deadline
  else pure none

/-- Session lookup and preparation of the work. -/
def bindWork (env : Environment) (prepared : PreparedRequest) (record : RequestRecord)
    (receivedAt : TimeUnixMs) : Dispatch Work := do
  let method := prepared.signerRequest.method
  let connection ← coordinator.readSession env method record.clientPublicKey receivedAt
  let deadline ← coordinator.methodDeadline env method
  Dispatch.orDrop (prepareWork coordinator.protocol coordinator.config.metadata prepared record
    connection receivedAt deadline).toOption

/-- The admission policy that the configuration has for a client. -/
def admissionPolicy (client : PublicKey) : AdmissionPolicy :=
  if client ∈ coordinator.config.connection.deniedClients then .denied
  else if client ∈ coordinator.config.connection.trustedClients then .trusted
  else .explicitApproval

/-- The limit of a trusted session, when challenges are enabled. -/
def trustedLimit (policy : AdmissionPolicy) (observedAt : TimeUnixMs) :
    Dispatch (Option TimeUnixMs) :=
  match policy, coordinator.config.connection.challenge with
  | .trusted, some challenge => do
      let limit ← Dispatch.orFail .runtime
        (TimeUnixMs.new (observedAt.get + challenge.authorizedLifetimeMs))
      return some limit
  | _, _ => pure none

/-- `connection_admission_request` of the work. -/
def connectionAdmissionRequest (work : Work) (generation : ℕ) (nonce : Id32)
    (observedAt : TimeUnixMs) (authorizedUntil : Option TimeUnixMs) (policy : AdmissionPolicy)
    (relayId : RelayId) : Option AdmissionRequest :=
  match work.payload with
  | .connect client permissions =>
      if valid : (0 < generation ∧ generation ≤ i64Max) ∧
          ∀ limit ∈ authorizedUntil, policy = .trusted ∧ observedAt < limit then
        some { operationId := work.request.operationId
               clientPublicKey := client
               requestedPermissions := permissions
               policyGeneration := ⟨generation, valid.1.1, valid.1.2⟩
               nonce := nonce
               observedAt := observedAt
               authorizedUntil := authorizedUntil
               policy := policy
               relayId := relayId
               trusted_limit := valid.2 }
      else none
  | .localWork | .provider _ => none

/-- `connection_request` -/
def connectionRequest (env : Environment) (work : Work) (relayId : RelayId)
    (observedAt : TimeUnixMs) : Dispatch AdmissionRequest := do
  let policy := coordinator.admissionPolicy work.request.clientPublicKey
  let authorizedUntil ← coordinator.trustedLimit policy observedAt
  let latest ← Dispatch.transaction coordinator env readLatestHeader
  let nonce ← Dispatch.entropy env
  Dispatch.orFail .runtime (connectionAdmissionRequest work latest.generation nonce observedAt
    authorizedUntil policy relayId)

/-- The response to a connect request that waits for the operator. -/
def answerPending (env : Environment) (work : Work) (decision : DecisionRecord) :
    Dispatch Disposition := do
  let committedAt ← Dispatch.timeNow env
  let response ← Dispatch.orFail .runtime (coordinator.protocolResponse work (some decision) none)
  let signed ← coordinator.signedProtocolResponse env work response committedAt
  let commit ← Dispatch.orFail .runtime
    (PendingResponseCommitRequest.new coordinator.codec work decision signed committedAt)
  let _ ← Dispatch.transaction coordinator env
    (commitNip46PendingResponse coordinator.codec coordinator.config commit)
  return .pendingApproval

/-- The provider operation of the work, if it has one. -/
def executeWork (env : Environment) (work : Work) : Dispatch (Option VerifiedResponse) :=
  match work.providerOperation with
  | some operation => do
      let response ← Dispatch.execute env operation
      return some response
  | none => pure none

/-- The completion of an operation and its response. -/
def complete (env : Environment) (work : Work) (decision : Option DecisionRecord) :
    Dispatch Disposition := do
  let response ← executeWork env work
  let completedAt ← Dispatch.timeNow env
  let completion ← Dispatch.orFail .runtime (CommitRequest.new work decision response completedAt)
  let protocolResponse ← Dispatch.orFail .runtime
    (coordinator.protocolResponse work decision response)
  let signed ← coordinator.signedProtocolResponse env work protocolResponse completedAt
  let commit ← Dispatch.orFail .runtime
    (ResponseCommitRequest.new coordinator.codec completion signed completedAt)
  let _ ← Dispatch.transaction coordinator env
    (commitNip46Response coordinator.codec coordinator.config commit)
  return .completed

/-- A connect request is decided, and answered at once while its decision is pending. -/
def decideAndComplete (env : Environment) (work : Work) (relayId : RelayId)
    (receivedAt : TimeUnixMs) : Dispatch Disposition :=
  match work.payload with
  | .connect _ _ => do
      let request ← coordinator.connectionRequest env work relayId receivedAt
      let admission ← Dispatch.transaction coordinator env
        (admitConnection coordinator.config request)
      let decision ← Dispatch.orDrop admission.record
      match decision.decision with
      | .pendingApproval => coordinator.answerPending env work decision
      | .challenged => return .pendingApproval
      | .allowed | .denied => coordinator.complete env work (some decision)
  | .localWork | .provider _ => coordinator.complete env work none

/-- The first half of `process`: the work of an item. -/
def prepareItem (env : Environment) (item : Item) (evidence : Evidence) : Dispatch Work := do
  let prepared ← coordinator.decryptRequest env item evidence
  let record ← coordinator.admitRequest env prepared
  coordinator.bindWork env prepared record evidence.receivedAt

/-- The body of `process`. -/
def processBody (env : Environment) (item : Item) (evidence : Evidence) : Dispatch Disposition := do
  let work ← coordinator.prepareItem env item evidence
  coordinator.decideAndComplete env work item.relayId evidence.receivedAt

/-- `process`: an early end is a disposition like the last. -/
def process (env : Environment) (item : Item) (evidence : Evidence) (world : World) :
    Except DispatchError Disposition × World :=
  match (coordinator.processBody env item evidence).run world with
  | (.ok disposition, world) => (.ok disposition, world)
  | (.error (.ended disposition), world) => (.ok disposition, world)
  | (.error (.failed error), world) => (.error error, world)

/-- The loop of `run_provider_dispatch` over one item: it is repeated for as long as the
providers fail.  Without an outcome the fuel ran out first. -/
def repeatItem (env : Environment) (item : Item) (evidence : Evidence) :
    ℕ → World → Option (Except DispatchError Disposition) × World
  | 0, world => (none, world)
  | fuel + 1, world =>
      match coordinator.process env item evidence world with
      | (.error .provider, world) => repeatItem env item evidence fuel world
      | (outcome, world) => (some outcome, world)

end Coordinator

end MycSigner
