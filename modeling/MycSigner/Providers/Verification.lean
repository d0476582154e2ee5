import MycSigner.Dispatch.Work
import MycSigner.Encoding

/-!
# Provider contract and verification

The configuration assigns one provider to each enabled identity role.  An operation is bound
to the assignment of its role, and what a provider returns is untrusted until it is verified
against that assignment and that operation: the binding first, then the time, then, for a
local signer, every field of the wire response, and last the content of the result.  Event
JSON, signatures and base64 are the work of libraries, which are a parameter here.
-/

namespace MycSigner.Provider

/-! ## The contract -/

inductive Role where
  | transport
  | user
  | discovery
deriving DecidableEq

inductive Kind where
  | encryptedFile
  | localSigner
deriving DecidableEq

inductive Capability where
  | describe
  | publicIdentity
  | signEvent
  | nip04Encrypt
  | nip04Decrypt
  | nip44Encrypt
  | nip44Decrypt
deriving DecidableEq

/-- `MycProviderCapabilitySet::for_role` -/
def Role.capabilities : Role → List Capability
  | .transport | .user =>
      [.describe, .publicIdentity, .signEvent, .nip04Encrypt, .nip04Decrypt, .nip44Encrypt,
        .nip44Decrypt]
  | .discovery => [.describe, .publicIdentity, .signEvent]

/-- Validated local-signer transport limits. -/
structure LocalSignerLimits where
  requestDeadlineMs : ℕ
  requestMaxBytes : ℕ
  responseMaxBytes : ℕ
  concurrency : ℕ
  requestDeadlineMs_mem : 1 ≤ requestDeadlineMs ∧ requestDeadlineMs ≤ 30000
  requestMaxBytes_mem : 1 ≤ requestMaxBytes ∧ requestMaxBytes ≤ 65536
  responseMaxBytes_mem : 1 ≤ responseMaxBytes ∧ responseMaxBytes ≤ 1048576
  concurrency_mem : 1 ≤ concurrency ∧ concurrency ≤ 64
deriving DecidableEq

inductive Location where
  | encryptedFile
  | localSigner (limits : LocalSignerLimits)
deriving DecidableEq

/-- One immutable provider assignment.  `binding_from_config` derives the instance and the
required capabilities from the role, and the kind from the location. -/
structure Binding where
  role : Role
  expectedIdentity : PublicKey
  location : Location
deriving DecidableEq

namespace Binding

def kind (binding : Binding) : Kind :=
  match binding.location with
  | .encryptedFile => .encryptedFile
  | .localSigner _ => .localSigner

def requiredCapabilities (binding : Binding) : List Capability := binding.role.capabilities

end Binding

/-- The exact provider assignments derived from one admitted configuration. -/
structure Contract where
  bindings : List Binding
  roles_nodup : (bindings.map (·.role)).Nodup

/-- The binding of one enabled role. -/
def Contract.binding (contract : Contract) (role : Role) : Option Binding :=
  contract.bindings.find? (·.role = role)

/-- The input of an operation. -/
inductive Input where
  | describe
  | publicIdentity
  | request (input : ProviderInput)
deriving DecidableEq

namespace Input

def capability : Input → Capability
  | .describe => .describe
  | .publicIdentity => .publicIdentity
  | .request (.signEvent _) => .signEvent
  | .request (.nip04Encrypt ..) => .nip04Encrypt
  | .request (.nip04Decrypt ..) => .nip04Decrypt
  | .request (.nip44Encrypt ..) => .nip44Encrypt
  | .request (.nip44Decrypt ..) => .nip44Decrypt

end Input

/-- One operation bound to an assignment. -/
structure Operation where
  role : Role
  provider : Kind
  operationId : Id32
  correlationId : Id32
  deadline : TimeUnixMs
  expectedIdentity : PublicKey
  input : Input
deriving DecidableEq

/-- `MycProviderOperation::new` -/
def Operation.new (binding : Binding) (operationId correlationId : Id32) (deadline : TimeUnixMs)
    (input : Input) : Option Operation := do
  guard (input.capability ∈ binding.requiredCapabilities)
  return { role := binding.role
           provider := binding.kind
           operationId := operationId
           correlationId := correlationId
           deadline := deadline
           expectedIdentity := binding.expectedIdentity
           input := input }

/-! ## Results -/

/-- What a provider returns, before verification.  Payloads are hexadecimal on the wire, and
a text that is none is a response the transport refuses. -/
inductive WireResult where
  | describe (publicIdentity : Bytes) (protocolVersion : ℕ) (capabilities : List Capability)
      (maximumRequestBytes : ℕ)
  | publicIdentity (publicIdentity : Bytes)
  | signEvent (payload : Bytes)
  | nip04Encrypt (peer : Bytes) (payload : Bytes)
  | nip04Decrypt (peer : Bytes) (payload : Bytes)
  | nip44Encrypt (peer : Bytes) (version : ℕ) (payload : Bytes)
  | nip44Decrypt (peer : Bytes) (version : ℕ) (payload : Bytes)
deriving DecidableEq

/-- What verification lets through. -/
inductive VerifiedResult where
  | describe (publicIdentity : PublicKey) (protocolVersion : ℕ) (capabilities : List Capability)
      (maximumRequestBytes : ℕ)
  | publicIdentity (publicIdentity : PublicKey)
  | signedEvent (bytes : Bytes)
  | protectedPayload (payload : Bytes) (nip44Version : Option ℕ)
deriving DecidableEq

inductive VerificationError where
  | invalidBinding
  | lateResponse
  | responseBinding
  | resultShape
  | identity
  | capability
  | size
  | event
  | nip04
  | nip44
deriving DecidableEq

/-- The unsigned event an operation asks to sign. -/
structure UnsignedEvent where
  pubkey : PublicKey
  createdAt : ℕ
  kind : ℕ
  tags : List (List Bytes)
  content : Bytes
  /-- The identifier of the fields. -/
  id : Id32
deriving DecidableEq

/-- The libraries that read results. -/
structure Library where
  events : EventCodec
  /-- An unsigned event from canonical JSON whose own identifier, if it has one, is right. -/
  unsigned : Bytes → Option UnsignedEvent
  /-- Canonical base64. -/
  base64 : Bytes → Option Bytes

/-! ## Content -/

def contractVersion : ℕ := 1

/-- `decode_payload` -/
def decodePayload (payload : Bytes) : Except VerificationError Bytes := do
  Except.require (payload ≠ [] ∧ payload.length ≤ providerOutputMaxBytes) .size
  return payload

/-- `decode_payload_allow_empty` -/
def decodePayloadAllowEmpty (payload : Bytes) : Except VerificationError Bytes := do
  Except.require (payload.length ≤ providerOutputMaxBytes) .size
  return payload

/-- `verify_nip04_ciphertext`.  Base64 is ASCII, so a text that is not UTF-8 fails with the
same error when it is decoded. -/
def verifyNip04Ciphertext (library : Library) (payload : Bytes) (plaintextLength : Option ℕ) :
    Except VerificationError ℕ := do
  let (ciphertext, iv) ← Except.ofOption .nip04 (splitOnce (ascii "?iv=") payload)
  Except.require (ciphertext ≠ [] ∧ iv ≠ [] ∧ splitOnce (ascii "?iv=") iv = none) .nip04
  let ciphertext ← Except.ofOption .nip04 (library.base64 ciphertext)
  let iv ← Except.ofOption .nip04 (library.base64 iv)
  Except.require (iv.length = 16 ∧ ciphertext ≠ [] ∧ ciphertext.length % 16 = 0) .nip04
  match plaintextLength with
  | some length => Except.require (ciphertext.length = (length / 16 + 1) * 16) .nip04
  | none => pure ()
  return ciphertext.length

def nip44FixedPayloadBytes : ℕ := 67

/-- `nip44_padding_length` -/
def nip44PaddingLength (length : ℕ) : Option ℕ :=
  if length = 0 ∨ providerNip44PlaintextMaxBytes < length then none
  else if length ≤ 32 then some 32
  else
    let nextPower := 2 ^ Nat.clog 2 length
    let chunk := if nextPower ≤ 256 then 32 else nextPower / 8
    some (chunk * ((length - 1) / chunk + 1))

/-- `is_valid_nip44_padding_length` -/
def isValidNip44PaddingLength (padded : ℕ) : Bool :=
  if padded < 32 ∨ 65536 < padded then false
  else if padded ≤ 256 then padded % 32 = 0
  else padded % (2 ^ Nat.clog 2 padded / 8) = 0

/-- `verify_nip44_ciphertext`, of the one supported version. -/
def verifyNip44Ciphertext (library : Library) (payload : Bytes) (plaintextLength : Option ℕ) :
    Except VerificationError ℕ := do
  let decoded ← Except.ofOption .nip44 (library.base64 payload)
  Except.require (decoded.head? = some 2 ∧ nip44FixedPayloadBytes + 32 ≤ decoded.length) .nip44
  let padded := decoded.length - nip44FixedPayloadBytes
  match plaintextLength with
  | some length => do
      let expected ← Except.ofOption .nip44 (nip44PaddingLength length)
      Except.require (decoded.length = nip44FixedPayloadBytes + expected) .nip44
  | none => Except.require (isValidNip44PaddingLength padded = true) .nip44
  return padded

/-- `verify_identity` -/
def verifyIdentity (expected : PublicKey) (actual : Bytes) : Except VerificationError Unit :=
  Except.require (actual = expected.asHex) .identity

/-- `verify_peer` -/
def verifyPeer (peer : PublicKey) (actual : Bytes) : Except VerificationError Unit :=
  Except.require (actual = peer.asHex) .responseBinding

/-- `verify_describe` -/
def verifyDescribe (binding : Binding) (publicIdentity : Bytes) (protocolVersion : ℕ)
    (capabilities : List Capability) (maximumRequestBytes : ℕ) :
    Except VerificationError VerifiedResult := do
  verifyIdentity binding.expectedIdentity publicIdentity
  Except.require (protocolVersion = contractVersion) .responseBinding
  Except.require (capabilities ≠ [] ∧ capabilities.length ≤ 7) .capability
  Except.require capabilities.Nodup .capability
  Except.require (∀ capability ∈ binding.requiredCapabilities, capability ∈ capabilities)
    .capability
  let expectedMaximum := match binding.location with
    | .encryptedFile => providerInputMaxBytes
    | .localSigner limits => limits.requestMaxBytes
  Except.require (maximumRequestBytes = expectedMaximum) .size
  return .describe binding.expectedIdentity protocolVersion capabilities maximumRequestBytes

/-- `verify_signed_event` -/
def verifySignedEvent (library : Library) (operation : Operation) (unsignedBytes payload : Bytes) :
    Except VerificationError VerifiedResult := do
  let unsigned ← Except.ofOption .event (library.unsigned unsignedBytes)
  Except.require (unsigned.pubkey = operation.expectedIdentity) .event
  let event ← Except.ofOption .event (library.events.decode payload)
  Except.require (library.events.encode event = payload ∧ event.pubkey = unsigned.pubkey ∧
    event.createdAt = unsigned.createdAt ∧ event.kind = unsigned.kind ∧
    event.tags = unsigned.tags ∧ event.content = unsigned.content ∧ event.id = unsigned.id ∧
    library.events.verify event = true) .event
  return .signedEvent payload

/-- `verify_result` -/
def verifyResult (library : Library) (binding : Binding) (operation : Operation) :
    WireResult → Except VerificationError VerifiedResult := fun result =>
  match operation.input, result with
  | .describe, .describe publicIdentity protocolVersion capabilities maximumRequestBytes =>
      verifyDescribe binding publicIdentity protocolVersion capabilities maximumRequestBytes
  | .publicIdentity, .publicIdentity publicIdentity => do
      verifyIdentity operation.expectedIdentity publicIdentity
      return .publicIdentity operation.expectedIdentity
  | .request (.signEvent unsigned), .signEvent payload => do
      let payload ← decodePayload payload
      verifySignedEvent library operation unsigned payload
  | .request (.nip04Encrypt expected plaintext), .nip04Encrypt peer payload => do
      verifyPeer expected peer
      let payload ← decodePayload payload
      let _ ← verifyNip04Ciphertext library payload (some plaintext.length)
      return .protectedPayload payload none
  | .request (.nip04Decrypt expected ciphertext), .nip04Decrypt peer payload => do
      verifyPeer expected peer
      let payload ← decodePayloadAllowEmpty payload
      let ciphertextLength ← verifyNip04Ciphertext library ciphertext none
      Except.require (payload.length < ciphertextLength) .nip04
      return .protectedPayload payload none
  | .request (.nip44Encrypt expected plaintext), .nip44Encrypt peer version payload => do
      verifyPeer expected peer
      Except.require (version = 2) .nip44
      let payload ← decodePayload payload
      let _ ← verifyNip44Ciphertext library payload (some plaintext.length)
      return .protectedPayload payload (some 2)
  | .request (.nip44Decrypt expected ciphertext), .nip44Decrypt peer version payload => do
      verifyPeer expected peer
      Except.require (version = 2) .nip44
      let payload ← decodePayload payload
      let paddedLength ← verifyNip44Ciphertext library ciphertext none
      Except.require (payload.length ≤ paddedLength ∧
        payload.length ≤ providerNip44PlaintextMaxBytes) .nip44
      return .protectedPayload payload (some 2)
  | _, _ => .error .resultShape

/-! ## Responses -/

/-- A decoded but untrusted local-signer success with the correlation of its envelope. -/
structure WireResponse where
  outerCorrelationId : Bytes
  contractVersion : ℕ
  providerInstance : Role
  role : Role
  operationId : Bytes
  correlationId : Bytes
  absoluteDeadlineUnixMs : ℕ
  expectedIdentity : Bytes
  capability : Capability
  result : WireResult
deriving DecidableEq

/-- One fully correlated, independently verified provider result. -/
structure Verified where
  operation : Operation
  result : VerifiedResult
deriving DecidableEq

/-- The checks of an operation against the assignment of its provider. -/
def BoundTo (binding : Binding) (kind : Kind) (operation : Operation) : Prop :=
  binding.kind = kind ∧ operation.provider = kind ∧ operation.role = binding.role ∧
    operation.expectedIdentity = binding.expectedIdentity ∧
    operation.input.capability ∈ binding.requiredCapabilities

instance (binding : Binding) (kind : Kind) (operation : Operation) :
    Decidable (BoundTo binding kind operation) := by
  unfold BoundTo
  infer_instance

/-- `verify_encrypted_provider_response` -/
def verifyEncryptedProviderResponse (library : Library) (binding : Binding) (operation : Operation)
    (observedAt : TimeUnixMs) (result : WireResult) : Except VerificationError Verified := do
  Except.require (BoundTo binding .encryptedFile operation) .invalidBinding
  Except.require (observedAt ≤ operation.deadline) .lateResponse
  let result ← verifyResult library binding operation result
  return ⟨operation, result⟩

/-- The wire response repeats the operation. -/
def WireResponse.Repeats (response : WireResponse) (operation : Operation) : Prop :=
  response.contractVersion = Provider.contractVersion ∧
    response.providerInstance = operation.role ∧
    response.role = operation.role ∧
    response.operationId = hexText (Id32.bytes operation.operationId) ∧
    response.correlationId = hexText (Id32.bytes operation.correlationId) ∧
    response.outerCorrelationId = hexText (Id32.bytes operation.correlationId) ∧
    response.absoluteDeadlineUnixMs = operation.deadline.get ∧
    response.expectedIdentity = operation.expectedIdentity.asHex ∧
    response.capability = operation.input.capability

instance (response : WireResponse) (operation : Operation) :
    Decidable (response.Repeats operation) := by
  unfold WireResponse.Repeats
  infer_instance

/-- `verify_response` -/
def verifyResponse (library : Library) (binding : Binding) (operation : Operation)
    (observedAt : TimeUnixMs) (response : WireResponse) : Except VerificationError Verified := do
  Except.require (BoundTo binding .localSigner operation) .invalidBinding
  Except.require (observedAt ≤ operation.deadline) .lateResponse
  Except.require (response.Repeats operation) .responseBinding
  let result ← verifyResult library binding operation response.result
  return ⟨operation, result⟩

/-- Verification of a keystore's result, in one equation. -/
theorem verifyEncryptedProviderResponse_eq_ok {library : Library} {binding : Binding}
    {operation : Operation} {observedAt : TimeUnixMs} {result : WireResult} {verified : Verified} :
    verifyEncryptedProviderResponse library binding operation observedAt result = .ok verified ↔
      BoundTo binding .encryptedFile operation ∧ observedAt ≤ operation.deadline ∧
        verifyResult library binding operation result = .ok verified.result ∧
        verified.operation = operation := by
  obtain ⟨bound, content⟩ := verified
  unfold verifyEncryptedProviderResponse
  simp only [Except.bind_eq_ok_iff, Except.require_eq_ok, pure, Except.pure, Except.ok.injEq,
    Verified.mk.injEq]
  constructor
  · rintro ⟨-, hbound, -, hintime, content', hcontent, rfl, rfl⟩
    exact ⟨hbound, hintime, hcontent, rfl⟩
  · rintro ⟨hbound, hintime, hcontent, rfl⟩
    exact ⟨(), hbound, (), hintime, content, hcontent, rfl, rfl⟩

/-- Verification of a local signer's response, in one equation. -/
theorem verifyResponse_eq_ok {library : Library} {binding : Binding} {operation : Operation}
    {observedAt : TimeUnixMs} {response : WireResponse} {verified : Verified} :
    verifyResponse library binding operation observedAt response = .ok verified ↔
      BoundTo binding .localSigner operation ∧ observedAt ≤ operation.deadline ∧
        response.Repeats operation ∧
        verifyResult library binding operation response.result = .ok verified.result ∧
        verified.operation = operation := by
  obtain ⟨bound, content⟩ := verified
  unfold verifyResponse
  simp only [Except.bind_eq_ok_iff, Except.require_eq_ok, pure, Except.pure, Except.ok.injEq,
    Verified.mk.injEq]
  constructor
  · rintro ⟨-, hbound, -, hintime, -, hrepeats, content', hcontent, rfl, rfl⟩
    exact ⟨hbound, hintime, hrepeats, hcontent, rfl⟩
  · rintro ⟨hbound, hintime, hrepeats, hcontent, rfl⟩
    exact ⟨(), hbound, (), hintime, (), hrepeats, content, hcontent, rfl, rfl⟩

end MycSigner.Provider
