import MycSigner.Responses

/-!
# The work of a request

A verified event is decrypted by the transport provider, its plaintext is read as a request,
and the admitted request is bound to a session and, for the methods that need one, to an
operation of the user provider.  The event and the protocol library decode what a client
sent; they are a parameter here, and everything this program decides about what they decoded
is defined over it.
-/

namespace MycSigner

/-! ## Provider operations -/

inductive ProviderRole where
  | transport
  | user
deriving DecidableEq

/-- The input of a provider operation; the two ciphers of the protocol share their shape. -/
inductive ProviderInput where
  | signEvent (unsigned : Bytes)
  | nip04Encrypt (peer : PublicKey) (plaintext : Bytes)
  | nip04Decrypt (peer : PublicKey) (ciphertext : Bytes)
  | nip44Encrypt (peer : PublicKey) (plaintext : Bytes)
  | nip44Decrypt (peer : PublicKey) (ciphertext : Bytes)
deriving DecidableEq

def providerInputMaxBytes : ℕ := 262144

def providerNip44PlaintextMaxBytes : ℕ := 65536 - 128

/-- `copy_input` -/
def copyInput (bytes : Bytes) (emptyAllowed : Bool) : Option Bytes :=
  if (!emptyAllowed && bytes.isEmpty) || providerInputMaxBytes < bytes.length then none
  else some bytes

namespace ProviderInput

def newSignEvent (unsigned : Bytes) : Option ProviderInput :=
  (copyInput unsigned false).map .signEvent

def newNip04Encrypt (peer : PublicKey) (plaintext : Bytes) : Option ProviderInput :=
  (copyInput plaintext true).map (.nip04Encrypt peer)

def newNip04Decrypt (peer : PublicKey) (ciphertext : Bytes) : Option ProviderInput :=
  (copyInput ciphertext false).map (.nip04Decrypt peer)

def newNip44Encrypt (peer : PublicKey) (plaintext : Bytes) : Option ProviderInput :=
  if providerNip44PlaintextMaxBytes < plaintext.length then none
  else (copyInput plaintext false).map (.nip44Encrypt peer)

def newNip44Decrypt (peer : PublicKey) (ciphertext : Bytes) : Option ProviderInput :=
  (copyInput ciphertext false).map (.nip44Decrypt peer)

end ProviderInput

/-- One fully bound provider operation.  Both roles have every capability of the protocol. -/
structure ProviderOperation where
  role : ProviderRole
  operationId : Id32
  correlationId : Id32
  deadline : TimeUnixMs
  expectedIdentity : PublicKey
  input : ProviderInput
deriving DecidableEq

/-- What a provider returns for an operation. -/
inductive ProviderResult where
  | signedEvent (bytes : Bytes)
  | protectedPayload (bytes : Bytes)
deriving DecidableEq

/-- A response that was verified against its operation. -/
structure VerifiedResponse where
  operation : ProviderOperation
  result : ProviderResult
deriving DecidableEq

namespace VerifiedResponse

def signedEventBytes (response : VerifiedResponse) : Option Bytes :=
  match response.result with
  | .signedEvent bytes => some bytes
  | .protectedPayload _ => none

def protectedPayload (response : VerifiedResponse) : Option Bytes :=
  match response.result with
  | .signedEvent _ => none
  | .protectedPayload bytes => some bytes

end VerifiedResponse

/-! ## Events and requests -/

inductive EncryptionContext where
  | nip04
  | nip44V2
deriving DecidableEq

/-- A verified request event. -/
structure VerifiedEvent where
  eventId : Id32
  clientPublicKey : PublicKey
  receiverPublicKey : PublicKey
  encryptionContext : EncryptionContext
  encryptedContent : Bytes
deriving DecidableEq

/-- A permission as a connect request spells it. -/
structure ProtocolPermission where
  method : Bytes
  parameter : Option Bytes
deriving DecidableEq

/-- A decoded request. -/
inductive Request where
  | connect (remoteSigner : PublicKey) (secret : Option Bytes)
      (requestedPermissions : List ProtocolPermission)
  | getPublicKey
  | getSessionCapability
  | signEvent (unsigned : Bytes)
  | nip04Encrypt (peer : PublicKey) (plaintext : Bytes)
  | nip04Decrypt (peer : PublicKey) (ciphertext : Bytes)
  | nip44Encrypt (peer : PublicKey) (plaintext : Bytes)
  | nip44Decrypt (peer : PublicKey) (ciphertext : Bytes)
  | ping
  | switchRelays
  | logout
  | custom (method : Bytes)
deriving DecidableEq

/-- The closed method of a request; a custom method is none of them. -/
def Request.method : Request → Option Method
  | .connect _ _ _ => some .connect
  | .getPublicKey => some .getPublicKey
  | .getSessionCapability => some .getSessionCapability
  | .signEvent _ => some .signEvent
  | .nip04Encrypt _ _ => some .nip04Encrypt
  | .nip04Decrypt _ _ => some .nip04Decrypt
  | .nip44Encrypt _ _ => some .nip44Encrypt
  | .nip44Decrypt _ _ => some .nip44Decrypt
  | .ping => some .ping
  | .switchRelays => some .switchRelays
  | .logout => some .logout
  | .custom _ => none

/-- A decrypted request bound to its event. -/
structure DecryptedRequest where
  requestId : RequestId
  method : Method
  requestDigest : Id32
  request : Request
deriving DecidableEq

/-- A response of the protocol. -/
inductive Response where
  | userPublicKey (key : PublicKey)
  | pendingConnection
  | error (text : Bytes)
  | remoteSessionCapability (user : PublicKey) (relays : List Bytes) (permissions : List Bytes)
  | signedEvent (json : Bytes)
  | nip04Encrypt (text : Bytes)
  | nip04Decrypt (text : Bytes)
  | nip44Encrypt (text : Bytes)
  | nip44Decrypt (text : Bytes)
  | pong
  | relayListUnchanged
  | logoutAcknowledged
deriving DecidableEq

/-- The event and protocol library with the limits of the configuration. -/
structure Protocol where
  /-- `admit_myc_nip46_event` and `verify_myc_nip46_event` at an observed second -/
  verifyEvent : Bytes → ℕ → Option VerifiedEvent
  /-- `admit_myc_nip46_request`, `verify_myc_nip46_request`, `bind_myc_nip46_replay` and the
  decoding of the request message -/
  readRequest : VerifiedEvent → Bytes → Option DecryptedRequest
  /-- The text of the permission that a request needs. -/
  requiredPermission : Request → Option Bytes
  /-- The author of a canonical unsigned event with a correct identifier. -/
  unsignedAuthor : Bytes → Option PublicKey
  /-- The JSON envelope of a response. -/
  envelope : RequestId → Response → Option Bytes
  /-- The canonical unsigned response event to a client. -/
  unsignedResponse : PublicKey → PublicKey → ℕ → Bytes → Bytes
  /-- Valid UTF-8. -/
  isText : Bytes → Bool
  /-- The JSON text of a signed event. -/
  isSignedEvent : Bytes → Bool
  /-- The protocol accepts these permission codes and relays as a capability. -/
  capability : PublicKey → List Bytes → List Bytes → Option Response

/-! ## Decryption -/

/-- `derive_decrypt_identity` and `derived_identifier` -/
def deriveIdentifier (separator : String) (id : Id32) : Id32 :=
  Sha256.digest (domain separator ++ Id32.bytes id)

/-- The ciphertext of an event as the input of a decryption. -/
def VerifiedEvent.decryptInput (event : VerifiedEvent) : Option ProviderInput :=
  match event.encryptionContext with
  | .nip04 => ProviderInput.newNip04Decrypt event.clientPublicKey event.encryptedContent
  | .nip44V2 => ProviderInput.newNip44Decrypt event.clientPublicKey event.encryptedContent

/-- The operation of `prepare_myc_nip46_decrypt_work`. -/
def prepareDecryptWork (metadata : PersistedMetadata) (event : VerifiedEvent)
    (deadline : TimeUnixMs) : Option ProviderOperation := do
  guard (metadata.transportPublicKey = event.receiverPublicKey)
  let input ← event.decryptInput
  return { role := .transport
           operationId := deriveIdentifier "radroots.myc.nip46.decrypt.operation.v1" event.eventId
           correlationId :=
             deriveIdentifier "radroots.myc.nip46.decrypt.correlation.v1" event.eventId
           deadline := deadline
           expectedIdentity := metadata.transportPublicKey
           input := input }

/-- Exact request ready for durable admission. -/
structure PreparedRequest where
  signerRequest : SignerRequest
  request : Request
  encryptionContext : EncryptionContext
deriving DecidableEq

/-- `prepare_myc_nip46_request` -/
def prepareRequest (event : VerifiedEvent) (decrypted : DecryptedRequest) (nonce : Id32)
    (receivedAt : TimeUnixMs) : Option PreparedRequest := do
  guard (decrypted.request.method = some decrypted.method)
  return { signerRequest :=
             { clientPublicKey := event.clientPublicKey
               requestId := decrypted.requestId
               eventId := event.eventId
               method := decrypted.method
               requestDigest := decrypted.requestDigest
               operationNonce := nonce
               receivedAt := receivedAt }
           request := decrypted.request
           encryptionContext := event.encryptionContext }

/-! ## Permissions of a request -/

/-- `str::parse::<u32>` -/
def parseU32 (text : Bytes) : Option UInt32 :=
  let digits := match text with
    | 43 :: rest => rest
    | text => text
  if digits.isEmpty || !digits.all isAsciiDigit then none
  else
    let value := digits.foldl (fun value digit => value * 10 + (digit.toNat - 48)) 0
    if value < 2 ^ 32 then some (UInt32.ofNat value) else none

/-- A decimal event kind without sign or leading zeros. -/
def parseKind (text : Bytes) : Option UInt32 :=
  (parseU32 text).filter fun kind => decimal kind.toNat = text

/-- `strip_prefix` -/
def stripText (start text : Bytes) : Option Bytes :=
  if start.isPrefixOf text then some (text.drop start.length) else none

/-- `str::split_once` -/
def splitOnce (separator : Bytes) : Bytes → Option (Bytes × Bytes)
  | [] => if separator.isEmpty then some ([], []) else none
  | byte :: rest =>
      match stripText separator (byte :: rest) with
      | some tail => some ([], tail)
      | none => (splitOnce separator rest).map fun parts => (byte :: parts.1, parts.2)

/-- `MycConnectionPermission::parse` -/
def Permission.parse (text : Bytes) : Option Permission :=
  if text = ascii "get_public_key" then some .getPublicKey
  else if text = ascii "get_session_capability" then some .getSessionCapability
  else if text = ascii "nip04_encrypt" then some .nip04Encrypt
  else if text = ascii "nip04_decrypt" then some .nip04Decrypt
  else if text = ascii "nip44_encrypt" then some .nip44Encrypt
  else if text = ascii "nip44_decrypt" then some .nip44Decrypt
  else if text = ascii "ping" then some .ping
  else if text = ascii "switch_relays" then some .switchRelays
  else if text = ascii "logout" then some .logout
  else ((stripText (ascii "sign_event:kind:") text).bind parseKind).map .signEvent

/-- The permissions that a connect request may ask for. -/
def Permission.grantable : Permission → Bool
  | .signEvent _ | .nip04Encrypt | .nip04Decrypt | .nip44Encrypt | .nip44Decrypt
  | .switchRelays => true
  | .getPublicKey | .getSessionCapability | .ping | .logout => false

/-- The closed failures of `prepare_myc_nip46_work`. -/
inductive WorkError where
  | invalidBinding
  | unsupportedMethod
  | permissionDenied
  | connectionExpired
  | providerWorkRejected
deriving DecidableEq

/-- `connect_permission` -/
def connectPermission (permission : ProtocolPermission) : Except WorkError Permission :=
  if permission.method = ascii "sign_event" then do
    let parameter ← Except.ofOption .permissionDenied permission.parameter
    let kind := (stripText (ascii "kind:") parameter).getD parameter
    let kind ← Except.ofOption .permissionDenied (parseKind kind)
    return .signEvent kind
  else if permission.parameter.isSome then .error .permissionDenied
  else Except.ofOption .unsupportedMethod (Permission.parse permission.method)

/-- `connect_permissions` -/
def connectPermissions (permissions : List ProtocolPermission) : Except WorkError PermissionSet := do
  let permissions ← permissions.mapM connectPermission
  Except.require (permissions.all Permission.grantable = true) .permissionDenied
  Except.ofOption .permissionDenied (PermissionSet.new permissions)

/-! ## Work -/

inductive WorkPayload where
  | connect (client : PublicKey) (permissions : PermissionSet)
  | localWork
  | provider (operation : ProviderOperation)
deriving DecidableEq

/-- Sealed request work constructed only after durable request admission. -/
structure Work where
  request : RequestRecord
  connection : Option ConnectionRecord
  method : Method
  encryptionContext : EncryptionContext
  payload : WorkPayload
deriving DecidableEq

/-- `provider_operation` -/
def Work.providerOperation (work : Work) : Option ProviderOperation :=
  match work.payload with
  | .provider operation => some operation
  | .connect _ _ | .localWork => none

/-- `matches_request` -/
def RequestRecord.matchesRequest (record : RequestRecord) (request : SignerRequest) : Bool :=
  record.operationId == request.operationId &&
    record.correlationId == deriveCorrelationId request.operationId &&
    record.clientPublicKey == request.clientPublicKey &&
    record.requestId == request.requestId && record.firstEventId == request.eventId &&
    record.method == request.method && record.requestDigest == request.requestDigest &&
    record.receivedAt == request.receivedAt

/-- `provider_work` -/
def providerWork (metadata : PersistedMetadata) (record : RequestRecord) (observedAt : TimeUnixMs)
    (deadline : Option TimeUnixMs) (input : Option ProviderInput) : Except WorkError WorkPayload := do
  let deadline ← Except.ofOption .invalidBinding deadline
  Except.require (observedAt < deadline) .providerWorkRejected
  let input ← Except.ofOption .providerWorkRejected input
  return .provider
    { role := .user
      operationId := record.operationId
      correlationId := record.correlationId
      deadline := deadline
      expectedIdentity := metadata.userPublicKey
      input := input }

/-- `sign_event_input` -/
def signEventInput (protocol : Protocol) (metadata : PersistedMetadata) (unsigned : Bytes) :
    Except WorkError ProviderInput := do
  let author ← Except.ofOption .providerWorkRejected (protocol.unsignedAuthor unsigned)
  Except.require (author = metadata.userPublicKey) .providerWorkRejected
  Except.ofOption .providerWorkRejected (ProviderInput.newSignEvent unsigned)

/-- The payload of a request other than a connect. -/
def sessionPayload (protocol : Protocol) (metadata : PersistedMetadata) (record : RequestRecord)
    (observedAt : TimeUnixMs) (deadline : Option TimeUnixMs) (request : Request) :
    Except WorkError WorkPayload :=
  match request with
  | .getPublicKey | .getSessionCapability | .ping | .switchRelays | .logout => do
      Except.require (deadline = none) .invalidBinding
      return .localWork
  | .signEvent unsigned => do
      let input ← signEventInput protocol metadata unsigned
      providerWork metadata record observedAt deadline (some input)
  | .nip04Encrypt peer plaintext =>
      providerWork metadata record observedAt deadline
        (ProviderInput.newNip04Encrypt peer plaintext)
  | .nip04Decrypt peer ciphertext =>
      providerWork metadata record observedAt deadline
        (ProviderInput.newNip04Decrypt peer ciphertext)
  | .nip44Encrypt peer plaintext =>
      providerWork metadata record observedAt deadline
        (ProviderInput.newNip44Encrypt peer plaintext)
  | .nip44Decrypt peer ciphertext =>
      providerWork metadata record observedAt deadline
        (ProviderInput.newNip44Decrypt peer ciphertext)
  | .connect _ _ _ | .custom _ => .error .unsupportedMethod

/-- The session of a request must be the client's own, live, and grant what the request
needs. -/
def requireSession (protocol : Protocol) (prepared : PreparedRequest)
    (connection : Option ConnectionRecord) (observedAt : TimeUnixMs) :
    Except WorkError ConnectionRecord := do
  let connection ← Except.ofOption .invalidBinding connection
  Except.require (connection.clientPublicKey = prepared.signerRequest.clientPublicKey)
    .invalidBinding
  Except.require (connection.status = .active ∧
    connection.authorizedUntil.all (fun limit => decide (observedAt ≤ limit)) = true)
    .connectionExpired
  match protocol.requiredPermission prepared.request with
  | none => return connection
  | some text => do
      let permission ← Except.ofOption .unsupportedMethod (Permission.parse text)
      Except.require (connection.grantedPermissions.contains permission = true) .permissionDenied
      return connection

/-- `prepare_myc_nip46_work` -/
def prepareWork (protocol : Protocol) (metadata : PersistedMetadata) (prepared : PreparedRequest)
    (record : RequestRecord) (connection : Option ConnectionRecord) (observedAt : TimeUnixMs)
    (deadline : Option TimeUnixMs) : Except WorkError Work := do
  Except.require (record.matchesRequest prepared.signerRequest = true ∧
    record.receivedAt ≤ observedAt) .invalidBinding
  match prepared.request with
  | .connect remoteSigner secret requested => do
      Except.require (connection = none ∧ deadline = none ∧ secret = none) .invalidBinding
      Except.require (remoteSigner = metadata.transportPublicKey) .invalidBinding
      let permissions ← connectPermissions requested
      return { request := record, connection := none, method := prepared.signerRequest.method,
               encryptionContext := prepared.encryptionContext,
               payload := .connect prepared.signerRequest.clientPublicKey permissions }
  | .custom _ => .error .unsupportedMethod
  | request => do
      let connection ← requireSession protocol prepared connection observedAt
      let payload ← sessionPayload protocol metadata record observedAt deadline request
      return { request := record, connection := some connection,
               method := prepared.signerRequest.method,
               encryptionContext := prepared.encryptionContext, payload := payload }

end MycSigner
