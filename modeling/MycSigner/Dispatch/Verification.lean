import MycSigner.Dispatch.Work
import MycSigner.Encoding

/-!
# Verification of a request event

`verify_myc_nip46_event`: the encoding, the kind, the sender and the only tag of an event are
checked before its identifier, its signature, its time and the envelope of its content.  The
tag must name the transport identity, so an event addressed to any other key ends there.
-/

namespace MycSigner

/-! ## The event -/

/-- The closed failures of verification. -/
inductive VerificationError where
  | invalidTransportBinding
  | malformedEvent
  | nonCanonicalEvent
  | invalidKind
  | invalidSender
  | invalidReceiver
  | invalidEventId
  | invalidSignature
  | authoredTimeRejected
  | invalidNip04Envelope
  | invalidNip44Envelope
deriving DecidableEq

/-- The fields of an event as its JSON text spells them. -/
structure EventFields where
  id : Bytes
  pubkey : Bytes
  createdAt : ℕ
  kind : ℕ
  content : Bytes
  signature : Bytes
deriving DecidableEq

/-- The JSON, event and base64 libraries. -/
structure VerificationLibrary where
  fields : Bytes → Option EventFields
  decode : Bytes → Option NostrEvent
  /-- The key is the coordinate of a point. -/
  isXOnly : PublicKey → Bool
  verifyId : NostrEvent → Bool
  verifySignature : NostrEvent → Bool
  decodeBase64 : Bytes → Option Bytes
  encodeBase64 : Bytes → Bytes

/-- A structurally admitted event with the ciphertext found in it. -/
structure BoundedEvent where
  original : Bytes
  encryptedContent : Bytes
deriving DecidableEq

/-- Inclusive past and future tolerances, in seconds. -/
structure AuthoredTimePolicy where
  maximumPastSeconds : ℕ
  maximumFutureSeconds : ℕ
deriving DecidableEq

/-- The decoded event is spelled canonically. -/
def EventFields.spells (fields : EventFields) (event : NostrEvent) : Bool :=
  fields.id == hexText (Id32.bytes event.id) && fields.pubkey == event.pubkey.asHex &&
    fields.signature == hexText event.signature && fields.createdAt == event.createdAt &&
    fields.kind == event.kind && fields.content == event.content

/-- The largest 64-bit number. -/
def u64Max : ℕ := 18446744073709551615

/-- `verify_authored_time`, with saturating bounds. -/
def verifyAuthoredTime (authoredAt observedAt : ℕ) (policy : AuthoredTimePolicy) :
    Except VerificationError Unit :=
  Except.require (observedAt - policy.maximumPastSeconds ≤ authoredAt ∧
    authoredAt ≤ min (observedAt + policy.maximumFutureSeconds) u64Max) .authoredTimeRejected

/-! ## The envelope -/

/-- `decode_canonical_base64` -/
def decodeCanonicalBase64 (lib : VerificationLibrary) (encoded : Bytes) (e : VerificationError) :
    Except VerificationError Bytes := do
  let decoded ← Except.ofOption e (lib.decodeBase64 encoded)
  Except.require (lib.encodeBase64 decoded = encoded) e
  return decoded

/-- `verify_nip04_envelope` of the two parts of a ciphertext. -/
def verifyNip04Envelope (lib : VerificationLibrary) (encrypted iv : Bytes) :
    Except VerificationError Unit := do
  Except.require (encrypted ≠ [] ∧ iv ≠ [] ∧ splitOnce (ascii "?iv=") iv = none)
    .invalidNip04Envelope
  let encrypted ← decodeCanonicalBase64 lib encrypted .invalidNip04Envelope
  let iv ← decodeCanonicalBase64 lib iv .invalidNip04Envelope
  Except.require (encrypted ≠ [] ∧ encrypted.length % 16 = 0 ∧ iv.length = 16)
    .invalidNip04Envelope

/-- `is_valid_nip44_padding_length` -/
def isValidNip44PaddingLength (length : ℕ) : Bool :=
  (32 ≤ length && length ≤ 65536) &&
    (if length ≤ 256 then length % 32 == 0 else length % (Nat.nextPowerOfTwo length / 8) == 0)

/-- `verify_nip44_envelope`: a version, a nonce, a length, the padded text and a code. -/
def verifyNip44Envelope (lib : VerificationLibrary) (ciphertext : Bytes) :
    Except VerificationError Unit := do
  let decoded ← decodeCanonicalBase64 lib ciphertext .invalidNip44Envelope
  Except.require (decoded.head? = some 2) .invalidNip44Envelope
  Except.require (67 ≤ decoded.length ∧ isValidNip44PaddingLength (decoded.length - 67) = true)
    .invalidNip44Envelope

/-- `verify_encryption_context` -/
def verifyEncryptionContext (lib : VerificationLibrary) (ciphertext : Bytes) :
    Except VerificationError EncryptionContext :=
  match splitOnce (ascii "?iv=") ciphertext with
  | some (encrypted, iv) => do
      verifyNip04Envelope lib encrypted iv
      return .nip04
  | none => do
      verifyNip44Envelope lib ciphertext
      return .nip44V2

/-! ## Verification -/

/-- `verify_myc_nip46_event` under the binding of a role and its expected identity. -/
def verifyNip46Event (lib : VerificationLibrary) (bounded : BoundedEvent) (role : ProviderRole)
    (expectedReceiver : PublicKey) (observedAt : ℕ) (policy : AuthoredTimePolicy) :
    Except VerificationError VerifiedEvent := do
  Except.require (role = .transport) .invalidTransportBinding
  let fields ← Except.ofOption .malformedEvent (lib.fields bounded.original)
  let event ← Except.ofOption .malformedEvent (lib.decode bounded.original)
  Except.require (fields.spells event = true) .nonCanonicalEvent
  Except.require (event.kind = 24133) .invalidKind
  Except.require (lib.isXOnly event.pubkey = true) .invalidSender
  Except.require (event.pubkey.asHex ≠ expectedReceiver.asHex) .invalidSender
  Except.require (event.tags = [[ascii "p", expectedReceiver.asHex]]) .invalidReceiver
  Except.require (lib.verifyId event = true) .invalidEventId
  Except.require (lib.verifySignature event = true) .invalidSignature
  verifyAuthoredTime event.createdAt observedAt policy
  let encryptionContext ← verifyEncryptionContext lib bounded.encryptedContent
  return { eventId := event.id
           clientPublicKey := event.pubkey
           receiverPublicKey := expectedReceiver
           encryptionContext := encryptionContext
           encryptedContent := bounded.encryptedContent }

/-- A verified event is addressed to the transport identity, and to nobody else. -/
theorem verifyNip46Event_recipient {lib : VerificationLibrary} {bounded : BoundedEvent}
    {role : ProviderRole} {expectedReceiver : PublicKey} {observedAt : ℕ}
    {policy : AuthoredTimePolicy} {verified : VerifiedEvent}
    (h : verifyNip46Event lib bounded role expectedReceiver observedAt policy = .ok verified) :
    ∃ event, lib.decode bounded.original = some event ∧
      event.tags = [[ascii "p", expectedReceiver.asHex]] := by
  unfold verifyNip46Event at h
  obtain ⟨_, -, h⟩ := Except.bind_eq_ok_iff.mp h
  obtain ⟨fields, -, h⟩ := Except.bind_eq_ok_iff.mp h
  obtain ⟨event, hevent, h⟩ := Except.bind_eq_ok_iff.mp h
  obtain ⟨_, -, h⟩ := Except.bind_eq_ok_iff.mp h
  obtain ⟨_, -, h⟩ := Except.bind_eq_ok_iff.mp h
  obtain ⟨_, -, h⟩ := Except.bind_eq_ok_iff.mp h
  obtain ⟨_, -, h⟩ := Except.bind_eq_ok_iff.mp h
  obtain ⟨_, htags, -⟩ := Except.bind_eq_ok_iff.mp h
  exact ⟨event, Except.ofOption_eq_ok.mp hevent, Except.require_eq_ok.mp htags⟩

/-- An event addressed to another key is refused. -/
theorem verifyNip46Event_misaddressed {lib : VerificationLibrary} {bounded : BoundedEvent}
    {role : ProviderRole} {expectedReceiver recipient : PublicKey} {observedAt : ℕ}
    {policy : AuthoredTimePolicy} {event : NostrEvent}
    (hevent : lib.decode bounded.original = some event)
    (htags : event.tags = [[ascii "p", recipient.asHex]]) (hother : recipient ≠ expectedReceiver)
    (verified : VerifiedEvent) :
    verifyNip46Event lib bounded role expectedReceiver observedAt policy ≠ .ok verified := by
  intro h
  obtain ⟨decoded, hdecoded, hexpected⟩ := verifyNip46Event_recipient h
  obtain rfl := Option.some.inj (hevent.symm.trans hdecoded)
  rw [htags] at hexpected
  have htext : recipient.asHex = expectedReceiver.asHex := by simpa using hexpected
  exact hother (PublicKey.asHex_injective htext)

/-- A connect request names the transport identity, or is no work. -/
theorem prepareWork_connect_remote {protocol : Protocol} {metadata : PersistedMetadata}
    {prepared : PreparedRequest} {record : RequestRecord} {connection : Option ConnectionRecord}
    {observedAt : TimeUnixMs} {deadline : Option TimeUnixMs} {work : Work} {remote : PublicKey}
    {secret : Option Bytes} {permissions : List ProtocolPermission}
    (hrequest : prepared.request = .connect remote secret permissions)
    (h : prepareWork protocol metadata prepared record connection observedAt deadline = .ok work) :
    remote = metadata.transportPublicKey := by
  unfold prepareWork at h
  obtain ⟨_, -, h⟩ := Except.bind_eq_ok_iff.mp h
  rw [hrequest] at h
  obtain ⟨_, -, h⟩ := Except.bind_eq_ok_iff.mp h
  obtain ⟨_, hremote, -⟩ := Except.bind_eq_ok_iff.mp h
  exact Except.require_eq_ok.mp hremote

end MycSigner
