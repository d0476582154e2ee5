import MycSigner.Configuration

/-!
# Signed events

The event library decodes, encodes and verifies events; it is a parameter here.  What this
program checks of a response event and of a discovery event is defined over what the
library decoded.
-/

namespace MycSigner

/-- A decoded Nostr event. -/
structure NostrEvent where
  id : Id32
  pubkey : PublicKey
  createdAt : ℕ
  kind : ℕ
  tags : List (List Bytes)
  content : Bytes
  signature : Bytes
deriving DecidableEq

/-- The event library: JSON decoding and encoding, and verification of the identifier and
the signature. -/
structure EventCodec where
  decode : Bytes → Option NostrEvent
  encode : NostrEvent → Bytes
  verify : NostrEvent → Bool

/-- The canonical bytes of a verified event. -/
def EventCodec.canonical (codec : EventCodec) (bytes : Bytes) : Option NostrEvent :=
  (codec.decode bytes).filter fun event => codec.encode event == bytes && codec.verify event

/-- The largest provider output. -/
def providerOutputMaxBytes : ℕ := 1048576

/-- `validate_response_event`: one recipient tag, the client's. -/
def validateResponseEvent (codec : EventCodec) (bytes : Bytes) (client : PublicKey)
    (expectedResponder : Option PublicKey) : Option NostrEvent :=
  if bytes.isEmpty || providerOutputMaxBytes < bytes.length then none
  else (codec.canonical bytes).filter fun event =>
    event.kind == 24133 && !event.content.isEmpty &&
      event.tags == [[ascii "p", client.asHex]] &&
      expectedResponder.all (event.pubkey == ·)

/-- The tags of the configured discovery handler. -/
def DiscoveryPolicies.expectedTags (policy : DiscoveryPolicies) : List (List Bytes) :=
  [[ascii "d", policy.handlerIdentifier], [ascii "k", decimal 24133]] ++
    policy.publicRelays.map (fun relay => [ascii "relay", relay]) ++
    (policy.nostrconnectUrl.map fun url => [ascii "nostrconnect_url", url]).toList

/-- `validate_event` of a discovery document. -/
def DiscoveryPolicies.validateEvent (policy : DiscoveryPolicies) (event : NostrEvent) : Bool :=
  event.pubkey == policy.authorPublicKey && event.kind == 31990 &&
    event.tags == policy.expectedTags && event.content == policy.metadataJson

end MycSigner
