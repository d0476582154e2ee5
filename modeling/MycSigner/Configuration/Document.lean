import MycSigner.Dispatch.Work
import Mathlib.Data.Rat.Defs

/-!
# The configuration document

The normalized document, after its defaults, with the sections that the policies of the
service are built from.  Its shape is the schema's: a section with a switch is present or
absent, a closed vocabulary is an inductive type, and a public key is its canonical text's
value.  Admission is the schema's bounds and patterns and the relationships that the program
checks besides; the policy constructors then read the document again on their own.

The sections that no policy reads are carried as bytes.  The parsers of URLs and of bunker
addresses, the curve and the JSON encoder belong to other libraries and are a parameter.
-/

namespace MycSigner

/-! ## Numbers -/

/-- A number of the document: the format keeps integers and floats apart. -/
inductive Number where
  | integer (value : ℤ)
  | float (value : ℚ)
deriving DecidableEq

namespace Number

def value : Number → ℚ
  | .integer value => value
  | .float value => value

/-- The schema's `integer`: a number without a fractional part, however it is written. -/
def isInteger : Number → Bool
  | .integer _ => true
  | .float value => value.den == 1

/-- The schema's `integer` with `minimum` and `maximum`. -/
def within (number : Number) (minimum maximum : ℕ) : Bool :=
  number.isInteger && decide ((minimum : ℚ) ≤ number.value) &&
    decide (number.value ≤ (maximum : ℚ))

/-- `Value::as_u64`: a float is not one. -/
def asU64 : Number → Option ℕ
  | .integer value => if 0 ≤ value then some value.toNat else none
  | .float _ => none

/-- `u32::try_from` after `as_u64` -/
def asU32 (number : Number) : Option ℕ := number.asU64.filter (· < 2 ^ 32)

end Number

/-! ## Sections -/

/-- Bootstrap-selected network posture. -/
inductive ConfigProfile where
  | production
  | repoLocal
deriving DecidableEq

/-- Where a provider keeps its key. -/
inductive ProviderLocation where
  | encryptedFile (envelopePath credentialReference : Bytes)
  | localSigner (socketPath : Bytes)
      (requestDeadlineMs requestMaxBytes responseMaxBytes concurrency : Number)
deriving DecidableEq

structure ProviderEntry where
  location : ProviderLocation
  expectedPublicKey : PublicKey
deriving DecidableEq

inductive RelayAuthentication where
  | disabled
  | required
deriving DecidableEq

def RelayAuthentication.text : RelayAuthentication → Bytes
  | .disabled => ascii "disabled"
  | .required => ascii "required"

structure RelayEntry where
  id : Bytes
  url : Bytes
  read : Bool
  write : Bool
  required : Bool
  authentication : RelayAuthentication
deriving DecidableEq

inductive DeliveryPolicyEntry where
  | allRequired
  | atLeastOneRequired
  | requiredQuorum (requiredAcknowledgements : Number)
deriving DecidableEq

structure PublishRetry where
  maxAttempts : Number
  initialBackoffMs : Number
  maximumBackoffMs : Number
  attemptDeadlineMs : Number
deriving DecidableEq

structure ChallengesEntry where
  url : Bytes
  pendingLifetimeMs : Number
  authorizedLifetimeMs : Number
deriving DecidableEq

structure RetentionEntry where
  terminalConnectionsMs : Number
  terminalChallengesMs : Number
  requestDedupMs : Number
  auditMs : Number
  completedOutboxMs : Number
deriving DecidableEq

structure PolicyEntry where
  trustedClients : List PublicKey
  deniedClients : List PublicKey
  permissionCeiling : List Bytes
  allowedSignEventKinds : List Number
  challenges : Option ChallengesEntry
  retention : RetentionEntry
deriving DecidableEq

inductive RateScope where
  | globalAndRelay
  | connection
deriving DecidableEq

structure RateLimitEntry where
  scope : RateScope
  windowMs : Number
  maxAttempts : Number
  retentionMs : Number
  maximumTrackedSubjects : Number
deriving DecidableEq

structure EventLimitsEntry where
  wireBytes : Number
  contentBytes : Number
  tagCount : Number
  tagTotalElements : Number
  tagElementBytes : Number
  tagTotalBytes : Number
  decryptedPlaintextBytes : Number
deriving DecidableEq

structure DiscoveryMetadata where
  name : List Char
  displayName : List Char
  about : List Char
  website : List Char
  picture : List Char
deriving DecidableEq

structure DiscoveryEntry where
  domain : Bytes
  handlerIdentifier : Bytes
  publicRelayIds : List Bytes
  publishRelayIds : List Bytes
  nostrconnectUrlTemplate : Bytes
  metadata : DiscoveryMetadata
deriving DecidableEq

/-- The normalized document. -/
structure ConfigDocument where
  transport : ProviderEntry
  user : ProviderEntry
  /-- `identity.discovery`, when it is enabled. -/
  discoveryIdentity : Option ProviderEntry
  relays : List RelayEntry
  deliveryPolicy : DeliveryPolicyEntry
  publishRetry : PublishRetry
  policy : PolicyEntry
  connectionAdmission : RateLimitEntry
  challengeCreation : RateLimitEntry
  challengeAuthorization : RateLimitEntry
  events : EventLimitsEntry
  /-- `resource_limits.queues.outbox` -/
  outbox : Number
  workerThreads : Number
  blockingThreads : Number
  /-- `discovery`, when it is enabled. -/
  discovery : Option DiscoveryEntry
  /-- The sections that no policy reads. -/
  otherSections : Bytes
deriving DecidableEq

/-! ## The libraries -/

inductive Host where
  | domain (name : Bytes)
  | ipv4 (address : BitVec 32)
  | ipv6 (address : BitVec 128)
deriving DecidableEq

/-- `is_loopback` -/
def Host.isLoopback : Host → Bool
  | .domain name => name = ascii "localhost"
  | .ipv4 address => address >>> 24 = 127#32
  | .ipv6 address => address = 1#128

/-- A parsed URL. -/
structure Url where
  text : Bytes
  scheme : Bytes
  host : Option Host
  hostText : Option Bytes
  username : Bytes
  password : Option Bytes
  fragment : Option Bytes
deriving DecidableEq

/-- The parsers and encoders of other libraries. -/
structure ConfigLibrary where
  /-- `Url::parse` -/
  parseUrl : Bytes → Option Url
  /-- `RadrootsNostrRelayUrl::parse` -/
  isRelayUrl : Bytes → Bool
  /-- `nostr::Url::parse` -/
  isUrl : Bytes → Bool
  /-- The canonical text of a bunker address, by `Uri::parse`. -/
  bunkerUri : Bytes → Option Bytes
  /-- The key is the coordinate of a point. -/
  isXOnly : PublicKey → Bool
  /-- `ServiceCredentialArtifactName::new` -/
  isCredentialName : Bytes → Bool
  /-- The JSON text of the handler's metadata. -/
  metadataJson : Option (List Char) → Option (List Char) → Option (List Char) →
    Option (List Char) → Option (List Char) → Bytes
  /-- The JSON text of the projection input. -/
  projection : Bytes → PublicKey → List Bytes → Option Bytes → Bytes
  /-- The JSON text of the normalized document. -/
  encode : ConfigDocument → Bytes

/-! ## The schema -/

/-- A text starts with another. -/
def startsWith (start text : Bytes) : Bool := start.isPrefixOf text

mutual

/-- The rest of a lower-snake identifier after a letter or a digit. -/
def snakeRest : Bytes → Bool
  | [] => true
  | byte :: rest =>
      if byte == 95 then snakeWord rest
      else (isAsciiLowercase byte || isAsciiDigit byte) && snakeRest rest

/-- The rest after an underscore: a word of letters and digits must follow. -/
def snakeWord : Bytes → Bool
  | [] => false
  | byte :: rest => (isAsciiLowercase byte || isAsciiDigit byte) && snakeRest rest

end

/-- `^[a-z][a-z0-9]*(?:_[a-z0-9]+)*$` -/
def isLowerSnake : Bytes → Bool
  | [] => false
  | byte :: rest => isAsciiLowercase byte && snakeRest rest

/-- `relay_id` -/
def relayIdSchema (id : Bytes) : Bool := id.length ≤ 64 && isLowerSnake id

/-- `(?::[1-9][0-9]{0,4})?(?:/|$)` -/
def authorityEnd : Bytes → Bool
  | [] => true
  | 58 :: first :: rest =>
      (49 ≤ first && first ≤ 57) && (rest.takeWhile isAsciiDigit).length ≤ 4 &&
        (match rest.dropWhile isAsciiDigit with
          | [] => true
          | byte :: _ => byte == 47)
  | byte :: _ => byte == 47

/-- `relay_url` -/
def relayUrlSchema (url : Bytes) : Bool :=
  (1 ≤ url.length && url.length ≤ 2048) &&
    (startsWith (ascii "wss://") url ||
      [ascii "ws://localhost", ascii "ws://127.0.0.1", ascii "ws://[::1]"].any fun start =>
        (stripText start url).any authorityEnd)

/-- `https_url` -/
def httpsUrlSchema (url : Bytes) : Bool :=
  (1 ≤ url.length && url.length ≤ 2048) && startsWith (ascii "https://") url

/-- The text occurs. -/
def occurs (part : Bytes) : Bytes → Bool
  | [] => part.isEmpty
  | byte :: rest => startsWith part (byte :: rest) || occurs part rest

/-- `nostrconnect_url_template` -/
def templateSchema (template : Bytes) : Bool :=
  template.length ≤ 2048 && (stripText (ascii "https://") template).any fun rest =>
    rest.all (· != 32) && occurs (ascii "<nostrconnect>") rest

/-- `0|[1-9][0-9]{0,9}` -/
def kindSchema (digits : Bytes) : Bool :=
  digits == [48] ||
    (1 ≤ digits.length && digits.length ≤ 10 && digits.all isAsciiDigit && digits.head? != some 48)

/-- `permission` -/
def permissionSchema (text : Bytes) : Bool :=
  text ∈ [ascii "nip04_decrypt", ascii "nip04_encrypt", ascii "nip44_decrypt",
      ascii "nip44_encrypt", ascii "switch_relays"] ||
    (stripText (ascii "sign_event:kind:") text).any kindSchema

/-- `^[a-z0-9](?:[a-z0-9._-]{0,126}[a-z0-9])?$` -/
def credentialReferenceSchema (text : Bytes) : Bool :=
  let word (byte : UInt8) := isAsciiLowercase byte || isAsciiDigit byte
  (1 ≤ text.length && text.length ≤ 128) && text.head?.any word && text.getLast?.any word &&
    text.all fun byte => word byte || byte == 46 || byte == 95 || byte == 45

/-- `absolute_path` -/
def absolutePathSchema (path : Bytes) : Bool :=
  (1 ≤ path.length && path.length ≤ 4096) && startsWith (ascii "/") path

/-- `provider` -/
def ProviderEntry.schemaValid (entry : ProviderEntry) : Bool :=
  match entry.location with
  | .encryptedFile envelopePath credentialReference =>
      absolutePathSchema envelopePath && credentialReferenceSchema credentialReference
  | .localSigner socketPath requestDeadlineMs requestMaxBytes responseMaxBytes concurrency =>
      absolutePathSchema socketPath && requestDeadlineMs.within 1 30000 &&
        requestMaxBytes.within 1 65536 && responseMaxBytes.within 1 1048576 &&
        concurrency.within 1 64

/-- `delivery_policy` -/
def DeliveryPolicyEntry.schemaValid : DeliveryPolicyEntry → Bool
  | .allRequired | .atLeastOneRequired => true
  | .requiredQuorum requiredAcknowledgements => requiredAcknowledgements.within 1 32

/-- `publish_retry` -/
def PublishRetry.schemaValid (entry : PublishRetry) : Bool :=
  entry.maxAttempts.within 1 32 && entry.initialBackoffMs.within 1 30000 &&
    entry.maximumBackoffMs.within 1 300000 && entry.attemptDeadlineMs.within 1 30000

/-- `challenges` -/
def ChallengesEntry.schemaValid (entry : ChallengesEntry) : Bool :=
  httpsUrlSchema entry.url && entry.pendingLifetimeMs.within 1000 86400000 &&
    entry.authorizedLifetimeMs.within 1000 2592000000

/-- `retention` -/
def RetentionEntry.schemaValid (entry : RetentionEntry) : Bool :=
  [entry.terminalConnectionsMs, entry.terminalChallengesMs, entry.requestDedupMs, entry.auditMs,
    entry.completedOutboxMs].all fun number => number.within 1 31536000000

/-- `policy`; equal numbers are equal items however they are written. -/
def PolicyEntry.schemaValid (entry : PolicyEntry) : Bool :=
  (entry.trustedClients.length ≤ 1024 && decide entry.trustedClients.Nodup) &&
    (entry.deniedClients.length ≤ 1024 && decide entry.deniedClients.Nodup) &&
    ((1 ≤ entry.permissionCeiling.length && entry.permissionCeiling.length ≤ 64) &&
      decide entry.permissionCeiling.Nodup && entry.permissionCeiling.all permissionSchema) &&
    ((1 ≤ entry.allowedSignEventKinds.length && entry.allowedSignEventKinds.length ≤ 64) &&
      decide (entry.allowedSignEventKinds.map Number.value).Nodup &&
      entry.allowedSignEventKinds.all fun kind => kind.within 0 4294967295) &&
    entry.challenges.all ChallengesEntry.schemaValid && entry.retention.schemaValid

/-- `rate_limit` -/
def RateLimitEntry.schemaValid (entry : RateLimitEntry) : Bool :=
  entry.windowMs.within 1 86400000 && entry.maxAttempts.within 1 10000 &&
    entry.retentionMs.within 1 2592000000 && entry.maximumTrackedSubjects.within 1 65536

/-- `event_limits` -/
def EventLimitsEntry.schemaValid (entry : EventLimitsEntry) : Bool :=
  entry.wireBytes.within 1 524288 && entry.contentBytes.within 1 131072 &&
    entry.tagCount.within 1 1024 && entry.tagTotalElements.within 1 4096 &&
    entry.tagElementBytes.within 1 4096 && entry.tagTotalBytes.within 1 131072 &&
    entry.decryptedPlaintextBytes.within 1 262144

/-- `discovery_metadata` with the byte limits of its texts. -/
def DiscoveryMetadata.schemaValid (entry : DiscoveryMetadata) : Bool :=
  (1 ≤ (utf8 entry.name).length && (utf8 entry.name).length ≤ 128) &&
    (1 ≤ (utf8 entry.displayName).length && (utf8 entry.displayName).length ≤ 128) &&
    (utf8 entry.about).length ≤ 1024 && httpsUrlSchema (utf8 entry.website) &&
    httpsUrlSchema (utf8 entry.picture)

/-- `discovery` -/
def DiscoveryEntry.schemaValid (entry : DiscoveryEntry) : Bool :=
  (1 ≤ entry.domain.length && entry.domain.length ≤ 253) &&
    entry.domain.all (fun byte => isAsciiLowercase byte || isAsciiDigit byte || byte == 46 ||
      byte == 45) &&
    (entry.handlerIdentifier.length ≤ 128 && isLowerSnake entry.handlerIdentifier) &&
    ((1 ≤ entry.publicRelayIds.length && entry.publicRelayIds.length ≤ 32) &&
      decide entry.publicRelayIds.Nodup && entry.publicRelayIds.all relayIdSchema) &&
    ((1 ≤ entry.publishRelayIds.length && entry.publishRelayIds.length ≤ 32) &&
      decide entry.publishRelayIds.Nodup && entry.publishRelayIds.all relayIdSchema) &&
    templateSchema entry.nostrconnectUrlTemplate && entry.metadata.schemaValid

namespace ConfigDocument

/-- The schema, with the byte limits of `validate_utf8_byte_limits`, which are no wider than
its limits in characters. -/
def schemaValid (document : ConfigDocument) : Bool :=
  document.transport.schemaValid && document.user.schemaValid &&
    document.discoveryIdentity.all ProviderEntry.schemaValid &&
    ((1 ≤ document.relays.length && document.relays.length ≤ 32) &&
      document.relays.all fun relay => relayIdSchema relay.id && relayUrlSchema relay.url) &&
    document.deliveryPolicy.schemaValid && document.publishRetry.schemaValid &&
    document.policy.schemaValid && document.connectionAdmission.schemaValid &&
    document.challengeCreation.schemaValid && document.challengeAuthorization.schemaValid &&
    document.events.schemaValid && document.outbox.within 1 65536 &&
    document.workerThreads.within 2 32 && document.blockingThreads.within 1 32 &&
    document.discovery.all DiscoveryEntry.schemaValid

/-! ## Relationships -/

end ConfigDocument

/-- The closed failures of an admission after the schema's own. -/
inductive ConfigError where
  | invalidDocument
  | invalidRelationship
deriving DecidableEq

/-- `integer` -/
def Number.integerField (number : Number) : Except ConfigError ℕ :=
  Except.ofOption .invalidDocument number.asU64

/-- The schemes and hosts that a profile allows. -/
def ConfigProfile.allows (profile : ConfigProfile) (url : Url) : Bool :=
  match profile with
  | .production => url.scheme == ascii "wss"
  | .repoLocal =>
      url.scheme == ascii "wss" || (url.scheme == ascii "ws" && url.hostText.any fun host =>
        host ∈ [ascii "localhost", ascii "127.0.0.1", ascii "[::1]", ascii "::1"])

/-- `canonical_relay_url` -/
def canonicalRelayUrl (lib : ConfigLibrary) (profile : ConfigProfile) (value : Bytes) :
    Except ConfigError Unit := do
  let url ← Except.ofOption .invalidDocument (lib.parseUrl value)
  Except.require (url.text = value ∧ url.username = [] ∧ url.password = none ∧ url.fragment = none)
    .invalidDocument
  Except.require (profile.allows url = true) .invalidRelationship

/-- The loop over the relays, with the identifiers and URLs seen so far. -/
def validateRelays (lib : ConfigLibrary) (profile : ConfigProfile) :
    List Bytes → List Bytes → List RelayEntry → Except ConfigError Unit
  | _, _, [] => .ok ()
  | ids, urls, relay :: relays => do
      canonicalRelayUrl lib profile relay.url
      Except.require (relay.id ∉ ids ∧ relay.url ∉ urls ∧ (relay.read || relay.write) = true)
        .invalidRelationship
      validateRelays lib profile (relay.id :: ids) (relay.url :: urls) relays

/-- The two sets have the same numbers. -/
def sameNumbers (left right : List ℕ) : Bool :=
  left.all (· ∈ right) && right.all (· ∈ left)

/-- `validate_client_policy` -/
def validateClientPolicy (lib : ConfigLibrary) (policy : PolicyEntry) : Except ConfigError Unit := do
  Except.require ((∀ key ∈ policy.trustedClients ++ policy.deniedClients, lib.isXOnly key = true) ∧
    ∀ key ∈ policy.trustedClients, key ∉ policy.deniedClients) .invalidRelationship
  let permissionKinds ← (policy.permissionCeiling.filterMap
    (stripText (ascii "sign_event:kind:"))).mapM fun kind =>
      Except.ofOption ConfigError.invalidDocument ((parseU32 kind).map UInt32.toNat)
  let allowedKinds ← policy.allowedSignEventKinds.mapM fun kind =>
    Except.ofOption ConfigError.invalidDocument kind.asU32
  Except.require (sameNumbers permissionKinds allowedKinds = true) .invalidRelationship

/-- `validate_challenges` -/
def validateChallenges : Option ChallengesEntry → Except ConfigError Unit
  | none => .ok ()
  | some entry => do
      let authorized ← entry.authorizedLifetimeMs.integerField
      let pending ← entry.pendingLifetimeMs.integerField
      Except.require (pending ≤ authorized) .invalidRelationship

/-- `validate_rate_limits` for one class. -/
def validateRateLimit (scope : RateScope) (entry : RateLimitEntry) : Except ConfigError Unit := do
  Except.require (entry.scope = scope) .invalidRelationship
  let retention ← entry.retentionMs.integerField
  let window ← entry.windowMs.integerField
  Except.require (window ≤ retention) .invalidRelationship

/-- A quorum is no larger than the number of required writers. -/
def validateQuorum (relays : List RelayEntry) : DeliveryPolicyEntry → Except ConfigError Unit
  | .allRequired | .atLeastOneRequired => .ok ()
  | .requiredQuorum requiredAcknowledgements => do
      let required ← requiredAcknowledgements.integerField
      Except.require (required ≤ (relays.filter fun relay => relay.required && relay.write).length)
        .invalidRelationship

/-- `validate_transport` -/
def validateTransport (document : ConfigDocument) : Except ConfigError Unit := do
  let initial ← document.publishRetry.initialBackoffMs.integerField
  let maximum ← document.publishRetry.maximumBackoffMs.integerField
  Except.require (initial ≤ maximum) .invalidRelationship
  validateQuorum document.relays document.deliveryPolicy

/-- Every listed relay has the capability. -/
def referencesRelays (relays : List RelayEntry) (capability : RelayEntry → Bool)
    (ids : List Bytes) : Bool :=
  ids.all fun id => relays.any fun relay => relay.id == id && capability relay

/-- `validate_discovery` -/
def validateDiscovery (document : ConfigDocument) : Except ConfigError Unit := do
  Except.require (document.discovery.isSome = document.discoveryIdentity.isSome) .invalidRelationship
  match document.discovery with
  | none => .ok ()
  | some entry =>
      Except.require (referencesRelays document.relays RelayEntry.read entry.publicRelayIds = true ∧
        referencesRelays document.relays RelayEntry.write entry.publishRelayIds = true)
        .invalidRelationship

namespace ConfigDocument

/-- The expected keys of the enabled roles. -/
def roleKeys (document : ConfigDocument) : List PublicKey :=
  [document.transport.expectedPublicKey, document.user.expectedPublicKey] ++
    (document.discoveryIdentity.map ProviderEntry.expectedPublicKey).toList

/-- `validate_relationships`; the operations listener is no part of a policy. -/
def validateRelationships (lib : ConfigLibrary) (profile : ConfigProfile)
    (document : ConfigDocument) : Except ConfigError Unit := do
  validateRelays lib profile [] [] document.relays
  Except.require (document.relays.any RelayEntry.read = true ∧
    document.relays.any RelayEntry.write = true ∧
    (document.relays.any fun relay => relay.required && relay.read) = true ∧
    (document.relays.any fun relay => relay.required && relay.write) = true) .invalidRelationship
  Except.require ((∀ key ∈ document.roleKeys, lib.isXOnly key = true) ∧ document.roleKeys.Nodup)
    .invalidRelationship
  validateClientPolicy lib document.policy
  validateChallenges document.policy.challenges
  validateRateLimit .globalAndRelay document.connectionAdmission
  validateRateLimit .connection document.challengeCreation
  validateRateLimit .connection document.challengeAuthorization
  validateTransport document
  validateDiscovery document

end ConfigDocument

/-- `binding_from_config`: the limits of a local signer are read as integers. -/
def ProviderEntry.bound (lib : ConfigLibrary) (entry : ProviderEntry) : Bool :=
  lib.isXOnly entry.expectedPublicKey &&
    match entry.location with
    | .encryptedFile envelopePath credentialReference =>
        startsWith (ascii "/") envelopePath && lib.isCredentialName credentialReference
    | .localSigner socketPath requestDeadlineMs requestMaxBytes responseMaxBytes concurrency =>
        startsWith (ascii "/") socketPath &&
          requestDeadlineMs.asU64.any (fun value => 1 ≤ value && value ≤ 30000) &&
          requestMaxBytes.asU64.any (fun value => 1 ≤ value && value ≤ 65536) &&
          responseMaxBytes.asU64.any (fun value => 1 ≤ value && value ≤ 1048576) &&
          concurrency.asU32.any (fun value => 1 ≤ value && value ≤ 64)

/-- The document is admitted: `parse_myc_config_v1` from the normalized document on. -/
def ConfigDocument.admitted (lib : ConfigLibrary) (profile : ConfigProfile)
    (document : ConfigDocument) : Bool :=
  document.schemaValid && (document.validateRelationships lib profile).isOk &&
    (document.transport.bound lib && document.user.bound lib &&
      document.discoveryIdentity.all (ProviderEntry.bound lib)) &&
    document.workerThreads.asU64.isSome && document.blockingThreads.asU64.isSome

end MycSigner
