import MycSigner.Configuration.Document

/-!
# The policies of a document

Each policy constructor reads the normalized document on its own and checks again what it
needs.  Together they build the configuration that a running service holds; a document for
which one of them fails cannot be opened.
-/

namespace MycSigner

/-! ## Values with checks -/

/-- `MycRateRelayId::new` and `MycDeliveryRelayId::new` -/
def RelayId.new (bytes : Bytes) : Option RelayId :=
  if valid : relayIdValid bytes = true then some ⟨bytes, valid⟩ else none

/-- `MycRateLimitPolicy::new` -/
def RateLimitPolicy.new (rateClass : RateLimitClass)
    (windowMs maxAttempts retentionMs maximumTrackedSubjects : ℕ) : Option RateLimitPolicy :=
  if valid : rateLimitPolicyValid windowMs maxAttempts retentionMs maximumTrackedSubjects = true then
    some { rateClass, windowMs, maxAttempts, retentionMs, maximumTrackedSubjects, valid }
  else none

/-- `MycGovernancePolicies::new` -/
def GovernancePolicies.new
    (connectionAdmission challengeCreation challengeAuthorization : RateLimitPolicy)
    (auditRetentionMs : ℕ) (relays : List RelayId) : Option GovernancePolicies :=
  if valid : (connectionAdmission.rateClass = .connectionAdmission ∧
      challengeCreation.rateClass = .challengeCreation ∧
      challengeAuthorization.rateClass = .challengeAuthorization) ∧
      (1 ≤ auditRetentionMs ∧ auditRetentionMs ≤ 31536000000) ∧ relays ≠ [] then
    some { connectionAdmission, challengeCreation, challengeAuthorization, auditRetentionMs, relays
           admission_class := valid.1.1
           creation_class := valid.1.2.1
           authorization_class := valid.1.2.2
           audit_bounded := valid.2.1
           relays_nonempty := valid.2.2 }
  else none

/-- `MycAuthorizationChallengeUrl::new` -/
def ChallengeUrl.new (lib : ConfigLibrary) (value : Bytes) : Option ChallengeUrl := do
  let url ← lib.parseUrl value
  if valid : (1 ≤ value.length ∧ value.length ≤ 2048) ∧
      ((url.scheme = ascii "https" ∨
        (url.scheme = ascii "http" ∧ url.host.any Host.isLoopback = true)) ∧
      url.username = [] ∧ url.password = none ∧ url.fragment = none ∧ url.text = value) then
    some ⟨value, valid.1⟩
  else none

/-- A positive integer that SQLite can hold. -/
def Number.positive (number : Number) : Option ℕ :=
  number.asU64.filter fun value => 0 < value && value ≤ i64Max

/-! ## Governance -/

def rateLimitPolicy (rateClass : RateLimitClass) (entry : RateLimitEntry) :
    Option RateLimitPolicy := do
  let windowMs ← entry.windowMs.asU64
  let maxAttempts ← entry.maxAttempts.asU32
  let retentionMs ← entry.retentionMs.asU64
  let maximumTrackedSubjects ← entry.maximumTrackedSubjects.asU32
  RateLimitPolicy.new rateClass windowMs maxAttempts retentionMs maximumTrackedSubjects

/-- `governance_policies` -/
def governancePolicies (document : ConfigDocument) : Option GovernancePolicies := do
  let relays ← document.relays.mapM fun relay => RelayId.new relay.id
  let admission ← rateLimitPolicy .connectionAdmission document.connectionAdmission
  let creation ← rateLimitPolicy .challengeCreation document.challengeCreation
  let authorization ← rateLimitPolicy .challengeAuthorization document.challengeAuthorization
  let auditMs ← document.policy.retention.auditMs.asU64
  GovernancePolicies.new admission creation authorization auditMs relays

/-! ## Connections and challenges -/

/-- The challenge policy of an enabled challenge section. -/
def challengePolicy (lib : ConfigLibrary) (entry : ChallengesEntry) : Option ChallengePolicy := do
  let url ← ChallengeUrl.new lib entry.url
  let pendingLifetimeMs ← entry.pendingLifetimeMs.positive
  let authorizedLifetimeMs ← entry.authorizedLifetimeMs.positive
  if valid : 0 < pendingLifetimeMs ∧ pendingLifetimeMs ≤ authorizedLifetimeMs ∧
      authorizedLifetimeMs ≤ i64Max then
    some ⟨url, pendingLifetimeMs, authorizedLifetimeMs, valid.1, valid.2.1, valid.2.2⟩
  else none

/-- The challenge policy, when challenges are enabled. -/
def optionalChallenge (lib : ConfigLibrary) :
    Option ChallengesEntry → Option (Option ChallengePolicy)
  | none => some none
  | some entry => (challengePolicy lib entry).map some

/-- The retention periods, all positive. -/
def retentionPolicy (entry : RetentionEntry) : Option (ℕ × ℕ × ℕ × ℕ) := do
  let terminalConnectionsMs ← entry.terminalConnectionsMs.positive
  let terminalChallengesMs ← entry.terminalChallengesMs.positive
  let requestDedupMs ← entry.requestDedupMs.positive
  let completedOutboxMs ← entry.completedOutboxMs.positive
  return (terminalConnectionsMs, terminalChallengesMs, requestDedupMs, completedOutboxMs)

/-- `MycConnectionPolicies::from_normalized`; a key of the document is canonical, so it is a
client key as it stands. -/
def connectionPolicies (lib : ConfigLibrary) (policy : PolicyEntry) :
    Option ConnectionPolicies := do
  let permissions ← policy.permissionCeiling.mapM Permission.parse
  let permissionCeiling ← PermissionSet.new permissions
  let challenge ← optionalChallenge lib policy.challenges
  let _ ← retentionPolicy policy.retention
  if disjoint : ∀ client ∈ policy.trustedClients, client ∉ policy.deniedClients then
    some ⟨policy.trustedClients, policy.deniedClients, permissionCeiling, challenge, disjoint⟩
  else none

/-! ## Delivery -/

def DeliveryPolicyEntry.mode : DeliveryPolicyEntry → PolicyMode
  | .allRequired => .allRequired
  | .atLeastOneRequired => .atLeastOneRequired
  | .requiredQuorum _ => .requiredQuorum

/-- The configured quorum of a policy that has one. -/
def DeliveryPolicyEntry.quorum : DeliveryPolicyEntry → Option (Option ℕ)
  | .allRequired | .atLeastOneRequired => some none
  | .requiredQuorum requiredAcknowledgements => requiredAcknowledgements.asU32.map some

/-- A relay as a target of delivery. -/
def targetPolicy (relay : RelayEntry) : Option TargetPolicy :=
  (RelayId.new relay.id).map fun id => ⟨id, relay.required⟩

/-- `delivery_policies`: every relay with the write capability is a target. -/
def deliveryPolicies (document : ConfigDocument) : Option DeliveryPolicies := do
  let quorum ← document.deliveryPolicy.quorum
  let targets ← (document.relays.filter RelayEntry.write).mapM targetPolicy
  let maxAttempts ← document.publishRetry.maxAttempts.asU32
  let initialBackoffMs ← document.publishRetry.initialBackoffMs.asU64
  let maximumBackoffMs ← document.publishRetry.maximumBackoffMs.asU64
  let attemptDeadlineMs ← document.publishRetry.attemptDeadlineMs.asU64
  let outboxMaximum ← document.outbox.asU64
  DeliveryPolicies.new document.deliveryPolicy.mode quorum maxAttempts initialBackoffMs
    maximumBackoffMs attemptDeadlineMs outboxMaximum targets

/-! ## Identities -/

/-- Exact expected identities for every enabled role. -/
structure ExpectedIdentities where
  transport : PublicKey
  user : PublicKey
  discovery : Option PublicKey
deriving DecidableEq

/-- `expected_identities` -/
def expectedIdentities (lib : ConfigLibrary) (document : ConfigDocument) :
    Option ExpectedIdentities :=
  if document.roleKeys.all lib.isXOnly then
    some ⟨document.transport.expectedPublicKey, document.user.expectedPublicKey,
      document.discoveryIdentity.map ProviderEntry.expectedPublicKey⟩
  else none

/-! ## Discovery -/

/-- An upper-case hexadecimal digit. -/
def hexDigit (n : ℕ) : UInt8 := UInt8.ofNat (if n < 10 then 48 + n else 55 + n)

/-- `form_urlencoded::byte_serialize` -/
def byteSerialize (bytes : Bytes) : Bytes :=
  bytes.flatMap fun byte =>
    if isAsciiAlphanumeric byte || byte == 42 || byte == 45 || byte == 46 || byte == 95 then [byte]
    else if byte == 32 then [43]
    else [37, hexDigit (byte.toNat / 16), hexDigit (byte.toNat % 16)]

/-- The query of a bunker address: one `relay` pair for each relay. -/
def relayQuery (relays : List Bytes) : Bytes :=
  ascii "&" |>.intercalate (relays.map fun relay => ascii "relay=" ++ byteSerialize relay)

/-- `str::replace`; the number counts the bytes of an occurrence still to be skipped. -/
def replaceText (part replacement : Bytes) : ℕ → Bytes → Bytes
  | _, [] => []
  | skip + 1, _ :: rest => replaceText part replacement skip rest
  | 0, byte :: rest =>
      if startsWith part (byte :: rest) then
        replacement ++ replaceText part replacement (part.length - 1) rest
      else byte :: replaceText part replacement 0 rest

/-- `render_nostrconnect_url` -/
def renderNostrconnectUrl (lib : ConfigLibrary) (template : Bytes) (signer : PublicKey)
    (publicRelays : List Bytes) : Option Bytes := do
  let bunker ← lib.bunkerUri
    (ascii "bunker://" ++ signer.asHex ++ ascii "?" ++ relayQuery publicRelays)
  let rendered := replaceText (ascii "<nostrconnect>") (byteSerialize bunker) 0 template
  guard (lib.isUrl rendered = true)
  return rendered

/-- `str::trim`, and no text when nothing is left. -/
def optionalText (text : List Char) : Option (List Char) :=
  let trimmed := ((text.dropWhile isWhitespace).reverse.dropWhile isWhitespace).reverse
  if trimmed.isEmpty then none else some trimmed

/-- The metadata of the handler; without any text it is empty. -/
def DiscoveryMetadata.json (lib : ConfigLibrary) (metadata : DiscoveryMetadata) : Bytes :=
  let name := optionalText metadata.name
  let displayName := optionalText metadata.displayName
  let about := optionalText metadata.about
  let website := optionalText metadata.website
  let picture := optionalText metadata.picture
  if name.isNone && displayName.isNone && about.isNone && website.isNone && picture.isNone then []
  else lib.metadataJson name displayName about website picture

/-- The URL of a public relay, by the last entry of its identifier. -/
def publicRelayUrl (lib : ConfigLibrary) (relays : List RelayEntry) (id : Bytes) : Option Bytes :=
  ((relays.reverse.find? fun relay => relay.id == id).map RelayEntry.url).filter lib.isRelayUrl

namespace ConfigDocument

/-- The key that `from_normalized` renders into the URL of the signer. -/
def advertisedSigner (identities : ExpectedIdentities) : PublicKey := identities.user

/-- `MycDiscoveryPolicies::from_normalized` for an enabled section. -/
def discoveryPolicy (lib : ConfigLibrary) (document : ConfigDocument)
    (identities : ExpectedIdentities) (entry : DiscoveryEntry) : Option DiscoveryPolicies := do
  let author ← identities.discovery
  let publicRelays ← entry.publicRelayIds.mapM (publicRelayUrl lib document.relays)
  guard (publicRelays ≠ [])
  let url ← renderNostrconnectUrl lib entry.nostrconnectUrlTemplate (advertisedSigner identities)
    publicRelays
  let eventMaxBytes ← document.events.wireBytes.asU64
  guard (entry.domain ≠ [] ∧ entry.handlerIdentifier ≠ [])
  if bounded : 1 ≤ eventMaxBytes ∧ eventMaxBytes ≤ 524288 then
    some { handlerIdentifier := entry.handlerIdentifier
           authorPublicKey := author
           publicRelays := publicRelays
           nostrconnectUrl := some url
           metadataJson := entry.metadata.json lib
           eventMaxBytes := eventMaxBytes
           projectionBytes := lib.projection entry.domain author publicRelays (some url)
           event_bounded := bounded }
  else none

/-- `MycDiscoveryPolicies::from_normalized` -/
def discoveryPolicies (lib : ConfigLibrary) (document : ConfigDocument)
    (identities : ExpectedIdentities) : Option (Option DiscoveryPolicies) :=
  match document.discovery with
  | none => some none
  | some entry => (document.discoveryPolicy lib identities entry).map some

/-! ## The configuration -/

/-- The byte of a profile in the digest. -/
def profileByte : ConfigProfile → UInt8
  | .production => 0
  | .repoLocal => 1

/-- `normalized_config_digest` -/
def digest (lib : ConfigLibrary) (profile : ConfigProfile) (document : ConfigDocument) : Id32 :=
  let bytes := lib.encode document
  Sha256.digest (domain "radroots.myc.normalized_config.v1" ++
    [profileByte profile] ++ u64Bytes bytes.length ++ bytes)

/-- The relays as `apply_configuration` compares them. -/
def relayBindings (document : ConfigDocument) : Option (List RelayBinding) :=
  document.relays.mapM fun relay => (RelayId.new relay.id).map fun id =>
    ⟨id, relay.url, relay.read, relay.write, relay.required, relay.authentication.text⟩

/-- `MycStateMetadata::new` for the runtime of the document's profile. -/
def stateMetadata (lib : ConfigLibrary) (profile : ConfigProfile) (document : ConfigDocument) :
    Option Configuration := do
  let governance ← governancePolicies document
  let connection ← connectionPolicies lib document.policy
  let identities ← expectedIdentities lib document
  let delivery ← deliveryPolicies document
  let discovery ← document.discoveryPolicies lib identities
  let relays ← document.relayBindings
  return { metadata :=
             { normalizedConfigSha256 := document.digest lib profile
               transportPublicKey := identities.transport
               userPublicKey := identities.user
               discoveryPublicKey := identities.discovery }
           relays, connection, governance, delivery, discovery }

end ConfigDocument

/-! ## Event limits -/

/-- The limits of a request event. -/
structure AdmissionLimits where
  eventWireBytes : ℕ
  eventContentBytes : ℕ
  eventTagCount : ℕ
  eventTagTotalElements : ℕ
  eventTagElementBytes : ℕ
  eventTagTotalBytes : ℕ
  decryptedPlaintextBytes : ℕ
deriving DecidableEq

/-- `config_limit` -/
def configLimit (number : Number) : Option ℕ := number.asU64.filter (0 < ·)

/-- `MycNip46AdmissionLimits::from_config` -/
def AdmissionLimits.fromConfig (events : EventLimitsEntry) : Option AdmissionLimits := do
  let eventWireBytes ← configLimit events.wireBytes
  let eventContentBytes ← configLimit events.contentBytes
  let eventTagCount ← configLimit events.tagCount
  let eventTagTotalElements ← configLimit events.tagTotalElements
  let eventTagElementBytes ← configLimit events.tagElementBytes
  let eventTagTotalBytes ← configLimit events.tagTotalBytes
  let decryptedPlaintextBytes ← configLimit events.decryptedPlaintextBytes
  return { eventWireBytes, eventContentBytes, eventTagCount, eventTagTotalElements,
           eventTagElementBytes, eventTagTotalBytes, decryptedPlaintextBytes }

end MycSigner
