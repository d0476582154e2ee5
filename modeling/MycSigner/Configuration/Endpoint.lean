import MycSigner.Configuration.Publication
import MycSigner.Dispatch.Verification

/-!
# The advertised endpoint

The URL of a published handler carries the user identity.  Request events and connect requests
are accepted for the transport identity alone, and admission keeps the two apart.
-/

namespace MycSigner

/-! ## The identities of an opened document -/

theorem stateMetadata_metadata {lib : ConfigLibrary} {profile : ConfigProfile}
    {document : ConfigDocument} {config : Configuration}
    (h : document.stateMetadata lib profile = some config) :
    config.metadata.transportPublicKey = document.transport.expectedPublicKey ∧
      config.metadata.userPublicKey = document.user.expectedPublicKey ∧
      ∃ identities, expectedIdentities lib document = some identities ∧
        identities.user = document.user.expectedPublicKey ∧
        document.discoveryPolicies lib identities = some config.discovery := by
  unfold ConfigDocument.stateMetadata at h
  obtain ⟨_, -, h⟩ := Option.bind_eq_some_iff.mp h
  obtain ⟨_, -, h⟩ := Option.bind_eq_some_iff.mp h
  obtain ⟨identities, hidentities, h⟩ := Option.bind_eq_some_iff.mp h
  obtain ⟨_, -, h⟩ := Option.bind_eq_some_iff.mp h
  obtain ⟨discovery, hdiscovery, h⟩ := Option.bind_eq_some_iff.mp h
  obtain ⟨_, -, h⟩ := Option.bind_eq_some_iff.mp h
  obtain rfl := Option.some.inj h
  have hkeys : identities.transport = document.transport.expectedPublicKey ∧
      identities.user = document.user.expectedPublicKey := by
    unfold expectedIdentities at hidentities
    split at hidentities
    next =>
      obtain rfl := Option.some.inj hidentities
      exact ⟨rfl, rfl⟩
    next => cases hidentities
  exact ⟨hkeys.1, hkeys.2, identities, hidentities, hkeys.2, hdiscovery⟩

/-- The URL of an enabled handler is rendered with the advertised key. -/
theorem discoveryPolicy_url {lib : ConfigLibrary} {document : ConfigDocument}
    {identities : ExpectedIdentities} {entry : DiscoveryEntry} {policy : DiscoveryPolicies}
    (h : document.discoveryPolicy lib identities entry = some policy) :
    ∃ relays url, policy.nostrconnectUrl = some url ∧
      renderNostrconnectUrl lib entry.nostrconnectUrlTemplate
        (ConfigDocument.advertisedSigner identities) relays = some url := by
  unfold ConfigDocument.discoveryPolicy at h
  obtain ⟨author, -, h⟩ := Option.bind_eq_some_iff.mp h
  obtain ⟨relays, -, h⟩ := Option.bind_eq_some_iff.mp h
  obtain ⟨_, -, h⟩ := Option.bind_eq_some_iff.mp h
  obtain ⟨url, hurl, h⟩ := Option.bind_eq_some_iff.mp h
  obtain ⟨_, -, h⟩ := Option.bind_eq_some_iff.mp h
  obtain ⟨_, -, h⟩ := Option.bind_eq_some_iff.mp h
  obtain ⟨_, hsome⟩ := Option.dite_none_right_eq_some.mp h
  obtain rfl := Option.some.inj hsome
  exact ⟨relays, url, rfl, hurl⟩

/-! ## The endpoint -/

/-- Request events and connect requests for this key are refused, whatever else they carry. -/
structure Unreachable (metadata : PersistedMetadata) (key : PublicKey) : Prop where
  event : ∀ (lib : VerificationLibrary) (bounded : BoundedEvent) (role : ProviderRole)
    (observedAt : ℕ) (policy : AuthoredTimePolicy) (event : NostrEvent) (verified : VerifiedEvent),
    lib.decode bounded.original = some event → event.tags = [[ascii "p", key.asHex]] →
    verifyNip46Event lib bounded role metadata.transportPublicKey observedAt policy ≠ .ok verified
  connect : ∀ (protocol : Protocol) (prepared : PreparedRequest) (record : RequestRecord)
    (connection : Option ConnectionRecord) (observedAt : TimeUnixMs) (deadline : Option TimeUnixMs)
    (secret : Option Bytes) (permissions : List ProtocolPermission) (work : Work),
    prepared.request = .connect key secret permissions →
    prepareWork protocol metadata prepared record connection observedAt deadline ≠ .ok work

theorem unreachable_of_ne {metadata : PersistedMetadata} {key : PublicKey}
    (h : key ≠ metadata.transportPublicKey) : Unreachable metadata key where
  event _ _ _ _ _ _ verified hevent htags := verifyNip46Event_misaddressed hevent htags h verified
  connect _ _ _ _ _ _ _ _ _ hrequest hwork := h (prepareWork_connect_remote hrequest hwork)

/-- No published handler advertises a key that can be reached. -/
theorem advertised_endpoint_unreachable {lib : ConfigLibrary} {profile : ConfigProfile}
    {document : ConfigDocument} {entry : DiscoveryEntry} {config : Configuration}
    (hadmitted : document.admitted lib profile = true)
    (hdiscovery : document.discovery = some entry)
    (hconfig : document.stateMetadata lib profile = some config) :
    ∃ policy relays url, config.discovery = some policy ∧ policy.nostrconnectUrl = some url ∧
      renderNostrconnectUrl lib entry.nostrconnectUrlTemplate document.user.expectedPublicKey
        relays = some url ∧
      Unreachable config.metadata document.user.expectedPublicKey := by
  obtain ⟨htransport, -, identities, -, huser, hpolicies⟩ := stateMetadata_metadata hconfig
  unfold ConfigDocument.discoveryPolicies at hpolicies
  rw [hdiscovery] at hpolicies
  obtain ⟨policy, hpolicy, hsome⟩ := Option.map_eq_some_iff.mp hpolicies
  obtain ⟨relays, url, hurl, hrendered⟩ := discoveryPolicy_url hpolicy
  unfold ConfigDocument.advertisedSigner at hrendered
  rw [huser] at hrendered
  refine ⟨policy, relays, url, hsome.symm, hurl, hrendered, unreachable_of_ne ?_⟩
  have hdistinct := (ConfigDocument.admitted_related hadmitted).distinct
  unfold ConfigDocument.roleKeys at hdistinct
  rw [htransport]
  intro heq
  simp [heq] at hdistinct

/-- The example configuration advertises such a key. -/
theorem example_endpoint_unreachable :
    exampleDocument.admitted exampleLibrary .production = true ∧
      ∃ config policy relays url, exampleDocument.stateMetadata exampleLibrary .production =
          some config ∧ config.discovery = some policy ∧ policy.nostrconnectUrl = some url ∧
        renderNostrconnectUrl exampleLibrary
          (ascii "https://myc.example.test/connect?uri=<nostrconnect>") (repeatedKey 0x22) relays =
          some url ∧
        Unreachable config.metadata (repeatedKey 0x22) := by
  have hadmitted : exampleDocument.admitted exampleLibrary .production = true := by decide +kernel
  have hsome : (exampleDocument.stateMetadata exampleLibrary .production).isSome = true := by
    decide +kernel
  obtain ⟨config, hconfig⟩ := Option.isSome_iff_exists.mp hsome
  obtain ⟨policy, relays, url, hpolicy, hurl, hrendered, hunreachable⟩ :=
    advertised_endpoint_unreachable hadmitted rfl hconfig
  exact ⟨hadmitted, config, policy, relays, url, hconfig, hpolicy, hurl, hrendered, hunreachable⟩

/-- A request event of a client for a recipient. -/
def connectEvent (recipient : PublicKey) : NostrEvent where
  id := 9
  pubkey := repeatedKey 0x77
  createdAt := 1000
  kind := 24133
  tags := [[ascii "p", recipient.asHex]]
  content := ascii "content"
  signature := []

/-- The libraries on that event: it is canonical and signed, and its content has an envelope. -/
def connectLibrary (recipient : PublicKey) : VerificationLibrary where
  fields _ := some ⟨hexText (Id32.bytes 9), (repeatedKey 0x77).asHex, 1000, 24133, ascii "content",
    []⟩
  decode _ := some (connectEvent recipient)
  isXOnly _ := true
  verifyId _ := true
  verifySignature _ := true
  decodeBase64 _ := some (2 :: List.replicate 98 0)
  encodeBase64 _ := ascii "content"

/-- The verification of that event by the service of the example configuration. -/
def verifyConnectEvent (recipient : PublicKey) : Except VerificationError VerifiedEvent :=
  verifyNip46Event (connectLibrary recipient) ⟨ascii "event", ascii "content"⟩ .transport
    exampleDocument.transport.expectedPublicKey 1000 ⟨120, 120⟩

/-- The same event is verified for the transport identity, and dropped for the one that the
handler advertises. -/
theorem advertised_recipient_refused :
    exampleDocument.admitted exampleLibrary .production = true ∧
      (∃ config policy relays url, exampleDocument.stateMetadata exampleLibrary .production =
          some config ∧ config.discovery = some policy ∧ policy.nostrconnectUrl = some url ∧
        renderNostrconnectUrl exampleLibrary
          (ascii "https://myc.example.test/connect?uri=<nostrconnect>") (repeatedKey 0x22) relays =
          some url) ∧
      (verifyConnectEvent (repeatedKey 0x44)).isOk = true ∧
      verifyConnectEvent (repeatedKey 0x22) = .error .invalidReceiver := by
  have hchecked : exampleDocument.admitted exampleLibrary .production = true ∧
      (exampleDocument.stateMetadata exampleLibrary .production).isSome = true ∧
      (verifyConnectEvent (repeatedKey 0x44)).isOk = true ∧
      verifyConnectEvent (repeatedKey 0x22) = .error .invalidReceiver := by
    decide +kernel
  obtain ⟨hadmitted, hsome, haccepted, hrefused⟩ := hchecked
  obtain ⟨config, hconfig⟩ := Option.isSome_iff_exists.mp hsome
  obtain ⟨-, -, identities, -, huser, hpolicies⟩ := stateMetadata_metadata hconfig
  obtain ⟨policy, hpolicy, hdiscovery⟩ := Option.map_eq_some_iff.mp hpolicies
  obtain ⟨relays, url, hurl, hrendered⟩ := discoveryPolicy_url hpolicy
  unfold ConfigDocument.advertisedSigner at hrendered
  rw [huser] at hrendered
  exact ⟨hadmitted, ⟨config, policy, relays, url, hconfig, hdiscovery.symm, hurl, hrendered⟩,
    haccepted, hrefused⟩

end MycSigner
