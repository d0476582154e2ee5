import MycSigner.Encoding
import MycSigner.Outbox.Generations
import MycSigner.Sessions.SoleSession

/-!
# The refresh of discovery

A refresh renders the handler of the configuration for the present second, has it signed, and
compares the generation it would commit with the desired one.  A generation is a digest over the
configuration and the exact bytes of the signed event, so besides the handler and the projection
the comparison takes in the second, the event identifier, the signature, and every other part of
the configuration.
-/

namespace MycSigner

open Transaction

/-- What a refresh reports. -/
inductive DiffState where
  | inSync
  | drift
deriving DecidableEq

/-- The library that builds a handler event for a second, and the provider that signs it. -/
structure HandlerSigner where
  unsigned : DiscoveryPolicies → ℕ → Option Bytes
  sign : Bytes → Option Bytes

/-- `prepare_discovery_signing_bytes` -/
def prepareDiscoverySigningBytes (signer : HandlerSigner) (config : Configuration)
    (createdAtUnixS : ℕ) : Option Bytes := do
  let policy ← config.discovery
  let bytes ← signer.unsigned policy createdAtUnixS
  guard (1 ≤ bytes.length ∧ bytes.length ≤ policy.eventMaxBytes)
  return bytes

/-- `prepare_discovery_commit` -/
def prepareDiscoveryCommit (codec : EventCodec) (signer : HandlerSigner) (config : Configuration)
    (nowSeconds : ℕ) : Option DiscoveryCommitRequest := do
  let unsigned ← prepareDiscoverySigningBytes signer config nowSeconds
  let event ← signer.sign unsigned
  let createdAt ← TimeUnixMs.new (nowSeconds * 1000)
  DiscoveryCommitRequest.new codec config event createdAt

/-- The refresh of `discovery_mutation`. -/
def discoveryRefresh (codec : EventCodec) (signer : HandlerSigner) (config : Configuration)
    (nowSeconds : ℕ) (s : Store) : Option DiffState := do
  let commit ← prepareDiscoveryCommit codec signer config nowSeconds
  let state ← (readPublicationState s).toOption
  return if state.any (·.desiredGenerationId == commit.generationId) then .inSync else .drift

/-- Inputs whose digests all differ collide with none of themselves. -/
theorem CollisionFree.of_nodup {inputs : List Bytes} (h : (inputs.map Sha256.digest).Nodup) :
    CollisionFree (inputs ++ inputs) := by
  have hmem : ∀ input ∈ inputs ++ inputs, input ∈ inputs := fun input hinput =>
    (List.mem_append.mp hinput).elim id id
  intro left hleft right hright heq
  exact List.inj_on_of_nodup_map h (hmem left hleft) (hmem right hright) heq

namespace DiscoveryCommitRequest

/-- The handler of a signed event: all of it but its second, its identifier and its signature. -/
def handler (codec : EventCodec) (request : DiscoveryCommitRequest) :
    Option (PublicKey × ℕ × List (List Bytes) × Bytes) :=
  (codec.decode request.eventBytes).map fun event =>
    (event.pubkey, event.kind, event.tags, event.content)

/-- Two requests publish the same handler and the same projection. -/
def SameDocument (codec : EventCodec) (left right : DiscoveryCommitRequest) : Prop :=
  left.handler codec = right.handler codec ∧ left.projectionBytes = right.projectionBytes

/-- What the identity of a generation is a digest of. -/
def hashed (request : DiscoveryCommitRequest) : List Bytes :=
  [request.eventBytes, request.projectionBytes,
    domain "radroots.myc.discovery_desired.v1" ++ request.configurationDigest.bytes ++
      request.eventDigest.bytes ++ request.projectionDigest.bytes,
    domain "radroots.myc.discovery_generation.v1" ++ request.desiredDigest.bytes]

variable {codec : EventCodec} {left right : DiscoveryCommitRequest}

/-- Without a collision a generation determines the configuration, the event and the
projection. -/
theorem generationId_injective (hfree : CollisionFree (left.hashed ++ right.hashed))
    (h : left.generationId = right.generationId) :
    left.configurationDigest = right.configurationDigest ∧ left.eventBytes = right.eventBytes ∧
      left.projectionBytes = right.projectionBytes := by
  have hgeneration := hfree _ (by simp [hashed]) _ (by simp [hashed]) h
  have hdesired : left.desiredDigest = right.desiredDigest :=
    Id32.bytes_injective (List.append_cancel_left hgeneration)
  have hinputs := hfree _ (by simp [hashed]) _ (by simp [hashed]) hdesired
  simp only [List.append_assoc] at hinputs
  obtain ⟨hconfiguration, hdigests⟩ := List.append_inj (List.append_cancel_left hinputs)
    (by rw [Id32.length_bytes, Id32.length_bytes])
  obtain ⟨hevent, hprojection⟩ := List.append_inj hdigests
    (by rw [Id32.length_bytes, Id32.length_bytes])
  exact ⟨Id32.bytes_injective hconfiguration,
    hfree _ (by simp [hashed]) _ (by simp [hashed]) (Id32.bytes_injective hevent),
    hfree _ (by simp [hashed]) _ (by simp [hashed]) (Id32.bytes_injective hprojection)⟩

/-- The generation depends on nothing else. -/
theorem generationId_congr (hconfiguration : left.configurationDigest = right.configurationDigest)
    (hevent : left.eventBytes = right.eventBytes)
    (hprojection : left.projectionBytes = right.projectionBytes) :
    left.generationId = right.generationId := by
  unfold generationId desiredDigest eventDigest projectionDigest
  rw [hconfiguration, hevent, hprojection]

/-- What a request that was accepted publishes is what its policy says. -/
theorem new_eq_some {config : Configuration} {eventBytes : Bytes} {createdAt : TimeUnixMs}
    {request : DiscoveryCommitRequest}
    (h : DiscoveryCommitRequest.new codec config eventBytes createdAt = some request) :
    ∃ policy, config.discovery = some policy ∧
      request.handler codec =
        some (policy.authorPublicKey, 31990, policy.expectedTags, policy.metadataJson) ∧
      request.projectionBytes = policy.projectionBytes := by
  unfold DiscoveryCommitRequest.new at h
  obtain ⟨policy, hpolicy, h⟩ := Option.bind_eq_some_iff.mp h
  obtain ⟨_, -, h⟩ := Option.bind_eq_some_iff.mp h
  obtain ⟨event, hevent, h⟩ := Option.bind_eq_some_iff.mp h
  obtain ⟨_, hvalid, h⟩ := Option.bind_eq_some_iff.mp h
  obtain ⟨_, -, h⟩ := Option.bind_eq_some_iff.mp h
  obtain rfl := Option.some.inj h
  have hdecoded : codec.decode eventBytes = some event :=
    (Option.filter_eq_some_iff.mp hevent).1
  have hvalid : policy.validateEvent event = true := by
    by_contra hnot
    rw [guard, if_neg hnot] at hvalid
    cases hvalid
  unfold DiscoveryPolicies.validateEvent at hvalid
  simp only [Bool.and_eq_true, beq_iff_eq] at hvalid
  obtain ⟨⟨⟨hauthor, hkind⟩, htags⟩, hcontent⟩ := hvalid
  refine ⟨policy, hpolicy, ?_, rfl⟩
  unfold handler
  rw [hdecoded, Option.map_some, hauthor, hkind, htags, hcontent]

/-- Under one discovery policy every accepted request publishes the same document. -/
theorem sameDocument_of_policy {config config' : Configuration} {eventBytes eventBytes' : Bytes}
    {createdAt createdAt' : TimeUnixMs}
    (hleft : DiscoveryCommitRequest.new codec config eventBytes createdAt = some left)
    (hright : DiscoveryCommitRequest.new codec config' eventBytes' createdAt' = some right)
    (hpolicy : config.discovery = config'.discovery) : SameDocument codec left right := by
  obtain ⟨policy, hsome, hhandler, hprojection⟩ := new_eq_some hleft
  obtain ⟨policy', hsome', hhandler', hprojection'⟩ := new_eq_some hright
  rw [hsome, hsome'] at hpolicy
  obtain rfl := Option.some.inj hpolicy
  exact ⟨hhandler.trans hhandler'.symm, hprojection.trans hprojection'.symm⟩

end DiscoveryCommitRequest

open DiscoveryCommitRequest

/-- A commit is prepared from accepted event bytes. -/
theorem prepareDiscoveryCommit_eq_some {codec : EventCodec} {signer : HandlerSigner}
    {config : Configuration} {nowSeconds : ℕ} {request : DiscoveryCommitRequest}
    (h : prepareDiscoveryCommit codec signer config nowSeconds = some request) :
    ∃ eventBytes createdAt, DiscoveryCommitRequest.new codec config eventBytes createdAt =
      some request := by
  unfold prepareDiscoveryCommit at h
  obtain ⟨_, -, h⟩ := Option.bind_eq_some_iff.mp h
  obtain ⟨event, -, h⟩ := Option.bind_eq_some_iff.mp h
  obtain ⟨createdAt, -, h⟩ := Option.bind_eq_some_iff.mp h
  exact ⟨event, createdAt, h⟩

/-- The pointer of every reachable store can be read. -/
theorem GenerationInv.readPublicationState {s : Store} (inv : GenerationInv s) :
    readPublicationState s = .ok s.publicationState := by
  unfold MycSigner.readPublicationState
  cases hstate : s.publicationState with
  | none => rfl
  | some state =>
      have hcheck : publicationCheck state = true := by
        unfold publicationCheck
        rcases inv.current state hstate with ⟨hgeneration, hjob⟩ | ⟨job, -, -, -, hgeneration, hjob⟩
        · rw [hgeneration, hjob]
          rfl
        · rw [hgeneration, hjob]
          rfl
      exact Except.bind_eq_ok_iff.mpr ⟨(), Except.require_eq_ok.mpr hcheck, rfl⟩

/-- A refresh compares generations. -/
theorem discoveryRefresh_eq {codec : EventCodec} {signer : HandlerSigner} {config : Configuration}
    {nowSeconds : ℕ} {s : Store} (inv : GenerationInv s) {state : PublicationStateRow}
    (hstate : s.publicationState = some state) {rendered : DiscoveryCommitRequest}
    (h : prepareDiscoveryCommit codec signer config nowSeconds = some rendered) :
    discoveryRefresh codec signer config nowSeconds s =
      some (if state.desiredGenerationId = rendered.generationId then .inSync else .drift) := by
  unfold discoveryRefresh
  rw [h, inv.readPublicationState, hstate]
  by_cases hsame : state.desiredGenerationId = rendered.generationId
  · simp [hsame, Except.toOption]
  · simp [hsame, Except.toOption]

/-- A refresh reports what the document is, in sync exactly when it would publish the committed
handler and projection, if and only if a document that is the same is the committed one to the
byte and the configuration digest. -/
theorem refresh_reports_document_iff (codec : EventCodec) (config : Configuration)
    (appliedAtUnixS : ℕ) (events : List Event) :
    let system := Run.after (System.perform codec) (.initial config appliedAtUnixS) events
    ∀ (signer laterSigner : HandlerSigner) (committedConfig : Configuration)
      (committedAt refreshedAt : ℕ) (committed rendered : DiscoveryCommitRequest),
    prepareDiscoveryCommit codec signer committedConfig committedAt = some committed →
    (∃ state ∈ system.store.publicationState,
      state.desiredGenerationId = committed.generationId) →
    prepareDiscoveryCommit codec laterSigner system.config refreshedAt = some rendered →
    CollisionFree (committed.hashed ++ rendered.hashed) →
    let report := discoveryRefresh codec laterSigner system.config refreshedAt system.store
    (committedConfig.discovery = system.config.discovery →
      SameDocument codec committed rendered) ∧
    (((report = some .inSync ↔ SameDocument codec committed rendered) ∧
        (report = some .drift ↔ ¬ SameDocument codec committed rendered)) ↔
      (SameDocument codec committed rendered →
        committed.configurationDigest = rendered.configurationDigest ∧
          committed.eventBytes = rendered.eventBytes)) := by
  intro system signer laterSigner committedConfig committedAt refreshedAt committed rendered
    hcommitted hpointer hrendered hfree report
  have inv : GenerationInv system.store := GenerationInv.service codec config appliedAtUnixS events
  obtain ⟨state, hstate, hdesired⟩ := hpointer
  have hreport : report = some (if committed.generationId = rendered.generationId then .inSync
      else .drift) := by
    rw [← hdesired]
    exact discoveryRefresh_eq inv hstate hrendered
  constructor
  · intro hpolicy
    obtain ⟨_, _, hleft⟩ := prepareDiscoveryCommit_eq_some hcommitted
    obtain ⟨_, _, hright⟩ := prepareDiscoveryCommit_eq_some hrendered
    exact sameDocument_of_policy hleft hright hpolicy
  · rw [hreport]
    by_cases hsame : committed.generationId = rendered.generationId
    · obtain ⟨hconfiguration, hevent, hprojection⟩ := generationId_injective hfree hsame
      have hdocument : SameDocument codec committed rendered := by
        refine ⟨?_, hprojection⟩
        unfold handler
        rw [hevent]
      simp [hsame, hdocument, hconfiguration, hevent]
    · have hdiffers : SameDocument codec committed rendered →
          ¬ (committed.configurationDigest = rendered.configurationDigest ∧
            committed.eventBytes = rendered.eventBytes) :=
        fun hdocument hbytes => hsame (generationId_congr hbytes.1 hbytes.2 hdocument.2)
      by_cases hdocument : SameDocument codec committed rendered
      · have hbytes := hdiffers hdocument
        simp [hsame, hdocument, hbytes]
      · simp [hsame, hdocument]

/-! ## A handler that is rendered twice -/

namespace SampleRefresh

def author : PublicKey := SampleService.transport

def projection : Bytes :=
  ascii "\x7b\"schema\":\"radroots.myc.nip05-projection-input.v1\",\"schema_version\":1," ++
    ascii "\"domain\":\"example.com\",\"name\":\"_\",\"public_key\":" ++
    ascii "\"79be667ef9dcbbac55a06295ce870b07029bfcdb2dce28d959f2815b16f81798\"," ++
    ascii "\"relays\":[\"wss://relay.example\"]\x7d"

def policy : DiscoveryPolicies where
  handlerIdentifier := ascii "myc"
  authorPublicKey := author
  publicRelays := [ascii "wss://relay.example"]
  nostrconnectUrl := none
  metadataJson := []
  eventMaxBytes := 65536
  projectionBytes := projection
  event_bounded := by decide

def config : Configuration := { SampleService.config with discovery := some policy }

/-- The JSON text of the handler event up to its content. -/
def text (id createdAt : Bytes) : Bytes :=
  ascii "\x7b\"id\":\"" ++ id ++ ascii "\",\"pubkey\":" ++
    ascii "\"79be667ef9dcbbac55a06295ce870b07029bfcdb2dce28d959f2815b16f81798\",\"created_at\":" ++
    createdAt ++ ascii ",\"kind\":31990,\"tags\":[[\"d\",\"myc\"],[\"k\",\"24133\"]," ++
    ascii "[\"relay\",\"wss://relay.example\"]],\"content\":\"\""

/-- A second with the identifier and the signature of the handler event. -/
structure Signing where
  second : ℕ
  id : Id32
  idText : Bytes
  secondText : Bytes
  signature : Bytes

def first : Signing where
  second := 1700000000
  id := 0xfc9b4753a6b49f92e70559d3b14d2ad8944d441f3530425d15424478ec164ed3
  idText := ascii "fc9b4753a6b49f92e70559d3b14d2ad8944d441f3530425d15424478ec164ed3"
  secondText := ascii "1700000000"
  signature := ascii "92d28369146b9fa24a408f5c002c3195fca175af3e2e9926e379043652d42728" ++
    ascii "3ee3017f20ba7b381799e035c6d6468707d7159d813084210640cc235bb5e743"

/-- A minute later. -/
def second : Signing where
  second := 1700000060
  id := 0x4a0756bc8b00a4c6f9bac1b98495bcbc6082d90542a0aef2730206a639e1d7d7
  idText := ascii "4a0756bc8b00a4c6f9bac1b98495bcbc6082d90542a0aef2730206a639e1d7d7"
  secondText := ascii "1700000060"
  signature := ascii "99fb99d1cdd1d2a79ec2907a8642e430d814567bc1d3aff6a4a50f18f08cf534" ++
    ascii "dce48ff06dc4ebb2905830fff25daf19b49041343dd8011d62722b37f801d6fb"

namespace Signing

def unsigned (signing : Signing) : Bytes :=
  text signing.idText signing.secondText ++ ascii "\x7d"

def signed (signing : Signing) : Bytes :=
  text signing.idText signing.secondText ++ ascii ",\"sig\":\"" ++ signing.signature ++
    ascii "\"\x7d"

def event (signing : Signing) : NostrEvent where
  id := signing.id
  pubkey := author
  createdAt := signing.second
  kind := 31990
  tags := policy.expectedTags
  content := []
  signature := signing.signature

end Signing

/-- The event library on the two events. -/
def codec : EventCodec where
  decode bytes :=
    if bytes = first.signed then some first.event
    else if bytes = second.signed then some second.event
    else none
  encode event := if event = first.event then first.signed else second.signed
  verify _ := true

/-- The provider signs the handler of either second. -/
def signer : HandlerSigner where
  unsigned _ now := if now = first.second then some first.unsigned else some second.unsigned
  sign bytes := if bytes = first.unsigned then some first.signed else some second.signed

def request (signing : Signing) (h : 0 < signing.second * 1000 ∧ signing.second * 1000 ≤ i64Max) :
    DiscoveryCommitRequest where
  configurationDigest := config.metadata.normalizedConfigSha256
  eventId := signing.id
  eventBytes := signing.signed
  projectionBytes := projection
  createdAt := ⟨signing.second * 1000, h.1, h.2⟩

def committed : DiscoveryCommitRequest := request first (by decide)

def rendered : DiscoveryCommitRequest := request second (by decide)

theorem prepares_committed :
    prepareDiscoveryCommit codec signer config 1700000000 = some committed := by decide +kernel

theorem prepares_rendered :
    prepareDiscoveryCommit codec signer config 1700000060 = some rendered := by decide +kernel

/-- The handler of the first second is committed. -/
def published : List Event := [.operation (.commitDiscovery committed)]

theorem published_evaluates :
    (Run.after (System.perform codec) (.initial config 1) published).store.publicationState.map
        PublicationStateRow.desiredGenerationId = some committed.generationId ∧
      committed.generationId ≠ rendered.generationId ∧
      (committed.hashed.map Sha256.digest).Nodup := by
  decide +kernel

theorem published_config :
    (Run.after (System.perform codec) (.initial config 1) published).config = config := rfl

theorem published_desired :
    ∃ state ∈ (Run.after (System.perform codec) (.initial config 1)
      published).store.publicationState, state.desiredGenerationId = committed.generationId :=
  Option.map_eq_some_iff.mp published_evaluates.1

end SampleRefresh

open SampleRefresh in
/-- A refresh within the second of the commit, with the same signature, is in sync. -/
theorem handler_refreshed_at_once :
    discoveryRefresh codec signer config 1700000000
      (Run.after (System.perform codec) (.initial config 1) published).store = some .inSync := by
  have hfree : CollisionFree (committed.hashed ++ committed.hashed) :=
    CollisionFree.of_nodup published_evaluates.2.2
  have h := refresh_reports_document_iff codec config 1 published signer signer config 1700000000
    1700000000 committed committed prepares_committed published_desired
  rw [published_config] at h
  have hreport := (h prepares_committed hfree).2.mpr fun _ => ⟨rfl, rfl⟩
  exact hreport.1.mpr ⟨rfl, rfl⟩

open SampleRefresh in
/-- A minute later, under the same configuration, the refresh reports drift. -/
theorem handler_refreshed_later :
    ¬ ∀ (codec : EventCodec) (config : Configuration) (appliedAtUnixS : ℕ) (events : List Event)
      (signer : HandlerSigner) (committedAt refreshedAt : ℕ)
      (committed rendered : DiscoveryCommitRequest),
    let system := Run.after (System.perform codec) (.initial config appliedAtUnixS) events
    prepareDiscoveryCommit codec signer system.config committedAt = some committed →
    (∃ state ∈ system.store.publicationState,
      state.desiredGenerationId = committed.generationId) →
    committedAt ≤ refreshedAt →
    prepareDiscoveryCommit codec signer system.config refreshedAt = some rendered →
    discoveryRefresh codec signer system.config refreshedAt system.store = some .inSync := by
  intro h
  have hsync := h codec config 1 published signer 1700000000 1700000060 committed rendered
    prepares_committed published_desired (by decide) prepares_rendered
  obtain ⟨state, hstate, hdesired⟩ := published_desired
  have inv := GenerationInv.service codec config 1 published
  rw [storeAfter] at inv
  have hdiffers : state.desiredGenerationId ≠ rendered.generationId := fun hsame =>
    published_evaluates.2.1 (hdesired.symm.trans hsame)
  rw [published_config, discoveryRefresh_eq inv hstate prepares_rendered, if_neg hdiffers] at hsync
  cases hsync

end MycSigner
