import MycSigner.Configuration.Agreement
import MycSigner.Delivery.Evidence
import MycSigner.Delivery.Preservation
import MycSigner.Delivery.Refinement
import MycSigner.Outbox.Frames

/-!
# What a handler is published with

The discovery section names the relays that its document is published to, and admission checks
that each of them can be written to.  The job that carries the document is created under the
delivery policy all jobs share, whose targets are the write relays of the document.
-/

namespace MycSigner

open Transaction

/-! ## Where the document goes -/

theorem DeliveryPolicies.new_targets {mode : PolicyMode} {quorum : Option ℕ}
    {maxAttempts initialBackoffMs maximumBackoffMs attemptDeadlineMs outboxMaximum : ℕ}
    {targets : List TargetPolicy} {policies : DeliveryPolicies}
    (h : DeliveryPolicies.new mode quorum maxAttempts initialBackoffMs maximumBackoffMs
      attemptDeadlineMs outboxMaximum targets = some policies) :
    policies.targets =
      Table.ordered (fun left right => left.relayId.bytes ≤ right.relayId.bytes) targets := by
  obtain ⟨_, hsome⟩ := Option.dite_none_right_eq_some.mp h
  obtain rfl := Option.some.inj hsome
  rfl

/-- The targets of the delivery policy are the write relays. -/
theorem deliveryPolicies_targets {document : ConfigDocument} {policies : DeliveryPolicies}
    (h : deliveryPolicies document = some policies) (id : Bytes) :
    (∃ target ∈ policies.targets, target.relayId.bytes = id) ↔
      ∃ relay ∈ document.relays, relay.write = true ∧ relay.id = id := by
  unfold deliveryPolicies at h
  obtain ⟨_, -, h⟩ := Option.bind_eq_some_iff.mp h
  obtain ⟨targets, htargets, h⟩ := Option.bind_eq_some_iff.mp h
  obtain ⟨_, -, h⟩ := Option.bind_eq_some_iff.mp h
  obtain ⟨_, -, h⟩ := Option.bind_eq_some_iff.mp h
  obtain ⟨_, -, h⟩ := Option.bind_eq_some_iff.mp h
  obtain ⟨_, -, h⟩ := Option.bind_eq_some_iff.mp h
  obtain ⟨_, -, h⟩ := Option.bind_eq_some_iff.mp h
  have hids : targets.map (fun target => target.relayId.bytes) =
      (document.relays.filter RelayEntry.write).map RelayEntry.id := by
    refine Option.map_of_mapM htargets fun relay _ target htarget => ?_
    obtain ⟨relayId, hrelayId, rfl⟩ := Option.map_eq_some_iff.mp htarget
    exact RelayId.new_eq_some hrelayId
  have hmem : (∃ target ∈ policies.targets, target.relayId.bytes = id) ↔
      id ∈ targets.map fun target => target.relayId.bytes := by
    rw [DeliveryPolicies.new_targets h]
    simp only [List.mem_map, (Table.ordered_perm _ targets).mem_iff]
  rw [hmem, hids]
  simp only [List.mem_map, List.mem_filter, and_assoc]

theorem readJobBySource_congr {s s' : Store} (hjobs : s'.jobs = s.jobs)
    (htargets : s'.targets = s.targets) (source : Source) :
    readJobBySource s' source = readJobBySource s source := by
  unfold readJobBySource readJobRows readTargets targetsOf
  rw [hjobs, htargets]

/-- A commit without a job of its generation adds that job with the targets of the policy. -/
theorem commitDesired_creates {codec : EventCodec} {request : DiscoveryCommitRequest}
    {deliveryPolicy : DeliveryPolicies} {policy : DiscoveryPolicies} {s s' : Store}
    {admission : DiscoveryCommitAdmission}
    (hnew : readJobBySource s ⟨.discoveryHandler, request.generationId⟩ = .ok none)
    (h : (commitDesired codec request deliveryPolicy policy).run s = .ok (admission, s')) :
    s'.jobs = s.jobs ++ [newJobRow ⟨.discoveryHandler, request.generationId⟩ request.eventDigest
        request.createdAt deliveryPolicy] ∧
      s'.targets = s.targets ++ newTargetRows
        (deriveJobId ⟨.discoveryHandler, request.generationId⟩ request.eventDigest)
        request.createdAt 0 deliveryPolicy.targets := by
  obtain ⟨desired, s₁, hdesired, h⟩ := run_bind_eq_ok.mp h
  obtain ⟨-, rfl⟩ := run_query_eq_ok.mp hdesired
  obtain ⟨document, s₂, hdocument, h⟩ := run_bind_eq_ok.mp h
  obtain ⟨-, rfl⟩ := run_query_eq_ok.mp hdocument
  obtain ⟨existing, s₃, hexisting, h⟩ := run_bind_eq_ok.mp h
  obtain ⟨-, rfl⟩ := run_query_eq_ok.mp hexisting
  obtain ⟨_, inserted, hinsert, h⟩ := run_bind_eq_ok.mp h
  obtain ⟨job, created, hcreate, hpoint⟩ := run_bind_eq_ok.mp h
  obtain ⟨hjobs, htargets, -⟩ := delivery_of_withoutDiscovery
    (insertGeneration_keeps_others request existing hinsert)
  obtain ⟨hjobs', htargets', -⟩ := delivery_of_withoutDiscovery
    (pointDesired_keeps_others codec request policy existing job.record.jobId hpoint)
  rcases createJob_eq_ok hcreate with ⟨-, record, hread, -⟩ | ⟨-, -, -, rfl, -⟩
  · rw [readJobBySource_congr hjobs htargets, hnew] at hread
    cases hread
  · rw [hjobs', htargets', ← hjobs, ← htargets]
    exact ⟨rfl, rfl⟩

theorem stateMetadata_delivery {lib : ConfigLibrary} {profile : ConfigProfile}
    {document : ConfigDocument} {config : Configuration}
    (h : document.stateMetadata lib profile = some config) :
    deliveryPolicies document = some config.delivery := by
  unfold ConfigDocument.stateMetadata at h
  obtain ⟨_, -, h⟩ := Option.bind_eq_some_iff.mp h
  obtain ⟨_, -, h⟩ := Option.bind_eq_some_iff.mp h
  obtain ⟨_, -, h⟩ := Option.bind_eq_some_iff.mp h
  obtain ⟨delivery, hdelivery, h⟩ := Option.bind_eq_some_iff.mp h
  obtain ⟨_, -, h⟩ := Option.bind_eq_some_iff.mp h
  obtain ⟨_, -, h⟩ := Option.bind_eq_some_iff.mp h
  obtain rfl := Option.some.inj h
  exact hdelivery

theorem ConfigDocument.admitted_related {lib : ConfigLibrary} {profile : ConfigProfile}
    {document : ConfigDocument} (h : document.admitted lib profile = true) :
    Related lib document := by
  unfold ConfigDocument.admitted at h
  simp only [Bool.and_eq_true, and_assoc] at h
  obtain ⟨_, hrelationships⟩ := Except.exists_of_isOk h.2.1
  exact ConfigDocument.related hrelationships

/-- The job of a committed handler has the publish relays as its targets exactly if every write
relay is one of them. -/
theorem published_where_configured_iff {lib : ConfigLibrary} {profile : ConfigProfile}
    {document : ConfigDocument} {entry : DiscoveryEntry} {config : Configuration}
    {codec : EventCodec} {request : DiscoveryCommitRequest} {s s' : Store}
    {admission : DiscoveryCommitAdmission} (hadmitted : document.admitted lib profile = true)
    (hdiscovery : document.discovery = some entry)
    (hconfig : document.stateMetadata lib profile = some config)
    (hnew : readJobBySource s ⟨.discoveryHandler, request.generationId⟩ = .ok none)
    (hcommit : (commitDiscoveryDesiredState codec config request).run s = .ok (admission, s')) :
    ∃ job rows, s'.jobs = s.jobs ++ [job] ∧ job.sourceKind = .discoveryHandler ∧
      job.sourceId = request.generationId ∧ s'.targets = s.targets ++ rows ∧
      (∀ row ∈ rows, row.jobId = job.jobId) ∧
      ((∀ id, (∃ row ∈ rows, row.relayId.bytes = id) ↔ id ∈ entry.publishRelayIds) ↔
        ∀ relay ∈ document.relays, relay.write = true → relay.id ∈ entry.publishRelayIds) := by
  obtain ⟨policy, s₁, hpolicy, hcommit⟩ := run_bind_eq_ok.mp (run_withBinding_eq_ok hcommit)
  obtain ⟨-, rfl⟩ := run_orFail_eq_ok.mp hpolicy
  obtain ⟨hjobs, htargets⟩ := commitDesired_creates hnew hcommit
  refine ⟨_, _, hjobs, rfl, rfl, htargets, fun row hrow => (mem_newTargetRows hrow).1, ?_⟩
  have hrelays := deliveryPolicies_targets (stateMetadata_delivery hconfig)
  have hrows : ∀ id, (∃ row ∈ newTargetRows
      (deriveJobId ⟨.discoveryHandler, request.generationId⟩ request.eventDigest)
      request.createdAt 0 config.delivery.targets, row.relayId.bytes = id) ↔
      ∃ relay ∈ document.relays, relay.write = true ∧ relay.id = id := by
    intro id
    rw [← hrelays id]
    have hmap := newTargetRows_relay
      (deriveJobId ⟨.discoveryHandler, request.generationId⟩ request.eventDigest)
      request.createdAt 0 config.delivery.targets
    have hids := congrArg (List.map RelayId.bytes) hmap
    rw [List.map_map, List.map_map] at hids
    have hmem := congrArg (id ∈ ·) hids
    simpa using hmem
  constructor
  · intro hexact relay hrelay hwrite
    exact (hexact relay.id).mp ((hrows relay.id).mpr ⟨relay, hrelay, hwrite, rfl⟩)
  · intro hlisted id
    rw [hrows id]
    constructor
    · rintro ⟨relay, hrelay, hwrite, rfl⟩
      exact hlisted relay hrelay hwrite
    · intro hid
      obtain ⟨relay, hrelay, hrelayId, hwrite⟩ :=
        (ConfigDocument.admitted_related hadmitted).publish_relays entry hdiscovery id hid
      exact ⟨relay, hrelay, hwrite, hrelayId⟩

/-- An event library that knows the event of a handler. -/
def handlerCodec (policy : DiscoveryPolicies) : EventCodec where
  decode _ := some ⟨7, policy.authorPublicKey, 1, 31990, policy.expectedTags, policy.metadataJson, []⟩
  encode _ := [1]
  verify _ := true

/-- The handler of a document, committed to a new store. -/
def publication (document : ConfigDocument) :
    Option (Configuration × DiscoveryPolicies × DiscoveryCommitRequest ×
      DiscoveryCommitAdmission × Store) := do
  let config ← document.stateMetadata exampleLibrary .production
  let policy ← config.discovery
  let request ← DiscoveryCommitRequest.new (handlerCodec policy) config [1]
    (sampleTime 1000)
  let (admission, s) ← ((commitDiscoveryDesiredState (handlerCodec policy) config request).run
    (Store.initial config.metadata 1)).toOption
  return (config, policy, request, admission, s)

theorem publication_eq_some {document : ConfigDocument} {config : Configuration}
    {policy : DiscoveryPolicies} {request : DiscoveryCommitRequest}
    {admission : DiscoveryCommitAdmission} {s : Store}
    (h : publication document = some (config, policy, request, admission, s)) :
    document.stateMetadata exampleLibrary .production = some config ∧
      (commitDiscoveryDesiredState (handlerCodec policy) config request).run
        (Store.initial config.metadata 1) = .ok (admission, s) := by
  unfold publication at h
  obtain ⟨config', hconfig, h⟩ := Option.bind_eq_some_iff.mp h
  obtain ⟨policy', -, h⟩ := Option.bind_eq_some_iff.mp h
  obtain ⟨request', -, h⟩ := Option.bind_eq_some_iff.mp h
  obtain ⟨⟨admission', s'⟩, hcommit, h⟩ := Option.bind_eq_some_iff.mp h
  cases hrun : (commitDiscoveryDesiredState (handlerCodec policy') config' request').run
    (Store.initial config'.metadata 1) with
  | error e =>
      rw [hrun] at hcommit
      cases hcommit
  | ok result =>
      rw [hrun] at hcommit
      obtain rfl := Option.some.inj hcommit
      cases h
      exact ⟨hconfig, hrun⟩

/-- The example lists all its write relays, and is published to them. -/
theorem example_published_where_configured :
    exampleDocument.admitted exampleLibrary .production = true ∧
      ∃ config policy request admission s', publication exampleDocument =
        some (config, policy, request, admission, s') ∧
      ∃ job rows, s'.jobs = [job] ∧ job.sourceId = request.generationId ∧ s'.targets = rows ∧
        ∀ id, (∃ row ∈ rows, row.relayId.bytes = id) ↔ id ∈ [ascii "primary", ascii "secondary"] := by
  have hadmitted : exampleDocument.admitted exampleLibrary .production = true := by decide +kernel
  have hsome : (publication exampleDocument).isSome = true := by decide +kernel
  obtain ⟨⟨config, policy, request, admission, s'⟩, hpublication⟩ :=
    Option.isSome_iff_exists.mp hsome
  obtain ⟨hconfig, hcommit⟩ := publication_eq_some hpublication
  obtain ⟨job, rows, hjobs, -, hsource, htargets, -, hiff⟩ :=
    published_where_configured_iff hadmitted rfl hconfig rfl hcommit
  exact ⟨hadmitted, config, policy, request, admission, s', hpublication, job, rows, hjobs, hsource,
    htargets, hiff.mpr (by decide +kernel)⟩

/-- The example with one publish relay. -/
def onePublishDocument : ConfigDocument :=
  { exampleDocument with
    discovery := exampleDocument.discovery.map fun entry =>
      { entry with publishRelayIds := [ascii "primary"] } }

/-- Its handler is published to the other write relay as well. -/
theorem handler_published_elsewhere :
    onePublishDocument.admitted exampleLibrary .production = true ∧
      onePublishDocument.discovery.map DiscoveryEntry.publishRelayIds = some [ascii "primary"] ∧
      ∃ config policy request admission s', publication onePublishDocument =
        some (config, policy, request, admission, s') ∧
        s'.targets.map (fun row => row.relayId.bytes) = [ascii "primary", ascii "secondary"] := by
  have hadmitted : onePublishDocument.admitted exampleLibrary .production = true ∧
      onePublishDocument.discovery.map DiscoveryEntry.publishRelayIds = some [ascii "primary"] := by
    decide +kernel
  have hrows : ((publication onePublishDocument).map fun result =>
      result.2.2.2.2.targets.map fun row => row.relayId.bytes) =
        some [ascii "primary", ascii "secondary"] := by
    decide +kernel
  obtain ⟨⟨config, policy, request, admission, s'⟩, hpublication, hrows⟩ :=
    Option.map_eq_some_iff.mp hrows
  exact ⟨hadmitted.1, hadmitted.2, config, policy, request, admission, s', hpublication, hrows⟩

end MycSigner
