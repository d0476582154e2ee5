import MycSigner.Delivery.Creation
import MycSigner.Outbox.Generations
import MycSigner.Responses.Atomicity

/-!
# What belongs together in the outbox

Before recovery walks over the open jobs it verifies the relationships of the whole outbox, and
for every job that it examines the bytes that the job delivers.  Documents and the jobs that
deliver them are committed together, responses too, and nothing is taken away again.  While the
service runs under one configuration none of these checks can fail.
-/

namespace MycSigner

open Transaction

/-! ## Documents and their jobs -/

/-- Generations, documents and the jobs that deliver them. -/
structure DocumentsPaired (s : Store) : Prop where
  paired : s.documents.map DocumentRow.generationId = s.desired.map DesiredRow.generationId
  unique : Table.Unique DocumentRow.generationId s.documents
  delivered : ∀ document ∈ s.documents, ∃ job ∈ s.jobs,
    job.Delivers document.generationId document.eventSha256
  documented : ∀ job ∈ s.jobs, job.sourceKind = .discoveryHandler →
    ∃ document ∈ s.documents, job.Delivers document.generationId document.eventSha256
  pointed : s.documents ≠ [] → s.publicationState.isSome = true

section

variable {s s' : Store} {request : DiscoveryCommitRequest} {source : Source} {artifact : Id32}
  {createdAt : TimeUnixMs} {policy : DeliveryPolicies}

theorem JobRow.Delivers.congr {job job' : JobRow} {generationId artifact : Id32}
    (h : job.Delivers generationId artifact) (hsame : job'.asCreated = job.asCreated) :
    job'.Delivers generationId artifact where
  kind := (congrArg JobRow.sourceKind hsame :).trans h.kind
  source := (congrArg JobRow.sourceId hsame :).trans h.source
  artifact := (congrArg JobRow.artifactSha256 hsame :).trans h.artifact

/-- A step of the delivery creates one job or leaves what the jobs were created with. -/
theorem DeliveryStep.jobs_asCreated (h : DeliveryStep s s') :
    s'.jobs.map JobRow.asCreated = s.jobs.map JobRow.asCreated ∨
      ∃ source artifact createdAt policy,
        jobInsertAllowed s (newJobRow source artifact createdAt policy) = true ∧
          s'.jobs = s.jobs ++ [newJobRow source artifact createdAt policy] := by
  cases h with
  | create _ hallowed => exact .inr ⟨_, _, _, _, hallowed, rfl⟩
  | @claim job _ _ claimedAt h =>
      refine .inl (Table.map_replace _ ?_)
      unfold JobRow.activated
      split <;> rfl
  | submit => exact .inl rfl
  | resolve =>
      left
      unfold Store.finalized
      split
      · exact Table.map_replace _ rfl
      · rfl

theorem exists_asCreated {rows rows' : List JobRow} (h : rows'.map JobRow.asCreated =
    rows.map JobRow.asCreated) {job : JobRow} (hjob : job ∈ rows') :
    ∃ old ∈ rows, old.asCreated = job.asCreated := by
  have hmem := List.mem_map_of_mem (f := JobRow.asCreated) hjob
  rw [h] at hmem
  exact List.mem_map.mp hmem

/-- No two jobs have one source. -/
theorem source_free_of_allowed
    (h : jobInsertAllowed s (newJobRow source artifact createdAt policy) = true) {job : JobRow}
    (hjob : job ∈ s.jobs) :
    ¬ (job.sourceKind = source.kind ∧ job.sourceId = source.id) := by
  simp only [jobInsertAllowed, Bool.and_eq_true, List.all_eq_true] at h
  have hfree := h.2 job hjob
  rintro ⟨hkind, hid⟩
  simp [newJobRow, hkind, hid] at hfree

theorem desired_of_allowed (h : jobInsertAllowed s (newJobRow source artifact createdAt policy) =
    true) (hkind : source.kind = .discoveryHandler) :
    ∃ row ∈ s.desired, row.generationId = source.id := by
  simp only [jobInsertAllowed, Bool.and_eq_true] at h
  have hknown := h.1.2
  simp only [jobSourceKnown, newJobRow, hkind, List.any_eq_true, beq_iff_eq] at hknown
  exact hknown

namespace DocumentsPaired

theorem initial (metadata : PersistedMetadata) (appliedAtUnixS : ℕ) :
    DocumentsPaired (Store.initial metadata appliedAtUnixS) :=
  ⟨rfl, .nil, nofun, nofun, fun h => absurd rfl h⟩

theorem document_of_desired (inv : DocumentsPaired s) {row : DesiredRow} (hrow : row ∈ s.desired) :
    ∃ document ∈ s.documents, document.generationId = row.generationId := by
  have hmem := List.mem_map_of_mem (f := DesiredRow.generationId) hrow
  rw [← inv.paired] at hmem
  exact List.mem_map.mp hmem

/-- A job is created for a known generation only together with its document. -/
theorem not_allowed (inv : DocumentsPaired s) {row : DesiredRow} (hrow : row ∈ s.desired)
    (hkind : source.kind = .discoveryHandler) (hid : row.generationId = source.id)
    (hallowed : ∀ job ∈ s.jobs, ¬ (job.sourceKind = source.kind ∧ job.sourceId = source.id)) :
    False := by
  obtain ⟨document, hdocument, hgeneration⟩ := inv.document_of_desired hrow
  obtain ⟨job, hjob, hdelivers⟩ := inv.delivered document hdocument
  exact hallowed job hjob ⟨hdelivers.kind.trans hkind.symm,
    hdelivers.source.trans (hgeneration.trans hid)⟩

theorem of_jobs (inv : DocumentsPaired s)
    (hjobs : s'.jobs.map JobRow.asCreated = s.jobs.map JobRow.asCreated)
    (hdesired : s'.desired = s.desired) (hdocuments : s'.documents = s.documents)
    (hpointer : s.publicationState.isSome = true → s'.publicationState.isSome = true) :
    DocumentsPaired s' where
  paired := by rw [hdesired, hdocuments, inv.paired]
  unique := hdocuments ▸ inv.unique
  delivered := by
    intro document hdocument
    obtain ⟨job, hjob, hdelivers⟩ := inv.delivered document (hdocuments ▸ hdocument)
    obtain ⟨job', hjob', hsame⟩ := exists_asCreated hjobs.symm hjob
    exact ⟨job', hjob', hdelivers.congr hsame⟩
  documented := by
    intro job hjob hkind
    obtain ⟨old, hold, hsame⟩ := exists_asCreated hjobs hjob
    obtain ⟨document, hdocument, hdelivers⟩ :=
      inv.documented old hold ((congrArg JobRow.sourceKind hsame :).trans hkind)
    exact ⟨document, hdocuments ▸ hdocument, hdelivers.congr hsame.symm⟩
  pointed := fun hne => hpointer (inv.pointed (hdocuments ▸ hne))

theorem move (inv : DocumentsPaired s) (h : OutboxMove s s') : DocumentsPaired s' := by
  cases h with
  | elsewhere h =>
      simp only [Store.outbox, Prod.mk.injEq] at h
      obtain ⟨hjobs, -, -, hdesired, hdocuments, hpointer⟩ := h
      exact inv.of_jobs (by rw [hjobs]) hdesired hdocuments (by rw [hpointer]; exact id)
  | deliver h =>
      obtain ⟨hdesired, hdocuments, hpointer⟩ := h.discovery_eq
      rcases h.jobs_asCreated with hsame | ⟨source, artifact, createdAt, policy, hallowed, hjobs⟩
      · exact inv.of_jobs hsame hdesired hdocuments (by rw [hpointer]; exact id)
      · have hold : ∀ job ∈ s'.jobs, job.sourceKind = .discoveryHandler → job ∈ s.jobs := by
          intro job hjob hkind
          rw [hjobs, List.mem_append, List.mem_singleton] at hjob
          rcases hjob with hjob | rfl
          · exact hjob
          · obtain ⟨row, hrow, hid⟩ := desired_of_allowed hallowed hkind
            exact (inv.not_allowed hrow hkind hid fun job => source_free_of_allowed hallowed).elim
        refine ⟨by rw [hdesired, hdocuments, inv.paired], hdocuments ▸ inv.unique, ?_, ?_, ?_⟩
        · intro document hdocument
          obtain ⟨job, hjob, hdelivers⟩ := inv.delivered document (hdocuments ▸ hdocument)
          exact ⟨job, hjobs ▸ List.mem_append_left _ hjob, hdelivers⟩
        · intro job hjob hkind
          rw [hdocuments]
          exact inv.documented job (hold job hjob hkind) hkind
        · rw [hdocuments, hpointer]
          exact inv.pointed
  | promote h =>
      exact inv.of_jobs rfl rfl rfl fun _ => rfl

theorem moves (inv : DocumentsPaired s) (h : Relation.ReflTransGen OutboxMove s s') :
    DocumentsPaired s' := by
  induction h with
  | refl => exact inv
  | tail _ hmove ih => exact ih.move hmove

/-- A commit adds a generation, its document and its job. -/
theorem commit (inv : DocumentsPaired s) (hdelivery : DeliveryInv s') (h : OutboxCommit s s') :
    DocumentsPaired s' := by
  obtain ⟨hfresh, hcreates, hjob, hdelivers, -⟩ := h
  rename_i request job s₁
  obtain ⟨hdesired, hdocuments⟩ := discovery_of_creates hcreates
  have hcarried := jobs_carried_of_creates hcreates
  have hnew : ∀ document ∈ s.documents,
      document.generationId ≠ request.documentRow.generationId := by
    intro document hdocument hsame
    have hmem := List.mem_map_of_mem (f := DocumentRow.generationId) hdocument
    rw [inv.paired] at hmem
    obtain ⟨row, hrow, hid⟩ := List.mem_map.mp hmem
    exact hfresh row hrow (hid.trans hsame)
  have hmem : ∀ document, document ∈ s₁.documents ↔
      document ∈ s.documents ∨ document = request.documentRow := by
    intro document
    rw [hdocuments, List.mem_append, List.mem_singleton]
  refine ⟨?_, ?_, ?_, ?_, fun _ => rfl⟩
  · rw [show Store.documents _ = s₁.documents from rfl, show Store.desired _ = s₁.desired from rfl,
      hdesired, hdocuments, List.map_append, List.map_append, inv.paired]
    rfl
  · rw [show Store.documents _ = s₁.documents from rfl, hdocuments]
    exact inv.unique.append_row hnew
  · intro document hdocument
    rcases (hmem document).mp hdocument with hold | rfl
    · obtain ⟨old, hold, hdelivered⟩ := inv.delivered document hold
      obtain ⟨later, hlater, hcontinues⟩ := hcarried old hold
      exact ⟨later, hlater, hcontinues.delivers hdelivered⟩
    · exact ⟨job, hjob, hdelivers⟩
  · intro row hrow hkind
    -- an old job has its document; the new one delivers the generation of the request
    have hknown : (∃ old ∈ s.jobs, old.asCreated = row.asCreated) ∨ row = job := by
      rcases hcreates with rfl | hstep
      · exact .inl ⟨row, hrow, rfl⟩
      · rcases hstep.jobs_asCreated with
          hsame | ⟨source, artifact, createdAt, policy, hallowed, hjobs⟩
        · exact .inl (exists_asCreated hsame hrow)
        · rw [hjobs, List.mem_append, List.mem_singleton] at hrow
          rcases hrow with hold | rfl
          · exact .inl ⟨row, hold, rfl⟩
          · obtain ⟨desired, hmemDesired, hid⟩ := desired_of_allowed hallowed hkind
            rcases List.mem_append.mp hmemDesired with hold | hnewest
            · exact (inv.not_allowed hold hkind hid fun other =>
                source_free_of_allowed (s := s.withGeneration request) hallowed).elim
            · obtain rfl := List.mem_singleton.mp hnewest
              refine .inr (hdelivery.sources_unique.eq_of_key_eq ?_ hjob ?_)
              · rw [show Store.jobs _ = s₁.jobs from rfl, hjobs]
                exact List.mem_append_right _ (List.mem_singleton_self _)
              · exact Prod.ext (hkind.trans hdelivers.kind.symm)
                  (hid.symm.trans hdelivers.source.symm)
    rcases hknown with ⟨old, hold, hsame⟩ | rfl
    · obtain ⟨document, hdocument, hdelivered⟩ :=
        inv.documented old hold ((congrArg JobRow.sourceKind hsame :).trans hkind)
      exact ⟨document, (hmem document).mpr (.inl hdocument), hdelivered.congr hsame.symm⟩
    · exact ⟨request.documentRow, (hmem _).mpr (.inr rfl), hdelivers⟩

theorem performed {codec : EventCodec} {system : System} (inv : DocumentsPaired system.store)
    (hdelivery : DeliveryInv system.store) (event : Event) :
    DocumentsPaired (system.perform codec event).store := by
  obtain ⟨hdelivery', hmoves | hcommit⟩ := System.moves codec hdelivery event
  · exact inv.moves hmoves
  · exact inv.commit hdelivery' hcommit

end DocumentsPaired

/-! ## Responses -/

/-- Every response that is stored can be read for the client of its request. -/
def ResponsesReadable (codec : EventCodec) (s : Store) : Prop :=
  ∀ authority ∈ responseAuthorities s, ∃ request, AnsweredBy codec s authority request

/-- The one response of an operation. -/
theorem OutcomesConsistent.eq_of_stored (inv : OutcomesConsistent s)
    {authority other : ResponseAuthority} (h : authority ∈ responseAuthorities s)
    (hother : other ∈ responseAuthorities s) (hsame : other.operationId = authority.operationId) :
    other = authority := by
  have hmem : other ∈ (responseAuthorities s).filter fun row =>
      row.operationId = authority.operationId := List.mem_filter.mpr ⟨hother, decide_eq_true hsame⟩
  rw [(inv.stored h).1] at hmem
  exact List.mem_singleton.mp hmem

theorem ResponsesReadable.performed {codec : EventCodec} {system : System}
    (inv : ResponsesReadable codec system.store) (outcomes : OutcomesConsistent system.store)
    (event : Event) : ResponsesReadable codec (system.perform codec event).store := by
  intro authority hauthority
  by_cases hsame : (system.perform codec event).store.outcomes authority.operationId =
      system.store.outcomes authority.operationId
  · have hmem : authority ∈ (responseAuthorities (system.perform codec event).store).filter
        fun other => other.operationId = authority.operationId :=
      List.mem_filter.mpr ⟨hauthority, decide_eq_true rfl⟩
    rw [authorities_filter, hsame, ← authorities_filter] at hmem
    obtain ⟨request, hanswered⟩ := inv authority (List.mem_filter.mp hmem).1
    exact ⟨request, hanswered.stay system outcomes [event]⟩
  · have hconsistent : OutcomesConsistent (system.perform codec event).store :=
      outcomes.perform event
    revert hconsistent hauthority hsame
    refine System.perform_cases (R := fun next : System =>
      authority ∈ responseAuthorities next.store →
      ¬ next.store.outcomes authority.operationId = system.store.outcomes authority.operationId →
      OutcomesConsistent next.store → ∃ request, AnsweredBy codec next.store authority request)
      event (fun _ h => absurd rfl h) ?_ ?_
    · intro operation u s' _ hrun hauthority hchanged hconsistent
      obtain ⟨s₁, hstep, hview⟩ := Operation.step hrun
      have hwritten : s₁.outcomes authority.operationId ≠
          system.store.outcomes authority.operationId := fun hsame => hchanged
        ((congrArg (Store.outcomes · authority.operationId) hview :).trans hsame)
      rcases hstep.outcomes_changed hwritten with
        ⟨⟨request, hevent, hid, -⟩, -⟩ | ⟨request, hevent, hid, -⟩
      · obtain rfl := Event.operation.inj hevent
        obtain ⟨admission, hcommit⟩ := run_forEffect_eq_ok hrun
        obtain ⟨row, hanswered⟩ := (commitNip46Response_committed hcommit).1.answered
        obtain rfl := hconsistent.eq_of_stored hanswered.stored hauthority hid.symm
        exact ⟨row, hanswered⟩
      · obtain rfl := Event.operation.inj hevent
        obtain ⟨admission, hcommit⟩ := run_forEffect_eq_ok hrun
        obtain ⟨row, hanswered⟩ := (commitNip46PendingResponse_committed hcommit).1.answered
        obtain rfl := hconsistent.eq_of_stored hanswered.stored hauthority hid.symm
        exact ⟨row, hanswered⟩
    · intro candidate appliedAtUnixS outcome s' _ hrun _ hchanged
      refine absurd ?_ hchanged
      rcases applyConfiguration_cases hrun with ⟨-, rfl⟩ | ⟨-, bindings, rfl⟩
      · rfl
      · unfold Store.reconfigured
        split
        next => rfl
        next =>
          split
          next => rfl
          next => rfl

end

/-! ## One configuration -/

/-- A transaction of the service under a configuration: the open jobs stay within its ceiling, and
a new document can be parsed under its policy. -/
def StaysWithin (codec : EventCodec) (config : Configuration) (s s' : Store) : Prop :=
  DeliveryInv s → DeliveryInv s' ∧
    (activeJobCount s ≤ config.delivery.outboxMaximum →
      activeJobCount s' ≤ config.delivery.outboxMaximum) ∧
    ∀ document ∈ s'.documents, document ∈ s.documents ∨
      ∃ policy, config.discovery = some policy ∧ documentReadable codec policy document = true

section

variable {codec : EventCodec} {config : Configuration} {s s' : Store}

instance : Std.Refl (StaysWithin codec config) :=
  ⟨fun _ inv => ⟨inv, id, fun _ h => .inl h⟩⟩

instance : IsTrans Store (StaysWithin codec config) := by
  refine ⟨fun s₁ s₂ s₃ h₁ h₂ inv₁ => ?_⟩
  obtain ⟨inv₂, hcount₁, hdocuments₁⟩ := h₁ inv₁
  obtain ⟨inv₃, hcount₂, hdocuments₂⟩ := h₂ inv₂
  refine ⟨inv₃, fun h => hcount₂ (hcount₁ h), fun document hdocument => ?_⟩
  rcases hdocuments₂ document hdocument with hold | hnew
  · exact hdocuments₁ document hold
  · exact .inr hnew

theorem documents_of_moves (h : Relation.ReflTransGen OutboxMove s s') :
    s'.documents = s.documents := by
  induction h with
  | refl => rfl
  | tail _ hmove ih =>
      rw [← ih]
      cases hmove with
      | elsewhere h =>
          simp only [Store.outbox, Prod.mk.injEq] at h
          exact h.2.2.2.2.1
      | deliver h => exact h.discovery_eq.2.1
      | promote => rfl

namespace StaysWithin

/-- Moves add no document. -/
theorem of_moves (h : Moves s s') (hcount : DeliveryInv s →
    activeJobCount s ≤ config.delivery.outboxMaximum →
      activeJobCount s' ≤ config.delivery.outboxMaximum) : StaysWithin codec config s s' := by
  intro inv
  obtain ⟨inv', hmoves⟩ := h inv
  exact ⟨inv', hcount inv, fun document hdocument => .inl (documents_of_moves hmoves ▸ hdocument)⟩

theorem elsewhere (h : s'.outbox = s.outbox) : StaysWithin codec config s s' := by
  have hjobs : s'.jobs = s.jobs := congrArg Prod.fst h
  refine of_moves (.elsewhere h) fun _ hcount => ?_
  rwa [activeJobCount, hjobs]

/-- A delivery call stays within the ceiling. -/
theorem of_call {α : Type} {body : Tx α} {a : α} (call : DeliveryCall)
    (hcall : call.performUnder config.delivery s = (body.atomically s).2)
    (hmoves : Respects Moves body) (h : body.run s = .ok (a, s')) :
    StaysWithin codec config s s' := by
  refine of_moves (hmoves h) fun inv hcount => ?_
  have hbound := inv.activeJobCount_performUnder call hcount
  rwa [hcall, atomically_of_ok h] at hbound

theorem createJob {source : Source} {artifact : Id32} {createdAt : TimeUnixMs} :
    Respects (StaysWithin codec config)
      (MycSigner.createJob source artifact createdAt config.delivery) := by
  intro s a s' h
  exact of_call (.operation (.createJob source artifact createdAt config.delivery)) rfl
    (respects_moves fun _ => createJob_step) h

theorem createResponseJob {operationId digest : Id32} {committedAt : TimeUnixMs} :
    Respects (StaysWithin codec config)
      (MycSigner.createResponseJob operationId digest committedAt config.delivery) := by
  unfold MycSigner.createResponseJob
  refine .bind createJob fun job => ?_
  cases job with
  | created => exact .pure _
  | exactReplay => exact .fail _

theorem readExactResponse {authority : ResponseAuthority} :
    Respects (StaysWithin codec config) (MycSigner.readExactResponse codec authority) :=
  .bind (.query _) fun _ => .bind (.orFail _ _) fun _ => .bind (.require _ _) fun _ => .pure _

theorem commitNip46Response (request : ResponseCommitRequest) :
    Respects (StaysWithin codec config) (MycSigner.commitNip46Response codec config request) := by
  refine respects_withBinding config (.bind ?_ fun completion => ?_)
  · intro s admission s' hrun
    obtain ⟨-, ⟨-, rfl, -⟩ | ⟨-, -, -, -, -, rfl⟩⟩ := commitOperation_cases hrun
    · exact Std.Refl.refl _
    · exact elsewhere rfl
  · cases completion with
    | exactReplay => exact .bind readExactResponse fun _ => .pure _
    | committed =>
        exact .bind (signedResponsesTable.respects_insert fun _ _ => elsewhere rfl) fun _ =>
          .bind createResponseJob fun _ => .bind readExactResponse fun _ => .pure _

theorem commitNip46PendingResponse (request : PendingResponseCommitRequest) :
    Respects (StaysWithin codec config)
      (MycSigner.commitNip46PendingResponse codec config request) := by
  refine respects_withBinding config (.bind ?_ fun _ => .bind (.query _) fun response => ?_)
  · exact .bind (.query _) fun _ => .require _ _
  · cases response with
    | some response => exact .bind (.require _ _) fun _ => .pure _
    | none =>
        exact .bind (pendingResponsesTable.respects_insert fun _ _ => elsewhere rfl) fun _ =>
          .bind createResponseJob fun _ => readExactResponse

/-- The document of a generation that was newly pointed at can be parsed. -/
theorem pointDesired_readable {request : DiscoveryCommitRequest} {policy : DiscoveryPolicies}
    {jobId : Id32} {admission : DiscoveryCommitAdmission}
    (h : (pointDesired codec request policy false jobId).run s = .ok (admission, s')) :
    ∃ document, readDocument codec policy s' request.generationId = .ok (some document) := by
  have hconfirmed : ∀ {s₁ : Store}, (confirmDesired codec request policy true).run s₁ =
      .ok (admission, s') →
      ∃ document, readDocument codec policy s' request.generationId = .ok (some document) := by
    intro s₁ hconfirm
    obtain ⟨-, rfl⟩ := confirmDesired_cases hconfirm
    unfold confirmDesired at hconfirm
    obtain ⟨_, -, h₁⟩ := run_query_bind_eq_ok.mp hconfirm
    obtain ⟨_, -, h₂⟩ := run_orFail_bind_eq_ok.mp h₁
    obtain ⟨document?, hread, h₃⟩ := run_query_bind_eq_ok.mp h₂
    obtain ⟨document, rfl, -⟩ := run_orFail_bind_eq_ok.mp h₃
    exact ⟨document, hread⟩
  unfold pointDesired at h
  obtain ⟨state?, -, hbody⟩ := run_query_bind_eq_ok.mp h
  cases state? with
  | none =>
      obtain ⟨_, s₁, -, hconfirm⟩ := run_bind_eq_ok.mp hbody
      exact hconfirmed hconfirm
  | some state =>
      dsimp only at hbody
      split at hbody
      next =>
        obtain ⟨hexisting, -⟩ := run_require_bind_eq_ok.mp hbody
        cases hexisting
      next =>
        obtain ⟨_, s₁, -, hconfirm⟩ := run_bind_eq_ok.mp hbody
        exact hconfirmed hconfirm

theorem commitDiscovery (request : DiscoveryCommitRequest) :
    Respects (StaysWithin codec config) (commitDiscoveryDesiredState codec config request) := by
  intro s admission s' h
  obtain ⟨policy, hpolicy, hcommit⟩ := run_orFail_bind_eq_ok.mp (run_withBinding_eq_ok h)
  unfold commitDesired at hcommit
  obtain ⟨_, -, h₁⟩ := run_query_bind_eq_ok.mp hcommit
  obtain ⟨_, -, h₂⟩ := run_query_bind_eq_ok.mp h₁
  obtain ⟨existing, -, h₃⟩ := run_query_bind_eq_ok.mp h₂
  obtain ⟨_, s₁, hinsert, h₄⟩ := run_bind_eq_ok.mp h₃
  obtain ⟨job, s₂, hcreate, hpoint⟩ := run_bind_eq_ok.mp h₄
  have hcreates : StaysWithin codec config s₁ s₂ := createJob hcreate
  rcases insertGeneration_cases hinsert with ⟨rfl, rfl⟩ | ⟨rfl, hfresh, rfl⟩
  · obtain ⟨-, rfl⟩ : true = true ∧ s' = s₂ :=
      (pointDesired_cases hpoint).resolve_right fun hnew => by simp at hnew
    exact hcreates
  · obtain ⟨document, hread⟩ := pointDesired_readable hpoint
    obtain ⟨-, -, rfl⟩ := (pointDesired_cases hpoint).resolve_left fun hold => by simp at hold
    intro inv
    obtain ⟨inv₂, hcount, hdocuments⟩ := hcreates (inv.congr rfl rfl rfl)
    refine ⟨inv₂.congr rfl rfl rfl, hcount, fun other hother => ?_⟩
    rcases hdocuments other hother with hmem | hnew
    · rcases List.mem_append.mp hmem with hold | hnewest
      · exact .inl hold
      · obtain rfl := List.mem_singleton.mp hnewest
        obtain ⟨hrows, hreadable⟩ := readDocument_eq_some.mp hread
        have hfound : request.documentRow ∈ s₂.documents.filter fun row =>
            row.generationId = request.generationId :=
          List.mem_filter.mpr ⟨hother, decide_eq_true rfl⟩
        have hrows' : (s₂.documents.filter fun row =>
            row.generationId = request.generationId) = [document] := hrows
        rw [hrows', List.mem_singleton] at hfound
        exact .inr ⟨policy, hpolicy, hfound ▸ hreadable⟩
    · exact .inr hnew

end StaysWithin

theorem Operation.staysWithin {operation : Operation} {u : Unit}
    (h : (operation.body codec config).run s = .ok (u, s')) : StaysWithin codec config s s' := by
  have hsession : operation.ofOutbox = false → operation.commitsResponse = false →
      StaysWithin codec config s s' := by
    intro houtbox hcommits
    obtain ⟨s₁, hstep, hview⟩ := Operation.step h
    exact .elsewhere ((congrArg Store.outbox hview :).trans (hstep.outbox_eq houtbox hcommits))
  cases operation with
  | commitResponse request =>
      obtain ⟨_, h⟩ := run_forEffect_eq_ok h
      exact StaysWithin.commitNip46Response request h
  | commitPendingResponse request =>
      obtain ⟨_, h⟩ := run_forEffect_eq_ok h
      exact StaysWithin.commitNip46PendingResponse request h
  | commitDiscovery request =>
      obtain ⟨_, h⟩ := run_forEffect_eq_ok h
      exact StaysWithin.commitDiscovery request h
  | promoteDiscovery jobId observedAt =>
      refine .of_moves (respects_withBinding config (promoteCurrent_moves jobId observedAt) h)
        fun _ hcount => ?_
      obtain ⟨-, -, ⟨rfl, -⟩ | rfl⟩ := promoteCurrent_cases (run_withBinding_eq_ok h)
      · exact hcount
      · exact hcount
  | claimDelivery jobId relayId nonce claimedAt =>
      obtain ⟨_, h⟩ := run_forEffect_eq_ok h
      exact .of_call (.operation (.claimTarget jobId relayId nonce claimedAt)) rfl
        (respects_moves claimTarget_step) (run_withBinding_eq_ok h)
  | markSubmitted jobId relayId attemptId submittedAt =>
      obtain ⟨_, h⟩ := run_forEffect_eq_ok h
      exact .of_call (.operation (.markSubmitted jobId relayId attemptId submittedAt)) rfl
        (respects_moves markSubmitted_step) (run_withBinding_eq_ok h)
  | recordOutcome jobId relayId attemptId outcome jitter observedAt =>
      obtain ⟨_, h⟩ := run_forEffect_eq_ok h
      exact .of_call
        (.operation (.recordOutcome jobId relayId attemptId outcome jitter observedAt)) rfl
        (respects_moves recordOutcome_step) (run_withBinding_eq_ok h)
  | recoverExpired jobId relayId attemptId jitter observedAt =>
      obtain ⟨_, h⟩ := run_forEffect_eq_ok h
      exact .of_call (.operation (.recoverExpired jobId relayId attemptId jitter observedAt)) rfl
        (respects_moves recoverExpired_step) (run_withBinding_eq_ok h)
  | recoverBatch entropy observedAt cursor =>
      obtain ⟨⟨report, continuation⟩, h⟩ := run_forEffect_eq_ok h
      have hbatch := run_withBinding_eq_ok h
      exact .of_moves (recoverBatch_moves _ _ _ _ _ _ hbatch)
        fun _ hcount => Nat.le_trans (recoverBatch_examines hbatch).2.1 hcount
  | admitRequest | admitConnection | decidePending | adminConnection | expireConnection
  | issueChallenge | authorizeChallenge | adminRequireChallenge | adminAuthorizeChallenge
  | compactGovernance => exact hsession rfl rfl

/-! ## What recovery verifies -/

/-- The event does not apply a configuration. -/
def Event.OfService : Event → Prop
  | .operation _ => True
  | .apply .. => False

/-- What holds of the store of a service that stays under one configuration. -/
structure OutboxRelated (codec : EventCodec) (config : Configuration) (s : Store) : Prop where
  generations : GenerationInv s
  requests : Table.Unique RequestRow.operationId s.requests
  outcomes : OutcomesConsistent s
  responses : ResponsesReadable codec s
  documents : DocumentsPaired s
  readable : ∀ document ∈ s.documents, ∃ policy, config.discovery = some policy ∧
    documentReadable codec policy document = true
  ceiling : activeJobCount s ≤ config.delivery.outboxMaximum

namespace OutboxRelated

theorem initial (config : Configuration) (appliedAtUnixS : ℕ) :
    OutboxRelated codec config (System.initial config appliedAtUnixS).store where
  generations := .initial config.metadata appliedAtUnixS
  requests := .nil
  outcomes := .initial config.metadata appliedAtUnixS
  responses := nofun
  documents := .initial config.metadata appliedAtUnixS
  readable := nofun
  ceiling := Nat.zero_le _

theorem perform {system : System} (inv : OutboxRelated codec system.config system.store)
    (session : SessionInv system.store) (event : Event) (hevent : event.OfService) :
    (system.perform codec event).config = system.config ∧
      OutboxRelated codec system.config (system.perform codec event).store := by
  cases event with
  | apply => cases hevent
  | operation operation =>
      have hwithin : StaysWithin codec system.config system.store
          (system.perform codec (.operation operation)).store := by
        rcases atomically_state_cases (operation.body codec system.config) system.store with
          heq | ⟨u, hrun⟩
        · rw [show (system.perform codec (.operation operation)).store = _ from heq]
          exact Std.Refl.refl _
        · exact Operation.staysWithin hrun
      obtain ⟨-, hceiling, hdocuments⟩ := hwithin inv.generations.toDeliveryInv
      refine ⟨rfl, ⟨inv.generations.performed _, (session.perform _).requests_unique,
        inv.outcomes.perform _, inv.responses.performed inv.outcomes _,
        inv.documents.performed inv.generations.toDeliveryInv _, ?_, hceiling inv.ceiling⟩⟩
      intro document hdocument
      rcases hdocuments document hdocument with hold | hnew
      · exact inv.readable document hold
      · exact hnew

theorem reachable (codec : EventCodec) (config : Configuration) (appliedAtUnixS : ℕ)
    {events : List Event} (hevents : ∀ event ∈ events, event.OfService) :
    let system := Run.after (System.perform codec) (.initial config appliedAtUnixS) events
    system.config = config ∧ OutboxRelated codec config system.store := by
  have hrun : ∀ (events : List Event) (system : System), (∀ event ∈ events, event.OfService) →
      system.config = config → SessionInv system.store → OutboxRelated codec config system.store →
      (Run.after (System.perform codec) system events).config = config ∧
        OutboxRelated codec config (Run.after (System.perform codec) system events).store := by
    intro events
    induction events with
    | nil => exact fun system _ hconfig _ inv => ⟨hconfig, inv⟩
    | cons event rest ih =>
        intro system hevents hconfig session inv
        rw [List.forall_mem_cons] at hevents
        obtain ⟨hconfig', inv'⟩ := (hconfig.symm ▸ inv).perform session event hevents.1
        exact ih _ hevents.2 (hconfig'.trans hconfig) (session.perform event) (hconfig ▸ inv')
  exact hrun events _ hevents rfl (.initial config.metadata appliedAtUnixS)
    (.initial config appliedAtUnixS)

/-- The response that a job delivers. -/
theorem response_of_job (inv : OutcomesConsistent s) {job : JobRow} (hjob : job ∈ s.jobs)
    (hkind : job.sourceKind = .signerResponse) : ∃ authority ∈ responseAuthorities s,
      authority.operationId = job.sourceId ∧ job.artifactSha256 = authority.responseSha256 ∧
        job.createdAt = authority.committedAt := by
  have hfiltered : job ∈ s.jobs.filter fun row => row.sourceKind = .signerResponse ∧
      row.sourceId = job.sourceId := List.mem_filter.mpr ⟨hjob, decide_eq_true ⟨hkind, rfl⟩⟩
  obtain ⟨authority, hstored, hid⟩ : ∃ authority ∈ responseAuthorities s,
      authority.operationId = job.sourceId := by
    have hcreated : (s.outcomes job.sourceId).jobs ≠ [] := by
      rw [← outcomes_jobs]
      exact List.ne_nil_of_mem (List.mem_map_of_mem hfiltered)
    have hnone : ((responseAuthorities s).filter fun authority =>
        authority.operationId = job.sourceId) ≠ [] := by
      rw [authorities_filter]
      have hconsistent := inv job.sourceId
      generalize s.outcomes job.sourceId = outcomes at *
      cases hconsistent with
      | unanswered => exact absurd rfl hcreated
      | terminal => simp
      | pending => simp
    obtain ⟨authority, hmem⟩ := List.exists_mem_of_ne_nil _ hnone
    exact ⟨authority, (List.mem_filter.mp hmem).1, of_decide_eq_true (List.mem_filter.mp hmem).2⟩
  obtain ⟨-, delivering, hjobs, hdigest, hcreated⟩ := inv.stored hstored
  rw [hid] at hjobs
  rw [hjobs, List.mem_singleton] at hfiltered
  exact ⟨authority, hstored, hid, hfiltered ▸ hdigest, hfiltered ▸ hcreated⟩

theorem job_of_response (inv : OutcomesConsistent s) {authority : ResponseAuthority}
    (h : authority ∈ responseAuthorities s) :
    sourceOrphaned s .signerResponse authority.operationId = false := by
  obtain ⟨-, job, hjobs, -, -⟩ := inv.stored h
  have hmem := List.mem_singleton_self job
  rw [← hjobs, List.mem_filter, decide_eq_true_eq] at hmem
  simp only [sourceOrphaned, Bool.not_eq_false', List.any_eq_true, Bool.and_eq_true, beq_iff_eq]
  exact ⟨job, hmem.1, hmem.2⟩

/-- The relationships hold. -/
theorem related (inv : OutboxRelated codec config s) : outboxRelated s = true := by
  have wf := inv.generations.toDeliveryWf
  simp only [outboxRelated, Bool.and_eq_true, List.all_eq_true, Bool.not_eq_true']
  refine ⟨⟨⟨⟨⟨?_, ?_⟩, ?_⟩, ?_⟩, ?_⟩, ?_⟩
  · intro job hjob
    unfold jobSourceInvalid
    cases hkind : job.sourceKind with
    | signerResponse =>
        obtain ⟨authority, hstored, hid, hdigest, -⟩ := response_of_job inv.outcomes hjob hkind
        rw [Bool.and_eq_false_iff]
        rcases List.mem_append.mp hstored with hmem | hmem
        · obtain ⟨row, hrow, rfl⟩ := List.mem_map.mp hmem
          left
          rw [Bool.not_eq_false', List.any_eq_true]
          exact ⟨row, hrow, by simpa using ⟨hid, hdigest.symm⟩⟩
        · obtain ⟨row, hrow, rfl⟩ := List.mem_map.mp hmem
          right
          rw [Bool.not_eq_false', List.any_eq_true]
          exact ⟨row, hrow, by simpa using ⟨hid, hdigest.symm⟩⟩
    | discoveryHandler =>
        obtain ⟨document, hdocument, hdelivers⟩ := inv.documents.documented job hjob hkind
        rw [Bool.not_eq_false', List.any_eq_true]
        exact ⟨document, hdocument, by simpa using ⟨hdelivers.source.symm, hdelivers.artifact.symm⟩⟩
  · exact fun row hrow => job_of_response inv.outcomes
      (List.mem_append_left _ (List.mem_map_of_mem hrow))
  · exact fun row hrow => job_of_response inv.outcomes
      (List.mem_append_right _ (List.mem_map_of_mem hrow))
  · intro document hdocument
    obtain ⟨job, hjob, hdelivers⟩ := inv.documents.delivered document hdocument
    simp only [sourceOrphaned, Bool.not_eq_false', List.any_eq_true, Bool.and_eq_true, beq_iff_eq]
    exact ⟨job, hjob, hdelivers.kind, hdelivers.source⟩
  · intro target htarget
    obtain ⟨job, hjob, hid⟩ := wf.target_has_job target htarget
    exact List.any_eq_true.mpr ⟨job, hjob, beq_iff_eq.mpr hid⟩
  · intro attempt hattempt
    obtain ⟨target, htarget, hid⟩ := wf.attempt_has_target attempt hattempt
    exact List.any_eq_true.mpr ⟨target, htarget, by simpa using hid⟩

theorem verifyGlobalInvariants (inv : OutboxRelated codec config s) :
    MycSigner.verifyGlobalInvariants config.delivery.outboxMaximum s = .ok () :=
  Except.require_eq_ok.mpr ⟨inv.related, inv.ceiling⟩

/-- The response of a job is the only match for it. -/
theorem verifyResponse (inv : OutboxRelated codec config s) {job : JobRow} (hjob : job ∈ s.jobs)
    (hkind : job.sourceKind = .signerResponse) :
    verifyResponseForDeliveryJob codec s job.jobId = .ok () := by
  have wf := inv.generations.toDeliveryWf
  obtain ⟨authority, hstored, hid, hdigest, hcreated⟩ := response_of_job inv.outcomes hjob hkind
  obtain ⟨request, hanswered⟩ := inv.responses authority hstored
  have honly := (inv.outcomes.stored hstored).1
  have hrequests := inv.requests.filter_eq_singleton hanswered.request_mem
  rw [hanswered.operation] at hrequests
  have hjobs : (s.jobs.filter fun row => row.sourceKind = .signerResponse ∧
      row.sourceId = authority.operationId ∧ decide (row.jobId = job.jobId) = true) = [job] := by
    refine Table.filter_eq_of_only wf.jobs_unique.nodup hjob ?_ fun other hother hmatch => ?_
    · simp [hkind, hid]
    · have hsame := (of_decide_eq_true hmatch).2.2
      exact wf.jobs_unique.eq_of_key_eq hother hjob (of_decide_eq_true hsame)
  have hmatches : responseMatches s (fun _ row => decide (row.jobId = job.jobId)) =
      [⟨authority, request, job⟩] := by
    have hothers : ∀ other ∈ responseAuthorities s,
        decide (other.operationId = authority.operationId) = false →
        ((s.requests.filter fun request => request.operationId = other.operationId).flatMap
          fun request => (s.jobs.filter fun row => row.sourceKind = .signerResponse ∧
            row.sourceId = other.operationId ∧ decide (row.jobId = job.jobId) = true).map
              fun row => (⟨other, request, row⟩ : ResponseMatch)) = [] := by
      intro other _ hne
      have hnone : (s.jobs.filter fun row => row.sourceKind = .signerResponse ∧
          row.sourceId = other.operationId ∧ decide (row.jobId = job.jobId) = true) = [] := by
        rw [List.filter_eq_nil_iff]
        intro row hrow hmatch
        have hmatch := of_decide_eq_true hmatch
        obtain rfl := wf.jobs_unique.eq_of_key_eq hrow hjob (of_decide_eq_true hmatch.2.2)
        exact of_decide_eq_false hne (hmatch.2.1.symm.trans hid.symm)
      exact List.flatMap_eq_nil_iff.mpr fun request _ => by rw [hnone, List.map_nil]
    unfold responseMatches
    rw [flatMap_filter_of_nil hothers, honly, List.flatMap_singleton, hrequests,
      List.flatMap_singleton, hjobs]
    rfl
  have hread : readResponseByJob codec s job.jobId =
      .ok (some { authority with
        deliveryJob := { job with targets := targetsOf s job.jobId } }) := by
    unfold readResponseByJob readResponse
    rw [hmatches]
    refine Except.bind_eq_ok_iff.mpr ⟨some ⟨authority, request, job⟩, rfl, ?_⟩
    refine Except.bind_eq_ok_iff.mpr ⟨(), Except.require_eq_ok.mpr (hanswered.readable job), ?_⟩
    refine Except.bind_eq_ok_iff.mpr ⟨_, wf.readJob_eq_some hjob, ?_⟩
    refine Except.bind_eq_ok_iff.mpr ⟨_, rfl, ?_⟩
    exact Except.bind_eq_ok_iff.mpr
      ⟨(), Except.require_eq_ok.mpr ⟨hkind, hid.symm, hdigest, hcreated⟩, rfl⟩
  exact Except.bind_eq_ok_iff.mpr ⟨_, hread, rfl⟩

/-- The bytes of every job are retained and valid. -/
theorem verifySource (inv : OutboxRelated codec config s) {job : JobRow} (hjob : job ∈ s.jobs) :
    MycSigner.verifySource codec config.discovery s { job with targets := targetsOf s job.jobId } =
      .ok () := by
  have wf := inv.generations.toDeliveryWf
  unfold MycSigner.verifySource
  cases hkind : job.sourceKind with
  | signerResponse => exact inv.verifyResponse hjob hkind
  | discoveryHandler =>
      obtain ⟨document, hdocument, hdelivers⟩ := inv.documents.documented job hjob hkind
      obtain ⟨policy, hpolicy, hreadable⟩ := inv.readable document hdocument
      have hjobs : (s.jobs.filter fun row => row.jobId = job.jobId ∧
          row.sourceKind = .discoveryHandler) = [job] :=
        Table.filter_eq_of_only wf.jobs_unique.nodup hjob (decide_eq_true ⟨rfl, hkind⟩)
          fun other hother hmatch =>
            wf.jobs_unique.eq_of_key_eq hother hjob (of_decide_eq_true hmatch).1
      have hgeneration : discoveryGenerationForJob s job.jobId = .ok (some job.sourceId) :=
        Except.bind_eq_ok_iff.mpr ⟨some job, atMostOneRow_eq_some.mpr hjobs, rfl⟩
      have hrows := inv.documents.unique.filter_eq_singleton hdocument
      rw [← hdelivers.source] at hrows
      have hread : readDocument codec policy s job.sourceId = .ok (some document) :=
        readDocument_eq_some.mpr ⟨hrows, hreadable⟩
      refine Except.bind_eq_ok_iff.mpr ⟨(), Except.require_eq_ok.mpr hkind, ?_⟩
      refine Except.bind_eq_ok_iff.mpr ⟨_, hgeneration, ?_⟩
      refine Except.bind_eq_ok_iff.mpr ⟨_, rfl, ?_⟩
      refine Except.bind_eq_ok_iff.mpr ⟨(), Except.require_eq_ok.mpr rfl, ?_⟩
      refine Except.bind_eq_ok_iff.mpr ⟨policy, Except.ofOption_eq_ok.mpr hpolicy, ?_⟩
      refine Except.bind_eq_ok_iff.mpr ⟨_, hread, ?_⟩
      refine Except.bind_eq_ok_iff.mpr ⟨document, rfl, ?_⟩
      exact Except.require_eq_ok.mpr hdelivers.artifact.symm

end OutboxRelated

end

/-! ## Over whole runs -/

/-- While the service stays under one configuration, the outbox passes in every state what recovery
verifies before it touches a job: the global relationships, and for every job the record, the
bytes that it delivers and the histories of its attempts. -/
theorem outbox_always_verifies (codec : EventCodec) (config : Configuration) (appliedAtUnixS : ℕ)
    (events : List Event) (hevents : ∀ event ∈ events, event.OfService) :
    let s := (Run.after (System.perform codec) (.initial config appliedAtUnixS) events).store
    verifyGlobalInvariants config.delivery.outboxMaximum s = .ok () ∧
      ∀ job ∈ s.jobs, ∃ record, readJob s job.jobId = .ok (some record) ∧ record.toJobRow = job ∧
        verifySource codec config.discovery s record = .ok () ∧
        validateAttemptHistories s record = .ok () := by
  intro s
  obtain ⟨-, inv⟩ := OutboxRelated.reachable codec config appliedAtUnixS hevents
  have wf : DeliveryWf s := inv.generations.toDeliveryWf
  refine ⟨inv.verifyGlobalInvariants, fun job hjob => ?_⟩
  exact ⟨_, wf.readJob_eq_some hjob, rfl, inv.verifySource hjob,
    wf.validateAttemptHistories_eq_ok hjob⟩

/-- A run of two admissions of the sample service. -/
theorem sample_outbox_verifies :
    let s := (Run.after (System.perform SampleService.pongCodec)
      (.initial SampleService.approvalConfig 1) SampleService.waits).store
    verifyGlobalInvariants SampleService.approvalConfig.delivery.outboxMaximum s = .ok () ∧
      ∀ job ∈ s.jobs, ∃ record, readJob s job.jobId = .ok (some record) ∧ record.toJobRow = job ∧
        verifySource SampleService.pongCodec SampleService.approvalConfig.discovery s record =
          .ok () ∧
        validateAttemptHistories s record = .ok () := by
  refine outbox_always_verifies _ SampleService.approvalConfig 1 _ fun event h => ?_
  rcases List.mem_cons.mp h with rfl | h
  · trivial
  · obtain rfl := List.mem_singleton.mp h
    trivial

/-- In every state of the service, also after configurations were applied, every stored response
can be read back by its operation. -/
theorem stored_responses_readable (codec : EventCodec) (config : Configuration)
    (appliedAtUnixS : ℕ) (events : List Event) :
    let s := (Run.after (System.perform codec) (.initial config appliedAtUnixS) events).store
    ∀ authority ∈ responseAuthorities s, ∃ response,
      readResponseByOperation codec s authority.operationId = .ok (some response) ∧
        response.toResponseAuthority = authority := by
  intro s authority hauthority
  have hsound := (System.Sound.initial config appliedAtUnixS).run codec events
  have hreadable : ResponsesReadable codec s := by
    refine (Run.invariant_always (I := fun system : System => OutcomesConsistent system.store ∧
      ResponsesReadable codec system.store) (fun _ event h => ⟨h.1.perform event,
        h.2.performed h.1 event⟩) events ⟨?_, ?_⟩).2
    · exact .initial config.metadata appliedAtUnixS
    · exact (OutboxRelated.initial config appliedAtUnixS).responses
  obtain ⟨request, hanswered⟩ := hreadable authority hauthority
  exact hanswered.read hsound.outcomes hsound.session.requests_unique
    hsound.handler.delivery.toDeliveryWf

/-- In every state of the service, also after configurations were applied, the documents are those
of the generations, in their order and each once; every document has exactly one job, which
delivers its bytes; every discovery job has such a document; and with the first document there is
a pointer. -/
theorem documents_always_paired (codec : EventCodec) (config : Configuration)
    (appliedAtUnixS : ℕ) (events : List Event) :
    let s := (Run.after (System.perform codec) (.initial config appliedAtUnixS) events).store
    s.documents.map DocumentRow.generationId = s.desired.map DesiredRow.generationId ∧
      (s.documents.map DocumentRow.generationId).Nodup ∧
      (∀ document ∈ s.documents, ∃ job, (s.jobs.filter fun job =>
        job.sourceKind = .discoveryHandler ∧ job.sourceId = document.generationId) = [job] ∧
          job.artifactSha256 = document.eventSha256) ∧
      (∀ job ∈ s.jobs, job.sourceKind = .discoveryHandler → ∃ document ∈ s.documents,
        job.sourceId = document.generationId ∧ job.artifactSha256 = document.eventSha256) ∧
      (s.documents ≠ [] → s.publicationState.isSome = true) := by
  intro s
  have hsound := (System.Sound.initial config appliedAtUnixS).run codec events
  have wf : DeliveryWf s := hsound.handler.delivery.toDeliveryWf
  have inv : DocumentsPaired s := by
    refine (Run.invariant_always (I := fun system : System => DeliveryInv system.store ∧
      DocumentsPaired system.store) (fun _ event h => ⟨(System.moves codec h.1 event).1,
        h.2.performed h.1 event⟩) events ⟨?_, ?_⟩).2
    · exact NoDelivery.inv ⟨rfl, rfl, rfl⟩
    · exact .initial config.metadata appliedAtUnixS
  refine ⟨inv.paired, inv.unique, fun document hdocument => ?_, fun job hjob hkind => ?_,
    inv.pointed⟩
  · obtain ⟨job, hjob, hdelivers⟩ := inv.delivered document hdocument
    refine ⟨job, Table.filter_eq_of_only wf.jobs_unique.nodup hjob
      (decide_eq_true ⟨hdelivers.kind, hdelivers.source⟩) fun other hother hmatch => ?_,
      hdelivers.artifact⟩
    obtain ⟨hkind, hid⟩ := of_decide_eq_true hmatch
    exact wf.sources_unique.eq_of_key_eq hother hjob
      (Prod.ext (hkind.trans hdelivers.kind.symm) (hid.trans hdelivers.source.symm))
  · obtain ⟨document, hdocument, hdelivers⟩ := inv.documented job hjob hkind
    exact ⟨document, hdocument, hdelivers.source, hdelivers.artifact⟩

end MycSigner
