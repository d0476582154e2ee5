import Mathlib.Logic.Relation
import MycSigner.Outbox.Recovered
import MycSigner.Sessions.Refinement

/-!
# Moves of the outbox

Whatever a transaction of the service does to the delivery and discovery tables is one of four
things: nothing, a step of delivery, the promotion of the desired generation, or the commit of a
new one.  A recovery makes any number of delivery steps and promotions in one transaction; a
commit stands alone.  Facts about the outbox are proved of these moves and follow for every
operation.
-/

namespace MycSigner

open Transaction

variable {s s' : Store} {observedAt : TimeUnixMs}

/-! ## Promotion -/

/-- The pointer after the promotion of the desired generation. -/
def PublicationStateRow.promoted (state : PublicationStateRow) (observedAt : TimeUnixMs) :
    PublicationStateRow :=
  { state with
    currentGenerationId := some state.desiredGenerationId
    currentJobId := some state.desiredJobId
    updatedAt := observedAt }

/-- What a promotion needs: the job is the desired one and delivers its generation. -/
structure Promotes (s : Store) (state : PublicationStateRow) (jobId : Id32)
    (observedAt : TimeUnixMs) : Prop where
  pointer : s.publicationState = some state
  desired : state.desiredJobId = jobId
  ordered : state.updatedAt ≤ observedAt
  delivered : ∃ job ∈ s.jobs, job.jobId = jobId ∧ job.sourceKind = .discoveryHandler ∧
    job.sourceId = state.desiredGenerationId ∧ job.status = .delivered

theorem readPublicationState_eq_ok {state? : Option PublicationStateRow}
    (h : readPublicationState s = .ok state?) : s.publicationState = state? := by
  unfold readPublicationState at h
  split at h
  next row hrow =>
    obtain ⟨_, -, h⟩ := Except.bind_eq_ok_iff.mp h
    rw [hrow, Except.ok.inj h]
  next hnone => rw [hnone, Except.ok.inj h]

/-- An update that matches the pointer rewrites it. -/
theorem run_updatePublicationState {matching : PublicationStateRow → Bool}
    {set : PublicationStateRow → PublicationStateRow} {state : PublicationStateRow} {n : ℕ}
    (hpointer : s.publicationState = some state)
    (h : (updatePublicationState matching set).run s = .ok (n, s'))
    (hmatch : matching state = true) :
    publicationUpdateAllowed state (set state) = true ∧
      s' = { s with publicationState := some (set state) } := by
  obtain ⟨hallowed, -, rfl⟩ := publicationTable.run_update_eq_ok.mp h
  have hget : publicationTable.get s = [state] := by
    rw [show publicationTable.get s = s.publicationState.toList from rfl, hpointer]
    rfl
  rw [hget] at hallowed ⊢
  refine ⟨hallowed state (List.mem_singleton_self _) hmatch, ?_⟩
  rw [Table.update, List.map_singleton, if_pos hmatch]
  rfl

/-- A promotion that succeeds found the generation current already or makes it current. -/
theorem promoteCurrent_cases {jobId : Id32} {u : Unit}
    (h : (promoteCurrent jobId observedAt).run s = .ok (u, s')) :
    ∃ state, Promotes s state jobId observedAt ∧
      ((s' = s ∧ state.currentGenerationId = some state.desiredGenerationId ∧
          state.currentJobId = some state.desiredJobId) ∨
        s' = { s with publicationState := some (state.promoted observedAt) }) := by
  unfold promoteCurrent at h
  obtain ⟨state?, hstate, h⟩ := run_query_bind_eq_ok.mp h
  obtain ⟨state, rfl, h⟩ := run_orFail_bind_eq_ok.mp h
  obtain ⟨⟨hdesired, htime⟩, h⟩ := run_require_bind_eq_ok.mp h
  obtain ⟨job, hjob, h⟩ := run_query_bind_eq_ok.mp h
  obtain ⟨hdelivered, h⟩ := run_require_bind_eq_ok.mp h
  have hpointer := readPublicationState_eq_ok hstate
  have hfound : ∃ job ∈ s.jobs, job.jobId = jobId ∧ job.sourceKind = .discoveryHandler ∧
      job.sourceId = state.desiredGenerationId ∧ job.status = .delivered := by
    have hmem := List.mem_singleton_self job
    rw [← oneRow_eq_ok.mp hjob, List.mem_filter, decide_eq_true_eq] at hmem
    exact ⟨job, hmem.1, hmem.2.1, hmem.2.2.1, hmem.2.2.2, hdelivered⟩
  refine ⟨state, ⟨hpointer, hdesired, htime, hfound⟩, ?_⟩
  split at h
  next hcurrent =>
    obtain ⟨-, rfl⟩ := run_pure_eq_ok.mp h
    exact .inl ⟨rfl, hcurrent⟩
  next hcurrent =>
    obtain ⟨n, s₁, hupdate, h⟩ := run_bind_eq_ok.mp h
    obtain ⟨_, s₂, hone, h⟩ := run_bind_eq_ok.mp h
    obtain ⟨-, rfl⟩ := run_require_eq_ok.mp hone
    obtain ⟨_, -, h⟩ := run_query_bind_eq_ok.mp h
    obtain ⟨_, -, h⟩ := run_orFail_bind_eq_ok.mp h
    obtain ⟨-, rfl⟩ := run_pure_eq_ok.mp h
    exact .inr (run_updatePublicationState hpointer hupdate
      (decide_eq_true ⟨rfl, hdesired, htime, not_and_or.mp hcurrent⟩)).2

theorem promoteCurrentIfDesired_cases {jobId : Id32} {promoted : Bool}
    (h : (promoteCurrentIfDesired jobId observedAt).run s = .ok (promoted, s')) :
    ∃ state, s.publicationState = some state ∧
      ((promoted = false ∧ s' = s ∧ state.desiredJobId ≠ jobId) ∨
        (promoted = true ∧ (promoteCurrent jobId observedAt).run s = .ok ((), s'))) := by
  unfold promoteCurrentIfDesired at h
  obtain ⟨state?, hstate, hbody⟩ := run_query_bind_eq_ok.mp h
  obtain ⟨state, rfl, hrest⟩ := run_orFail_bind_eq_ok.mp hbody
  refine ⟨state, readPublicationState_eq_ok hstate, ?_⟩
  split at hrest
  next =>
    obtain ⟨_, s₁, hcurrent, hpure⟩ := run_bind_eq_ok.mp hrest
    obtain ⟨rfl, rfl⟩ := run_pure_eq_ok.mp hpure
    exact .inr ⟨rfl, hcurrent⟩
  next hdesired =>
    obtain ⟨rfl, rfl⟩ := run_pure_eq_ok.mp hrest
    exact .inl ⟨rfl, rfl, hdesired⟩

/-! ## The moves -/

/-- The tables of delivery and discovery. -/
def Store.outbox (s : Store) : List JobRow × List TargetRow × List AttemptRow × List DesiredRow ×
    List DocumentRow × Option PublicationStateRow :=
  (s.jobs, s.targets, s.attempts, s.desired, s.documents, s.publicationState)

/-- What a transaction that commits no generation can do to the outbox at a time. -/
inductive OutboxMove (s : Store) : Store → Prop where
  | elsewhere {s' : Store} (h : s'.outbox = s.outbox) : OutboxMove s s'
  | deliver {s' : Store} (h : DeliveryStep s s') : OutboxMove s s'
  | promote {state : PublicationStateRow} {jobId : Id32} {observedAt : TimeUnixMs}
      (h : Promotes s state jobId observedAt) :
      OutboxMove s { s with publicationState := some (state.promoted observedAt) }

/-- The store with the rows of a generation. -/
def Store.withGeneration (s : Store) (request : DiscoveryCommitRequest) : Store :=
  { s with
    desired := s.desired ++ [request.desiredRow]
    documents := s.documents ++ [request.documentRow] }

/-- The pointer after a commit. -/
def DiscoveryCommitRequest.pointer (request : DiscoveryCommitRequest) (jobId : Id32) :
    Option PublicationStateRow → PublicationStateRow
  | none =>
      { desiredGenerationId := request.generationId, desiredJobId := jobId,
        currentGenerationId := none, currentJobId := none, updatedAt := request.createdAt }
  | some state =>
      { state with
        desiredGenerationId := request.generationId, desiredJobId := jobId,
        updatedAt := request.createdAt }

namespace DiscoveryCommitRequest

variable (request : DiscoveryCommitRequest) (jobId : Id32) (state? : Option PublicationStateRow)

@[simp] theorem pointer_desiredGenerationId :
    (request.pointer jobId state?).desiredGenerationId = request.generationId := by
  cases state? <;> rfl

@[simp] theorem pointer_desiredJobId : (request.pointer jobId state?).desiredJobId = jobId := by
  cases state? <;> rfl

@[simp] theorem pointer_currentGenerationId :
    (request.pointer jobId state?).currentGenerationId = state?.bind (·.currentGenerationId) := by
  cases state? <;> rfl

@[simp] theorem pointer_currentJobId :
    (request.pointer jobId state?).currentJobId = state?.bind (·.currentJobId) := by
  cases state? <;> rfl

@[simp] theorem pointer_updatedAt :
    (request.pointer jobId state?).updatedAt = request.createdAt := by
  cases state? <;> rfl

end DiscoveryCommitRequest

/-- The job of a generation delivers its event. -/
structure JobRow.Delivers (job : JobRow) (generationId artifact : Id32) : Prop where
  kind : job.sourceKind = .discoveryHandler
  source : job.sourceId = generationId
  artifact : job.artifactSha256 = artifact

/-- The commit of a generation that was never committed before. -/
inductive OutboxCommit (s : Store) : Store → Prop where
  | intro {request : DiscoveryCommitRequest} {job : JobRow} {s₁ : Store}
      (fresh : ∀ row ∈ s.desired, row.generationId ≠ request.generationId)
      (creates : s₁ = s.withGeneration request ∨ DeliveryStep (s.withGeneration request) s₁)
      (job_mem : job ∈ s₁.jobs) (delivers : job.Delivers request.generationId request.eventDigest)
      (ordered : ∀ state ∈ s.publicationState, state.updatedAt < request.createdAt) :
      OutboxCommit s
        { s₁ with publicationState := some (request.pointer job.jobId s.publicationState) }

/-- A body that makes moves, from a store that keeps the invariant of delivery. -/
def Moves (s s' : Store) : Prop :=
  DeliveryInv s → DeliveryInv s' ∧ Relation.ReflTransGen OutboxMove s s'

instance : Std.Refl Moves := ⟨fun _ inv => ⟨inv, .refl⟩⟩

instance : IsTrans Store Moves := by
  refine ⟨fun s₁ s₂ s₃ h₁ h₂ inv₁ => ?_⟩
  obtain ⟨inv₂, hmoves₁⟩ := h₁ inv₁
  obtain ⟨inv₃, hmoves₂⟩ := h₂ inv₂
  exact ⟨inv₃, hmoves₁.trans hmoves₂⟩

theorem OutboxMove.deliveryInv (inv : DeliveryInv s) (h : OutboxMove s s') : DeliveryInv s' := by
  cases h with
  | elsewhere h =>
      simp only [Store.outbox, Prod.mk.injEq] at h
      exact inv.congr h.1 h.2.1 h.2.2.1
  | deliver h => exact inv.step h
  | promote => exact inv.congr rfl rfl rfl

theorem OutboxMove.moves (h : OutboxMove s s') : Moves s s' :=
  fun inv => ⟨h.deliveryInv inv, .single h⟩

/-- A write outside the outbox. -/
theorem Moves.elsewhere (h : s'.outbox = s.outbox) : Moves s s' := (OutboxMove.elsewhere h).moves

/-! ## The transactions of delivery -/

theorem discovery_finalized (job : JobRow) (observedAt : TimeUnixMs) :
    (s.finalized job observedAt).desired = s.desired ∧
      (s.finalized job observedAt).documents = s.documents ∧
      (s.finalized job observedAt).publicationState = s.publicationState := by
  unfold Store.finalized
  split <;> exact ⟨rfl, rfl, rfl⟩

/-- A delivery step leaves the discovery tables alone. -/
theorem DeliveryStep.discovery_eq (h : DeliveryStep s s') :
    s'.desired = s.desired ∧ s'.documents = s.documents ∧
      s'.publicationState = s.publicationState := by
  cases h with
  | create | claim | submit => exact ⟨rfl, rfl, rfl⟩
  | resolve => exact discovery_finalized _ _

theorem respects_moves {α : Type} {body : Tx α}
    (h : ∀ {s a s'}, DeliveryWf s → body.run s = .ok (a, s') → s' = s ∨ DeliveryStep s s') :
    Respects Moves body := by
  intro s a s' hrun inv
  rcases h inv.toDeliveryWf hrun with rfl | hstep
  · exact ⟨inv, .refl⟩
  · exact (OutboxMove.deliver hstep).moves inv

theorem finalizeJobIfTerminal_moves (jobId : Id32) (observedAt : TimeUnixMs) :
    Respects Moves (finalizeJobIfTerminal jobId observedAt) := by
  intro s record s' hrun inv
  rw [finalizeJobIfTerminal_same inv hrun]
  exact ⟨inv, .refl⟩

theorem recoverTarget_moves (entropy : Id32) (observedAt : TimeUnixMs) (before : JobRecord)
    (progress : JobRecord × RecoveryReport) (target : TargetRow) :
    Respects Moves (recoverTarget entropy observedAt before progress target) := by
  unfold recoverTarget
  split
  next => exact .pure _
  next =>
    refine .bind (.query _) fun _ => .bind (.orFail _ _) fun _ => ?_
    split
    next =>
      exact .bind (.query _) fun _ => .bind (respects_moves recoverExpired_step) fun _ =>
        .bind (.query _) fun _ => .pure _
    next => exact .pure _

/-! ## Promotion and recovery -/

theorem promoteCurrent_moves (jobId : Id32) (observedAt : TimeUnixMs) :
    Respects Moves (promoteCurrent jobId observedAt) := by
  intro s u s' hrun inv
  obtain ⟨state, hpromotes, ⟨rfl, -⟩ | rfl⟩ := promoteCurrent_cases hrun
  · exact ⟨inv, .refl⟩
  · exact (OutboxMove.promote hpromotes).moves inv

theorem promoteRecovered_moves (observedAt : TimeUnixMs) (current : JobRecord)
    (report : RecoveryReport) : Respects Moves (promoteRecovered observedAt current report) := by
  unfold promoteRecovered promoteCurrentIfDesired
  split
  next =>
    refine .bind (.bind (.query _) fun _ => .bind (.orFail _ _) fun state => ?_) fun promoted => ?_
    · split
      next => exact .bind (promoteCurrent_moves _ _) fun _ => .pure _
      next => exact .pure _
    · split
      next => exact .bind (.query _) fun _ => .pure _
      next => exact .pure _
  next => exact .pure _

theorem recoverJob_moves (codec : EventCodec) (policy : Option DiscoveryPolicies)
    (entropy : Id32) (observedAt : TimeUnixMs) (report : RecoveryReport) (jobId : Id32) :
    Respects Moves (recoverJob codec policy entropy observedAt report jobId) :=
  .bind (.query _) fun _ => .bind (.orFail _ _) fun before => .bind (.query _) fun _ =>
    .bind (.query _) fun _ =>
      .bind (.foldlM _ _ (recoverTarget_moves _ _ before)) fun _ =>
        .bind (finalizeJobIfTerminal_moves _ _) fun _ => .bind (.query _) fun _ =>
          .bind (promoteRecovered_moves _ _ _) fun _ => .bind (.query _) fun _ =>
            .bind (.orFail _ _) fun _ => .bind (.query _) fun _ => .bind (.query _) fun _ =>
              .bind (.query _) fun _ => .pure _

theorem recoverBatch_moves (codec : EventCodec) (policy : Option DiscoveryPolicies)
    (outboxMaximum : ℕ) (entropy : Id32) (observedAt : TimeUnixMs) (cursor : Option Id32) :
    Respects Moves (recoverBatch codec policy outboxMaximum entropy observedAt cursor) :=
  .bind (.query _) fun _ => .bind (.query _) fun _ =>
    .bind (.foldlM _ _ (recoverJob_moves _ _ _ _)) fun _ => .pure _

/-! ## Committed responses -/

theorem createResponseJob_moves (operationId digest : Id32) (committedAt : TimeUnixMs)
    (policy : DeliveryPolicies) :
    Respects Moves (createResponseJob operationId digest committedAt policy) := by
  unfold createResponseJob
  refine .bind (respects_moves fun _ => createJob_step) fun job => ?_
  cases job with
  | created => exact .pure _
  | exactReplay => exact .fail _

theorem commitOperation_moves (request : CommitRequest) :
    Respects Moves (commitOperation request) := by
  intro s admission s' hrun inv
  obtain ⟨-, ⟨-, rfl, -⟩ | ⟨-, -, -, -, -, rfl⟩⟩ := commitOperation_cases hrun
  · exact ⟨inv, .refl⟩
  · exact Moves.elsewhere rfl inv

theorem readExactResponse_moves (codec : EventCodec) (authority : ResponseAuthority) :
    Respects Moves (readExactResponse codec authority) :=
  .bind (.query _) fun _ => .bind (.orFail _ _) fun _ => .bind (.require _ _) fun _ => .pure _

theorem commitNip46Response_moves (codec : EventCodec) (config : Configuration)
    (request : ResponseCommitRequest) :
    Respects Moves (commitNip46Response codec config request) := by
  refine respects_withBinding config (.bind (commitOperation_moves _) fun completion => ?_)
  cases completion with
  | exactReplay => exact .bind (readExactResponse_moves _ _) fun _ => .pure _
  | committed =>
      exact .bind (signedResponsesTable.respects_insert fun _ _ => .elsewhere rfl) fun _ =>
        .bind (createResponseJob_moves _ _ _ _) fun _ =>
          .bind (readExactResponse_moves _ _) fun _ => .pure _

theorem commitNip46PendingResponse_moves (codec : EventCodec) (config : Configuration)
    (request : PendingResponseCommitRequest) :
    Respects Moves (commitNip46PendingResponse codec config request) := by
  refine respects_withBinding config (.bind ?_ fun _ => .bind (.query _) fun response => ?_)
  · exact .bind (.query _) fun _ => .require _ _
  · cases response with
    | some response => exact .bind (.require _ _) fun _ => .pure _
    | none =>
        exact .bind (pendingResponsesTable.respects_insert fun _ _ => .elsewhere rfl) fun _ =>
          .bind (createResponseJob_moves _ _ _ _) fun _ => readExactResponse_moves _ _

/-! ## Committed generations -/

/-- The job that a creation returns is stored and has the source and the artifact. -/
theorem createJob_delivers {generationId artifact : Id32} {createdAt : TimeUnixMs}
    {policy : DeliveryPolicies} {admission : JobAdmission} (inv : DeliveryInv s)
    (h : (createJob ⟨.discoveryHandler, generationId⟩ artifact createdAt policy).run s =
      .ok (admission, s')) :
    admission.record.toJobRow ∈ s'.jobs ∧
      admission.record.toJobRow.Delivers generationId artifact := by
  rcases createJob_eq_ok h with ⟨rfl, record, hread, hexact, rfl⟩ |
    ⟨-, hcapacity, hallowed, rfl, record, hread, rfl⟩
  · obtain ⟨hmem, hkind, hid, -⟩ := inv.toDeliveryWf.of_readJobBySource hread
    refine ⟨hmem, hkind, hid, ?_⟩
    simp only [exactJob, Bool.and_eq_true, beq_iff_eq] at hexact
    exact hexact.1.1.1.1.1.1.1.1.2
  · have wf' := (inv.step (.create hcapacity hallowed)).toDeliveryWf
    obtain ⟨hmem, hjobId, -⟩ := wf'.of_readJob hread
    have hnew : newJobRow ⟨.discoveryHandler, generationId⟩ artifact createdAt policy ∈
        (s.created ⟨.discoveryHandler, generationId⟩ artifact createdAt policy).jobs :=
      List.mem_append_right _ (List.mem_singleton_self _)
    have heq := wf'.jobs_unique.eq_of_key_eq hmem hnew hjobId
    refine ⟨hmem, ?_⟩
    rw [show (JobAdmission.created record).record.toJobRow = _ from heq]
    exact ⟨rfl, rfl, rfl⟩

theorem confirmDesired_cases {codec : EventCodec} {request : DiscoveryCommitRequest}
    {policy : DiscoveryPolicies} {created : Bool} {admission : DiscoveryCommitAdmission}
    (h : (confirmDesired codec request policy created).run s = .ok (admission, s')) :
    created = true ∧ s' = s := by
  unfold confirmDesired at h
  obtain ⟨_, -, h₁⟩ := run_query_bind_eq_ok.mp h
  obtain ⟨_, -, h₂⟩ := run_orFail_bind_eq_ok.mp h₁
  obtain ⟨_, -, h₃⟩ := run_query_bind_eq_ok.mp h₂
  obtain ⟨_, -, h₄⟩ := run_orFail_bind_eq_ok.mp h₃
  obtain ⟨hcreated, h₅⟩ := run_require_bind_eq_ok.mp h₄
  exact ⟨hcreated, (run_pure_eq_ok.mp h₅).2.symm⟩

theorem replaceDesired_cases {request : DiscoveryCommitRequest} {jobId : Id32}
    {state : PublicationStateRow} {u : Unit} (hpointer : s.publicationState = some state)
    (h : (replaceDesired request jobId state).run s = .ok (u, s')) :
    state.updatedAt < request.createdAt ∧
      s' = { s with publicationState := some (request.pointer jobId (some state)) } := by
  unfold replaceDesired at h
  obtain ⟨htime, h₁⟩ := run_require_bind_eq_ok.mp h
  obtain ⟨n, s₁, hupdate, h₂⟩ := run_bind_eq_ok.mp h₁
  obtain ⟨-, rfl⟩ := run_require_eq_ok.mp h₂
  exact ⟨htime, (run_updatePublicationState hpointer hupdate
    (decide_eq_true ⟨Nat.le_of_lt htime, rfl, rfl⟩)).2⟩

/-- Only a new generation moves the pointer. -/
theorem pointDesired_cases {codec : EventCodec} {request : DiscoveryCommitRequest}
    {policy : DiscoveryPolicies} {existing : Bool} {jobId : Id32}
    {admission : DiscoveryCommitAdmission}
    (h : (pointDesired codec request policy existing jobId).run s = .ok (admission, s')) :
    (existing = true ∧ s' = s) ∨
      (existing = false ∧ (∀ state ∈ s.publicationState, state.updatedAt < request.createdAt) ∧
        s' = { s with publicationState := some (request.pointer jobId s.publicationState) }) := by
  unfold pointDesired at h
  obtain ⟨state?, hstate, hbody⟩ := run_query_bind_eq_ok.mp h
  have hpointer := readPublicationState_eq_ok hstate
  cases state? with
  | none =>
      obtain ⟨_, s₁, hinsert, hconfirm⟩ := run_bind_eq_ok.mp hbody
      obtain ⟨-, rfl⟩ := publicationTable.run_insert_eq_ok.mp hinsert
      obtain ⟨hcreated, rfl⟩ := confirmDesired_cases hconfirm
      refine .inr ⟨by simpa using hcreated, by simp [hpointer], ?_⟩
      rw [show publicationTable.get s = s.publicationState.toList from rfl, hpointer]
      rfl
  | some state =>
      dsimp only at hbody
      split at hbody
      next =>
        obtain ⟨hexisting, hpure⟩ := run_require_bind_eq_ok.mp hbody
        exact .inl ⟨hexisting, (run_pure_eq_ok.mp hpure).2.symm⟩
      next =>
        obtain ⟨_, s₁, hreplace, hconfirm⟩ := run_bind_eq_ok.mp hbody
        obtain ⟨htime, rfl⟩ := replaceDesired_cases hpointer hreplace
        obtain ⟨hcreated, rfl⟩ := confirmDesired_cases hconfirm
        rw [hpointer]
        exact .inr ⟨by simpa using hcreated, by simpa using htime, rfl⟩

theorem insertGeneration_cases {request : DiscoveryCommitRequest} {existing : Bool} {u : Unit}
    (h : (insertGeneration request existing).run s = .ok (u, s')) :
    (existing = true ∧ s' = s) ∨
      (existing = false ∧ (∀ row ∈ s.desired, row.generationId ≠ request.generationId) ∧
        s' = s.withGeneration request) := by
  cases existing with
  | true => exact .inl ⟨rfl, (run_pure_eq_ok.mp h).2.symm⟩
  | false =>
      obtain ⟨_, s₁, hdesired, hdocument⟩ := run_bind_eq_ok.mp h
      obtain ⟨hallowed, rfl⟩ := desiredTable.run_insert_eq_ok.mp hdesired
      obtain ⟨-, rfl⟩ := documentsTable.run_insert_eq_ok.mp hdocument
      refine .inr ⟨rfl, fun row hrow => ?_, rfl⟩
      have hrow' := List.all_eq_true.mp hallowed row hrow
      simp only [Bool.and_eq_true, bne_iff_ne] at hrow'
      exact hrow'.1

/-- A commit replays a generation that is already desired, or commits a new one. -/
theorem commitDiscovery_cases {codec : EventCodec} {config : Configuration}
    {request : DiscoveryCommitRequest} {admission : DiscoveryCommitAdmission}
    (inv : DeliveryInv s)
    (h : (commitDiscoveryDesiredState codec config request).run s = .ok (admission, s')) :
    DeliveryInv s' ∧ (Relation.ReflTransGen OutboxMove s s' ∨ OutboxCommit s s') := by
  obtain ⟨policy, -, hcommit⟩ := run_orFail_bind_eq_ok.mp (run_withBinding_eq_ok h)
  unfold commitDesired at hcommit
  obtain ⟨_, -, h₁⟩ := run_query_bind_eq_ok.mp hcommit
  obtain ⟨_, -, h₂⟩ := run_query_bind_eq_ok.mp h₁
  obtain ⟨existing, -, h₃⟩ := run_query_bind_eq_ok.mp h₂
  obtain ⟨_, s₁, hinsert, h₄⟩ := run_bind_eq_ok.mp h₃
  obtain ⟨job, s₂, hcreate, hpoint⟩ := run_bind_eq_ok.mp h₄
  have inv₁ : DeliveryInv s₁ := by
    rcases insertGeneration_cases hinsert with ⟨-, rfl⟩ | ⟨-, -, rfl⟩
    · exact inv
    · exact inv.congr rfl rfl rfl
  have hcreates := createJob_step hcreate
  have inv₂ : DeliveryInv s₂ := by
    rcases hcreates with rfl | hstep
    · exact inv₁
    · exact inv₁.step hstep
  rcases insertGeneration_cases hinsert with ⟨rfl, rfl⟩ | ⟨rfl, hfresh, rfl⟩
  · obtain ⟨-, rfl⟩ : true = true ∧ s' = s₂ :=
      (pointDesired_cases hpoint).resolve_right fun hnew => by simp at hnew
    refine ⟨inv₂, .inl ?_⟩
    rcases hcreates with rfl | hstep
    · exact .refl
    · exact .single (.deliver hstep)
  · obtain ⟨-, htimes, rfl⟩ := (pointDesired_cases hpoint).resolve_left fun hold => by simp at hold
    obtain ⟨hjob, hdelivers⟩ := createJob_delivers inv₁ hcreate
    have hpointer : s₂.publicationState = s.publicationState := by
      rcases hcreates with rfl | hstep
      · rfl
      · exact hstep.discovery_eq.2.2
    rw [hpointer] at htimes ⊢
    exact ⟨inv₂.congr rfl rfl rfl, .inr (.intro hfresh hcreates hjob hdelivers htimes)⟩

/-! ## Every operation of the service -/

/-- The operations that commit a response. -/
def Operation.commitsResponse : Operation → Bool
  | .commitResponse _ | .commitPendingResponse _ => true
  | _ => false

/-- The other operations leave the outbox alone. -/
theorem SessionStep.outbox_eq {config : Configuration} {operation : Operation} {s₁ : Store}
    (h : SessionStep config s operation s₁) (houtbox : operation.ofOutbox = false)
    (hcommits : operation.commitsResponse = false) : s₁.outbox = s.outbox := by
  cases h with
  | requests hadmits => exact (congrArg Store.outbox hadmits.outside :)
  | outbox _ hlabel =>
      rw [houtbox] at hlabel
      cases hlabel
  | complete => cases hcommits
  | answerPending => cases hcommits
  | quiet | connect | approve | deny | finish | issue | resolve => rfl

theorem Operation.elsewhere_moves {codec : EventCodec} {config : Configuration}
    {operation : Operation} {u : Unit} (h : (operation.body codec config).run s = .ok (u, s'))
    (houtbox : operation.ofOutbox = false) (hcommits : operation.commitsResponse = false) :
    Moves s s' := by
  obtain ⟨s₁, hstep, hview⟩ := Operation.step h
  exact .elsewhere ((congrArg Store.outbox hview :).trans (hstep.outbox_eq houtbox hcommits))

/-- The moves of an operation. -/
theorem Operation.moves {codec : EventCodec} {config : Configuration} {operation : Operation}
    {u : Unit} (inv : DeliveryInv s) (h : (operation.body codec config).run s = .ok (u, s')) :
    DeliveryInv s' ∧ (Relation.ReflTransGen OutboxMove s s' ∨ OutboxCommit s s') := by
  have hmoves : Moves s s' →
      DeliveryInv s' ∧ (Relation.ReflTransGen OutboxMove s s' ∨ OutboxCommit s s') :=
    fun hmoves => (hmoves inv).imp_right .inl
  cases operation with
  | commitResponse request =>
      obtain ⟨_, h⟩ := run_forEffect_eq_ok h
      exact hmoves (commitNip46Response_moves codec config request h)
  | commitPendingResponse request =>
      obtain ⟨_, h⟩ := run_forEffect_eq_ok h
      exact hmoves (commitNip46PendingResponse_moves codec config request h)
  | commitDiscovery request =>
      obtain ⟨_, h⟩ := run_forEffect_eq_ok h
      exact commitDiscovery_cases inv h
  | promoteDiscovery jobId observedAt =>
      exact hmoves (respects_withBinding config (promoteCurrent_moves jobId observedAt) h)
  | claimDelivery =>
      obtain ⟨_, h⟩ := run_forEffect_eq_ok h
      exact hmoves (respects_withBinding config (respects_moves claimTarget_step) h)
  | markSubmitted =>
      obtain ⟨_, h⟩ := run_forEffect_eq_ok h
      exact hmoves (respects_withBinding config (respects_moves markSubmitted_step) h)
  | recordOutcome =>
      obtain ⟨_, h⟩ := run_forEffect_eq_ok h
      exact hmoves (respects_withBinding config (respects_moves recordOutcome_step) h)
  | recoverExpired =>
      obtain ⟨_, h⟩ := run_forEffect_eq_ok h
      exact hmoves (respects_withBinding config (respects_moves recoverExpired_step) h)
  | recoverBatch =>
      obtain ⟨_, h⟩ := run_forEffect_eq_ok h
      exact hmoves (respects_withBinding config (recoverBatch_moves _ _ _ _ _ _) h)
  | admitRequest | admitConnection | decidePending | adminConnection | expireConnection
  | issueChallenge | authorizeChallenge | adminRequireChallenge | adminAuthorizeChallenge
  | compactGovernance => exact hmoves (Operation.elsewhere_moves h rfl rfl)

/-- The moves of an event of the system. -/
theorem System.moves (codec : EventCodec) {system : System} (inv : DeliveryInv system.store)
    (event : Event) :
    DeliveryInv (system.perform codec event).store ∧
      (Relation.ReflTransGen OutboxMove system.store (system.perform codec event).store ∨
        OutboxCommit system.store (system.perform codec event).store) := by
  refine System.perform_cases (R := fun next : System => DeliveryInv next.store ∧
    (Relation.ReflTransGen OutboxMove system.store next.store ∨
      OutboxCommit system.store next.store)) event ⟨inv, .inl .refl⟩ ?_ ?_
  · intro operation u s' _ hrun
    exact Operation.moves inv hrun
  · intro candidate appliedAtUnixS outcome s' _ hrun
    have houtbox : s'.outbox = system.store.outbox := by
      rcases applyConfiguration_cases hrun with ⟨-, rfl⟩ | ⟨-, bindings, rfl⟩
      · rfl
      · unfold Store.reconfigured
        split
        next => rfl
        next =>
          split
          next => rfl
          next => rfl
    exact (Moves.elsewhere houtbox inv).imp_right .inl

end MycSigner
