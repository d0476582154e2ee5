import MycSigner.Outbox.Idle
import MycSigner.Outbox.Moves

/-!
# When a delivered handler becomes current

The pointer to the current generation moves when a recovery, or a call of its own, promotes the
desired generation after its job was delivered.  The delivery loop writes the delivery tables
alone, so that the iteration which delivers the desired generation never makes it current.
-/

namespace MycSigner

open Transaction

variable {s s' : Store}

/-! ## What delivery leaves to discovery -/

/-- A delivery transaction keeps the pointer and the delivered jobs. -/
def Advances (s s' : Store) : Prop :=
  DeliveryInv s → DeliveryInv s' ∧ s'.publicationState = s.publicationState ∧
    ∀ job ∈ s.jobs, job.status = .delivered → job ∈ s'.jobs

instance : Std.Refl Advances := ⟨fun _ inv => ⟨inv, rfl, fun _ hjob _ => hjob⟩⟩

instance : IsTrans Store Advances := by
  refine ⟨fun s₁ s₂ s₃ h₁ h₂ inv₁ => ?_⟩
  obtain ⟨inv₂, hstate₁, hjobs₁⟩ := h₁ inv₁
  obtain ⟨inv₃, hstate₂, hjobs₂⟩ := h₂ inv₂
  exact ⟨inv₃, hstate₂.trans hstate₁,
    fun job hjob hdelivered => hjobs₂ job (hjobs₁ job hjob hdelivered) hdelivered⟩

theorem mem_replace_of_delivered {job job' row : JobRow} {jobs : List JobRow}
    (hopen : job.status.isOpen = true) (hrow : row ∈ jobs) (hdelivered : row.status = .delivered) :
    row ∈ Table.replace job job' jobs := by
  refine Table.mem_replace.mpr (.inl ⟨hrow, ?_⟩)
  rintro rfl
  rw [hdelivered] at hopen
  cases hopen

theorem DeliveryStep.delivered_mem (h : DeliveryStep s s') {row : JobRow} (hrow : row ∈ s.jobs)
    (hdelivered : row.status = .delivered) : row ∈ s'.jobs := by
  cases h with
  | create => exact List.mem_append_left _ hrow
  | claim h => exact mem_replace_of_delivered h.job_open hrow hdelivered
  | submit => exact hrow
  | resolve h =>
      unfold Store.finalized
      split
      next verdict hverdict =>
        refine mem_replace_of_delivered ?_ hrow hdelivered
        unfold Store.verdict at hverdict
        split at hverdict
        next hopen => exact hopen
        next => cases hverdict
      next => exact hrow

theorem respects_advances {α : Type} {body : Tx α}
    (h : ∀ {s a s'}, DeliveryWf s → body.run s = .ok (a, s') → s' = s ∨ DeliveryStep s s') :
    Respects Advances body := by
  intro s a s' hrun inv
  rcases h inv.toDeliveryWf hrun with rfl | hstep
  · exact ⟨inv, rfl, fun _ hjob _ => hjob⟩
  · exact ⟨inv.step hstep, hstep.discovery_eq.2.2,
      fun _ hjob hdelivered => hstep.delivered_mem hjob hdelivered⟩

theorem persistOutcome_advances (config : Configuration) (hold : Hold) (job : JobRecord)
    (outcome : AttemptOutcome) : Respects Advances (persistOutcome config hold job outcome) :=
  .bind (.orFail _ _) fun _ => respects_withBinding config (respects_advances recordOutcome_step)

theorem submitPrepared_advances (codec : EventCodec) (config : Configuration) (hold : Hold)
    (prepared : Bool) : Respects Advances (submitPrepared codec config hold prepared) := by
  unfold submitPrepared
  refine .bind (respects_withBinding config (.query _)) fun _ => .bind (.orFail _ _) fun job =>
    .bind (respects_withBinding config (.query _)) fun _ => ?_
  split
  next =>
    exact .bind (respects_withBinding config (respects_advances markSubmitted_step)) fun _ => .pure _
  next => exact .bind (persistOutcome_advances config hold job _) fun _ => .pure _

/-! ## The current generation was delivered -/

/-- The job of the current generation is delivered. -/
def CurrentDelivered (s : Store) : Prop :=
  ∀ state ∈ s.publicationState, ∀ jobId ∈ state.currentJobId,
    ∃ job ∈ s.jobs, job.jobId = jobId ∧ job.status = .delivered

/-- The invariant of the discovery pointer. -/
structure HandlerInv (s : Store) : Prop where
  delivery : DeliveryInv s
  current : CurrentDelivered s

theorem HandlerInv.initial (metadata : PersistedMetadata) (appliedAtUnixS : ℕ) :
    HandlerInv (Store.initial metadata appliedAtUnixS) :=
  ⟨NoDelivery.inv ⟨rfl, rfl, rfl⟩, by simp [CurrentDelivered, Store.initial]⟩

/-- A body that keeps the invariant. -/
abbrev KeepsHandler {α : Type} (body : Tx α) : Prop :=
  Respects (fun s s' => HandlerInv s → HandlerInv s') body

theorem KeepsHandler.of_advances {α : Type} {body : Tx α} (h : Respects Advances body) :
    KeepsHandler body := by
  intro s a s' hrun inv
  obtain ⟨hdelivery, hstate, hjobs⟩ := h hrun inv.delivery
  refine ⟨hdelivery, fun state hmem jobId hcurrent => ?_⟩
  rw [hstate] at hmem
  obtain ⟨job, hjob, hid, hdelivered⟩ := inv.current state hmem jobId hcurrent
  exact ⟨job, hjobs job hjob hdelivered, hid, hdelivered⟩

/-- Every move keeps the invariant: a promotion makes a delivered job the current one. -/
theorem HandlerInv.move (inv : HandlerInv s) (h : OutboxMove s s') : HandlerInv s' := by
  refine ⟨h.deliveryInv inv.delivery, fun state' hmem jobId hcurrent => ?_⟩
  cases h with
  | elsewhere houtbox =>
      simp only [Store.outbox, Prod.mk.injEq] at houtbox
      obtain ⟨hjobs, -, -, -, -, hpointer⟩ := houtbox
      rw [hpointer] at hmem
      rw [hjobs]
      exact inv.current state' hmem jobId hcurrent
  | deliver hstep =>
      rw [hstep.discovery_eq.2.2] at hmem
      obtain ⟨job, hjob, hid, hdelivered⟩ := inv.current state' hmem jobId hcurrent
      exact ⟨job, hstep.delivered_mem hjob hdelivered, hid, hdelivered⟩
  | promote hpromotes =>
      obtain rfl := Option.some.inj hmem
      obtain rfl := Option.some.inj hcurrent
      obtain ⟨job, hjob, hid, -, -, hdelivered⟩ := hpromotes.delivered
      exact ⟨job, hjob, hid.trans hpromotes.desired.symm, hdelivered⟩

theorem HandlerInv.moves (inv : HandlerInv s) (h : Relation.ReflTransGen OutboxMove s s') :
    HandlerInv s' := by
  induction h with
  | refl => exact inv
  | tail _ hmove ih => exact ih.move hmove

theorem delivered_mem_of_creates {request : DiscoveryCommitRequest} {s₁ : Store}
    (h : s₁ = s.withGeneration request ∨ DeliveryStep (s.withGeneration request) s₁) :
    ∀ row ∈ s.jobs, row.status = .delivered → row ∈ s₁.jobs := by
  intro row hrow hdelivered
  rcases h with rfl | hstep
  · exact hrow
  · exact hstep.delivered_mem hrow hdelivered

/-- A commit leaves the current generation. -/
theorem HandlerInv.commit (inv : HandlerInv s) (hdelivery : DeliveryInv s')
    (h : OutboxCommit s s') : HandlerInv s' := by
  refine ⟨hdelivery, ?_⟩
  obtain ⟨-, hcreates, -, -, -⟩ := h
  have hkept := delivered_mem_of_creates hcreates
  intro state' hstate' jobId hcurrent
  obtain rfl := Option.some.inj hstate'
  rw [DiscoveryCommitRequest.pointer_currentJobId] at hcurrent
  obtain ⟨state, hstate, hsame⟩ := Option.bind_eq_some_iff.mp hcurrent
  obtain ⟨row, hrow, hid, hdelivered⟩ := inv.current state hstate jobId hsame
  exact ⟨row, hkept row hrow hdelivered, hid, hdelivered⟩

theorem KeepsHandler.of_moves {α : Type} {body : Tx α} (h : Respects Moves body) :
    KeepsHandler body := by
  intro s a s' hrun inv
  exact inv.moves (h hrun inv.delivery).2

theorem commitDiscovery_keepsHandler (codec : EventCodec) (config : Configuration)
    (request : DiscoveryCommitRequest) :
    KeepsHandler (commitDiscoveryDesiredState codec config request) := by
  intro s admission s' hrun inv
  obtain ⟨hdelivery, hmoves | hcommit⟩ := commitDiscovery_cases inv.delivery hrun
  · exact inv.moves hmoves
  · exact inv.commit hdelivery hcommit

/-! ## Runs -/

/-- The events of the delivery loop. -/
def OutboxEvent.ofLoop : OutboxEvent → Bool
  | .poll _ _ | .claim _ _ _ | .submit _ | .record _ => true
  | _ => false

/-- The job of the desired generation is delivered. -/
def desiredDelivered (s : Store) : Bool :=
  s.publicationState.any fun state =>
    s.jobs.any fun job => job.jobId == state.desiredJobId && job.status == .delivered

/-- The current generation and job are the desired ones. -/
def currentIsDesired (s : Store) : Bool :=
  s.publicationState.any fun state =>
    state.currentGenerationId == some state.desiredGenerationId &&
      state.currentJobId == some state.desiredJobId

/-- A current generation that is the desired one was delivered. -/
theorem HandlerInv.desiredDelivered_of_current (inv : HandlerInv s)
    (h : currentIsDesired s = true) : desiredDelivered s = true := by
  obtain ⟨state, hstate, hcurrent⟩ := (Option.any_eq_true _ _).mp h
  rw [Bool.and_eq_true, beq_iff_eq, beq_iff_eq] at hcurrent
  obtain ⟨job, hjob, hid, hdelivered⟩ := inv.current state hstate _ hcurrent.2
  refine (Option.any_eq_true _ _).mpr ⟨state, hstate, List.any_eq_true.mpr ⟨job, hjob, ?_⟩⟩
  simp [hid, hdelivered]

namespace Daemon

variable {codec : EventCodec} {config : Configuration} {daemon : Daemon}

theorem transact_store {α : Type} (body : Tx α) (next : α → Worker) :
    (daemon.transact body next).store = (body.atomically daemon.store).2 := by
  unfold transact
  split <;> simp [*]

theorem recoverStep_store (entropy : Id32) (observedAt : TimeUnixMs) (cursor : Option Id32)
    (aggregate : RecoveryReport) :
    (daemon.recoverStep codec config entropy observedAt cursor aggregate).store =
      ((withBinding config (recoverBatch codec config.discovery config.delivery.outboxMaximum
        entropy observedAt cursor)).atomically daemon.store).2 := by
  unfold recoverStep
  split
  next heq => rw [heq]
  next batch continuation store heq =>
    rw [heq]
    split
    next => rfl
    next => rfl
    next =>
      rw [transact_store]
      exact Respects.atomically (R := fun s s' => s' = s)
        (respects_withBinding config (.query _)) _

/-- Every event keeps the invariant. -/
theorem HandlerInv.perform (inv : HandlerInv daemon.store) (event : OutboxEvent) :
    HandlerInv (daemon.perform codec config event).store := by
  have hbody : ∀ {α : Type} {body : Tx α}, KeepsHandler body →
      HandlerInv (body.atomically daemon.store).2 := fun h => Respects.atomically h _ inv
  unfold Daemon.perform
  split
  next => exact inv
  next =>
    rw [recoverStep_store]
    exact hbody (.of_moves (respects_withBinding config (recoverBatch_moves _ _ _ _ _ _)))
  next =>
    split
    next => exact inv
    next =>
      rw [transact_store]
      exact hbody (respects_withBinding config (.query _))
  next =>
    split
    next => exact inv
    next =>
      rw [transact_store]
      exact hbody (.of_advances (respects_withBinding config (respects_advances claimTarget_step)))
  next =>
    rw [transact_store]
    exact hbody (.of_advances (submitPrepared_advances _ _ _ _))
  next =>
    rw [transact_store]
    exact hbody (.of_advances (persistOutcome_advances _ _ _ _))
  next => exact inv
  next =>
    exact hbody (.of_advances
      (respects_withBinding config (respects_advances fun _ => createJob_step)))
  next => exact hbody (commitDiscovery_keepsHandler _ _ _)
  next => exact hbody (.of_moves (respects_withBinding config (promoteCurrent_moves _ _)))
  next => exact ⟨inv.delivery.congr rfl rfl rfl, inv.current⟩
  next => exact inv

/-- The delivery loop leaves the pointer alone. -/
theorem publicationState_of_loop (inv : DeliveryInv daemon.store) {event : OutboxEvent}
    (hloop : event.ofLoop = true) :
    (daemon.perform codec config event).store.publicationState = daemon.store.publicationState := by
  have hbody : ∀ {α : Type} {body : Tx α}, Respects Advances body →
      (body.atomically daemon.store).2.publicationState = daemon.store.publicationState :=
    fun h => (Respects.atomically h _ inv).2.1
  unfold Daemon.perform
  split
  next => rfl
  next => cases hloop
  next =>
    split
    next => rfl
    next =>
      rw [transact_store]
      exact hbody (respects_withBinding config (.query _))
  next =>
    split
    next => rfl
    next =>
      rw [transact_store]
      exact hbody (respects_withBinding config (respects_advances claimTarget_step))
  next =>
    rw [transact_store]
    exact hbody (submitPrepared_advances _ _ _ _)
  next =>
    rw [transact_store]
    exact hbody (persistOutcome_advances _ _ _ _)
  next => rfl
  next => cases hloop
  next => cases hloop
  next => cases hloop
  next => cases hloop
  next => rfl

theorem handlerInv_initial (appliedAtUnixS : ℕ) :
    HandlerInv (initial config appliedAtUnixS).store :=
  .initial config.metadata appliedAtUnixS

/-- A step of the loop in which the job of the desired generation becomes delivered. -/
structure DeliversDesired (codec : EventCodec) (config : Configuration) (daemon : Daemon)
    (event : OutboxEvent) : Prop where
  of_loop : event.ofLoop = true
  before : desiredDelivered daemon.store = false
  after : desiredDelivered (daemon.perform codec config event).store = true

/-- In every run, the step of the loop that delivers the job of the desired generation leaves
another generation current, or none. -/
theorem delivered_handler_not_current (codec : EventCodec) (config : Configuration)
    (appliedAtUnixS : ℕ) (events : List OutboxEvent) (event : OutboxEvent)
    (h : DeliversDesired codec config
      (Run.after (perform codec config) (initial config appliedAtUnixS) events) event) :
    currentIsDesired (perform codec config
      (Run.after (perform codec config) (initial config appliedAtUnixS) events) event).store =
        false := by
  have inv : HandlerInv
      (Run.after (perform codec config) (initial config appliedAtUnixS) events).store :=
    Run.invariant_always (I := fun daemon : Daemon => HandlerInv daemon.store)
      (fun _ event inv => HandlerInv.perform inv event) events (handlerInv_initial appliedAtUnixS)
  generalize Run.after (perform codec config) (initial config appliedAtUnixS) events = daemon at *
  have hstate : (daemon.perform codec config event).store.publicationState =
      daemon.store.publicationState := publicationState_of_loop inv.delivery h.of_loop
  have hbefore := h.before
  -- The pointer has not moved, so a current generation was delivered before the step.
  by_contra hcurrent
  have hold : currentIsDesired daemon.store = true := by
    rw [Bool.not_eq_false] at hcurrent
    unfold currentIsDesired at hcurrent ⊢
    rw [← hstate]
    exact hcurrent
  rw [inv.desiredDelivered_of_current hold] at hbefore
  cases hbefore

end Daemon

namespace Daemon

open SampleHandler in
/-- The sample delivers its handler, which is not current then. -/
theorem sample_handler_not_current :
    currentIsDesired (perform codec config (Run.after (perform codec config) (initial config 1)
      (claims ++ [.submit true])) (.record .delivered)).store = false := by
  have hdelivers : desiredDelivered (Run.after (perform codec config) (initial config 1)
        (claims ++ [.submit true])).store = false ∧
      desiredDelivered (perform codec config (Run.after (perform codec config) (initial config 1)
        (claims ++ [.submit true])) (.record .delivered)).store = true := by
    decide +kernel
  exact delivered_handler_not_current codec config 1 _ _ ⟨rfl, hdelivers.1, hdelivers.2⟩

theorem not_currentIsDesired {codec : EventCodec} {config : Configuration} {daemon : Daemon}
    {event : OutboxEvent} (hloop : event.ofLoop = true)
    (h : desiredDelivered daemon.store = false ∧
      desiredDelivered (daemon.perform codec config event).store = true ∧
      currentIsDesired (daemon.perform codec config event).store = false) :
    ¬ (DeliversDesired codec config daemon event →
      currentIsDesired (daemon.perform codec config event).store = true) := by
  intro hpromotes
  have hcurrent := hpromotes ⟨hloop, h.1, h.2.1⟩
  rw [h.2.2] at hcurrent
  cases hcurrent

open SampleHandler in
/-- The loop delivers the handler of the sample and leaves the current generation behind. -/
theorem delivered_handler_left_behind :
    ¬ ∀ (codec : EventCodec) (config : Configuration) (appliedAtUnixS : ℕ)
        (events : List OutboxEvent),
      Run.EveryStep (perform codec config) (fun daemon event =>
        DeliversDesired codec config daemon event →
          currentIsDesired (daemon.perform codec config event).store = true)
        (initial config appliedAtUnixS) events := by
  intro h
  have hstep := (h codec config 1 (claims ++ [.submit true] ++ [.record .delivered])).at_step
  exact not_currentIsDesired rfl (by decide +kernel) hstep

end Daemon

end MycSigner
