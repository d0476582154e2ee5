import MycSigner.Outbox.Idle

/-!
# Any number of delivery workers

`run_with_adapter` takes one target through a claim, a submission, the relay and the recorded
outcome.  Each of these is a transaction of its own, with the network between the last two, so
that any number of executions interleave with each other and with recovery, at whatever times
their callers observe.
-/

namespace MycSigner

open Transaction

/-! ## One execution -/

/-- The times and the entropy that the caller hands to one execution. -/
structure ExecutionEvidence where
  claimedAt : TimeUnixMs
  submittedAt : TimeUnixMs
  observedAt : TimeUnixMs
  retryEntropy : ℕ

/-- The arguments of one execution. -/
structure Execution where
  jobId : Id32
  relayId : RelayId
  nonce : Id32
  evidence : ExecutionEvidence

/-- Where an execution stands between its transactions. -/
inductive Stage where
  | idle
  | claimed (execution : Execution) (attempt : AttemptRow)
  | loaded (execution : Execution) (attempt : AttemptRow) (job : JobRecord)
  /-- The adapter accepted the event and the task was not cancelled. -/
  | prepared (execution : Execution) (attempt : AttemptRow) (job : JobRecord)
  /-- The next thing the worker does is to call the adapter's `execute`. -/
  | submitted (execution : Execution) (attempt : AttemptRow) (job : JobRecord)
  | finished (execution : Execution) (attempt : AttemptRow) (job : JobRecord)
      (outcome : AttemptOutcome)

/-- A step of one execution. -/
inductive WorkerStep where
  | claim (cancelled : Bool) (execution : Execution)
  | load
  /-- The event is read and prepared, unless the adapter refuses it or the task is cancelled. -/
  | prepare (prepared : Bool) (cancelled : Bool)
  | submit
  /-- The adapter's `execute` answers, or cancellation takes its place. -/
  | execute (outcome : AttemptOutcome)
  | record
  /-- A crash. -/
  | stop

/-- The worker holds this attempt. -/
def Stage.holds : Stage → Option (Execution × AttemptRow)
  | .idle => none
  | .claimed execution attempt | .loaded execution attempt _ | .prepared execution attempt _
  | .submitted execution attempt _ | .finished execution attempt _ _ => some (execution, attempt)

/-- The worker is about to call the adapter. -/
def Stage.executes : Stage → Bool
  | .submitted _ _ _ => true
  | _ => false

/-! ## The pool -/

/-- The store and the executions of all workers. -/
structure Pool where
  store : Store
  workers : ℕ → Stage

/-- A step of one worker, or a call of anybody else. -/
inductive PoolEvent where
  | worker (index : ℕ) (step : WorkerStep)
  | call (call : DeliveryCall)

namespace Pool

variable (codec : EventCodec) (config : Configuration)

def setWorker (pool : Pool) (index : ℕ) (stage : Stage) : Pool :=
  { pool with workers := fun other => if other = index then stage else pool.workers other }

/-- One transaction of a worker; a failure ends the execution. -/
def transact {α : Type} (pool : Pool) (index : ℕ) (body : Tx α) (next : α → Stage) : Pool :=
  match body.atomically pool.store with
  | (.ok a, store) => { pool with store }.setWorker index (next a)
  | (.error _, store) => { pool with store }.setWorker index .idle

/-- The stage after a claim. -/
def claimStage (execution : Execution) : Claim → Stage
  | .claimed attempt => .claimed execution attempt
  | .exactReplay _ | .notReady | .terminal => .idle

/-- What the transactions after the claim are about. -/
def hold (execution : Execution) (attempt : AttemptRow) : Hold :=
  ⟨execution.jobId, execution.relayId, attempt, execution.evidence.observedAt,
    execution.evidence.retryEntropy⟩

/-- `run_with_adapter`, one step of it. -/
def workerStep (pool : Pool) (index : ℕ) (step : WorkerStep) : Pool :=
  match step, pool.workers index with
  | .claim cancelled execution, .idle =>
      if cancelled then pool
      else pool.transact index (withBinding config (claimTarget execution.jobId execution.relayId
        execution.nonce execution.evidence.claimedAt)) (claimStage execution)
  | .load, .claimed execution attempt =>
      pool.transact index (withBinding config (query (readJob · execution.jobId))) fun
        | some job => .loaded execution attempt job
        | none => .idle
  | .prepare prepared cancelled, .loaded execution attempt job =>
      pool.transact index (withBinding config (query (readExactEvent codec config.discovery job)))
        fun _ => if prepared && !cancelled then .prepared execution attempt job
          else .finished execution attempt job .transportFailed
  | .submit, .prepared execution attempt job =>
      pool.transact index (withBinding config (markSubmitted execution.jobId execution.relayId
        attempt.attemptId execution.evidence.submittedAt))
        fun _ => .submitted execution attempt job
  | .execute outcome, .submitted execution attempt job =>
      pool.setWorker index (.finished execution attempt job outcome)
  | .record, .finished execution attempt job outcome =>
      pool.transact index (persistOutcome config (hold execution attempt) job outcome) fun _ => .idle
  | .stop, _ => pool.setWorker index .idle
  | _, _ => pool

def perform (pool : Pool) : PoolEvent → Pool
  | .worker index step => pool.workerStep codec config index step
  | .call call => { pool with store := call.perform pool.store }

/-- No execution has begun. -/
def initial (metadata : PersistedMetadata) (appliedAtUnixS : ℕ) : Pool :=
  ⟨Store.initial metadata appliedAtUnixS, fun _ => .idle⟩

/-! ## What a step does to the store -/

section

variable {codec : EventCodec} {config : Configuration} {pool : Pool}

theorem transact_cases {α : Type} {index : ℕ} {body : Tx α} {next : α → Stage} {P : Pool → Prop}
    (hfailed : P (pool.setWorker index .idle))
    (hdone : ∀ {a s'}, body.run pool.store = .ok (a, s') →
      P ({ pool with store := s' }.setWorker index (next a))) :
    P (pool.transact index body next) := by
  unfold transact
  cases hrun : body.run pool.store with
  | error e => rw [atomically_of_error hrun]; exact hfailed
  | ok result => rw [atomically_of_ok hrun]; exact hdone hrun

/-- The step is a delivery step, or leaves the delivery tables alone. -/
def Moves (s s' : Store) : Prop := DeliveryStep s s' ∨ SameDelivery s s'

theorem moves_of_same_or_step {s s' : Store} (h : s' = s ∨ DeliveryStep s s') : Moves s s' := by
  rcases h with rfl | hstep
  · exact .inr (.refl s')
  · exact .inl hstep

theorem persistOutcome_moves {s s' : Store} {hold : Hold} {job record : JobRecord}
    {outcome : AttemptOutcome} (wf : DeliveryWf s)
    (h : (persistOutcome config hold job outcome).run s = .ok (record, s')) : Moves s s' := by
  unfold persistOutcome at h
  obtain ⟨jitter, -, hrecord⟩ := run_orFail_bind_eq_ok.mp h
  exact moves_of_same_or_step (recordOutcome_step wf (run_withBinding_eq_ok hrecord))

theorem workerStep_moves (inv : DeliveryInv pool.store) (index : ℕ) (step : WorkerStep) :
    Moves pool.store (pool.workerStep codec config index step).store := by
  have wf := inv.toDeliveryWf
  have hsame : Moves pool.store pool.store := .inr (.refl pool.store)
  unfold workerStep
  split
  next cancelled execution _ =>
    split
    · exact hsame
    · exact transact_cases (P := fun after => Moves pool.store after.store) hsame fun hrun =>
        moves_of_same_or_step (claimTarget_step wf (run_withBinding_eq_ok hrun))
  next =>
    refine transact_cases (P := fun after => Moves pool.store after.store) hsame fun hrun => ?_
    obtain ⟨-, rfl⟩ := run_query_eq_ok.mp (run_withBinding_eq_ok hrun)
    exact hsame
  next =>
    refine transact_cases (P := fun after => Moves pool.store after.store) hsame fun hrun => ?_
    obtain ⟨-, rfl⟩ := run_query_eq_ok.mp (run_withBinding_eq_ok hrun)
    exact hsame
  next =>
    exact transact_cases (P := fun after => Moves pool.store after.store) hsame fun hrun =>
      moves_of_same_or_step (markSubmitted_step wf (run_withBinding_eq_ok hrun))
  next => exact hsame
  next =>
    exact transact_cases (P := fun after => Moves pool.store after.store) hsame fun hrun =>
      persistOutcome_moves wf hrun
  next => exact hsame
  next => exact hsame

theorem perform_moves (inv : DeliveryInv pool.store) (event : PoolEvent) :
    Moves pool.store (pool.perform codec config event).store := by
  cases event with
  | worker index step => exact workerStep_moves inv index step
  | call call => exact inv.call_cases call

theorem Moves.inv {s s' : Store} (h : Moves s s') (inv : DeliveryInv s) : DeliveryInv s' := by
  rcases h with hstep | hsame
  · exact inv.step hstep
  · exact inv.congr hsame.jobs hsame.targets hsame.attempts

theorem inv_perform (inv : DeliveryInv pool.store) (event : PoolEvent) :
    DeliveryInv (pool.perform codec config event).store :=
  (perform_moves inv event).inv inv

theorem inv_after (inv : DeliveryInv pool.store) (events : List PoolEvent) :
    DeliveryInv (Run.after (perform codec config) pool events).store :=
  Run.invariant_always (I := fun pool : Pool => DeliveryInv pool.store)
    (fun _ event inv => inv_perform inv event) events inv

theorem inv_run (metadata : PersistedMetadata) (appliedAtUnixS : ℕ) (events : List PoolEvent) :
    DeliveryInv
      (Run.after (perform codec config) (initial metadata appliedAtUnixS) events).store := by
  have inv : DeliveryInv (initial metadata appliedAtUnixS).store := NoDelivery.inv ⟨rfl, rfl, rfl⟩
  exact inv_after inv events

/-- The rows of the delivery tables are carried on through every run of the pool. -/
theorem carries_after (inv : DeliveryInv pool.store) (events : List PoolEvent) :
    CarriesDelivery pool.store (Run.after (perform codec config) pool events).store :=
  Run.related (I := fun pool : Pool => DeliveryInv pool.store)
    (R := fun before after : Pool => CarriesDelivery before.store after.store)
    (fun pool => .refl pool.store) CarriesDelivery.trans (fun _ event inv => inv_perform inv event)
    (fun _ event inv => .of_move inv.toDeliveryWf (perform_moves inv event)) inv events

end

/-! ## What a worker holds -/

section

variable {C S : Execution → AttemptRow → Prop} {stage : Stage}

/-- What a worker holds was claimed, and what it is about to execute was submitted. -/
structure Backed (C S : Execution → AttemptRow → Prop) (stage : Stage) : Prop where
  claimed : ∀ {execution attempt}, stage.holds = some (execution, attempt) → C execution attempt
  submitted : ∀ {execution attempt job}, stage = .submitted execution attempt job →
    S execution attempt

theorem Backed.idle : Backed C S .idle :=
  ⟨fun h => absurd h (Option.some_ne_none _).symm, fun h => Stage.noConfusion h⟩

theorem Backed.mono {C' S' : Execution → AttemptRow → Prop} (h : Backed C S stage)
    (hclaimed : ∀ execution attempt, C execution attempt → C' execution attempt)
    (hsubmitted : ∀ execution attempt, S execution attempt → S' execution attempt) :
    Backed C' S' stage :=
  ⟨fun hholds => hclaimed _ _ (h.claimed hholds), fun hstage => hsubmitted _ _ (h.submitted hstage)⟩

/-- A stage that is not about to execute only has to hold what was claimed. -/
theorem Backed.of_holds {execution : Execution} {attempt : AttemptRow}
    (hholds : stage.holds = some (execution, attempt)) (hclaimed : C execution attempt)
    (hstage : stage.executes = false) : Backed C S stage where
  claimed := by
    intro execution' attempt' hholds'
    obtain ⟨rfl, rfl⟩ := Prod.mk.inj (Option.some.inj (hholds.symm.trans hholds'))
    exact hclaimed
  submitted := by
    rintro execution' attempt' job rfl
    cases hstage

end

@[simp] theorem setWorker_same (pool : Pool) (index : ℕ) (stage : Stage) :
    (pool.setWorker index stage).workers index = stage := if_pos rfl

section

variable {codec : EventCodec} {config : Configuration} {pool : Pool} {index : ℕ}
  {C S : Execution → AttemptRow → Prop}

/-- The stage of a worker after one of its own transactions. -/
theorem Backed.transact {α : Type} {body : Tx α} {next : α → Stage}
    (hnext : ∀ {a s'}, body.run pool.store = .ok (a, s') → Backed C S (next a)) :
    Backed C S ((pool.transact index body next).workers index) := by
  refine transact_cases (P := fun after => Backed C S (after.workers index)) ?_ fun hrun => ?_
  · rw [setWorker_same]
    exact .idle
  · rw [setWorker_same]
    exact hnext hrun

theorem Backed.workerStep {step : WorkerStep} (h : Backed C S (pool.workers index))
    (hclaim : ∀ {execution attempt s'}, step = .claim false execution →
      (withBinding config (claimTarget execution.jobId execution.relayId execution.nonce
        execution.evidence.claimedAt)).run pool.store = .ok (.claimed attempt, s') →
      C execution attempt)
    (hsubmit : ∀ {execution : Execution} {attempt result : AttemptRow} {s'}, step = .submit →
      (withBinding config (markSubmitted execution.jobId execution.relayId attempt.attemptId
        execution.evidence.submittedAt)).run pool.store = .ok (result, s') →
      (pool.workerStep codec config index step).store = s' → S execution attempt) :
    Backed C S ((pool.workerStep codec config index step).workers index) := by
  unfold Pool.workerStep at hsubmit ⊢
  split
  next cancelled execution hstage =>
    split
    next => exact h
    next hcancelled =>
      refine .transact fun {claim _} hrun => ?_
      cases claim with
      | claimed attempt =>
          obtain rfl : cancelled = false := by simpa using hcancelled
          exact .of_holds rfl (hclaim rfl hrun) rfl
      | exactReplay attempt => exact .idle
      | notReady => exact .idle
      | terminal => exact .idle
  next execution attempt hstage =>
    refine .transact fun {job _} _ => ?_
    cases job with
    | none => exact .idle
    | some job => exact .of_holds rfl (h.claimed (by rw [hstage]; rfl)) rfl
  next prepared cancelled execution attempt job hstage =>
    refine .transact fun _ => ?_
    have hclaimed : C execution attempt := h.claimed (by rw [hstage]; rfl)
    split
    · exact .of_holds rfl hclaimed rfl
    · exact .of_holds rfl hclaimed rfl
  next execution attempt job hstage =>
    refine .transact fun hrun => ⟨?_, ?_⟩
    · intro execution' attempt' hholds
      obtain ⟨rfl, rfl⟩ := Prod.mk.inj (Option.some.inj hholds)
      exact h.claimed (by rw [hstage]; rfl)
    · intro execution' attempt' job' heq
      cases heq
      refine hsubmit rfl hrun ?_
      rw [hstage]
      simp only [Pool.transact, atomically_of_ok hrun]
      rfl
  next outcome execution attempt job hstage =>
    rw [setWorker_same]
    exact .of_holds rfl (h.claimed (by rw [hstage]; rfl)) rfl
  next => exact .transact fun _ => .idle
  next =>
    rw [setWorker_same]
    exact .idle
  next => exact h

end

/-! ## What a worker has done -/

section

variable (metadata : PersistedMetadata) (appliedAtUnixS : ℕ)

/-- The pool after a run. -/
def run (events : List PoolEvent) : Pool :=
  Run.after (perform codec config) (initial metadata appliedAtUnixS) events

/-- At some step of the run the worker claimed the attempt. -/
def ClaimedBy (events : List PoolEvent) (index : ℕ) (execution : Execution)
    (attempt : AttemptRow) : Prop :=
  ∃ earlier later, events = earlier ++ .worker index (.claim false execution) :: later ∧
    ((withBinding config (claimTarget execution.jobId execution.relayId execution.nonce
      execution.evidence.claimedAt)).atomically
        (run codec config metadata appliedAtUnixS earlier).store).1 = .ok (.claimed attempt)

/-- At some step of the run the worker recorded the submission of the attempt. -/
def SubmittedBy (events : List PoolEvent) (index : ℕ) (execution : Execution)
    (attempt : AttemptRow) : Prop :=
  ∃ earlier later, events = earlier ++ .worker index .submit :: later ∧
    SubmissionRecorded
      (run codec config metadata appliedAtUnixS (earlier ++ [.worker index .submit])).store
      attempt.attemptId execution.evidence.submittedAt

variable {codec config metadata appliedAtUnixS} {events : List PoolEvent} {index : ℕ}
  {execution : Execution} {attempt : AttemptRow}

theorem run_concat (events : List PoolEvent) (event : PoolEvent) :
    run codec config metadata appliedAtUnixS (events ++ [event]) =
      (run codec config metadata appliedAtUnixS events).perform codec config event := by
  unfold run
  rw [Run.after_append]
  rfl

theorem carries_run (first rest : List PoolEvent) :
    CarriesDelivery (run codec config metadata appliedAtUnixS first).store
      (run codec config metadata appliedAtUnixS (first ++ rest)).store := by
  have hafter : run codec config metadata appliedAtUnixS (first ++ rest) =
      Run.after (perform codec config) (run codec config metadata appliedAtUnixS first) rest :=
    Run.after_append ..
  rw [hafter]
  exact carries_after (inv_run metadata appliedAtUnixS first) rest

theorem ClaimedBy.concat
    (h : ClaimedBy codec config metadata appliedAtUnixS events index execution attempt)
    (event : PoolEvent) :
    ClaimedBy codec config metadata appliedAtUnixS (events ++ [event]) index execution
      attempt := by
  obtain ⟨earlier, later, rfl, hclaim⟩ := h
  exact ⟨earlier, later ++ [event], by simp, hclaim⟩

theorem SubmittedBy.concat
    (h : SubmittedBy codec config metadata appliedAtUnixS events index execution attempt)
    (event : PoolEvent) :
    SubmittedBy codec config metadata appliedAtUnixS (events ++ [event]) index execution
      attempt := by
  obtain ⟨earlier, later, rfl, hsubmit⟩ := h
  exact ⟨earlier, later ++ [event], by simp, hsubmit⟩

@[simp] theorem setWorker_other (pool : Pool) {index other : ℕ} (stage : Stage)
    (h : index ≠ other) : (pool.setWorker other stage).workers index = pool.workers index :=
  if_neg h

theorem workerStep_other (pool : Pool) {index other : ℕ} (h : index ≠ other)
    (step : WorkerStep) :
    (pool.workerStep codec config other step).workers index = pool.workers index := by
  have htransact : ∀ {α : Type} (body : Tx α) (next : α → Stage),
      (pool.transact other body next).workers index = pool.workers index := fun body next =>
    transact_cases (P := fun after => after.workers index = pool.workers index)
      (setWorker_other pool _ h) fun _ => setWorker_other { pool with store := _ } _ h
  unfold workerStep
  split
  next =>
    split
    · rfl
    · exact htransact _ _
  next => exact htransact _ _
  next => exact htransact _ _
  next => exact htransact _ _
  next => exact setWorker_other pool _ h
  next => exact htransact _ _
  next => exact setWorker_other pool _ h
  next => rfl

/-- The submission that `markSubmitted` returns is recorded. -/
theorem markSubmitted_recorded {s s' : Store} {jobId attemptId : Id32} {relayId : RelayId}
    {submittedAt : TimeUnixMs} {result : AttemptRow} (wf : DeliveryWf s)
    (h : (markSubmitted jobId relayId attemptId submittedAt).run s = .ok (result, s')) :
    SubmissionRecorded s' attemptId submittedAt := by
  rcases markSubmitted_cases wf h with ⟨rfl, hrecorded⟩ | ⟨job, target, current, rfl, hsubmits, rfl⟩
  · exact hrecorded
  · have hstored := (mem_attemptsOf.mp hsubmits.attempt_mem).1
    exact ⟨_, Table.mem_replace.mpr (.inr ⟨hstored, rfl⟩), rfl, rfl, rfl⟩

/-- Every worker of every run claimed what it holds, and recorded the submission of what it is
about to execute. -/
theorem backed_run (events : List PoolEvent) (index : ℕ) :
    Backed (ClaimedBy codec config metadata appliedAtUnixS events index)
      (SubmittedBy codec config metadata appliedAtUnixS events index)
      ((run codec config metadata appliedAtUnixS events).workers index) := by
  induction events using List.reverseRecOn with
  | nil => exact .idle
  | append_singleton events event ih =>
      have hkept := ih.mono (fun _ _ h => h.concat event) (fun _ _ h => h.concat event)
      rw [run_concat]
      cases event with
      | call call => exact hkept
      | worker other step =>
          by_cases heq : index = other
          · subst heq
            have inv : DeliveryInv (run codec config metadata appliedAtUnixS events).store :=
              inv_run metadata appliedAtUnixS events
            refine hkept.workerStep (fun hstep hrun => ?_) fun hstep hrun hstore => ?_
            · rw [hstep]
              exact ⟨events, [], rfl, by rw [atomically_of_ok hrun]⟩
            · rw [hstep] at hstore ⊢
              refine ⟨events, [], rfl, ?_⟩
              rw [run_concat]
              exact hstore ▸ markSubmitted_recorded inv.toDeliveryWf (run_withBinding_eq_ok hrun)
          · exact (workerStep_other _ heq step).symm ▸ hkept

/-- The submission that a worker recorded stays recorded. -/
theorem SubmittedBy.recorded
    (h : SubmittedBy codec config metadata appliedAtUnixS events index execution attempt) :
    ∃ row ∈ (run codec config metadata appliedAtUnixS events).store.attempts,
      row.attemptId = attempt.attemptId ∧
        row.submittedAt = some execution.evidence.submittedAt ∧
        (row.status = .submitted ∨ row.status.isLive = false) := by
  obtain ⟨earlier, later, rfl, submitted, hsubmitted, hid, hstatus, htime⟩ := h
  have hsplit : earlier ++ .worker index .submit :: later =
      (earlier ++ [.worker index .submit]) ++ later := by simp
  have hcarries : CarriesDelivery
      (run codec config metadata appliedAtUnixS (earlier ++ [.worker index .submit])).store
      (run codec config metadata appliedAtUnixS
        (earlier ++ .worker index .submit :: later)).store := by
    rw [hsplit]
    exact carries_run _ later
  obtain ⟨row, hrow, hcontinues⟩ := hcarries.attempts submitted hsubmitted
  refine ⟨row, hrow, hcontinues.attemptId.trans hid, hcontinues.submission _ htime, ?_⟩
  have hforward := hcontinues.forward hstatus
  cases hcase : row.status with
  | leased => exact absurd hcase hforward
  | submitted => exact .inl rfl
  | delivered | failed | unknown => exact .inr rfl

/-! ## The lease protocol -/

/-- The call succeeds and leaves the attempt resolved. -/
def Resolving {α : Type} (body : Tx α) (s : Store) (attemptId : Id32) : Prop :=
  ∃ a s', body.run s = .ok (a, s') ∧ Settled s' attemptId

/-- A live attempt is resolved by an outcome until its lease ends, and by recovery after it. -/
theorem not_both_resolving {s : Store} (wf : DeliveryWf s) (hstored : attempt ∈ s.attempts)
    (hlive : attempt.status.isLive = true) {jobId jobId' : Id32} {relayId relayId' : RelayId}
    {outcome : AttemptOutcome} {jitter jitter' : RetryJitter} {observedAt : TimeUnixMs} :
    ¬ (Resolving (recordOutcome jobId relayId attempt.attemptId outcome jitter observedAt) s
          attempt.attemptId ∧
        Resolving (recoverExpired jobId' relayId' attempt.attemptId jitter' observedAt) s
          attempt.attemptId) := by
  rintro ⟨⟨_, _, hrecord, -⟩, ⟨_, _, hrecover, -⟩⟩
  have hunsettled : ¬ Settled s attempt.attemptId := by
    rintro ⟨row, hrow, hid, hsettled⟩
    rw [wf.attempts_unique.eq_of_key_eq hrow hstored hid, hlive] at hsettled
    cases hsettled
  rcases recordOutcome_cases wf hrecord with ⟨-, hsettled⟩ | ⟨_, _, current, _, _, -, -, hid, hfits,
    hresolves, -⟩
  · exact hunsettled hsettled
  rcases recoverExpired_cases wf hrecover with ⟨-, hsettled⟩ | ⟨_, _, expired, _, _, -, -, hid',
    hexpired, hresolves', -⟩
  · exact hunsettled hsettled
  -- both calls are about the same row
  have heq := wf.attempts_unique.eq_of_key_eq (mem_attemptsOf.mp hresolves.attempt_mem).1
    (mem_attemptsOf.mp hresolves'.attempt_mem).1 (hid.trans hid'.symm)
  rw [← heq] at hexpired
  exact absurd hfits.unexpired (Nat.not_le.mpr (TimeUnixMs.lt_def.mp hexpired))

/-- In every run of any number of workers, with recovery and the calls of others in between:
what is resolved stays as it is and no attempt is lost; at one time an outcome and recovery
cannot both resolve a live attempt; a target has at most the attempts its job permits, one of
them live; and a worker that is about to call the adapter has claimed the attempt itself and
recorded its submission, which stays recorded. -/
theorem lease_protocol (codec : EventCodec) (config : Configuration)
    (metadata : PersistedMetadata) (appliedAtUnixS : ℕ) (first rest : List PoolEvent) :
    let before := run codec config metadata appliedAtUnixS first
    let after := run codec config metadata appliedAtUnixS (first ++ rest)
    (∀ attempt ∈ before.store.attempts, ∃ row ∈ after.store.attempts, attempt.Continues row) ∧
    (∀ attempt ∈ before.store.attempts, attempt.status.isLive = false →
      ∀ row ∈ after.store.attempts, row.attemptId = attempt.attemptId → row = attempt) ∧
    (∀ attempt ∈ before.store.attempts, attempt.status.isLive = true →
      ∀ jobId jobId' relayId relayId' outcome jitter jitter' observedAt,
        ¬ (Resolving (recordOutcome jobId relayId attempt.attemptId outcome jitter observedAt)
              before.store attempt.attemptId ∧
            Resolving (recoverExpired jobId' relayId' attempt.attemptId jitter' observedAt)
              before.store attempt.attemptId)) ∧
    (∀ job ∈ before.store.jobs, ∀ target ∈ targetsOf before.store job.jobId,
      (attemptsOf before.store job.jobId target.targetIndex).length ≤ job.maxAttempts ∧
        ((attemptsOf before.store job.jobId target.targetIndex).filter fun attempt =>
          attempt.status.isLive).length ≤ 1) ∧
    ∀ index execution attempt job, before.workers index = .submitted execution attempt job →
      ClaimedBy codec config metadata appliedAtUnixS first index execution attempt ∧
        SubmittedBy codec config metadata appliedAtUnixS first index execution attempt ∧
        ∃ row ∈ before.store.attempts, row.attemptId = attempt.attemptId ∧
          row.submittedAt = some execution.evidence.submittedAt ∧
          (row.status = .submitted ∨ row.status.isLive = false) := by
  intro before after
  have inv : DeliveryInv before.store := inv_run metadata appliedAtUnixS first
  have inv' : DeliveryInv after.store := inv_run metadata appliedAtUnixS (first ++ rest)
  have wf := inv.toDeliveryWf
  have hcarries : CarriesDelivery before.store after.store := carries_run first rest
  refine ⟨hcarries.attempts, ?_, ?_, ?_, ?_⟩
  · intro attempt hattempt hsettled row hrow hid
    exact hcarries.attempt_eq inv'.toDeliveryWf hattempt hsettled hrow hid
  · intro attempt hattempt hlive jobId jobId' relayId relayId' outcome jitter jitter' observedAt
    exact not_both_resolving wf hattempt hlive
  · intro job hjob target htarget
    have hok := wf.histories job hjob target htarget
    exact ⟨hok.count ▸ hok.bounded, hok.live_le_one⟩
  · intro index execution attempt job hstage
    have hbacked : Backed (ClaimedBy codec config metadata appliedAtUnixS first index)
        (SubmittedBy codec config metadata appliedAtUnixS first index) (before.workers index) :=
      backed_run first index
    have hsubmitted := hbacked.submitted hstage
    exact ⟨hbacked.claimed (by rw [hstage]; rfl), hsubmitted, hsubmitted.recorded⟩

end

end Pool

namespace SampleHandler

/-- The tables after the handler was committed. -/
def committed : Store :=
  ((commitDiscoveryDesiredState codec config request).atomically
    (Store.initial config.metadata 1)).2

/-- The source and the artifact of the handler's job. -/
def handler : Source × Id32 :=
  ((committed.jobs.map fun job => (⟨job.sourceKind, job.sourceId⟩, job.artifactSha256)).head?).getD
    (⟨.discoveryHandler, 0⟩, 0)

def execution : Execution where
  jobId := deriveJobId handler.1 handler.2
  relayId := SampleService.relay
  nonce := 11
  evidence := ⟨sampleTime 3000, sampleTime 3100, sampleTime 3200, 0⟩

/-- One worker claims the handler's target and records its submission. -/
def submits : List PoolEvent :=
  [.call (.operation (.elsewhere committed)),
    .call (.operation (.createJob handler.1 handler.2 (sampleTime 1000) config.delivery)),
    .worker 0 (.claim false execution), .worker 0 .load, .worker 0 (.prepare true false),
    .worker 0 .submit]

/-- Before the worker calls the adapter, recovery resolves the attempt at a later time. -/
def overtaken : List PoolEvent :=
  submits ++ [.call (.operation (.recoverExpired execution.jobId execution.relayId
    (deriveAttemptId execution.jobId 0 1 11) LostAcknowledgement.noJitter (sampleTime 5000)))]

end SampleHandler

namespace Pool

theorem Stage.of_executes {stage : Stage} (h : stage.executes = true) :
    ∃ execution attempt job, stage = .submitted execution attempt job := by
  cases stage with
  | submitted execution attempt job => exact ⟨execution, attempt, job, rfl⟩
  | idle | claimed _ _ | loaded _ _ _ | prepared _ _ _ | finished _ _ _ _ => cases h

open SampleHandler in
/-- Recovery may resolve an attempt between its submission and the call of the adapter. -/
theorem submitted_attempt_overtaken :
    ¬ ∀ (codec : EventCodec) (config : Configuration) (metadata : PersistedMetadata)
        (appliedAtUnixS : ℕ) (events : List PoolEvent) (index : ℕ) (execution : Execution)
        (attempt : AttemptRow) (job : JobRecord),
      (run codec config metadata appliedAtUnixS events).workers index =
          .submitted execution attempt job →
        ∃ row ∈ (run codec config metadata appliedAtUnixS events).store.attempts,
          row.attemptId = attempt.attemptId ∧ row.status = .submitted := by
  intro h
  have hrun : ((run codec config config.metadata 1 overtaken).workers 0).executes = true ∧
      (run codec config config.metadata 1 overtaken).store.attempts.all
        (fun row => row.status != .submitted) = true := by
    decide +kernel
  obtain ⟨execution, attempt, job, hstage⟩ := Stage.of_executes hrun.1
  obtain ⟨row, hrow, -, hstatus⟩ := h codec config config.metadata 1 overtaken 0 _ _ _ hstage
  have hresolved := List.all_eq_true.mp hrun.2 row hrow
  rw [hstatus] at hresolved
  cases hresolved

open SampleHandler in
/-- The worker of the sample has claimed and submitted what it is about to execute. -/
theorem sample_worker_submitted :
    ∃ execution attempt,
      ClaimedBy codec config config.metadata 1 submits 0 execution attempt ∧
        SubmittedBy codec config config.metadata 1 submits 0 execution attempt := by
  have hexecutes : ((run codec config config.metadata 1 submits).workers 0).executes = true := by
    decide +kernel
  obtain ⟨execution, attempt, job, hstage⟩ := Stage.of_executes hexecutes
  obtain ⟨hclaimed, hsubmitted, -⟩ :=
    (lease_protocol codec config config.metadata 1 submits []).2.2.2.2 0 execution attempt job
      hstage
  exact ⟨execution, attempt, hclaimed, hsubmitted⟩

end Pool

end MycSigner
