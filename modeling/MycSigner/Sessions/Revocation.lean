import MycSigner.Sessions.SoleSession

/-!
# Revocation and completion

The session of an operation is read in one transaction and the operation is committed in
another, and an operator may act in between.  A commit finds its session active, or its
decision pending, at the moment it runs; an ended session and a settled decision stay so.
Hence nothing is ever written for an operation whose session ended before its commit.
-/

namespace MycSigner

open Transaction

/-- The connection exists and is neither pending nor active. -/
def sessionEnded (s : Store) (connectionId : Id32) : Prop :=
  ∃ row ∈ s.connections, row.connectionId = connectionId ∧ row.status ≠ .pending ∧
    row.status ≠ .active

/-- The operation has a decision, and it is not pending. -/
def decisionSettled (s : Store) (operationId : Id32) : Prop :=
  ∃ row ∈ s.decisions, row.operationId = operationId ∧ row.decision ≠ .pendingApproval

/-- Everything that is ever written in answer to an operation. -/
structure Outcomes where
  commits : List CommitRow
  signedResponses : List SignedResponseRow
  pendingResponses : List PendingResponseRow
  jobs : List JobRow
deriving DecidableEq

/-- The outcomes of an operation; a job counts as it was created. -/
def Store.outcomes (s : Store) (operationId : Id32) : Outcomes where
  commits := s.commits.filter fun row => row.operationId = operationId
  signedResponses := s.signedResponses.filter fun row => row.operationId = operationId
  pendingResponses := s.pendingResponses.filter fun row => row.operationId = operationId
  jobs := s.responseJobs.filter fun row => row.sourceId = operationId

/-- Nothing was written for the operation. -/
def Outcomes.none : Outcomes := ⟨[], [], [], []⟩

theorem uncommitted_of_outcomes {s : Store} {operationId : Id32}
    (h : s.outcomes operationId = .none) : ∀ row ∈ s.commits, row.operationId ≠ operationId := by
  intro row hrow hid
  have hcommits : s.commits.filter (fun row => row.operationId = operationId) = [] :=
    congrArg Outcomes.commits h
  exact List.filter_eq_nil_iff.mp hcommits row hrow (decide_eq_true hid)

/-! ## What a commit finds -/

theorem sessionEnded.not_active {s : Store} {connectionId : Id32} (inv : SessionInv s)
    (h : sessionEnded s connectionId) :
    ∀ row ∈ s.connections, row.connectionId = connectionId → row.status ≠ .active := by
  intro row hrow hid hactive
  obtain ⟨other, hother, hother_id, -, hended⟩ := h
  obtain rfl := inv.connections_unique.eq_of_key_eq hrow hother (hid.trans hother_id.symm)
  exact hended hactive

theorem sessionEnded.not_awaiting {s : Store} {operationId connectionId : Id32} (inv : SessionInv s)
    (h : sessionEnded s connectionId) : ¬ AwaitsDecision s operationId connectionId := by
  rintro ⟨-, row, hrow, hid, hpending⟩
  obtain ⟨other, hother, hother_id, hended, -⟩ := h
  obtain rfl := inv.connections_unique.eq_of_key_eq hrow hother (hid.trans hother_id.symm)
  exact hended hpending

theorem decisionSettled.not_awaiting {s : Store} {operationId connectionId : Id32}
    (inv : SessionInv s) (h : decisionSettled s operationId) :
    ¬ AwaitsDecision s operationId connectionId := by
  rintro ⟨⟨row, hrow, hid, -, hpending⟩, -⟩
  obtain ⟨other, hother, hother_id, hsettled⟩ := h
  obtain rfl := inv.decisions_unique.eq_of_key_eq hrow hother (hid.trans hother_id.symm)
  exact hsettled hpending

/-- A first completion without an active session fails and writes nothing. -/
theorem commitNip46Response_refused (codec : EventCodec) (config : Configuration)
    {request : ResponseCommitRequest} {s : Store} {connectionId : Id32}
    (hfirst : ∀ row ∈ s.commits, row.operationId ≠ request.completion.request.operationId)
    (hconnection : request.completion.connectionId = some connectionId)
    (hinactive : ∀ row ∈ s.connections, row.connectionId = connectionId → row.status ≠ .active) :
    ∃ e, (commitNip46Response codec config request).atomically s = (.error e, s) := by
  match hrun : (commitNip46Response codec config request).run s with
  | .error e => exact ⟨e, atomically_of_error hrun⟩
  | .ok (admission, s') =>
      rcases commitNip46Response_cases hrun with ⟨hretained, -⟩ | ⟨hguard, -⟩
      · exact absurd rfl (hfirst _ hretained)
      · have hactive := hguard.active
        simp only [sessionActive, hconnection] at hactive
        obtain ⟨row, hrow, hid, hactive, -⟩ := hactive
        exact absurd hactive (hinactive row hrow hid)

/-- A pending response without a pending decision fails and writes nothing. -/
theorem commitNip46PendingResponse_refused (codec : EventCodec) (config : Configuration)
    {request : PendingResponseCommitRequest} {s : Store}
    (hsettled : ¬ AwaitsDecision s request.operationId request.connectionId) :
    ∃ e, (commitNip46PendingResponse codec config request).atomically s = (.error e, s) := by
  match hrun : (commitNip46PendingResponse codec config request).run s with
  | .error e => exact ⟨e, atomically_of_error hrun⟩
  | .ok (response, s') =>
      rcases commitNip46PendingResponse_cases hrun with ⟨hawaits, -⟩ | ⟨hguard, -⟩
      · exact absurd hawaits hsettled
      · exact absurd hguard.awaits hsettled

/-! ## Ended sessions and settled decisions stay so -/

theorem sessionEnded.of_mem {s s₁ : Store} {connectionId : Id32} (h : sessionEnded s connectionId)
    (hkept : ∀ row ∈ s.connections, row.status ≠ .pending → row.status ≠ .active →
      row ∈ s₁.connections) : sessionEnded s₁ connectionId := by
  obtain ⟨row, hrow, hid, hpending, hactive⟩ := h
  exact ⟨row, hkept row hrow hpending hactive, hid, hpending, hactive⟩

theorem decisionSettled.of_mem {s s₁ : Store} {operationId : Id32} (h : decisionSettled s operationId)
    (hkept : ∀ row ∈ s.decisions, row ∈ s₁.decisions) : decisionSettled s₁ operationId := by
  obtain ⟨row, hrow, hid, hsettled⟩ := h
  exact ⟨row, hkept row hrow, hid, hsettled⟩

theorem decisionSettled.update {s s₁ : Store} {operationId : Id32} {matching : DecisionRow → Bool}
    {set : DecisionRow → DecisionRow} (h : decisionSettled s operationId)
    (hdecisions : s₁.decisions = Table.update matching set s.decisions)
    (hset : ∀ row, (set row).operationId = row.operationId ∧
      (set row).decision ≠ .pendingApproval) : decisionSettled s₁ operationId := by
  obtain ⟨row, hrow, hid, hsettled⟩ := h
  refine ⟨_, hdecisions ▸ Table.mem_update.mpr ⟨row, hrow, rfl⟩, ?_⟩
  split
  next => exact ⟨(hset row).1.trans hid, (hset row).2⟩
  next => exact ⟨hid, hsettled⟩

/-- Updating open connections keeps the ended ones. -/
theorem sessionEnded.update {s s₁ : Store} {connectionId : Id32} {matching : ConnectionRow → Bool}
    {set : ConnectionRow → ConnectionRow} (h : sessionEnded s connectionId)
    (hopen : ∀ row, matching row = true → row.status = .pending ∨ row.status = .active)
    (hconnections : s₁.connections = Table.update matching set s.connections) :
    sessionEnded s₁ connectionId := by
  refine h.of_mem fun row hrow hpending hactive => ?_
  rw [hconnections]
  refine Table.mem_update_of_not hrow ?_
  rw [Bool.eq_false_iff]
  intro hmatch
  exact (hopen row hmatch).elim hpending hactive

theorem sessionEnded.ended {s : Store} {connectionId id : Id32} {generation : PolicyGeneration}
    {observedAt : TimeUnixMs} {limited : ConnectionRow → Bool} (h : sessionEnded s connectionId) :
    sessionEnded (s.ended id generation observedAt limited) connectionId :=
  h.update (fun _ hmatch => .inr (of_decide_eq_true hmatch).2.1) rfl

theorem sessionEnded.settled {s : Store} {connectionId id : Id32} {generation : PolicyGeneration}
    {observedAt : TimeUnixMs} {status : ConnectionStatus} {authorizedUntil : Option TimeUnixMs}
    (h : sessionEnded s connectionId) :
    sessionEnded (s.settled id generation observedAt status authorizedUntil) connectionId :=
  h.update (fun _ hmatch => .inl (of_decide_eq_true hmatch).2.1) rfl

theorem sessionEnded.step {config : Configuration} {s s₁ : Store} {operation : Operation}
    {connectionId : Id32} (h : sessionEnded s connectionId)
    (hstep : SessionStep config s operation s₁) : sessionEnded s₁ connectionId := by
  cases hstep with
  | quiet => exact h
  | requests hadmits =>
      have hconnections : s₁.connections = s.connections :=
        (congrArg Store.connections hadmits.outside :)
      exact h.of_mem fun row hrow _ _ => hconnections ▸ hrow
  | outbox houtside =>
      have hconnections : s₁.connections = s.connections :=
        (congrArg Store.connections houtside :)
      exact h.of_mem fun row hrow _ _ => hconnections ▸ hrow
  | connect guard => exact h.of_mem fun row hrow _ _ => List.mem_append_left _ hrow
  | approve label guard => exact h.settled
  | deny guard => exact h.settled
  | finish guard => exact h.ended
  | issue guard => exact h
  | resolve guard => exact h
  | @complete request guard =>
      have heffect : sessionEnded (s.effected request.completion) connectionId := by
        unfold Store.effected CommitRequest.effect
        split
        next => exact h.ended
        next => exact h
      exact heffect
  | answerPending guard => exact h

theorem decisionSettled.step {config : Configuration} {s s₁ : Store} {operation : Operation}
    {operationId : Id32} (h : decisionSettled s operationId)
    (hstep : SessionStep config s operation s₁) : decisionSettled s₁ operationId := by
  cases hstep with
  | quiet => exact h
  | requests hadmits =>
      have hdecisions : s₁.decisions = s.decisions := (congrArg Store.decisions hadmits.outside :)
      exact h.of_mem fun row hrow => hdecisions ▸ hrow
  | outbox houtside =>
      have hdecisions : s₁.decisions = s.decisions := (congrArg Store.decisions houtside :)
      exact h.of_mem fun row hrow => hdecisions ▸ hrow
  | connect guard => exact h.of_mem fun row hrow => List.mem_append_left _ hrow
  | approve label guard => exact h.update rfl fun _ => ⟨rfl, nofun⟩
  | deny guard => exact h.update rfl fun _ => ⟨rfl, nofun⟩
  | finish guard => exact h
  | issue guard => exact h.of_mem fun row hrow => List.mem_append_left _ hrow
  | resolve guard =>
      refine h.update rfl fun _ => ⟨rfl, ?_⟩
      rcases guard.states with ⟨-, rfl, -⟩ | ⟨-, rfl, -⟩
      · nofun
      · nofun
  | complete guard => exact h
  | answerPending guard => exact h

theorem sessionEnded.perform {codec : EventCodec} {system : System} {connectionId : Id32}
    (h : sessionEnded system.store connectionId) (event : Event) :
    sessionEnded (system.perform codec event).store connectionId := by
  refine System.perform_sessions (P := fun system => sessionEnded system.store connectionId)
    event h ?_ ?_
  · intro operation s₁ s' _ hstep hview
    have hconnections : s'.connections = s₁.connections := (congrArg Store.connections hview :)
    exact (h.step hstep).of_mem fun row hrow _ _ => hconnections ▸ hrow
  · intro candidate appliedAtUnixS bindings _ _
    unfold Store.reconfigured
    split
    next =>
      have hactive : sessionEnded { system.store with
          connections := Table.update (fun row => row.status = .active)
            (ConnectionRow.endedAs .expired appliedAtUnixS) system.store.connections }
          connectionId :=
        h.update (fun _ hmatch => .inr (of_decide_eq_true hmatch)) rfl
      exact hactive.update (fun _ hmatch => .inl (of_decide_eq_true hmatch)) rfl
    next =>
      split
      next => exact h.update (fun _ hmatch => .inr (of_decide_eq_true hmatch).1) rfl
      next => exact h

theorem decisionSettled.perform {codec : EventCodec} {system : System} {operationId : Id32}
    (h : decisionSettled system.store operationId) (event : Event) :
    decisionSettled (system.perform codec event).store operationId := by
  refine System.perform_sessions (P := fun system => decisionSettled system.store operationId)
    event h ?_ ?_
  · intro operation s₁ s' _ hstep hview
    have hdecisions : s'.decisions = s₁.decisions := (congrArg Store.decisions hview :)
    exact (h.step hstep).of_mem fun row hrow => hdecisions ▸ hrow
  · intro candidate appliedAtUnixS bindings _ _
    refine h.of_mem fun row hrow => ?_
    unfold Store.reconfigured
    split
    next => exact hrow
    next =>
      split
      next => exact hrow
      next => exact hrow

/-! ## Only a commit writes an outcome -/

theorem outcomes_of_view {s s' : Store} (h : s'.withoutOutbox = s.withoutOutbox)
    (operationId : Id32) : s'.outcomes operationId = s.outcomes operationId := by
  have hcommits : s'.commits = s.commits := (congrArg Store.commits h :)
  have hsigned : s'.signedResponses = s.signedResponses := (congrArg Store.signedResponses h :)
  have hpending : s'.pendingResponses = s.pendingResponses := (congrArg Store.pendingResponses h :)
  have hjobs : s'.responseJobs = s.responseJobs := (congrArg Store.jobs h :)
  simp only [Store.outcomes, hcommits, hsigned, hpending, hjobs]

theorem responseJobs_created (s : Store) (operationId artifact : Id32) (createdAt : TimeUnixMs)
    (policy : DeliveryPolicies) :
    (s.created ⟨.signerResponse, operationId⟩ artifact createdAt policy).responseJobs =
      s.responseJobs ++ [newJobRow ⟨.signerResponse, operationId⟩ artifact createdAt policy] := by
  simp [Store.created, Store.responseJobs, List.filter_append, newJobRow, JobRow.asCreated]

theorem outcomes_completed {s : Store} {request : ResponseCommitRequest} {policy : DeliveryPolicies}
    {operationId : Id32} (h : request.completion.request.operationId ≠ operationId) :
    (s.completed request policy).outcomes operationId = s.outcomes operationId := by
  unfold Store.completed Store.outcomes
  rw [responseJobs_created]
  simp [Store.created, Store.responseJobs, Store.effected, List.filter_append, newJobRow,
    CommitRequest.row, ResponseCommitRequest.row, h]

theorem outcomes_answeredPending {s : Store} {request : PendingResponseCommitRequest}
    {policy : DeliveryPolicies} {operationId : Id32} (h : request.operationId ≠ operationId) :
    (s.answeredPending request policy).outcomes operationId = s.outcomes operationId := by
  unfold Store.answeredPending Store.outcomes
  rw [responseJobs_created]
  simp [Store.created, Store.responseJobs, List.filter_append, newJobRow,
    PendingResponseCommitRequest.row, h]

/-- The event completes the operation. -/
def Event.completes (s : Store) (operationId : Id32) (event : Event) : Prop :=
  ∃ request, event = .operation (.commitResponse request) ∧
    request.completion.request.operationId = operationId ∧ Completes s request

/-- The event answers the operation while its decision is pending. -/
def Event.answersPending (s : Store) (operationId : Id32) (event : Event) : Prop :=
  ∃ request, event = .operation (.commitPendingResponse request) ∧
    request.operationId = operationId ∧ AnswersPending s request

theorem SessionStep.outcomes_changed {config : Configuration} {s s₁ : Store} {operation : Operation}
    {operationId : Id32} (hstep : SessionStep config s operation s₁)
    (h : s₁.outcomes operationId ≠ s.outcomes operationId) :
    (Event.completes s operationId (.operation operation) ∧
        s₁.pendingResponses = s.pendingResponses) ∨
      Event.answersPending s operationId (.operation operation) := by
  cases hstep with
  | requests hadmits =>
      have hsame : s₁.outcomes operationId = s.outcomes operationId := by
        have hcommits : s₁.commits = s.commits := (congrArg Store.commits hadmits.outside :)
        have hsigned : s₁.signedResponses = s.signedResponses :=
          (congrArg Store.signedResponses hadmits.outside :)
        have hpending : s₁.pendingResponses = s.pendingResponses :=
          (congrArg Store.pendingResponses hadmits.outside :)
        have hjobs : s₁.jobs = s.jobs := (congrArg Store.jobs hadmits.outside :)
        simp only [Store.outcomes, Store.responseJobs, hcommits, hsigned, hpending, hjobs]
      exact absurd hsame h
  | outbox houtside => exact absurd (outcomes_of_view houtside operationId) h
  | @complete request guard =>
      by_cases hid : request.completion.request.operationId = operationId
      · exact .inl ⟨⟨request, rfl, hid, guard⟩, rfl⟩
      · exact absurd (outcomes_completed hid) h
  | @answerPending request guard =>
      by_cases hid : request.operationId = operationId
      · exact .inr ⟨request, rfl, hid, guard⟩
      · exact absurd (outcomes_answeredPending hid) h
  | quiet | connect | approve | deny | finish | issue | resolve => exact absurd rfl h

theorem System.outcomes_changed {codec : EventCodec} {system : System} {event : Event}
    {operationId : Id32}
    (h : (system.perform codec event).store.outcomes operationId ≠
      system.store.outcomes operationId) :
    (event.completes system.store operationId ∧
        (system.perform codec event).store.pendingResponses = system.store.pendingResponses) ∨
      event.answersPending system.store operationId := by
  revert h
  refine System.perform_sessions (P := fun after =>
    after.store.outcomes operationId ≠ system.store.outcomes operationId →
      (event.completes system.store operationId ∧
          after.store.pendingResponses = system.store.pendingResponses) ∨
        event.answersPending system.store operationId) event (absurd rfl) ?_ ?_
  · rintro operation s₁ s' rfl hstep hview hchanged
    have hsame : s'.outcomes operationId = s₁.outcomes operationId :=
      (congrArg (Store.outcomes · operationId) hview :)
    have hpending : s'.pendingResponses = s₁.pendingResponses :=
      (congrArg Store.pendingResponses hview :)
    rw [hsame] at hchanged
    rw [hpending]
    exact hstep.outcomes_changed hchanged
  · intro candidate appliedAtUnixS bindings _ _ hchanged
    refine absurd ?_ hchanged
    unfold Store.reconfigured
    split
    next => rfl
    next =>
      split
      next => rfl
      next => rfl

/-! ## Runs -/

/-- The event, if it commits an answer to the operation, names the connection as its session. -/
def Event.commitsUnder (operationId connectionId : Id32) : Event → Prop
  | .operation (.commitResponse request) =>
      request.completion.request.operationId = operationId →
        request.completion.connectionId = some connectionId
  | .operation (.commitPendingResponse request) =>
      request.operationId = operationId → request.connectionId = connectionId
  | _ => True

/-- An event that names an ended session writes nothing for its operation. -/
theorem outcomes_of_ended {codec : EventCodec} {system : System} {event : Event}
    {operationId connectionId : Id32} (inv : SessionInv system.store)
    (hended : sessionEnded system.store connectionId)
    (hnamed : event.commitsUnder operationId connectionId) :
    (system.perform codec event).store.outcomes operationId =
      system.store.outcomes operationId := by
  by_contra hchanged
  rcases System.outcomes_changed hchanged with ⟨⟨request, rfl, hid, guard⟩, -⟩ |
    ⟨request, rfl, hid, guard⟩
  · have hactive := guard.active
    simp only [sessionActive, hnamed hid] at hactive
    obtain ⟨row, hrow, hrowId, hactive, -⟩ := hactive
    exact hended.not_active inv row hrow hrowId hactive
  · have hawaits := guard.awaits
    rw [hnamed hid] at hawaits
    exact hended.not_awaiting inv hawaits

theorem outcomes_run_of_ended {codec : EventCodec} {operationId connectionId : Id32}
    {events : List Event} (hnamed : ∀ event ∈ events, event.commitsUnder operationId connectionId)
    {system : System} (inv : SessionInv system.store)
    (hended : sessionEnded system.store connectionId) :
    (Run.after (System.perform codec) system events).store.outcomes operationId =
      system.store.outcomes operationId := by
  induction events generalizing system with
  | nil => rfl
  | cons event events ih =>
      have hinv : SessionInv (system.perform codec event).store := inv.perform event
      have hlater := ih (fun other hother => hnamed other (List.mem_cons_of_mem _ hother)) hinv
        (hended.perform event)
      exact hlater.trans (outcomes_of_ended inv hended (hnamed event List.mem_cons_self))

/-- No pending response is written once the decision is settled. -/
theorem pendingResponses_run_of_settled {codec : EventCodec} {operationId : Id32}
    (events : List Event) {system : System} (inv : SessionInv system.store)
    (hsettled : decisionSettled system.store operationId) :
    ((Run.after (System.perform codec) system events).store.outcomes operationId).pendingResponses =
      (system.store.outcomes operationId).pendingResponses := by
  induction events generalizing system with
  | nil => rfl
  | cons event events ih =>
      have hinv : SessionInv (system.perform codec event).store := inv.perform event
      have hlater := ih hinv (hsettled.perform event)
      refine hlater.trans ?_
      by_contra hchanged
      have houtcomes : (system.perform codec event).store.outcomes operationId ≠
          system.store.outcomes operationId := fun h => hchanged (by rw [h])
      rcases System.outcomes_changed houtcomes with ⟨-, hpending⟩ | ⟨request, rfl, rfl, guard⟩
      · exact hchanged (by simp only [Store.outcomes, hpending])
      · exact hsettled.not_awaiting inv guard.awaits

/-- A first commit without an active session, or without a pending decision, fails and changes
nothing; every outcome is written by a commit that met an active session or a pending
decision; and an operation whose session ended first never has an outcome. -/
theorem revocation_wins (codec : EventCodec) (config : Configuration) (appliedAtUnixS : ℕ)
    (events : List Event) :
    let system := Run.after (System.perform codec) (.initial config appliedAtUnixS) events
    (∀ (request : ResponseCommitRequest) (connectionId : Id32),
      (∀ row ∈ system.store.commits,
        row.operationId ≠ request.completion.request.operationId) →
      request.completion.connectionId = some connectionId →
      (∀ row ∈ system.store.connections,
        row.connectionId = connectionId → row.status ≠ .active) →
      ∃ e, (commitNip46Response codec system.config request).atomically system.store =
        (.error e, system.store)) ∧
    (∀ request : PendingResponseCommitRequest,
      (∀ row ∈ system.store.decisions,
        row.operationId = request.operationId → row.decision ≠ .pendingApproval) →
      ∃ e, (commitNip46PendingResponse codec system.config request).atomically system.store =
        (.error e, system.store)) ∧
    (∀ (event : Event) (operationId : Id32),
      (system.perform codec event).store.outcomes operationId ≠
        system.store.outcomes operationId →
      (∃ request, event = .operation (.commitResponse request) ∧
        request.completion.request.operationId = operationId ∧
        sessionActive system.store request.completion) ∨
      ∃ request, event = .operation (.commitPendingResponse request) ∧
        request.operationId = operationId ∧
        AwaitsDecision system.store operationId request.connectionId) ∧
    (∀ (later : List Event) (operationId connectionId : Id32),
      sessionEnded system.store connectionId → system.store.outcomes operationId = .none →
      (∀ event ∈ later, event.commitsUnder operationId connectionId) →
      (Run.after (System.perform codec) (.initial config appliedAtUnixS)
        (events ++ later)).store.outcomes operationId = .none) ∧
    ∀ (later : List Event) (operationId : Id32),
      decisionSettled system.store operationId →
      (system.store.outcomes operationId).pendingResponses = [] →
      ((Run.after (System.perform codec) (.initial config appliedAtUnixS)
        (events ++ later)).store.outcomes operationId).pendingResponses = [] := by
  intro system
  have inv : SessionInv system.store := sessionInv_run codec config appliedAtUnixS events
  refine ⟨?_, ?_, ?_, ?_, ?_⟩
  · intro request connectionId hfirst hconnection hinactive
    exact commitNip46Response_refused codec system.config hfirst hconnection hinactive
  · intro request hsettled
    refine commitNip46PendingResponse_refused codec system.config ?_
    rintro ⟨⟨row, hrow, hid, -, hpending⟩, -⟩
    exact hsettled row hrow hid hpending
  · intro event operationId hchanged
    rcases System.outcomes_changed hchanged with ⟨⟨request, rfl, rfl, guard⟩, -⟩ |
      ⟨request, rfl, rfl, guard⟩
    · exact .inl ⟨request, rfl, rfl, guard.active⟩
    · exact .inr ⟨request, rfl, rfl, guard.awaits⟩
  · intro later operationId connectionId hended hnone hnamed
    rw [Run.after_append, outcomes_run_of_ended hnamed inv hended, hnone]
  · intro later operationId hsettled hnone
    rw [Run.after_append, pendingResponses_run_of_settled later inv hsettled, hnone]

/-! ## A revoked session -/

namespace SampleService

/-- A ping under the session of the client. -/
def ping : SignerRequest := request '3' 3 .ping (sampleTime 2000)

/-- The record of a request admitted for the first time. -/
def record (request : SignerRequest) : RequestRecord where
  operationId := request.operationId
  correlationId := deriveCorrelationId request.operationId
  clientPublicKey := request.clientPublicKey
  requestId := request.requestId
  firstEventId := request.eventId
  method := request.method
  requestDigest := request.requestDigest
  receivedAt := request.receivedAt
  replayCount := 0
  conflictCount := 0
  lastSeenAt := request.receivedAt

def revocation : Operation :=
  .adminConnection (admission firstConnect).connectionId (admission firstConnect).policyGeneration
    (sampleTime 3000) 4 .revoke

/-- The session is revoked while the ping is being answered. -/
def revokedDuringPing : List Event :=
  connects ++ [.operation (.admitRequest ping), .operation revocation]

/-- The signed event that answers the ping. -/
def pongEvent : NostrEvent where
  id := 0xb1df85a383accd74d2b85f4adc9c5e556b31d6413aa5af36697d72f473c5e140
  pubkey := transport
  createdAt := 4
  kind := 24133
  tags := [[ascii "p", client.asHex]]
  content := ascii ("Ang3e1JXV7SUQn+JAU+X15ko85ONFOtR4g+13smDTrME+NyzQwjlxp9GozyvpivZIkdrGMeKEU6x" ++
    "RONKXjdPfWAAATSKYp9c7tAyw+hwbsR9m/r7APtCULAY3ZZUNcpQy4Nu")
  signature := Sha256.bigEndian 64 (0x998835aa01355e8578df11ed1f8932d3bf047b060157bb02872c7d8c5c82cf1d *
    2 ^ 256 + 0x32955fc9549e6bcff19e7e35ac5e743d49d90c1c06c46b2509371c1b669d00e6)

/-- The encoding of an event as the event library writes it. -/
def encode (event : NostrEvent) : Bytes :=
  let hex (bytes : Bytes) : Bytes := bytes.flatMap fun byte =>
    let digit (n : ℕ) : UInt8 := UInt8.ofNat (if n < 10 then 48 + n else 87 + n)
    [digit (byte.toNat / 16), digit (byte.toNat % 16)]
  let quoted (bytes : Bytes) : Bytes := ascii "\"" ++ bytes ++ ascii "\""
  let array (items : List Bytes) : Bytes :=
    ascii "[" ++ (items.intersperse (ascii ",")).flatten ++ ascii "]"
  ascii "\x7b\"id\":" ++ quoted (hex event.id.bytes) ++
    ascii ",\"pubkey\":" ++ quoted event.pubkey.asHex ++
    ascii ",\"created_at\":" ++ decimal event.createdAt ++
    ascii ",\"kind\":" ++ decimal event.kind ++
    ascii ",\"tags\":" ++ array (event.tags.map fun tag => array (tag.map quoted)) ++
    ascii ",\"content\":" ++ quoted event.content ++
    ascii ",\"sig\":" ++ quoted (hex event.signature) ++ ascii "\x7d"

/-- A library that knows the one event. -/
def pongCodec : EventCodec where
  decode bytes := if bytes = encode pongEvent then some pongEvent else none
  encode := encode
  verify event := event = pongEvent

/-- The answer to the ping under the session it read. -/
def pong : ResponseCommitRequest where
  completion :=
    { request := record ping
      connectionId := some (admission firstConnect).connectionId
      connectionGeneration := some (admission firstConnect).policyGeneration
      connectDecision := none
      sessionEffect := .none
      providerOperationId := none
      artifact := none
      reasonCode := .completed
      completedAt := sampleTime 4000 }
  responseProviderOperationId := 5
  responseEventId := pongEvent.id
  responseDigest := Sha256.digest (encode pongEvent)
  responseBytes := encode pongEvent
  authoredAtUnixS := 4
  committedAt := sampleTime 4000

end SampleService

open SampleService in
/-- The answer to the ping is refused, and the ping has no outcome. -/
theorem revocation_wins_over_ping :
    let system := Run.after (System.perform pongCodec) (.initial config 1) revokedDuringPing
    (∃ e, (commitNip46Response pongCodec system.config pong).atomically system.store =
        (.error e, system.store)) ∧
      (Run.after (System.perform pongCodec) (.initial config 1)
        (revokedDuringPing ++ [.operation (.commitResponse pong)])).store.outcomes
          ping.operationId = .none := by
  intro system
  obtain ⟨hrefused, -, -, hnever, -⟩ := revocation_wins pongCodec config 1 revokedDuringPing
  have hfacts : sessionEnded system.store (admission firstConnect).connectionId ∧
      system.store.outcomes ping.operationId = .none := by
    have hsystem : system = Run.after (System.perform pongCodec) ⟨config, connectedStore⟩
        [.operation (.admitRequest ping), .operation revocation] := by
      rw [← after_connects pongCodec, ← Run.after_append]
      rfl
    unfold sessionEnded
    rw [hsystem]
    decide +kernel
  obtain ⟨hended, hnone⟩ := hfacts
  have hinv : SessionInv system.store := sessionInv_run pongCodec config 1 revokedDuringPing
  refine ⟨hrefused pong (admission firstConnect).connectionId (uncommitted_of_outcomes hnone) rfl
    (hended.not_active hinv), hnever _ _ _ hended hnone ?_⟩
  intro event hevent
  rw [List.mem_singleton.mp hevent]
  exact fun _ => rfl

end MycSigner
