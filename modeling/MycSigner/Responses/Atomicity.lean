import MycSigner.Configuration.History
import MycSigner.Dispatch.Redelivery
import MycSigner.Outbox.Service
import MycSigner.Sessions.Lifecycle

/-!
# Responses are committed as a whole

The outcomes of an operation are its completion, its response and its delivery job.  One
transaction writes all of a terminal answer, another all of a pending one, and the triggers of
the response tables keep the two apart; once written, the outcomes of an operation never
change.  A commit that is repeated therefore finds what the first one stored.
-/

namespace MycSigner

open Transaction

/-! ## Outcomes are written together -/

/-- The outcomes of an operation: none, a terminal answer or a pending one. -/
inductive Outcomes.Consistent : Outcomes → Prop
  | unanswered : Consistent .none
  | terminal {commit : CommitRow} {response : SignedResponseRow} {job : JobRow}
      (digest : job.artifactSha256 = response.responseSha256)
      (created : job.createdAt = response.committedAt) :
      Consistent ⟨[commit], [response], [], [job]⟩
  | pending {response : PendingResponseRow} {job : JobRow}
      (digest : job.artifactSha256 = response.responseSha256)
      (created : job.createdAt = response.committedAt) :
      Consistent ⟨[], [], [response], [job]⟩

/-- Without a response there is nothing. -/
theorem Outcomes.Consistent.eq_none {outcomes : Outcomes} (h : outcomes.Consistent)
    (hsigned : outcomes.signedResponses = []) (hpending : outcomes.pendingResponses = []) :
    outcomes = .none := by
  cases h with
  | unanswered => rfl
  | terminal => cases hsigned
  | pending => cases hpending

theorem Outcomes.Consistent.commits_eq_nil {outcomes : Outcomes} (h : outcomes.Consistent) :
    outcomes.commits = [] ↔ outcomes.signedResponses = [] := by
  cases h with
  | unanswered => simp [Outcomes.none]
  | terminal => simp
  | pending => simp

section Outcomes

variable {s : Store}

theorem Completes.outcomes_eq_none {request : ResponseCommitRequest} (guard : Completes s request)
    (h : (s.outcomes request.completion.request.operationId).Consistent) :
    s.outcomes request.completion.request.operationId = .none := by
  refine h.eq_none (List.filter_eq_nil_iff.mpr ?_) (List.filter_eq_nil_iff.mpr ?_)
  · intro row hrow
    simpa using guard.unanswered row hrow
  · intro row hrow
    simpa using guard.unpended row hrow

theorem AnswersPending.outcomes_eq_none {request : PendingResponseCommitRequest}
    (guard : AnswersPending s request) (h : (s.outcomes request.operationId).Consistent) :
    s.outcomes request.operationId = .none := by
  refine h.eq_none (List.filter_eq_nil_iff.mpr ?_) (List.filter_eq_nil_iff.mpr ?_)
  · intro row hrow
    simpa using guard.uncompleted row hrow
  · intro row hrow
    simpa using guard.unanswered row hrow

/-- A row that is the first of its kind is the only one found. -/
theorem filter_concat_of_nil {α : Type} {p : α → Bool} {rows : List α} {row : α}
    (h : rows.filter p = []) (hrow : p row = true) : (rows ++ [row]).filter p = [row] := by
  rw [List.filter_append, h]
  simp [hrow]

/-- A completion writes the terminal answer. -/
theorem outcomes_completed_self {request : ResponseCommitRequest} {policy : DeliveryPolicies}
    (h : s.outcomes request.completion.request.operationId = .none) :
    (s.completed request policy).outcomes request.completion.request.operationId =
      ⟨[request.completion.row], [request.row], [],
        [newJobRow ⟨.signerResponse, request.completion.request.operationId⟩
          request.responseDigest request.committedAt policy]⟩ := by
  simp only [Store.outcomes, Outcomes.none, Outcomes.mk.injEq] at h ⊢
  obtain ⟨hcommits, hsigned, hpending, hjobs⟩ := h
  refine ⟨filter_concat_of_nil hcommits ?_, filter_concat_of_nil hsigned ?_, hpending, ?_⟩
  · simp [CommitRequest.row]
  · simp [ResponseCommitRequest.row]
  · unfold Store.completed
    rw [responseJobs_created]
    exact filter_concat_of_nil hjobs (by simp [newJobRow])

/-- A pending response writes the pending answer. -/
theorem outcomes_answeredPending_self {request : PendingResponseCommitRequest}
    {policy : DeliveryPolicies} (h : s.outcomes request.operationId = .none) :
    (s.answeredPending request policy).outcomes request.operationId =
      ⟨[], [], [request.row], [newJobRow ⟨.signerResponse, request.operationId⟩
        request.responseDigest request.committedAt policy]⟩ := by
  simp only [Store.outcomes, Outcomes.none, Outcomes.mk.injEq] at h ⊢
  obtain ⟨hcommits, hsigned, hpending, hjobs⟩ := h
  refine ⟨hcommits, hsigned, filter_concat_of_nil hpending ?_, ?_⟩
  · simp [PendingResponseCommitRequest.row]
  · unfold Store.answeredPending
    rw [responseJobs_created]
    exact filter_concat_of_nil hjobs (by simp [newJobRow])

end Outcomes

/-! ## Along a run -/

/-- The outcomes of every operation are consistent. -/
def OutcomesConsistent (s : Store) : Prop := ∀ operationId, (s.outcomes operationId).Consistent

/-- The outcomes of an operation change at most once, from none to a whole answer. -/
theorem OutcomesConsistent.changes {codec : EventCodec} {system : System}
    (inv : OutcomesConsistent system.store) (event : Event) (operationId : Id32) :
    (system.perform codec event).store.outcomes operationId = system.store.outcomes operationId ∨
      system.store.outcomes operationId = .none ∧
        ((system.perform codec event).store.outcomes operationId).Consistent := by
  refine System.perform_sessions (P := fun after =>
    after.store.outcomes operationId = system.store.outcomes operationId ∨
      system.store.outcomes operationId = .none ∧
        (after.store.outcomes operationId).Consistent) event (.inl rfl) ?_ ?_
  · intro operation s₁ s' _ hstep hview
    have hsame : s'.outcomes operationId = s₁.outcomes operationId :=
      (congrArg (Store.outcomes · operationId) hview :)
    rw [hsame]
    by_cases hchanged : s₁.outcomes operationId = system.store.outcomes operationId
    · exact .inl hchanged
    · -- a changed outcome names the commit, which found none
      rcases hstep.outcomes_changed hchanged with ⟨⟨request, hevent, rfl, guard⟩, -⟩ |
        ⟨request, hevent, rfl, guard⟩
      · obtain rfl := Event.operation.inj hevent
        have hnone := guard.outcomes_eq_none (inv _)
        cases hstep with
        | quiet | approve | deny | finish | issue | resolve => exact .inl rfl
        | outbox _ hlabel => cases hlabel
        | complete _ =>
            refine .inr ⟨hnone, ?_⟩
            rw [outcomes_completed_self hnone]
            exact .terminal rfl rfl
      · obtain rfl := Event.operation.inj hevent
        have hnone := guard.outcomes_eq_none (inv _)
        cases hstep with
        | quiet | approve | deny | finish | issue | resolve => exact .inl rfl
        | outbox _ hlabel => cases hlabel
        | answerPending _ =>
            refine .inr ⟨hnone, ?_⟩
            rw [outcomes_answeredPending_self hnone]
            exact .pending rfl rfl
  · intro candidate appliedAtUnixS bindings _ _
    refine .inl ?_
    unfold Store.reconfigured
    split
    next => rfl
    next =>
      split
      next => rfl
      next => rfl

theorem OutcomesConsistent.perform {codec : EventCodec} {system : System}
    (inv : OutcomesConsistent system.store) (event : Event) :
    OutcomesConsistent (system.perform codec event).store := by
  intro operationId
  rcases inv.changes event operationId with hsame | ⟨-, hwritten⟩
  · rw [hsame]
    exact inv operationId
  · exact hwritten

theorem OutcomesConsistent.initial (metadata : PersistedMetadata) (appliedAtUnixS : ℕ) :
    OutcomesConsistent (Store.initial metadata appliedAtUnixS) := fun _ => .unanswered

/-- What was written for an operation stays as it is. -/
theorem OutcomesConsistent.stay {codec : EventCodec} {system : System}
    (inv : OutcomesConsistent system.store) (events : List Event) {operationId : Id32}
    (hanswered : system.store.outcomes operationId ≠ .none) :
    (Run.after (System.perform codec) system events).store.outcomes operationId =
      system.store.outcomes operationId := by
  induction events generalizing system with
  | nil => rfl
  | cons event events ih =>
      have hsame : (system.perform codec event).store.outcomes operationId =
          system.store.outcomes operationId := by
        rcases inv.changes event operationId with hsame | ⟨hnone, -⟩
        · exact hsame
        · exact absurd hnone hanswered
      rw [← hsame] at hanswered ⊢
      exact ih (inv.perform event) hanswered

/-! ## What the outcomes say about the tables -/

/-- A completion belongs to every terminal response, a delivery job to every response, and no
operation is answered both ways. -/
structure ResponsesWhole (s : Store) : Prop where
  completed : ∀ operationId, (∃ commit ∈ s.commits, commit.operationId = operationId) ↔
    ∃ response ∈ s.signedResponses, response.operationId = operationId
  delivered : ∀ authority ∈ responseAuthorities s, ∃ job,
    (s.jobs.filter fun job => job.sourceKind = .signerResponse ∧
      job.sourceId = authority.operationId) = [job] ∧
      job.artifactSha256 = authority.responseSha256 ∧ job.createdAt = authority.committedAt
  exclusive : ∀ terminal ∈ s.signedResponses, ∀ pending ∈ s.pendingResponses,
    terminal.operationId ≠ pending.operationId

section Tables

variable {s : Store}

theorem outcomes_commits_ne_nil {operationId : Id32} : (s.outcomes operationId).commits ≠ [] ↔
    ∃ commit ∈ s.commits, commit.operationId = operationId := by
  simp [Store.outcomes]

theorem outcomes_signed_ne_nil {operationId : Id32} : (s.outcomes operationId).signedResponses ≠ [] ↔
    ∃ response ∈ s.signedResponses, response.operationId = operationId := by
  simp [Store.outcomes]

theorem mem_outcomes_signed {row : SignedResponseRow} (h : row ∈ s.signedResponses) :
    row ∈ (s.outcomes row.operationId).signedResponses :=
  List.mem_filter.mpr ⟨h, decide_eq_true rfl⟩

theorem mem_outcomes_pending {row : PendingResponseRow} (h : row ∈ s.pendingResponses) :
    row ∈ (s.outcomes row.operationId).pendingResponses :=
  List.mem_filter.mpr ⟨h, decide_eq_true rfl⟩

/-- The jobs of an operation, as they were created. -/
theorem outcomes_jobs (s : Store) (operationId : Id32) :
    (s.jobs.filter fun job => job.sourceKind = .signerResponse ∧
      job.sourceId = operationId).map JobRow.asCreated = (s.outcomes operationId).jobs := by
  unfold Store.outcomes Store.responseJobs
  rw [List.filter_map, List.filter_filter]
  congr 1
  refine List.filter_congr fun job _ => ?_
  have hsource : job.asCreated.sourceId = job.sourceId := rfl
  simp only [Function.comp_apply, hsource, Bool.decide_and, Bool.and_comm]

/-- The authorities of an operation come from its two kinds of responses. -/
theorem authorities_filter (s : Store) (operationId : Id32) :
    ((responseAuthorities s).filter fun authority => authority.operationId = operationId) =
      (s.outcomes operationId).signedResponses.map SignedResponseRow.authority ++
        (s.outcomes operationId).pendingResponses.map PendingResponseRow.authority := by
  unfold responseAuthorities Store.outcomes
  rw [List.filter_append, List.filter_map, List.filter_map]
  rfl

/-- A stored response is the only one of its operation, beside one job that fits it. -/
theorem OutcomesConsistent.stored (inv : OutcomesConsistent s) {authority : ResponseAuthority}
    (h : authority ∈ responseAuthorities s) :
    ((responseAuthorities s).filter fun other => other.operationId = authority.operationId) =
        [authority] ∧
      ∃ job, (s.jobs.filter fun job => job.sourceKind = .signerResponse ∧
          job.sourceId = authority.operationId) = [job] ∧
        job.artifactSha256 = authority.responseSha256 ∧ job.createdAt = authority.committedAt := by
  have hmem : authority ∈ (responseAuthorities s).filter fun other =>
      other.operationId = authority.operationId := List.mem_filter.mpr ⟨h, decide_eq_true rfl⟩
  have hjobs := outcomes_jobs s authority.operationId
  rw [authorities_filter] at hmem ⊢
  have hconsistent := inv authority.operationId
  generalize s.outcomes authority.operationId = outcomes at *
  cases hconsistent with
  | unanswered => cases hmem
  | @terminal commit response job hdigest hcreated =>
      obtain rfl := List.mem_singleton.mp hmem
      obtain ⟨stored, hstored, rfl⟩ := List.map_eq_singleton_iff.mp hjobs
      exact ⟨rfl, stored, hstored, hdigest, hcreated⟩
  | @pending response job hdigest hcreated =>
      obtain rfl := List.mem_singleton.mp hmem
      obtain ⟨stored, hstored, rfl⟩ := List.map_eq_singleton_iff.mp hjobs
      exact ⟨rfl, stored, hstored, hdigest, hcreated⟩

theorem OutcomesConsistent.whole (inv : OutcomesConsistent s) : ResponsesWhole s where
  completed := by
    intro operationId
    rw [← outcomes_commits_ne_nil, ← outcomes_signed_ne_nil]
    exact not_congr (inv operationId).commits_eq_nil
  delivered := fun authority hauthority => (inv.stored hauthority).2
  exclusive := by
    intro terminal hterminal pending hpending heq
    have hsigned := mem_outcomes_signed hterminal
    have hwaiting := mem_outcomes_pending hpending
    rw [← heq] at hwaiting
    have hconsistent := inv terminal.operationId
    generalize s.outcomes terminal.operationId = outcomes at *
    cases hconsistent with
    | unanswered => cases hsigned
    | terminal => cases hwaiting
    | pending => cases hsigned

end Tables

/-! ## Reading a response back -/

/-- A stored response can be read for the client of its request. -/
structure AnsweredBy (codec : EventCodec) (s : Store) (authority : ResponseAuthority)
    (request : RequestRow) : Prop where
  stored : authority ∈ responseAuthorities s
  request_mem : request ∈ s.requests
  operation : request.operationId = authority.operationId
  readable : ∀ job, responseReadable codec ⟨authority, request, job⟩ = true

section Reading

variable {codec : EventCodec} {s : Store} {authority : ResponseAuthority} {request : RequestRow}

theorem mem_responseMatches {matching : ResponseAuthority → JobRow → Bool} {found : ResponseMatch}
    (h : found ∈ responseMatches s matching) :
    found.authority ∈ responseAuthorities s ∧ found.request ∈ s.requests ∧
      found.request.operationId = found.authority.operationId ∧
      matching found.authority found.job = true := by
  obtain ⟨authority, hauthority, h⟩ := List.mem_flatMap.mp h
  obtain ⟨request, hrequest, h⟩ := List.mem_flatMap.mp h
  obtain ⟨job, hjob, rfl⟩ := List.mem_map.mp h
  obtain ⟨hrequest, hoperation⟩ := List.mem_filter.mp hrequest
  have hmatch := of_decide_eq_true (List.mem_filter.mp hjob).2
  exact ⟨hauthority, hrequest, of_decide_eq_true hoperation, hmatch.2.2⟩

/-- A response that was read is stored and readable. -/
theorem readResponseByOperation_eq_some {operationId : Id32} {response : ResponseRecord}
    (h : readResponseByOperation codec s operationId = .ok (some response)) :
    response.operationId = operationId ∧
      ∃ request, AnsweredBy codec s response.toResponseAuthority request := by
  unfold readResponseByOperation readResponse at h
  obtain ⟨found?, hfound, h⟩ := Except.bind_eq_ok_iff.mp h
  cases found? with
  | none => cases h
  | some found =>
      obtain ⟨_, hreadable, h⟩ := Except.bind_eq_ok_iff.mp h
      obtain ⟨_, -, h⟩ := Except.bind_eq_ok_iff.mp h
      obtain ⟨_, -, h⟩ := Except.bind_eq_ok_iff.mp h
      obtain ⟨_, -, h⟩ := Except.bind_eq_ok_iff.mp h
      obtain rfl := Option.some.inj (Except.ok.inj h)
      have hmem := List.mem_singleton_self found
      rw [← atMostOneRow_eq_some.mp hfound] at hmem
      obtain ⟨hstored, hrequest, hoperation, hmatch⟩ := mem_responseMatches hmem
      refine ⟨of_decide_eq_true hmatch, found.request, hstored, hrequest, hoperation, ?_⟩
      intro job
      exact Except.require_eq_ok.mp hreadable

/-- Rows that contribute nothing can be left out. -/
theorem flatMap_filter_of_nil {α β : Type} {p : α → Bool} {f : α → List β} {rows : List α}
    (h : ∀ row ∈ rows, p row = false → f row = []) : rows.flatMap f = (rows.filter p).flatMap f := by
  induction rows with
  | nil => rfl
  | cons row rows ih =>
      have hrest := ih fun other hother => h other (List.mem_cons_of_mem _ hother)
      by_cases hrow : p row = true
      · rw [List.filter_cons_of_pos hrow, List.flatMap_cons, List.flatMap_cons, hrest]
      · rw [List.filter_cons_of_neg hrow, List.flatMap_cons, hrest,
          h row List.mem_cons_self (by simpa using hrow), List.nil_append]

/-- A stored and readable response is the one that is read. -/
theorem AnsweredBy.read (inv : OutcomesConsistent s)
    (hunique : Table.Unique RequestRow.operationId s.requests) (wf : DeliveryWf s)
    (h : AnsweredBy codec s authority request) :
    ∃ response, readResponseByOperation codec s authority.operationId = .ok (some response) ∧
      response.toResponseAuthority = authority := by
  obtain ⟨honly, job, hjobs, hdigest, hcreated⟩ := inv.stored h.stored
  have hrequests := hunique.filter_eq_singleton h.request_mem
  rw [h.operation] at hrequests
  have hmatches : responseMatches s (fun other _ =>
      decide (other.operationId = authority.operationId)) = [⟨authority, request, job⟩] := by
    have hothers : ∀ other ∈ responseAuthorities s,
        decide (other.operationId = authority.operationId) = false →
        ((s.requests.filter fun request => request.operationId = other.operationId).flatMap
          fun request => (s.jobs.filter fun job => job.sourceKind = .signerResponse ∧
            job.sourceId = other.operationId ∧
              decide (other.operationId = authority.operationId) = true).map fun job =>
                (⟨other, request, job⟩ : ResponseMatch)) = [] := by
      intro other _ hne
      simp [hne]
    unfold responseMatches
    rw [flatMap_filter_of_nil hothers, honly, List.flatMap_singleton, hrequests,
      List.flatMap_singleton]
    simp only [decide_true, and_true, hjobs, List.map_cons, List.map_nil]
  have hmem : job ∈ s.jobs.filter fun job => job.sourceKind = .signerResponse ∧
      job.sourceId = authority.operationId := hjobs ▸ List.mem_singleton_self job
  obtain ⟨hjob, hsource⟩ := List.mem_filter.mp hmem
  have hsource := of_decide_eq_true hsource
  refine ⟨⟨authority, { job with targets := targetsOf s job.jobId }⟩, ?_, rfl⟩
  unfold readResponseByOperation readResponse
  rw [hmatches]
  refine Except.bind_eq_ok_iff.mpr ⟨some ⟨authority, request, job⟩, rfl, ?_⟩
  refine Except.bind_eq_ok_iff.mpr ⟨(), Except.require_eq_ok.mpr (h.readable job), ?_⟩
  refine Except.bind_eq_ok_iff.mpr ⟨_, wf.readJob_eq_some hjob, ?_⟩
  refine Except.bind_eq_ok_iff.mpr ⟨_, rfl, ?_⟩
  exact Except.bind_eq_ok_iff.mpr
    ⟨(), Except.require_eq_ok.mpr ⟨hsource.1, hsource.2, hdigest, hcreated⟩, rfl⟩

theorem readExactResponse_eq_ok {response : ResponseRecord} {s' : Store}
    (h : (readExactResponse codec authority).run s = .ok (response, s')) :
    s' = s ∧ response.toResponseAuthority = authority ∧ ∃ row, AnsweredBy codec s authority row := by
  unfold readExactResponse at h
  obtain ⟨_, hread, h⟩ := run_query_bind_eq_ok.mp h
  obtain ⟨_, rfl, h⟩ := run_orFail_bind_eq_ok.mp h
  obtain ⟨hsame, h⟩ := run_require_bind_eq_ok.mp h
  obtain ⟨rfl, rfl⟩ := run_pure_eq_ok.mp h
  obtain ⟨-, row, hanswered⟩ := readResponseByOperation_eq_some hread
  exact ⟨rfl, hsame, row, hsame ▸ hanswered⟩

theorem AnsweredBy.run_readExactResponse (inv : OutcomesConsistent s)
    (hunique : Table.Unique RequestRow.operationId s.requests) (wf : DeliveryWf s)
    (h : AnsweredBy codec s authority request) :
    ∃ response, (readExactResponse codec authority).run s = .ok (response, s) ∧
      response.toResponseAuthority = authority := by
  obtain ⟨response, hread, hsame⟩ := h.read inv hunique wf
  refine ⟨response, ?_, hsame⟩
  unfold readExactResponse
  refine run_query_bind_eq_ok.mpr ⟨some response, hread, ?_⟩
  refine run_orFail_bind_eq_ok.mpr ⟨response, rfl, ?_⟩
  exact run_require_bind_eq_ok.mpr ⟨hsame, rfl⟩

end Reading

/-! ## What a commit leaves -/

/-- The request row that `verify_request` accepts. -/
structure CommitRequest.VerifiedBy (request : CommitRequest) (row : RequestRow) : Prop where
  operation : row.operationId = request.request.operationId
  facts : row.correlationId = request.request.correlationId ∧
    row.method = request.request.method ∧ row.receivedAt = request.request.receivedAt ∧
    row.receivedAt ≤ request.completedAt

/-- The response of a commit. -/
def ResponseCommitAdmission.response : ResponseCommitAdmission → ResponseRecord
  | .committed response | .exactReplay response => response

/-- The terminal answer of a request is stored and can be read. -/
structure Committed (codec : EventCodec) (s : Store) (request : ResponseCommitRequest) : Prop where
  verified : ∃ row ∈ s.requests, request.completion.VerifiedBy row
  completed : request.completion.row ∈ s.commits
  answered : ∃ row, AnsweredBy codec s request.row.authority row

section Commits

variable {codec : EventCodec} {config : Configuration} {s s' : Store}

theorem verifyRequest_eq_ok {request : CommitRequest} {u : Unit}
    (h : (verifyRequest request).run s = .ok (u, s')) :
    s = s' ∧ ∃ row ∈ s.requests, request.VerifiedBy row := by
  unfold verifyRequest at h
  obtain ⟨row, hrow, h⟩ := run_query_bind_eq_ok.mp h
  obtain ⟨hfacts, rfl⟩ := run_require_eq_ok.mp h
  obtain ⟨hmem, hid⟩ := readRequestBinding_eq_ok hrow
  exact ⟨rfl, row, hmem, hid, hfacts⟩

theorem CommitRequest.VerifiedBy.run_verifyRequest {request : CommitRequest} {row : RequestRow}
    (h : request.VerifiedBy row) (hrow : row ∈ s.requests)
    (hunique : Table.Unique RequestRow.operationId s.requests) :
    (verifyRequest request).run s = .ok ((), s) := by
  have hrows := hunique.filter_eq_singleton hrow
  rw [h.operation] at hrows
  unfold verifyRequest
  refine run_query_bind_eq_ok.mpr ⟨row, oneRow_eq_ok.mpr hrows, ?_⟩
  exact run_require_eq_ok.mpr ⟨h.facts, rfl⟩

/-- A commit that returns has stored the answer that it was given. -/
theorem commitNip46Response_committed {request : ResponseCommitRequest}
    {admission : ResponseCommitAdmission}
    (h : (commitNip46Response codec config request).run s = .ok (admission, s')) :
    Committed codec s' request ∧
      admission.response.toResponseAuthority = request.row.authority := by
  have hcases := commitNip46Response_cases h
  have h := run_withBinding_eq_ok h
  obtain ⟨completion, s₁, hcommit, h⟩ := run_bind_eq_ok.mp h
  have hcompletion := (commitOperation_cases hcommit).2
  unfold commitOperation at hcommit
  obtain ⟨_, _, hverify, hcommit⟩ := run_bind_eq_ok.mp hcommit
  obtain ⟨rfl, row, hrow, hverified⟩ := verifyRequest_eq_ok hverify
  cases completion with
  | exactReplay =>
      obtain ⟨response, s₂, hread, h⟩ := run_bind_eq_ok.mp h
      obtain ⟨rfl, rfl⟩ := run_pure_eq_ok.mp h
      obtain ⟨rfl, hsame, hanswered⟩ := readExactResponse_eq_ok hread
      rcases hcompletion with ⟨-, rfl, hretained⟩ | ⟨hne, -⟩
      · exact ⟨⟨⟨row, hrow, hverified⟩, hretained, hanswered⟩, hsame⟩
      · cases hne
  | committed =>
      obtain ⟨_, s₂, -, h⟩ := run_bind_eq_ok.mp h
      obtain ⟨_, s₃, -, h⟩ := run_bind_eq_ok.mp h
      obtain ⟨response, s₄, hread, h⟩ := run_bind_eq_ok.mp h
      obtain ⟨rfl, rfl⟩ := run_pure_eq_ok.mp h
      obtain ⟨rfl, hsame, hanswered⟩ := readExactResponse_eq_ok hread
      rcases hcases with ⟨hretained, rfl⟩ | ⟨-, rfl⟩
      · exact ⟨⟨⟨row, hrow, hverified⟩, hretained, hanswered⟩, hsame⟩
      · refine ⟨⟨⟨row, hrow, hverified⟩, ?_, hanswered⟩, hsame⟩
        exact List.mem_append_right _ (List.mem_singleton_self _)

/-- Committing a stored answer again returns it and changes nothing. -/
theorem Committed.run_again {request : ResponseCommitRequest} (h : Committed codec s request)
    (inv : OutcomesConsistent s) (session : SessionInv s) (wf : DeliveryWf s)
    (hbound : Bound config s) :
    ∃ response, (commitNip46Response codec config request).run s =
        .ok (.exactReplay response, s) ∧
      response.toResponseAuthority = request.row.authority := by
  obtain ⟨row, hrow, hverified⟩ := h.verified
  obtain ⟨answering, hanswered⟩ := h.answered
  obtain ⟨response, hread, hsame⟩ :=
    hanswered.run_readExactResponse inv session.requests_unique wf
  have hcommits : (s.commits.filter fun row =>
      row.operationId = request.completion.request.operationId) = [request.completion.row] := by
    have hmem : request.completion.row ∈
        (s.outcomes request.completion.request.operationId).commits :=
      List.mem_filter.mpr ⟨h.completed, decide_eq_true rfl⟩
    change (s.outcomes request.completion.request.operationId).commits = _
    have hconsistent := inv request.completion.request.operationId
    generalize s.outcomes request.completion.request.operationId = outcomes at *
    cases hconsistent with
    | unanswered => cases hmem
    | terminal => rw [List.mem_singleton.mp hmem]
    | pending => cases hmem
  have hretained : readCommit s request.completion = .ok (some request.completion.row) := by
    refine Except.bind_eq_ok_iff.mpr ⟨_, atMostOneRow_eq_some.mpr hcommits, ?_⟩
    exact Except.bind_eq_ok_iff.mpr ⟨(), Except.require_eq_ok.mpr rfl, rfl⟩
  have hcommit : (commitOperation request.completion).run s = .ok (.exactReplay, s) := by
    refine run_bind_eq_ok.mpr
      ⟨(), s, hverified.run_verifyRequest hrow session.requests_unique, ?_⟩
    exact run_query_bind_eq_ok.mpr ⟨some request.completion.row, hretained, rfl⟩
  refine ⟨response, run_withBinding.mpr ⟨hbound, ?_⟩, hsame⟩
  refine run_bind_eq_ok.mpr ⟨.exactReplay, s, hcommit, ?_⟩
  exact run_bind_eq_ok.mpr ⟨response, s, hread, rfl⟩

end Commits

/-! ## What a pending commit leaves -/

/-- The rows that `require_pending_binding` joins. -/
structure PendingBound (s : Store) (request : PendingResponseCommitRequest)
    (decision : DecisionRow) (connection : ConnectionRow) (row : RequestRow) : Prop where
  decision_mem : decision ∈ s.decisions
  connection_mem : connection ∈ s.connections
  row_mem : row ∈ s.requests
  decided : decision.operationId = request.operationId
  named : some connection.connectionId = decision.connectionId ∧
    connection.policyGeneration = decision.policyGeneration ∧
    connection.requestedPermissionsSha256 = decision.requestedPermissionsSha256
  requested : row.operationId = request.operationId ∧
    connection.clientPublicKey = row.clientPublicKey ∧ row.method = .connect
  accepted : decision.connectionId = some request.connectionId ∧
    decision.policyGeneration = request.policyGeneration ∧
    decision.decidedAt = request.decidedAt ∧ decision.decision = .pendingApproval ∧
    decision.reasonCode = .explicitApprovalRequired ∧ connection.status = .pending ∧
    connection.clientPublicKey = request.clientPublicKey

/-- The pending answer of a request is stored and can be read. -/
structure CommittedPending (codec : EventCodec) (s : Store)
    (request : PendingResponseCommitRequest) : Prop where
  bound : ∃ decision connection row, PendingBound s request decision connection row
  answered : ∃ row, AnsweredBy codec s request.row.authority row

section PendingCommits

variable {codec : EventCodec} {config : Configuration} {s s' : Store}
  {request : PendingResponseCommitRequest}

theorem requirePendingBinding_eq_ok {u : Unit}
    (h : (requirePendingBinding request).run s = .ok (u, s')) :
    s = s' ∧ ∃ decision connection row, PendingBound s request decision connection row := by
  unfold requirePendingBinding at h
  obtain ⟨⟨decision, connection⟩, hbinding, h⟩ := run_query_bind_eq_ok.mp h
  obtain ⟨haccepted, rfl⟩ := run_require_eq_ok.mp h
  have hmem := List.mem_singleton_self (decision, connection)
  rw [← oneRow_eq_ok.mp hbinding] at hmem
  obtain ⟨_, hdecision, hmem⟩ := List.mem_flatMap.mp hmem
  obtain ⟨_, hconnection, hmem⟩ := List.mem_flatMap.mp hmem
  obtain ⟨row, hrow, hpair⟩ := List.mem_map.mp hmem
  obtain ⟨rfl, rfl⟩ := Prod.mk.inj hpair
  obtain ⟨hdecision, hdecided⟩ := List.mem_filter.mp hdecision
  obtain ⟨hconnection, hnamed⟩ := List.mem_filter.mp hconnection
  obtain ⟨hrow, hrequested⟩ := List.mem_filter.mp hrow
  exact ⟨rfl, _, _, row, hdecision, hconnection, hrow, of_decide_eq_true hdecided,
    of_decide_eq_true hnamed, of_decide_eq_true hrequested, haccepted⟩

theorem PendingBound.run_requirePendingBinding {decision : DecisionRow}
    {connection : ConnectionRow} {row : RequestRow}
    (h : PendingBound s request decision connection row) (inv : SessionInv s) :
    (requirePendingBinding request).run s = .ok ((), s) := by
  have hdecisions : (s.decisions.filter fun other => other.operationId = request.operationId) =
      [decision] := by
    have hrows := inv.decisions_unique.filter_eq_singleton h.decision_mem
    rwa [h.decided] at hrows
  have hconnections : (s.connections.filter fun other =>
      some other.connectionId = decision.connectionId ∧
        other.policyGeneration = decision.policyGeneration ∧
        other.requestedPermissionsSha256 = decision.requestedPermissionsSha256) = [connection] := by
    refine Table.filter_eq_of_only inv.connections_unique.nodup h.connection_mem
      (decide_eq_true h.named) fun other hother hmatch => ?_
    have hid := (of_decide_eq_true hmatch).1.trans h.named.1.symm
    exact inv.connections_unique.eq_of_key_eq hother h.connection_mem (Option.some.inj hid)
  have hrequests : (s.requests.filter fun other => other.operationId = request.operationId ∧
      connection.clientPublicKey = other.clientPublicKey ∧ other.method = .connect) = [row] := by
    refine Table.filter_eq_of_only inv.requests_unique.nodup h.row_mem
      (decide_eq_true h.requested) fun other hother hmatch => ?_
    have hid := (of_decide_eq_true hmatch).1.trans h.requested.1.symm
    exact inv.requests_unique.eq_of_key_eq hother h.row_mem hid
  have hbindings : pendingBindings s request.operationId = [(decision, connection)] := by
    unfold pendingBindings
    rw [hdecisions, List.flatMap_singleton, hconnections, List.flatMap_singleton, hrequests]
    rfl
  unfold requirePendingBinding
  refine run_query_bind_eq_ok.mpr ⟨(decision, connection), oneRow_eq_ok.mpr hbindings, ?_⟩
  exact run_require_eq_ok.mpr ⟨h.accepted, rfl⟩

/-- A pending commit that returns has stored the answer that it was given. -/
theorem commitNip46PendingResponse_committed {response : ResponseRecord}
    (h : (commitNip46PendingResponse codec config request).run s = .ok (response, s')) :
    CommittedPending codec s' request ∧ response.toResponseAuthority = request.row.authority := by
  have hcases := commitNip46PendingResponse_cases h
  have h := run_withBinding_eq_ok h
  obtain ⟨_, s₁, hpending, h⟩ := run_bind_eq_ok.mp h
  obtain ⟨rfl, decision, connection, row, hbound⟩ := requirePendingBinding_eq_ok hpending
  obtain ⟨existing, hexisting, h⟩ := run_query_bind_eq_ok.mp h
  cases existing with
  | some existing =>
      obtain ⟨hsame, h⟩ := run_require_bind_eq_ok.mp h
      obtain ⟨rfl, rfl⟩ := run_pure_eq_ok.mp h
      obtain ⟨-, answering, hanswered⟩ := readResponseByOperation_eq_some hexisting
      exact ⟨⟨⟨decision, connection, row, hbound⟩, answering, hsame ▸ hanswered⟩, hsame⟩
  | none =>
      obtain ⟨_, s₂, -, h⟩ := run_bind_eq_ok.mp h
      obtain ⟨_, s₃, -, h⟩ := run_bind_eq_ok.mp h
      obtain ⟨rfl, hsame, hanswered⟩ := readExactResponse_eq_ok h
      rcases hcases with ⟨-, rfl⟩ | ⟨-, rfl⟩
      · exact ⟨⟨⟨decision, connection, row, hbound⟩, hanswered⟩, hsame⟩
      · exact ⟨⟨⟨decision, connection, row, hbound.decision_mem, hbound.connection_mem,
          hbound.row_mem, hbound.decided, hbound.named, hbound.requested, hbound.accepted⟩,
          hanswered⟩, hsame⟩

/-- Committing a stored pending answer again returns it and changes nothing. -/
theorem CommittedPending.run_again (h : CommittedPending codec s request)
    (inv : OutcomesConsistent s) (session : SessionInv s) (wf : DeliveryWf s)
    (hbound : Bound config s) :
    ∃ response, (commitNip46PendingResponse codec config request).run s = .ok (response, s) ∧
      response.toResponseAuthority = request.row.authority := by
  obtain ⟨decision, connection, row, hpending⟩ := h.bound
  obtain ⟨answering, hanswered⟩ := h.answered
  obtain ⟨response, hread, hsame⟩ := hanswered.read inv session.requests_unique wf
  refine ⟨response, run_withBinding.mpr ⟨hbound, ?_⟩, hsame⟩
  refine run_bind_eq_ok.mpr ⟨(), s, hpending.run_requirePendingBinding session, ?_⟩
  refine run_query_bind_eq_ok.mpr ⟨some response, hread, ?_⟩
  exact run_require_bind_eq_ok.mpr ⟨hsame, rfl⟩

end PendingCommits

/-! ## Runs of the service -/

/-- What holds of the service between transactions. -/
structure System.Sound (system : System) : Prop where
  outcomes : OutcomesConsistent system.store
  session : SessionInv system.store
  handler : HandlerInv system.store
  inForce : system.InForce

section Runs

variable {codec : EventCodec} {system : System}

theorem System.Sound.initial (config : Configuration) (appliedAtUnixS : ℕ) :
    (System.initial config appliedAtUnixS).Sound where
  outcomes := .initial config.metadata appliedAtUnixS
  session := .initial config.metadata appliedAtUnixS
  handler := .initial config.metadata appliedAtUnixS
  inForce := .initial config appliedAtUnixS

theorem System.Sound.run (h : system.Sound) (codec : EventCodec) (events : List Event) :
    (Run.after (System.perform codec) system events).Sound :=
  Run.invariant_always (I := System.Sound) (fun _ event h => ⟨h.outcomes.perform event,
    h.session.perform event, h.handler.performed event, h.inForce.perform event⟩) events h

theorem System.run_requestsGrow (system : System) (events : List Event) :
    RequestsGrow system.store (Run.after (System.perform codec) system events).store :=
  Run.related (I := fun _ : System => True)
    (R := fun before after : System => RequestsGrow before.store after.store)
    (fun _ => Std.Refl.refl _) (IsTrans.trans _ _ _) (fun _ _ _ => trivial)
    (fun system event _ => system.perform_requestsGrow event) trivial events

/-- A stored response stays, and stays readable. -/
theorem AnsweredBy.stay (system : System) {authority : ResponseAuthority} {row : RequestRow}
    (h : AnsweredBy codec system.store authority row) (inv : OutcomesConsistent system.store)
    (events : List Event) :
    AnsweredBy codec (Run.after (System.perform codec) system events).store authority row where
  stored := by
    have hmem : authority ∈ (responseAuthorities system.store).filter fun other =>
        other.operationId = authority.operationId :=
      List.mem_filter.mpr ⟨h.stored, decide_eq_true rfl⟩
    have hanswered : system.store.outcomes authority.operationId ≠ .none := by
      intro hnone
      rw [authorities_filter, hnone] at hmem
      cases hmem
    rw [authorities_filter, ← inv.stay events hanswered, ← authorities_filter] at hmem
    exact (List.mem_filter.mp hmem).1
  request_mem := (system.run_requestsGrow events).kept row h.request_mem
  operation := h.operation
  readable := h.readable

theorem Committed.stay (system : System) {request : ResponseCommitRequest}
    (h : Committed codec system.store request) (inv : OutcomesConsistent system.store)
    (events : List Event) :
    Committed codec (Run.after (System.perform codec) system events).store request where
  verified := by
    obtain ⟨row, hrow, hverified⟩ := h.verified
    exact ⟨row, (system.run_requestsGrow events).kept row hrow, hverified⟩
  completed := by
    have hmem : request.completion.row ∈
        (system.store.outcomes request.completion.request.operationId).commits :=
      List.mem_filter.mpr ⟨h.completed, decide_eq_true rfl⟩
    have hanswered : system.store.outcomes request.completion.request.operationId ≠ .none := by
      intro hnone
      rw [hnone] at hmem
      cases hmem
    rw [← inv.stay events hanswered] at hmem
    exact (List.mem_filter.mp hmem).1
  answered := by
    obtain ⟨row, hanswered⟩ := h.answered
    exact ⟨row, hanswered.stay system inv events⟩

/-- While the request waits for the operator, the rows of its pending answer are unchanged. -/
theorem PendingBound.stay {s s' : Store} {request : PendingResponseCommitRequest}
    {decision : DecisionRow} {connection : ConnectionRow} {row : RequestRow}
    (h : PendingBound s request decision connection row) (inv : SessionInv s')
    (hprogress : Progresses (Relation.TransGen ConnectionStatus.Moves) s s')
    (hgrow : RequestsGrow s s')
    (hawaits : AwaitsDecision s' request.operationId request.connectionId) :
    PendingBound s' request decision connection row where
  decision_mem := by
    obtain ⟨waiting, hwaiting, hid, -, hpending⟩ := hawaits.decision
    obtain ⟨next, hnext, rfl | ⟨-, hsettled, hsame⟩⟩ := hprogress.decisions decision h.decision_mem
    · exact hnext
    · -- a settled decision would be the one that waits
      have hnextId : next.operationId = decision.operationId :=
        (congrArg DecisionRow.operationId hsame :)
      obtain rfl := inv.decisions_unique.eq_of_key_eq hwaiting hnext
        (hid.trans (hnextId.trans h.decided).symm)
      exact absurd (.inl hpending) hsettled
  connection_mem := by
    obtain ⟨waiting, hwaiting, hid, hpending⟩ := hawaits.connection
    obtain ⟨next, hnext, hfollows⟩ := hprogress.connections connection h.connection_mem
    have hnamed : connection.connectionId = request.connectionId :=
      Option.some.inj (h.named.1.trans h.accepted.1)
    obtain rfl := inv.connections_unique.eq_of_key_eq hwaiting hnext
      (hid.trans (hfollows.connectionId.trans hnamed).symm)
    rcases hfollows with rfl | hmoved
    · exact hnext
    · obtain ⟨_, -, hlast⟩ := Relation.TransGen.tail'_iff.mp hmoved.status
      exact absurd hpending hlast.not_pending
  row_mem := hgrow.kept row h.row_mem
  decided := h.decided
  named := h.named
  requested := h.requested
  accepted := h.accepted

/-- The state after a committed operation. -/
theorem perform_of_run (operation : Operation) {α : Type} {body : Tx α} {a : α} {s' : Store}
    (hbody : operation.body codec system.config = forEffect body)
    (h : body.run system.store = .ok (a, s')) :
    system.perform codec (.operation operation) = { system with store := s' } := by
  have heffect : (forEffect body).run system.store = .ok ((), s') :=
    run_bind_eq_ok.mpr ⟨a, s', h, rfl⟩
  simp only [System.perform, hbody, atomically_of_ok heffect]

/-- A committed answer is returned by every later commit of the same inputs. -/
theorem System.Sound.repeats (sound : system.Sound) {request : ResponseCommitRequest}
    {admission : ResponseCommitAdmission} {s' : Store}
    (h : (commitNip46Response codec system.config request).run system.store =
      .ok (admission, s')) (later : List Event) :
    let after := Run.after (System.perform codec) system
      (.operation (.commitResponse request) :: later)
    ∃ response, (commitNip46Response codec after.config request).atomically after.store =
        (.ok (.exactReplay response), after.store) ∧
      response.toResponseAuthority = admission.response.toResponseAuthority ∧
      response.toResponseAuthority ∈ responseAuthorities after.store := by
  intro after
  obtain ⟨hcommitted, hsame⟩ := commitNip46Response_committed h
  have hfirst := perform_of_run (.commitResponse request) rfl h
  have hsound : (system.perform codec (.operation (.commitResponse request))).Sound :=
    sound.run codec [.operation (.commitResponse request)]
  have hafter : after = Run.after (System.perform codec)
      (system.perform codec (.operation (.commitResponse request))) later := rfl
  rw [hafter]
  rw [hfirst] at hsound ⊢
  have hlater := hsound.run codec later
  have hstored := Committed.stay { system with store := s' } hcommitted hsound.outcomes later
  obtain ⟨response, hrun, hresponse⟩ := hstored.run_again hlater.outcomes hlater.session
    hlater.handler.delivery.toDeliveryWf hlater.inForce.bound
  obtain ⟨_, hanswered⟩ := hstored.answered
  exact ⟨response, atomically_of_ok hrun, hresponse.trans hsame.symm, hresponse ▸ hanswered.stored⟩

/-- A committed pending answer is returned by every later commit of the same inputs that finds
the request waiting. -/
theorem System.Sound.repeatsPending (sound : system.Sound) {request : PendingResponseCommitRequest}
    {first : ResponseRecord} {s' : Store}
    (h : (commitNip46PendingResponse codec system.config request).run system.store =
      .ok (first, s')) (later : List Event) :
    let after := Run.after (System.perform codec) system
      (.operation (.commitPendingResponse request) :: later)
    AwaitsDecision after.store request.operationId request.connectionId →
    ∃ response, (commitNip46PendingResponse codec after.config request).atomically after.store =
        (.ok response, after.store) ∧
      response.toResponseAuthority = first.toResponseAuthority ∧
      response.toResponseAuthority ∈ responseAuthorities after.store := by
  intro after hawaits
  obtain ⟨hcommitted, hsame⟩ := commitNip46PendingResponse_committed h
  have hfirst := perform_of_run (.commitPendingResponse request) rfl h
  have hsound : (system.perform codec (.operation (.commitPendingResponse request))).Sound :=
    sound.run codec [.operation (.commitPendingResponse request)]
  have hafter : after = Run.after (System.perform codec)
      (system.perform codec (.operation (.commitPendingResponse request))) later := rfl
  rw [hafter] at hawaits ⊢
  rw [hfirst] at hsound hawaits ⊢
  have hlater := hsound.run codec later
  obtain ⟨decision, connection, row, hbound⟩ := hcommitted.bound
  obtain ⟨answering, hanswered⟩ := hcommitted.answered
  have hanswered := AnsweredBy.stay { system with store := s' } hanswered hsound.outcomes later
  have hstored : CommittedPending codec _ request := ⟨⟨decision, connection, row,
    hbound.stay hlater.session (Progresses.run codec { system with store := s' } later)
      (System.run_requestsGrow { system with store := s' } later) hawaits⟩, answering, hanswered⟩
  obtain ⟨response, hrun, hresponse⟩ := hstored.run_again hlater.outcomes hlater.session
    hlater.handler.delivery.toDeliveryWf hlater.inForce.bound
  exact ⟨response, atomically_of_ok hrun, hresponse.trans hsame.symm, hresponse ▸ hanswered.stored⟩

end Runs

/-- In every state of the service an operation is completed exactly when it has a terminal
response, every response has one delivery job that fits it, and no operation is answered both
ways.  A failed commit changes nothing.  A commit that succeeded returns the stored response
whenever it is repeated, and a pending one as long as its request waits for the operator;
afterwards it is refused. -/
theorem responses_committed_whole (codec : EventCodec) (config : Configuration)
    (appliedAtUnixS : ℕ) (events : List Event) :
    let system := Run.after (System.perform codec) (.initial config appliedAtUnixS) events
    ResponsesWhole system.store ∧
    (∀ request e, ((commitNip46Response codec system.config request).atomically
        system.store).1 = .error e →
      ((commitNip46Response codec system.config request).atomically system.store).2 =
        system.store) ∧
    (∀ request e, ((commitNip46PendingResponse codec system.config request).atomically
        system.store).1 = .error e →
      ((commitNip46PendingResponse codec system.config request).atomically system.store).2 =
        system.store) ∧
    (∀ request admission s',
      (commitNip46Response codec system.config request).atomically system.store =
        (.ok admission, s') → ∀ later,
      let after := Run.after (System.perform codec) system
        (.operation (.commitResponse request) :: later)
      ∃ response, (commitNip46Response codec after.config request).atomically after.store =
          (.ok (.exactReplay response), after.store) ∧
        response.toResponseAuthority = admission.response.toResponseAuthority ∧
        response.toResponseAuthority ∈ responseAuthorities after.store) ∧
    ∀ request first s',
      (commitNip46PendingResponse codec system.config request).atomically system.store =
        (.ok first, s') → ∀ later,
      let after := Run.after (System.perform codec) system
        (.operation (.commitPendingResponse request) :: later)
      (AwaitsDecision after.store request.operationId request.connectionId →
        ∃ response, (commitNip46PendingResponse codec after.config request).atomically
            after.store = (.ok response, after.store) ∧
          response.toResponseAuthority = first.toResponseAuthority ∧
          response.toResponseAuthority ∈ responseAuthorities after.store) ∧
      (¬ AwaitsDecision after.store request.operationId request.connectionId →
        ∃ e, (commitNip46PendingResponse codec after.config request).atomically after.store =
          (.error e, after.store)) := by
  intro system
  have sound : system.Sound := (System.Sound.initial config appliedAtUnixS).run codec events
  refine ⟨sound.outcomes.whole, ?_, ?_, ?_, ?_⟩
  · intro request e
    exact atomically_of_failed
  · intro request e
    exact atomically_of_failed
  · intro request admission s' h later
    exact sound.repeats (run_of_atomically_ok h) later
  · intro request first s' h later after
    refine ⟨sound.repeatsPending (run_of_atomically_ok h) later, ?_⟩
    exact commitNip46PendingResponse_refused codec after.config

namespace SampleService

/-- The configuration in which the client needs an approval. -/
def approvalConfig : Configuration :=
  { config with connection := { connection with trustedClients := [], disjoint := by decide } }

def waitingAdmission : AdmissionRequest :=
  { admission firstConnect with policy := .explicitApproval, trusted_limit := by simp [admission] }

/-- The connect request waits for the operator. -/
def waits : List Event :=
  [.operation (.admitRequest firstConnect), .operation (.admitConnection waitingAdmission)]

/-- The answer that the client gets while the operator has not decided. -/
def waitingAnswer : PendingResponseCommitRequest where
  operationId := firstConnect.operationId
  connectionId := waitingAdmission.connectionId
  policyGeneration := waitingAdmission.policyGeneration
  clientPublicKey := client
  decidedAt := waitingAdmission.observedAt
  responseProviderOperationId := 5
  responseEventId := pongEvent.id
  responseDigest := Sha256.digest (encode pongEvent)
  responseBytes := encode pongEvent
  authoredAtUnixS := 4
  committedAt := sampleTime 4000

def rejection : Operation :=
  .adminConnection waitingAdmission.connectionId waitingAdmission.policyGeneration
    (sampleTime 5000) 4 .reject

/-- One evaluation of both answers, and of the second one after the rejection. -/
theorem answers_evaluate :
    let pinged := Run.after (System.perform pongCodec) (.initial config 1)
      (connects ++ [.operation (.admitRequest ping)])
    let waiting := Run.after (System.perform pongCodec) (.initial approvalConfig 1) waits
    let rejected := Run.after (System.perform pongCodec) waiting
      [.operation (.commitPendingResponse waitingAnswer), .operation rejection]
    ((commitNip46Response pongCodec pinged.config pong).run pinged.store).isOk = true ∧
      ((commitNip46PendingResponse pongCodec waiting.config waitingAnswer).run
        waiting.store).isOk = true ∧
      (∀ row ∈ rejected.store.connections, row.connectionId = waitingAnswer.connectionId →
        row.status ≠ .pending) ∧
      ((commitNip46PendingResponse pongCodec rejected.config waitingAnswer).run
        rejected.store).isOk = false := by
  rw [Run.after_append, after_connects]
  decide +kernel

end SampleService

open SampleService in
/-- The answer to a ping is returned again after its session was revoked, and the answer to a
waiting connect is refused after the rejection. -/
theorem committed_answers_repeated :
    let pinged := Run.after (System.perform pongCodec) (.initial config 1)
      (connects ++ [.operation (.admitRequest ping)])
    let revoked := Run.after (System.perform pongCodec) pinged
      [.operation (.commitResponse pong), .operation revocation]
    let waiting := Run.after (System.perform pongCodec) (.initial approvalConfig 1) waits
    let rejected := Run.after (System.perform pongCodec) waiting
      [.operation (.commitPendingResponse waitingAnswer), .operation rejection]
    (∃ response, (commitNip46Response pongCodec revoked.config pong).atomically revoked.store =
        (.ok (.exactReplay response), revoked.store)) ∧
      ∃ e, (commitNip46PendingResponse pongCodec rejected.config waitingAnswer).atomically
        rejected.store = (.error e, rejected.store) := by
  intro pinged revoked waiting rejected
  obtain ⟨hpong, hanswer, hrejected, -⟩ := answers_evaluate
  obtain ⟨⟨admission, s₁⟩, hpong⟩ := Except.exists_of_isOk hpong
  obtain ⟨⟨first, s₂⟩, hanswer⟩ := Except.exists_of_isOk hanswer
  constructor
  · obtain ⟨-, -, -, hrepeats, -⟩ := responses_committed_whole pongCodec config 1
      (connects ++ [.operation (.admitRequest ping)])
    obtain ⟨response, hresponse, -⟩ := hrepeats pong admission s₁ (atomically_of_ok hpong)
      [.operation revocation]
    exact ⟨response, hresponse⟩
  · obtain ⟨-, -, -, -, hpending⟩ := responses_committed_whole pongCodec approvalConfig 1 waits
    have hsettled : ¬ AwaitsDecision rejected.store waitingAnswer.operationId
        waitingAnswer.connectionId := by
      rintro ⟨-, row, hrow, hid, hstatus⟩
      with_reducible exact absurd hstatus (hrejected row hrow hid)
    exact (hpending waitingAnswer first s₂ (atomically_of_ok hanswer)
      [.operation rejection]).2 hsettled

open SampleService in
/-- A pending answer that was committed is refused once the operator has decided. -/
theorem settled_pending_answer_refused :
    ¬ ∀ (codec : EventCodec) (config : Configuration) (appliedAtUnixS : ℕ) (events : List Event)
      (request : PendingResponseCommitRequest) (first : ResponseRecord) (s' : Store),
      let system := Run.after (System.perform codec) (.initial config appliedAtUnixS) events
      (commitNip46PendingResponse codec system.config request).atomically system.store =
        (.ok first, s') → ∀ later,
      let after := Run.after (System.perform codec) system
        (.operation (.commitPendingResponse request) :: later)
      ∃ response, (commitNip46PendingResponse codec after.config request).atomically after.store =
        (.ok response, after.store) := by
  intro h
  obtain ⟨-, hfirst, -, hagain⟩ := answers_evaluate
  obtain ⟨⟨first, s'⟩, hrun⟩ := Except.exists_of_isOk hfirst
  obtain ⟨response, hresponse⟩ := h pongCodec approvalConfig 1 waits waitingAnswer first s'
    (atomically_of_ok hrun) [.operation rejection]
  rw [run_of_atomically_ok hresponse] at hagain
  cases hagain

end MycSigner
