import MycSigner.Governance.Invariant
import MycSigner.Governance.Limits
import MycSigner.Sessions.SoleSession

/-!
# Attempts after a change of policy

The stored windows of a subject were counted under the policies of earlier configurations.
An attempt under a later policy should be decided by a new window once the stored one has
ended, and be admitted or refused until then.  It is so exactly when its refusal is repeated
inside the stored windows, or no stored window of its subjects has admitted more than the new
limit: loading compares the stored count with the limit before it asks whether the window has
ended, so a tightened limit fails every new attempt of a subject that had used more, also long
after its window.
-/

namespace MycSigner

open Transaction

/-- The attempts of the service: each works for a request and counts the subjects of its
class. -/
inductive Attempt.MadeFor (request : RequestRow) : RateLimitClass → Attempt → Prop where
  | admission (relay : RelayId) (observedAt : TimeUnixMs) :
      MadeFor request .connectionAdmission
        ⟨[.global, relaySubject relay],
          ⟨request.correlationId, observedAt, some request.operationId⟩, .connectionAdmission⟩
  | creation (connectionId : Id32) (observedAt : TimeUnixMs) :
      MadeFor request .challengeCreation
        ⟨[.connection connectionId],
          ⟨request.correlationId, observedAt, some request.operationId⟩, .challengeCreation⟩
  | authorization (connectionId : Id32) (observedAt : TimeUnixMs) :
      MadeFor request .challengeAuthorization
        ⟨[.connection connectionId],
          ⟨request.correlationId, observedAt, some request.operationId⟩, .challengeAuthorization⟩

namespace Attempt.MadeFor

variable {request : RequestRow} {rateClass : RateLimitClass} {attempt : Attempt}

theorem subjects (h : MadeFor request rateClass attempt) :
    attempt.subjects ≠ [] ∧ attempt.subjects.length ≤ 2 := by
  cases h <;> simp

theorem scopes (h : MadeFor request rateClass attempt) :
    ∀ subject ∈ attempt.subjects, subject.scope.allowedFor rateClass = true := by
  cases h <;> simp [RateSubject.scope, SubjectScope.allowedFor, relaySubject]

theorem distinct (h : MadeFor request rateClass attempt) :
    (attempt.subjects.map (·.key rateClass)).Nodup := by
  cases h <;> simp [RateSubject.key, RateSubject.scope, relaySubject]

theorem boundIn (h : MadeFor request rateClass attempt) {s : Store}
    (hrequest : request ∈ s.requests) : attempt.evidence.BoundIn s attempt.auditKind := by
  cases h <;> exact ⟨rfl, request, hrequest, rfl, rfl⟩

end Attempt.MadeFor

/-! ## What should be decided -/

/-- The window that an attempt at an instant should count in: a new one when none is stored or
the stored one has ended. -/
def Store.rateStateAt (s : Store) (policy : RateLimitPolicy) (subject : RateSubject) (now : ℕ) :
    RateState :=
  match s.windowsOf (subject.key policy.rateClass) with
  | [] => newRateState policy subject now
  | row :: _ =>
      if row.windowEndsAt < now then row.rolled policy subject now else row.continued subject

namespace Attempt

/-- The instant of an attempt. -/
def now (attempt : Attempt) : ℕ := attempt.evidence.occurredAt.get

/-- Every window that the attempt should count in has room. -/
def hasRoom (policy : RateLimitPolicy) (s : Store) (attempt : Attempt) : Bool :=
  attempt.subjects.all fun subject =>
    (s.rateStateAt policy subject attempt.now).canAccept policy

/-- The attempt is decided by the windows that it should count in, and counts in them. -/
def Decided (policy : RateLimitPolicy) (s : Store) (attempt : Attempt) : Prop :=
  ∃ s', (attempt.body policy).run s = .ok (attempt.hasRoom policy s, s') ∧
    ∀ subject ∈ attempt.subjects, s'.windowsOf (subject.key policy.rateClass) =
      [(s.rateStateAt policy subject attempt.now).written policy attempt.evidence.occurredAt
        (attempt.hasRoom policy s)]

/-- An attempt that is no replay, at an instant not before an earlier attempt of its subjects,
whose new subjects can be tracked and whose numbers can be stored. -/
structure Countable (policy : RateLimitPolicy) (s : Store) (attempt : Attempt) : Prop where
  unrecorded : readAuditById s attempt.auditId = .ok none
  seen : ∀ subject ∈ attempt.subjects, ∀ row ∈ s.windowsOf (subject.key policy.rateClass),
    row.lastObservedAt ≤ attempt.now
  tracked : ∀ subject ∈ attempt.subjects, s.windowsOf (subject.key policy.rateClass) = [] →
    s.Tracks policy subject
  ends : ∀ subject ∈ attempt.subjects,
    (s.rateStateAt policy subject attempt.now).windowEnds ≤ i64Max
  fits : ∀ subject ∈ attempt.subjects, (s.rateStateAt policy subject attempt.now).Fits policy
    attempt.evidence.occurredAt (attempt.hasRoom policy s)
  numbered : attempt.hasRoom policy s = false → s.nextAuditSequence + 1 ≤ i64Max

/-- No stored window of the attempt's subjects has admitted more than the limit. -/
def WithinLimit (policy : RateLimitPolicy) (s : Store) (attempt : Attempt) : Prop :=
  ∀ subject ∈ attempt.subjects, ∀ row ∈ s.windowsOf (subject.key policy.rateClass),
    row.acceptedCount ≤ policy.maxAttempts

/-- The refusal of the attempt is already recorded. -/
def RepeatsRefusal (s : Store) (attempt : Attempt) : Prop :=
  ∃ record, readAuditById s attempt.auditId = .ok (some record) ∧
    RefusalOf attempt.evidence attempt.auditKind record

/-- No stored window of the attempt's subjects has ended. -/
def Inside (policy : RateLimitPolicy) (s : Store) (attempt : Attempt) : Prop :=
  ∀ subject ∈ attempt.subjects, ∀ row ∈ s.windowsOf (subject.key policy.rateClass),
    attempt.now ≤ row.windowEndsAt

/-- The attempt is admitted or refused, and a stored window of its subjects that has ended gives
way to a new one under the policy, which decides it together with the other subject. -/
def Heals (policy : RateLimitPolicy) (s : Store) (attempt : Attempt) : Prop :=
  ∃ admitted s', (attempt.body policy).run s = .ok (admitted, s') ∧
    ∀ subject ∈ attempt.subjects, ∀ row ∈ s.windowsOf (subject.key policy.rateClass),
      row.windowEndsAt < attempt.now → admitted = attempt.hasRoom policy s ∧
        s'.windowsOf (subject.key policy.rateClass) =
          [(row.rolled policy subject attempt.now).written policy attempt.evidence.occurredAt
            admitted]

end Attempt

/-! ## Loading in a store in good order -/

section
variable {s : Store} {policy : RateLimitPolicy} {subject : RateSubject} {observedAt : TimeUnixMs}
  {state : RateState}

/-- Loading finds the window that the attempt should count in, or fails. -/
theorem WindowInv.loadRateState_iff (inv : WindowInv s) :
    loadRateState s policy subject observedAt = .ok state ↔
      state = s.rateStateAt policy subject observedAt.get ∧
        (∀ row ∈ s.windowsOf (subject.key policy.rateClass),
          row.lastObservedAt ≤ observedAt.get ∧ row.acceptedCount ≤ policy.maxAttempts) ∧
        (s.windowsOf (subject.key policy.rateClass) = [] → s.Tracks policy subject) ∧
        (s.rateStateAt policy subject observedAt.get).windowEnds ≤ i64Max := by
  rw [loadRateState_eq_ok]
  rcases inv.windowsOf_cases (subject.key policy.rateClass) with hnil | ⟨row, hrow, hone⟩
  · have hat : s.rateStateAt policy subject observedAt.get =
        newRateState policy subject observedAt.get := by
      unfold Store.rateStateAt
      rw [hnil]
    rw [hat, hnil]
    constructor
    · rintro (⟨-, htracks, hends, rfl⟩ | ⟨row, hrow, -⟩)
      · exact ⟨rfl, by simp, fun _ => htracks, hends⟩
      · cases hrow
    · rintro ⟨rfl, -, htracks, hends⟩
      exact .inl ⟨rfl, htracks rfl, hends, rfl⟩
  · have hcheck := rateWindowCheck_iff.mp (inv.checked row hrow)
    obtain ⟨-, -, hstored, -, -, -, -, -, -, hstarted, -, hretained, -⟩ := hcheck
    have hwithin := inv.within row hrow
    have hat : s.rateStateAt policy subject observedAt.get =
        if row.windowEndsAt < observedAt.get then row.rolled policy subject observedAt.get
        else row.continued subject := by
      unfold Store.rateStateAt
      rw [hone]
    rw [hat, hone]
    constructor
    · rintro (⟨hnil, -⟩ | ⟨row', hrow', hsound, hstate⟩)
      · cases hnil
      · cases hrow'
        refine ⟨?_, by simpa using ⟨hsound.seen, hsound.counted⟩, by simp, ?_⟩
        · rcases hstate with ⟨hended, -, rfl⟩ | ⟨hrunning, rfl⟩
          · rw [if_pos hended]
          · rw [if_neg (Nat.not_lt.mpr hrunning)]
        · rcases hstate with ⟨hended, hends, rfl⟩ | ⟨hrunning, rfl⟩
          · rw [if_pos hended]
            exact hends
          · rw [if_neg (Nat.not_lt.mpr hrunning)]
            exact hstored
    · rintro ⟨rfl, hrows, -, hends⟩
      obtain ⟨hseen, hcounted⟩ := hrows row (by simp)
      refine .inr ⟨row, rfl, ⟨hseen, hstarted, hwithin, hretained, hcounted⟩, ?_⟩
      by_cases hended : row.windowEndsAt < observedAt.get
      · rw [if_pos hended] at hends ⊢
        exact .inl ⟨hended, hends, rfl⟩
      · rw [if_neg hended]
        exact .inr ⟨Nat.le_of_not_lt hended, rfl⟩

end

/-! ## Deciding -/

section
variable {s : Store} {policy : RateLimitPolicy} {attempt : Attempt} {request : RequestRow}

/-- The write of an attempt shows in the lifetime counts, so it is no stored row. -/
theorem rateStateAt_written_ne (inv : WindowInv s) (subject : RateSubject)
    (observedAt : TimeUnixMs) (admitted : Bool) :
    s.windowsOf (subject.key policy.rateClass) ≠
      [(s.rateStateAt policy subject observedAt.get).written policy observedAt admitted] := by
  intro hsame
  rcases inv.windowsOf_cases (subject.key policy.rateClass) with hnil | ⟨row, -, hone⟩
  · rw [hnil] at hsame
    cases hsame
  · have hrow : row =
        (s.rateStateAt policy subject observedAt.get).written policy observedAt admitted := by
      rw [hone] at hsame
      exact List.head_eq_of_cons_eq hsame
    have hlifetime : (s.rateStateAt policy subject observedAt.get).lifetimeAccepted =
          row.lifetimeAcceptedCount ∧
        (s.rateStateAt policy subject observedAt.get).lifetimeRejected =
          row.lifetimeRejectedCount := by
      unfold Store.rateStateAt
      rw [hone]
      dsimp only
      split <;> exact ⟨rfl, rfl⟩
    have haccepted : row.lifetimeAcceptedCount =
        (s.rateStateAt policy subject observedAt.get).lifetimeAccepted + admitted.toNat :=
      congrArg RateWindowRow.lifetimeAcceptedCount hrow
    have hrejected : row.lifetimeRejectedCount =
        (s.rateStateAt policy subject observedAt.get).lifetimeRejected + (!admitted).toNat :=
      congrArg RateWindowRow.lifetimeRejectedCount hrow
    rw [hlifetime.1] at haccepted
    rw [hlifetime.2] at hrejected
    cases admitted with
    | true => exact Nat.succ_ne_self _ haccepted.symm
    | false => exact Nat.succ_ne_self _ hrejected.symm

/-- In a window that has ended the attempt should count in a new one. -/
theorem WindowInv.rateStateAt_ended (inv : WindowInv s) {subject : RateSubject} {now : ℕ}
    {row : RateWindowRow} (hrow : row ∈ s.windowsOf (subject.key policy.rateClass))
    (hended : row.windowEndsAt < now) :
    s.rateStateAt policy subject now = row.rolled policy subject now := by
  unfold Store.rateStateAt
  rcases inv.windowsOf_cases (subject.key policy.rateClass) with hnil | ⟨stored, -, hone⟩
  · rw [hnil] at hrow
    cases hrow
  · rw [hone] at hrow ⊢
    obtain rfl := List.mem_singleton.mp hrow
    exact if_pos hended

/-- An attempt that counted itself met no obstacle, and its windows decided it. -/
theorem Attempt.countable_of_counted (hwindows : WindowInv s)
    (hnone : readAuditById s attempt.auditId = .ok none) {admitted : Bool} {s₁ s' : Store}
    (hcounted : Counted policy attempt.subjects attempt.evidence.occurredAt admitted s s₁)
    (hend : (admitted = true ∧ s' = s₁) ∨ (admitted = false ∧
      (recordAudit attempt.evidence attempt.auditKind .rejected .rateLimited).run s₁ =
        .ok ((), s'))) :
    admitted = attempt.hasRoom policy s ∧ attempt.Countable policy s ∧
      attempt.WithinLimit policy s := by
  have hloaded : ∀ subject ∈ attempt.subjects, ∃ state,
      loadRateState s policy subject attempt.evidence.occurredAt = .ok state ∧
        state.Fits policy attempt.evidence.occurredAt admitted := by
    intro subject hsubject
    obtain ⟨state, hload, hfits, -⟩ := hcounted.touched subject hsubject
    exact ⟨state, hload, hfits⟩
  have hroom : admitted = attempt.hasRoom policy s := by
    rw [Bool.eq_iff_iff, hcounted.decided, Attempt.hasRoom, List.all_eq_true]
    refine forall₂_congr fun subject hsubject => ?_
    obtain ⟨state, hload, -⟩ := hloaded subject hsubject
    obtain ⟨rfl, -⟩ := hwindows.loadRateState_iff.mp hload
    rw [hload]
    simp [Attempt.now]
  refine ⟨hroom, ⟨hnone, ?_, ?_, ?_, ?_, ?_⟩, ?_⟩
  · intro subject hsubject row hrow
    obtain ⟨state, hload, -⟩ := hloaded subject hsubject
    exact ((hwindows.loadRateState_iff.mp hload).2.1 row hrow).1
  · intro subject hsubject
    obtain ⟨state, hload, -⟩ := hloaded subject hsubject
    exact (hwindows.loadRateState_iff.mp hload).2.2.1
  · intro subject hsubject
    obtain ⟨state, hload, -⟩ := hloaded subject hsubject
    exact (hwindows.loadRateState_iff.mp hload).2.2.2
  · intro subject hsubject
    obtain ⟨state, hload, hfits⟩ := hloaded subject hsubject
    rw [(hwindows.loadRateState_iff.mp hload).1, hroom] at hfits
    exact hfits
  · intro hrefused
    rcases hend with ⟨hadmitted, -⟩ | ⟨-, hrecord⟩
    · rw [← hroom, hadmitted] at hrefused
      cases hrefused
    · have hnone₁ : readAuditById s₁ attempt.auditId = .ok none := by
        rw [hcounted.frame]
        exact hnone
      have hstored := ((run_recordAudit_fresh hnone₁).mp hrecord).1.room
      rw [hcounted.frame] at hstored
      exact hstored
  · intro subject hsubject row hrow
    obtain ⟨state, hload, -⟩ := hloaded subject hsubject
    exact ((hwindows.loadRateState_iff.mp hload).2.1 row hrow).2

/-- A decided attempt met no obstacle. -/
theorem Attempt.Decided.countable (hwindows : WindowInv s) (hnonempty : attempt.subjects ≠ [])
    (h : attempt.Decided policy s) :
    attempt.Countable policy s ∧ attempt.WithinLimit policy s := by
  obtain ⟨s', hrun, hwritten⟩ := h
  obtain ⟨-, ⟨-, rfl, -⟩ | ⟨hnone, s₁, hcounted, hend⟩⟩ := governRateAttempt_cases hrun
  · -- a replay counts nothing
    obtain ⟨subject, hsubject⟩ := List.exists_mem_of_ne_nil _ hnonempty
    exact absurd (hwritten subject hsubject) (rateStateAt_written_ne hwindows _ _ _)
  · exact (countable_of_counted hwindows hnone hcounted hend).2

/-- A repeated refusal answers inside the stored windows, and past one it counts nothing. -/
theorem Attempt.RepeatsRefusal.heals_iff (hwindows : WindowInv s)
    (hmade : attempt.MadeFor request policy.rateClass) (h : attempt.RepeatsRefusal s) :
    attempt.Heals policy s ↔ attempt.Inside policy s := by
  obtain ⟨record, hrecord, hrefusal⟩ := h
  have hanswer : (attempt.body policy).run s = .ok (false, s) := by
    unfold Attempt.body governRateAttempt
    refine run_require_bind_eq_ok.mpr ⟨⟨rfl, hmade.subjects⟩, ?_⟩
    refine run_query_bind_eq_ok.mpr ⟨some record, hrecord, ?_⟩
    exact run_require_bind_eq_ok.mpr ⟨hrefusal, rfl⟩
  constructor
  · rintro ⟨admitted, s', hrun, hended⟩ subject hsubject row hrow
    rw [hanswer] at hrun
    obtain ⟨rfl, rfl⟩ := Prod.mk.inj (Except.ok.inj hrun)
    by_contra hpast
    have hpast := Nat.lt_of_not_le hpast
    have hwritten := (hended subject hsubject row hrow hpast).2
    rw [← hwindows.rateStateAt_ended hrow hpast] at hwritten
    exact rateStateAt_written_ne hwindows subject _ _ hwritten
  · intro hinside
    exact ⟨false, s, hanswer, fun subject hsubject row hrow hpast =>
      absurd hpast (Nat.not_lt.mpr (hinside subject hsubject row hrow))⟩

/-- The subjects of an attempt within the limit that meets no obstacle load their windows. -/
theorem Attempt.Countable.loads (hwindows : WindowInv s) (hcountable : attempt.Countable policy s)
    (hwithin : attempt.WithinLimit policy s) :
    ∀ subject ∈ attempt.subjects,
      loadRateState s policy subject attempt.evidence.occurredAt =
        .ok (s.rateStateAt policy subject attempt.now) := by
  intro subject hsubject
  refine hwindows.loadRateState_iff.mpr ⟨rfl, fun row hrow => ?_,
    hcountable.tracked subject hsubject, hcountable.ends subject hsubject⟩
  exact ⟨hcountable.seen subject hsubject row hrow, hwithin subject hsubject row hrow⟩

/-- Such an attempt counts itself with the decision of its windows. -/
theorem Attempt.Countable.counts (hwindows : WindowInv s)
    (hmade : attempt.MadeFor request policy.rateClass) (hcountable : attempt.Countable policy s)
    (hwithin : attempt.WithinLimit policy s) :
    ∃ states s₁, attempt.subjects.mapM
        (loadRateState s policy · attempt.evidence.occurredAt) = .ok states ∧
      states.all (·.canAccept policy) = attempt.hasRoom policy s ∧
      (states.forM (persistRateState policy attempt.evidence.occurredAt
        (attempt.hasRoom policy s))).run s = .ok ((), s₁) ∧
      s₁ = { s with rateWindows := s₁.rateWindows } ∧
      ∀ subject ∈ attempt.subjects, s₁.windowsOf (subject.key policy.rateClass) =
        [(s.rateStateAt policy subject attempt.now).written policy attempt.evidence.occurredAt
          (attempt.hasRoom policy s)] := by
  have hload := hcountable.loads hwindows hwithin
  obtain ⟨states, hstates⟩ :=
    Except.exists_mapM fun subject hsubject => ⟨_, hload subject hsubject⟩
  have hroom : states.all (·.canAccept policy) = attempt.hasRoom policy s := by
    rw [Bool.eq_iff_iff, List.all_eq_true, Except.mapM_forall hstates, Attempt.hasRoom,
      List.all_eq_true]
    refine forall₂_congr fun subject hsubject => ?_
    rw [hload subject hsubject]
    simp
  have hready : ∀ state ∈ states, state.Sane policy ∧
      state.Fits policy attempt.evidence.occurredAt (attempt.hasRoom policy s) ∧
      (attempt.hasRoom policy s = true → state.canAccept policy = true) := by
    refine (Except.mapM_forall hstates).mpr fun subject hsubject state hloaded => ?_
    have hsane := loadRateState_sane hloaded
      (fun row hrow => hwindows.checked row (WindowInv.mem_windowsOf.mp hrow).1)
      (hmade.scopes subject hsubject)
    rw [hload subject hsubject] at hloaded
    cases hloaded
    refine ⟨hsane, hcountable.fits subject hsubject, fun hall => ?_⟩
    exact List.all_eq_true.mp hall subject hsubject
  obtain ⟨s₁, hpersist⟩ :=
    exists_run_persistAll hstates hmade.distinct (fun _ _ => rfl) hready
  obtain ⟨hframe, htouched, -⟩ :=
    run_persistAll hstates hmade.distinct (fun _ _ => rfl) hpersist
  refine ⟨states, s₁, hstates, hroom, hpersist, hframe, fun subject hsubject => ?_⟩
  obtain ⟨state, hloaded, -, hrows⟩ := htouched subject hsubject
  rw [hload subject hsubject] at hloaded
  rw [Except.ok.inj hloaded]
  exact hrows

/-- An attempt that counted itself ends in its decision. -/
theorem Attempt.run_body_of_counted (hmade : attempt.MadeFor request policy.rateClass)
    (hnone : readAuditById s attempt.auditId = .ok none) {states : List RateState}
    {admitted : Bool} {s₁ s' : Store}
    (hstates : attempt.subjects.mapM (loadRateState s policy · attempt.evidence.occurredAt) =
      .ok states) (hadmitted : states.all (·.canAccept policy) = admitted)
    (hpersist : (states.forM (persistRateState policy attempt.evidence.occurredAt admitted)).run s =
      .ok ((), s₁))
    (hend : if admitted = true then s' = s₁ else
      (recordAudit attempt.evidence attempt.auditKind .rejected .rateLimited).run s₁ =
        .ok ((), s')) :
    (attempt.body policy).run s = .ok (admitted, s') := by
  unfold Attempt.body governRateAttempt
  refine run_require_bind_eq_ok.mpr ⟨⟨rfl, hmade.subjects⟩, ?_⟩
  refine run_query_bind_eq_ok.mpr ⟨none, hnone, ?_⟩
  refine run_query_bind_eq_ok.mpr ⟨states, hstates, ?_⟩
  simp only [hadmitted]
  refine run_bind_eq_ok.mpr ⟨(), s₁, hpersist, ?_⟩
  cases admitted with
  | true =>
      obtain rfl := hend
      rfl
  | false => exact run_bind_eq_ok.mpr ⟨(), s', hend, rfl⟩

/-- An attempt within the limit that meets no obstacle is decided. -/
theorem Attempt.decided_of_countable (haudit : AuditInv s) (hwindows : WindowInv s)
    (hrequest : request ∈ s.requests) (hmade : attempt.MadeFor request policy.rateClass)
    (hcountable : attempt.Countable policy s) (hwithin : attempt.WithinLimit policy s) :
    attempt.Decided policy s := by
  obtain ⟨states, s₁, hstates, hroom, hpersist, hframe, hwritten⟩ :=
    hcountable.counts hwindows hmade hwithin
  cases hdecision : attempt.hasRoom policy s with
  | true =>
      refine ⟨s₁, run_body_of_counted hmade hcountable.unrecorded hstates hroom hpersist ?_,
        hwritten⟩
      rw [if_pos hdecision]
  | false =>
      have hnone₁ : readAuditById s₁ attempt.auditId = .ok none := by
        rw [hframe]
        exact hcountable.unrecorded
      have hbound₁ : attempt.evidence.BoundIn s₁ attempt.auditKind := by
        rw [hframe]
        exact hmade.boundIn hrequest
      have hnumbered₁ : s₁.nextAuditSequence + 1 ≤ i64Max := by
        rw [hframe]
        exact hcountable.numbered hdecision
      have hrecord : (recordAudit attempt.evidence attempt.auditKind .rejected .rateLimited).run s₁ =
          .ok ((), s₁.recorded attempt.evidence attempt.auditKind .rejected .rateLimited) :=
        (run_recordAudit_fresh hnone₁).mpr
          ⟨(haudit.counted hframe).recordable hbound₁ hnone₁ hnumbered₁, rfl⟩
      refine ⟨s₁.recorded attempt.evidence attempt.auditKind .rejected .rateLimited,
        run_body_of_counted hmade hcountable.unrecorded hstates hroom hpersist ?_, hwritten⟩
      rw [if_neg (by simp [hdecision])]
      exact hrecord

end

/-- Under any later policy an attempt is admitted or refused, and decided by new windows after the
end of stored ones, exactly when it repeats its refusal inside the stored windows, or meets no
obstacle and no stored window of its subjects has admitted more than the new limit. -/
theorem policyChange_heals_iff (codec : EventCodec) (config : Configuration) (appliedAtUnixS : ℕ)
    (events : List Event) (policy : RateLimitPolicy) (request : RequestRow) (attempt : Attempt)
    (hrequest : request ∈ (Run.after (System.perform codec)
      (System.initial config appliedAtUnixS) events).store.requests)
    (hmade : attempt.MadeFor request policy.rateClass) :
    let s := (Run.after (System.perform codec) (System.initial config appliedAtUnixS) events).store
    attempt.Heals policy s ↔ (attempt.RepeatsRefusal s ∧ attempt.Inside policy s) ∨
      (attempt.Countable policy s ∧ attempt.WithinLimit policy s) := by
  intro s
  have haudit := AuditInv.reachable codec config appliedAtUnixS events
  have hwindows := WindowInv.reachable codec config appliedAtUnixS events
  constructor
  · rintro ⟨admitted, s', hrun, hended⟩
    obtain ⟨-, ⟨-, -, hrepeats⟩ | ⟨hnone, s₁, hcounted, hend⟩⟩ := governRateAttempt_cases hrun
    · exact .inl ⟨hrepeats, (Attempt.RepeatsRefusal.heals_iff hwindows hmade hrepeats).mp
        ⟨admitted, s', hrun, hended⟩⟩
    · exact .inr (Attempt.countable_of_counted hwindows hnone hcounted hend).2
  · rintro (⟨hrepeats, hinside⟩ | ⟨hcountable, hwithin⟩)
    · exact (hrepeats.heals_iff hwindows hmade).mpr hinside
    · obtain ⟨s', hrun, hwritten⟩ :=
        Attempt.decided_of_countable haudit hwindows hrequest hmade hcountable hwithin
      refine ⟨_, s', hrun, fun subject hsubject row hrow hended => ⟨rfl, ?_⟩⟩
      rw [← hwindows.rateStateAt_ended hrow hended]
      exact hwritten subject hsubject

/-! ## A tightened limit -/

namespace SampleService

/-- The admission attempt of a request at its instant. -/
def admissionAttempt (request : RequestRow) (observedAt : TimeUnixMs) : Attempt :=
  ⟨[.global, relaySubject relay], ⟨request.correlationId, observedAt, some request.operationId⟩,
    .connectionAdmission⟩

theorem admissionAttempt_made (request : RequestRow) (observedAt : TimeUnixMs) :
    (admissionAttempt request observedAt).MadeFor request .connectionAdmission :=
  .admission relay observedAt

/-- The client connects, and connects again after its windows have ended. -/
def reconnects : List Event := connects ++ [.operation (.admitRequest thirdConnect)]

/-- The windows that the first connect left, and the request of the second. -/
theorem reconnects_evaluates :
    let s := (Run.after (System.perform codec) (.initial config 1) reconnects).store
    (∀ subject ∈ [RateSubject.global, relaySubject relay],
      (s.windowsOf (subject.key .connectionAdmission)).map (fun row =>
          (row.windowEndsAt, row.lastObservedAt, row.acceptedCount)) = [(2000, 1000, 1)] ∧
        ∀ row ∈ s.windowsOf (subject.key .connectionAdmission),
          row.lifetimeAcceptedCount = 1 ∧ row.lifetimeRejectedCount = 0) ∧
      ∃ request ∈ s.requests, request.receivedAt.get = 4000 ∧
        ∀ row ∈ s.audit, row.auditId ≠ deriveAuditId request.correlationId .connectionAdmission := by
  rw [reconnects, Run.after_append, after_connects]
  decide +kernel

/-- A new attempt meets no obstacle after the end of windows that admitted one connect each. -/
theorem reconnect_countable {s : Store} {request : RequestRow}
    (hended : ∀ subject ∈ [RateSubject.global, relaySubject relay], ∃ row,
      s.windowsOf (subject.key .connectionAdmission) = [row] ∧ row.windowEndsAt = 2000 ∧
        row.lastObservedAt = 1000 ∧ row.acceptedCount = 1 ∧ row.lifetimeAcceptedCount = 1 ∧
        row.lifetimeRejectedCount = 0)
    (hfresh : ∀ row ∈ s.audit,
      row.auditId ≠ deriveAuditId request.correlationId .connectionAdmission) :
    let attempt := admissionAttempt request (sampleTime 5000)
    attempt.Countable tightened s ∧ attempt.WithinLimit tightened s := by
  intro attempt
  have hstate : ∀ subject ∈ attempt.subjects, ∃ row : RateWindowRow,
      s.rateStateAt tightened subject attempt.now = row.rolled tightened subject attempt.now ∧
        row.lifetimeAcceptedCount = 1 ∧ row.lifetimeRejectedCount = 0 := by
    intro subject hsubject
    obtain ⟨row, hone, hends, -, -, hlifetime⟩ := hended subject hsubject
    refine ⟨row, ?_, hlifetime⟩
    unfold Store.rateStateAt
    rw [show s.windowsOf (subject.key tightened.rateClass) = [row] from hone]
    exact if_pos (hends ▸ (by decide : 2000 < 5000))
  have hroom : attempt.hasRoom tightened s = true := by
    refine List.all_eq_true.mpr fun subject hsubject => ?_
    obtain ⟨row, hrolled, -⟩ := hstate subject hsubject
    rw [hrolled]
    rfl
  refine ⟨⟨readAuditById_eq_none.mpr hfresh, ?_, ?_, ?_, ?_, ?_⟩, ?_⟩
  · intro subject hsubject row hrow
    obtain ⟨stored, hone, -, hobserved, -⟩ := hended subject hsubject
    rw [show s.windowsOf (subject.key tightened.rateClass) = [stored] from hone] at hrow
    rw [List.mem_singleton.mp hrow, hobserved]
    exact (by decide : 1000 ≤ 5000)
  · intro subject hsubject hnil
    obtain ⟨row, hone, -⟩ := hended subject hsubject
    exact absurd (hnil.symm.trans hone) (by simp)
  · intro subject hsubject
    obtain ⟨row, hrolled, -⟩ := hstate subject hsubject
    rw [hrolled]
    exact (by decide : 6000 ≤ i64Max)
  · intro subject hsubject
    obtain ⟨row, hrolled, haccepted, hrejected⟩ := hstate subject hsubject
    rw [hrolled, hroom]
    refine ⟨(by decide : 1 ≤ i64Max), Nat.zero_le _, ?_, ?_, (by decide : 6000 ≤ i64Max)⟩
    · exact (congrArg (· + 1) haccepted).trans_le (by decide)
    · exact hrejected.trans_le (by decide)
  · rw [hroom]
    nofun
  · intro subject hsubject row hrow
    obtain ⟨stored, hone, -, -, hcount, -⟩ := hended subject hsubject
    rw [show s.windowsOf (subject.key tightened.rateClass) = [stored] from hone] at hrow
    rw [List.mem_singleton.mp hrow, hcount]
    decide

end SampleService

open SampleService in
/-- An attempt long after the window of its subjects fails when they had used more than the limit
that is in force now. -/
theorem tightened_limit_fails_after_window :
    ¬ ∀ (codec : EventCodec) (config : Configuration) (appliedAtUnixS : ℕ) (events : List Event)
        (policy : RateLimitPolicy) (request : RequestRow) (attempt : Attempt),
      let s := (Run.after (System.perform codec) (System.initial config appliedAtUnixS)
        events).store
      request ∈ s.requests → attempt.MadeFor request policy.rateClass →
      readAuditById s attempt.auditId = .ok none →
      (∃ subject ∈ attempt.subjects, s.windowsOf (subject.key policy.rateClass) ≠ []) →
      (∀ row ∈ s.rateWindows, row.windowEndsAt < attempt.now) →
      attempt.Heals policy s := by
  intro h
  obtain ⟨-, ⟨row, hrow, hkind, hscope, hdigest⟩, request, hrequest, hfresh, hended, hfails⟩ :=
    connectsAgain_evaluates
  have hkey : row.key = RateSubject.global.key tightened.rateClass := by
    simp only [RateWindowRow.key, RateSubject.key, hkind, hscope, hdigest]
    rfl
  have hstored := List.ne_nil_of_mem (WindowInv.mem_windowsOf.mpr ⟨hrow, hkey⟩)
  obtain ⟨admitted, s', hrun, -⟩ := h codec config 1 connectsAgain tightened request
    (admissionAttempt request (sampleTime 5000)) hrequest (admissionAttempt_made _ _)
    (readAuditById_eq_none.mpr hfresh) ⟨.global, by simp [admissionAttempt], hstored⟩ hended
  have hlate : (lateAttempt request).run (Run.after (System.perform codec) (.initial config 1)
      connectsAgain).store = .ok (admitted, s') := hrun
  rw [hlate] at hfails
  cases hfails

open SampleService in
/-- Under the tightened limit a connect after the end of both windows is decided by new ones, when
the windows had admitted no more than one. -/
theorem reconnect_heals_under_tightened_limit :
    let s := (Run.after (System.perform codec) (System.initial config 1) reconnects).store
    ∃ request ∈ s.requests,
      (∀ subject ∈ (admissionAttempt request (sampleTime 5000)).subjects,
        ∃ row ∈ s.windowsOf (subject.key .connectionAdmission), row.windowEndsAt < 5000) ∧
      (admissionAttempt request (sampleTime 5000)).Heals tightened s := by
  intro s
  obtain ⟨hwindows, request, hrequest, -, hfresh⟩ := reconnects_evaluates
  have hended : ∀ subject ∈ [RateSubject.global, relaySubject relay], ∃ row,
      s.windowsOf (subject.key .connectionAdmission) = [row] ∧ row.windowEndsAt = 2000 ∧
        row.lastObservedAt = 1000 ∧ row.acceptedCount = 1 ∧ row.lifetimeAcceptedCount = 1 ∧
        row.lifetimeRejectedCount = 0 := by
    intro subject hsubject
    obtain ⟨hmap, hlifetime⟩ := hwindows subject hsubject
    obtain ⟨row, hone, hrow⟩ := List.map_eq_singleton_iff.mp hmap
    obtain ⟨hends, hobserved, hcount⟩ : row.windowEndsAt = 2000 ∧ row.lastObservedAt = 1000 ∧
        row.acceptedCount = 1 := by simpa using hrow
    exact ⟨row, hone, hends, hobserved, hcount, hlifetime row (hone ▸ List.mem_singleton_self row)⟩
  refine ⟨request, hrequest, ?_, ?_⟩
  · intro subject hsubject
    obtain ⟨row, hone, hends, -⟩ := hended subject hsubject
    exact ⟨row, hone ▸ List.mem_singleton_self row, hends ▸ (by decide)⟩
  · exact (policyChange_heals_iff codec config 1 reconnects tightened request _ hrequest
      (admissionAttempt_made _ _)).mpr (.inr (reconnect_countable hended hfresh))

end MycSigner
