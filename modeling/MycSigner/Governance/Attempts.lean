import MycSigner.Governance.Windows
import MycSigner.Lib.Traverse

/-!
# Attempts

An attempt that is no replay loads a window for each subject, counts itself in all of them
with one decision, and records a refusal.  Its subjects have different windows, since a
window that was just counted is neither new nor what was loaded.
-/

namespace MycSigner

open Transaction

/-- One counted attempt: what it reads and writes of the rate windows. -/
structure Counted (policy : RateLimitPolicy) (subjects : List RateSubject)
    (observedAt : TimeUnixMs) (admitted : Bool) (s s' : Store) : Prop where
  frame : s' = { s with rateWindows := s'.rateWindows }
  distinct : (subjects.map (·.key policy.rateClass)).Nodup
  touched : ∀ subject ∈ subjects, ∃ state,
    loadRateState s policy subject observedAt = .ok state ∧
      state.Fits policy observedAt admitted ∧
      s'.windowsOf (subject.key policy.rateClass) = [state.written policy observedAt admitted]
  others : ∀ key, key ∉ subjects.map (·.key policy.rateClass) → s'.windowsOf key = s.windowsOf key
  decided : admitted = true ↔ ∀ subject ∈ subjects, ∀ state,
    loadRateState s policy subject observedAt = .ok state → state.canAccept policy = true

section
variable {policy : RateLimitPolicy} {observedAt : TimeUnixMs} {admitted : Bool} {s₀ s s' : Store}
  {u : Unit}

/-- A window that was just written cannot be written again by the same attempt. -/
theorem run_persist_again {subject : RateSubject} {state : RateState}
    (hload : loadRateState s₀ policy subject observedAt = .ok state)
    (hwritten : s.windowsOf (subject.key policy.rateClass) =
      [state.written policy observedAt admitted]) :
    (persistRateState policy observedAt admitted state).run s ≠ .ok (u, s') := by
  intro h
  obtain rfl := loadRateState_subject hload
  have hmem : state.written policy observedAt admitted ∈
      s.windowsOf (state.subject.key policy.rateClass) := by simp [hwritten]
  have hstored := (List.mem_filter.mp hmem).1
  cases hexisting : state.existingLast with
  | none =>
      obtain ⟨-, hallowed, -⟩ := (run_persistRateState_new hexisting).mp h
      unfold rateWindowInsertAllowed at hallowed
      rw [Bool.and_eq_true, List.all_eq_true] at hallowed
      have := hallowed.2 _ hstored
      simp at this
  | some last =>
      obtain ⟨-, hallowed, hone, -⟩ := (run_persistRateState_existing hexisting).mp h
      obtain ⟨old, hold⟩ := List.length_eq_one_iff.mp hone
      have hmatched : old ∈ s.rateWindows.filter (state.replaces policy last) := by simp [hold]
      obtain ⟨holdStored, holdMatch⟩ := List.mem_filter.mp hmatched
      have holdKey : old ∈ s.windowsOf (state.subject.key policy.rateClass) := by
        simp only [RateState.replaces, decide_eq_true_eq] at holdMatch
        exact List.mem_filter.mpr ⟨holdStored, by simpa using holdMatch.1⟩
      rw [hwritten, List.mem_singleton] at holdKey
      have hagain := hallowed old holdStored holdMatch
      rw [holdKey] at hagain
      unfold rateWindowUpdateAllowed at hagain
      simp at hagain
      omega

/-- Two subjects with one window load one state. -/
theorem loadRateState_of_key_eq {first second : RateSubject} {left right : RateState}
    (hkey : second.key policy.rateClass = first.key policy.rateClass)
    (hfirst : loadRateState s policy first observedAt = .ok left)
    (hsecond : loadRateState s policy second observedAt = .ok right) :
    right = { left with subject := second } := by
  rw [loadRateState_eq_ok] at hfirst hsecond
  rw [hkey] at hsecond
  rcases hfirst with ⟨hnil, -, -, rfl⟩ | ⟨row, hrow, -, hleft⟩
  · rcases hsecond with ⟨-, -, -, rfl⟩ | ⟨row, hrow, -⟩
    · rfl
    · rw [hnil] at hrow
      cases hrow
  · rcases hsecond with ⟨hnil, -⟩ | ⟨row', hrow', -, hright⟩
    · rw [hnil] at hrow
      cases hrow
    · rw [hrow] at hrow'
      cases hrow'
      rcases hleft with ⟨hended, -, rfl⟩ | ⟨hrunning, rfl⟩
      · rcases hright with ⟨-, -, rfl⟩ | ⟨hrunning, -⟩
        · rfl
        · omega
      · rcases hright with ⟨hended, -, -⟩ | ⟨-, rfl⟩
        · omega
        · rfl

theorem written_of_key_eq {first second : RateSubject} {left right : RateState}
    (hkey : second.key policy.rateClass = first.key policy.rateClass)
    (hfirst : loadRateState s policy first observedAt = .ok left)
    (hsecond : loadRateState s policy second observedAt = .ok right) :
    right.written policy observedAt admitted = left.written policy observedAt admitted := by
  obtain rfl := loadRateState_of_key_eq hkey hfirst hsecond
  obtain rfl := loadRateState_subject hfirst
  simp only [RateSubject.key, RateKey.mk.injEq, true_and] at hkey
  simp [RateState.written, RateState.row, hkey.1, hkey.2]

/-! ## Writing all windows -/

/-- The windows of subjects with different keys are written one after another. -/
theorem run_persistAll {subjects : List RateSubject} : ∀ {states : List RateState} {s : Store},
    subjects.mapM (loadRateState s₀ policy · observedAt) = .ok states →
    (subjects.map (·.key policy.rateClass)).Nodup →
    (∀ subject ∈ subjects, s.windowsOf (subject.key policy.rateClass) =
      s₀.windowsOf (subject.key policy.rateClass)) →
    (states.forM (persistRateState policy observedAt admitted)).run s = .ok (u, s') →
    s' = { s with rateWindows := s'.rateWindows } ∧
      (∀ subject ∈ subjects, ∃ state, loadRateState s₀ policy subject observedAt = .ok state ∧
        state.Fits policy observedAt admitted ∧
        s'.windowsOf (subject.key policy.rateClass) = [state.written policy observedAt admitted]) ∧
      ∀ key, key ∉ subjects.map (·.key policy.rateClass) →
        s'.windowsOf key = s.windowsOf key := by
  induction subjects with
  | nil =>
      intro states s hstates _ _ hrun
      cases hstates
      obtain ⟨-, rfl⟩ := run_pure_eq_ok.mp hrun
      exact ⟨rfl, fun _ h => absurd h List.not_mem_nil, fun _ _ => rfl⟩
  | cons subject subjects ih =>
      intro states s hstates hdistinct hsame hrun
      rw [List.mapM_cons] at hstates
      obtain ⟨state, hload, hstates⟩ := Except.bind_eq_ok_iff.mp hstates
      obtain ⟨rest, hrest, hstates⟩ := Except.bind_eq_ok_iff.mp hstates
      cases hstates
      obtain ⟨_, s₁, hpersist, hrun⟩ := run_bind_eq_ok.mp hrun
      rw [List.map_cons, List.nodup_cons] at hdistinct
      obtain ⟨hfits, hframe, hwritten, hothers⟩ :=
        onlyWindow_of_persist hload (hsame subject (List.mem_cons_self ..)) hpersist
      have hne : ∀ other ∈ subjects, other.key policy.rateClass ≠ subject.key policy.rateClass :=
        fun other hother heq => hdistinct.1 (List.mem_map.mpr ⟨other, hother, heq⟩)
      obtain ⟨hframe', htouched, huntouched⟩ := ih hrest hdistinct.2 (fun other hother => by
        rw [hothers _ (hne other hother)]
        exact hsame other (List.mem_cons_of_mem _ hother)) hrun
      refine ⟨?_, ?_, ?_⟩
      · rw [hframe', hframe]
      · intro other hother
        rcases List.mem_cons.mp hother with rfl | hother
        · exact ⟨state, hload, hfits, by rw [huntouched _ hdistinct.1, hwritten]⟩
        · exact htouched other hother
      · intro key hkey
        rw [List.map_cons, List.mem_cons, not_or] at hkey
        rw [huntouched key hkey.2, hothers key hkey.1]

/-- An attempt that counts itself has a window of its own for each subject. -/
theorem distinct_of_persistAll {subjects : List RateSubject} {states : List RateState}
    (hlength : subjects.length ≤ 2)
    (hstates : subjects.mapM (loadRateState s policy · observedAt) = .ok states)
    (hrun : (states.forM (persistRateState policy observedAt admitted)).run s = .ok (u, s')) :
    (subjects.map (·.key policy.rateClass)).Nodup := by
  match subjects, hlength with
  | [], _ => exact List.nodup_nil
  | [_], _ => exact List.nodup_singleton _
  | [first, second], _ =>
      rw [List.mapM_cons] at hstates
      obtain ⟨left, hfirst, hstates⟩ := Except.bind_eq_ok_iff.mp hstates
      obtain ⟨rest, hrest, hstates⟩ := Except.bind_eq_ok_iff.mp hstates
      rw [List.mapM_cons] at hrest
      obtain ⟨right, hsecond, hrest⟩ := Except.bind_eq_ok_iff.mp hrest
      cases hrest
      cases hstates
      obtain ⟨_, s₁, hleft, hrun⟩ := run_bind_eq_ok.mp hrun
      obtain ⟨_, s₂, hright, -⟩ := run_bind_eq_ok.mp hrun
      obtain ⟨-, hwritten⟩ := onlyWindow_of_persist hfirst rfl hleft
      simp only [List.map_cons, List.map_nil, List.nodup_cons, List.mem_singleton,
        List.not_mem_nil, not_false_iff, List.nodup_nil, and_true]
      intro hkey
      refine run_persist_again hsecond ?_ hright
      rw [← hkey, hwritten.written, written_of_key_eq hkey.symm hfirst hsecond]

/-- Windows that fit are written. -/
theorem exists_run_persistAll {subjects : List RateSubject} :
    ∀ {states : List RateState} {s : Store},
    subjects.mapM (loadRateState s₀ policy · observedAt) = .ok states →
    (subjects.map (·.key policy.rateClass)).Nodup →
    (∀ subject ∈ subjects, s.windowsOf (subject.key policy.rateClass) =
      s₀.windowsOf (subject.key policy.rateClass)) →
    (∀ state ∈ states, state.Sane policy ∧ state.Fits policy observedAt admitted ∧
      (admitted = true → state.canAccept policy = true)) →
    ∃ s', (states.forM (persistRateState policy observedAt admitted)).run s = .ok ((), s') := by
  induction subjects with
  | nil =>
      intro states s hstates _ _ _
      cases hstates
      exact ⟨s, rfl⟩
  | cons subject subjects ih =>
      intro states s hstates hdistinct hsame hready
      rw [List.mapM_cons] at hstates
      obtain ⟨state, hload, hstates⟩ := Except.bind_eq_ok_iff.mp hstates
      obtain ⟨rest, hrest, hstates⟩ := Except.bind_eq_ok_iff.mp hstates
      cases hstates
      rw [List.map_cons, List.nodup_cons] at hdistinct
      obtain ⟨hsane, hfits, hadmitted⟩ := hready state (List.mem_cons_self ..)
      obtain ⟨s₁, hpersist⟩ :=
        exists_run_persist hload (hsame subject (List.mem_cons_self ..)) hsane hadmitted hfits
      obtain ⟨-, -, -, hothers⟩ :=
        onlyWindow_of_persist hload (hsame subject (List.mem_cons_self ..)) hpersist
      obtain ⟨s', hrun⟩ := ih hrest hdistinct.2 (fun other hother => by
          rw [hothers _ fun heq => hdistinct.1 (List.mem_map.mpr ⟨other, hother, heq⟩)]
          exact hsame other (List.mem_cons_of_mem _ hother))
        fun other hother => hready other (List.mem_cons_of_mem _ hother)
      exact ⟨s', run_bind_eq_ok.mpr ⟨(), s₁, hpersist, hrun⟩⟩

end

/-! ## One attempt -/

/-- The record that a refused attempt leaves. -/
def RefusalOf (evidence : AuditEvidence) (kind : AuditKind) (record : AuditRecord) : Prop :=
  record.correlationId = evidence.correlation ∧ record.operationId = evidence.operationId ∧
    record.kind = kind ∧ record.outcome = .rejected ∧ record.reason = .rateLimited

section
variable {policy : RateLimitPolicy} {expectedClass : RateLimitClass} {subjects : List RateSubject}
  {evidence : AuditEvidence} {auditKind : AuditKind} {admitted : Bool} {s s' : Store}

/-- What an attempt that ends in a decision did: it replayed a refusal, or it counted itself
and recorded its refusal. -/
theorem governRateAttempt_cases
    (h : (governRateAttempt policy expectedClass subjects evidence auditKind).run s =
      .ok (admitted, s')) :
    policy.rateClass = expectedClass ∧
      ((admitted = false ∧ s' = s ∧ ∃ record,
          readAuditById s (deriveAuditId evidence.correlation auditKind) = .ok (some record) ∧
          RefusalOf evidence auditKind record) ∨
        (readAuditById s (deriveAuditId evidence.correlation auditKind) = .ok none ∧
          ∃ s₁, Counted policy subjects evidence.occurredAt admitted s s₁ ∧
            ((admitted = true ∧ s' = s₁) ∨
              (admitted = false ∧
                (recordAudit evidence auditKind .rejected .rateLimited).run s₁ = .ok ((), s'))))) := by
  unfold governRateAttempt at h
  obtain ⟨⟨hclass, -, hlength⟩, h⟩ := run_require_bind_eq_ok.mp h
  refine ⟨hclass, ?_⟩
  obtain ⟨existing, hexisting, h⟩ := run_query_bind_eq_ok.mp h
  cases existing with
  | some record =>
      obtain ⟨hrefusal, h⟩ := run_require_bind_eq_ok.mp h
      obtain ⟨rfl, rfl⟩ := run_pure_eq_ok.mp h
      exact .inl ⟨rfl, rfl, record, hexisting, hrefusal⟩
  | none =>
      refine .inr ⟨hexisting, ?_⟩
      obtain ⟨states, hstates, h⟩ := run_query_bind_eq_ok.mp h
      obtain ⟨_, s₁, hpersist, h⟩ := run_bind_eq_ok.mp h
      have hdistinct := distinct_of_persistAll hlength hstates hpersist
      obtain ⟨hframe, htouched, hothers⟩ :=
        run_persistAll hstates hdistinct (fun _ _ => rfl) hpersist
      have hcounted : Counted policy subjects evidence.occurredAt
          (states.all (·.canAccept policy)) s s₁ :=
        ⟨hframe, hdistinct, htouched, hothers,
          List.all_eq_true.trans (Except.mapM_forall hstates)⟩
      split at h
      next hall =>
        obtain ⟨rfl, rfl⟩ := run_pure_eq_ok.mp h
        rw [hall] at hcounted
        exact ⟨s₁, hcounted, .inl ⟨rfl, rfl⟩⟩
      next hall =>
        obtain ⟨_, s₂, hrecord, h⟩ := run_bind_eq_ok.mp h
        obtain ⟨rfl, rfl⟩ := run_pure_eq_ok.mp h
        rw [Bool.not_eq_true] at hall
        rw [hall] at hcounted
        exact ⟨s₁, hcounted, .inr ⟨rfl, hrecord⟩⟩

end

end MycSigner
