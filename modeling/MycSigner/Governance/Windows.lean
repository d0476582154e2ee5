import MycSigner.Governance

/-!
# What an attempt does to the rate windows

A window is stored under the class of its policy and the scope and digest of its subject.
An attempt loads the window of each of its subjects, decides, and writes each of them back;
every other window stays as it is.  A replay of a refused attempt touches none.
-/

namespace MycSigner

open Transaction

/-- The key of `connection_rate_windows`. -/
structure RateKey where
  rateKind : RateLimitClass
  subjectScope : SubjectScope
  subjectSha256 : Id32
deriving DecidableEq

def RateWindowRow.key (row : RateWindowRow) : RateKey :=
  ⟨row.rateKind, row.subjectScope, row.subjectSha256⟩

def RateSubject.key (subject : RateSubject) (rateKind : RateLimitClass) : RateKey :=
  ⟨rateKind, subject.scope, subject.digest⟩

/-- The stored windows of a key. -/
def Store.windowsOf (s : Store) (key : RateKey) : List RateWindowRow :=
  s.rateWindows.filter (·.key = key)

theorem RateLimitPolicy.bounds (policy : RateLimitPolicy) :
    (1 ≤ policy.windowMs ∧ policy.windowMs ≤ 86400000) ∧
      (1 ≤ policy.maxAttempts ∧ policy.maxAttempts ≤ 10000) ∧
      (policy.windowMs ≤ policy.retentionMs ∧ policy.retentionMs ≤ 2592000000) ∧
      1 ≤ policy.maximumTrackedSubjects ∧ policy.maximumTrackedSubjects ≤ 65536 := by
  have h := policy.valid
  simpa only [rateLimitPolicyValid, Bool.and_eq_true, decide_eq_true_eq, and_assoc] using h

/-! ## Loading -/

theorem checkedTimeAdd_eq_ok {left right sum : ℕ} :
    checkedTimeAdd left right = .ok sum ↔ left + right ≤ i64Max ∧ sum = left + right := by
  unfold checkedTimeAdd
  split
  next h => simp only [Except.ok.injEq, h, true_and]; exact eq_comm
  next h => simp [h]

/-- The subject may be given a window of its own. -/
def Store.Tracks (s : Store) (policy : RateLimitPolicy) (subject : RateSubject) : Prop :=
  subject.scope = .global ∨
    (s.rateWindows.filter fun row => row.rateKind = policy.rateClass ∧
      row.subjectScope = subject.scope).length < policy.maximumTrackedSubjects

instance (s : Store) (policy : RateLimitPolicy) (subject : RateSubject) :
    Decidable (s.Tracks policy subject) := by
  unfold Store.Tracks
  infer_instance

/-- A stored window that an attempt at `now` may go on from. -/
structure RateWindowRow.Sound (row : RateWindowRow) (policy : RateLimitPolicy) (now : ℕ) :
    Prop where
  seen : row.lastObservedAt ≤ now
  started : row.windowStartedAt ≤ row.lastObservedAt
  within : row.lastObservedAt ≤ row.windowEndsAt
  retained : row.lastObservedAt ≤ row.retentionExpiresAt
  counted : row.acceptedCount ≤ policy.maxAttempts

/-- The state of a subject without a window. -/
def newRateState (policy : RateLimitPolicy) (subject : RateSubject) (now : ℕ) : RateState where
  subject := subject
  existingLast := none
  windowStarted := now
  windowEnds := now + policy.windowMs
  accepted := 0
  rejected := 0
  lifetimeAccepted := 0
  lifetimeRejected := 0

/-- The state of a subject whose window has ended. -/
def RateWindowRow.rolled (row : RateWindowRow) (policy : RateLimitPolicy) (subject : RateSubject)
    (now : ℕ) : RateState :=
  { newRateState policy subject now with
    existingLast := some row.lastObservedAt
    lifetimeAccepted := row.lifetimeAcceptedCount
    lifetimeRejected := row.lifetimeRejectedCount }

/-- The state of a subject in its window. -/
def RateWindowRow.continued (row : RateWindowRow) (subject : RateSubject) : RateState where
  subject := subject
  existingLast := some row.lastObservedAt
  windowStarted := row.windowStartedAt
  windowEnds := row.windowEndsAt
  accepted := row.acceptedCount
  rejected := row.rejectedCount
  lifetimeAccepted := row.lifetimeAcceptedCount
  lifetimeRejected := row.lifetimeRejectedCount

section
variable {s : Store} {policy : RateLimitPolicy} {subject : RateSubject} {state : RateState}
  {row : RateWindowRow}

theorem freshRateState_eq_ok {now : ℕ} :
    freshRateState s policy subject now = .ok state ↔
      s.Tracks policy subject ∧ now + policy.windowMs ≤ i64Max ∧
        state = newRateState policy subject now := by
  unfold freshRateState
  simp only [Except.bind_eq_ok_iff, Except.require_eq_ok, exists_const, checkedTimeAdd_eq_ok,
    Except.ok.injEq]
  constructor
  · rintro ⟨htracks, ends, ⟨hends, rfl⟩, rfl⟩
    exact ⟨htracks, hends, rfl⟩
  · rintro ⟨htracks, hends, rfl⟩
    exact ⟨htracks, _, ⟨hends, rfl⟩, rfl⟩

theorem existingRateState_eq_ok {now : ℕ} :
    existingRateState row policy subject now = .ok state ↔
      row.Sound policy now ∧
        ((row.windowEndsAt < now ∧ now + policy.windowMs ≤ i64Max ∧
            state = row.rolled policy subject now) ∨
          (now ≤ row.windowEndsAt ∧ state = row.continued subject)) := by
  unfold existingRateState
  simp only [Except.bind_eq_ok_iff, Except.require_eq_ok, exists_const]
  constructor
  · rintro ⟨⟨hseen, hstarted, hwithin, hretained, hcounted⟩, h⟩
    refine ⟨⟨hseen, hstarted, hwithin, hretained, hcounted⟩, ?_⟩
    split at h
    next hended =>
      obtain ⟨ends, hends, h⟩ := Except.bind_eq_ok_iff.mp h
      obtain ⟨hle, rfl⟩ := checkedTimeAdd_eq_ok.mp hends
      exact .inl ⟨hended, hle, (Except.ok.inj h).symm⟩
    next hended => exact .inr ⟨Nat.le_of_not_lt hended, (Except.ok.inj h).symm⟩
  · rintro ⟨⟨hseen, hstarted, hwithin, hretained, hcounted⟩, h⟩
    refine ⟨⟨hseen, hstarted, hwithin, hretained, hcounted⟩, ?_⟩
    rcases h with ⟨hended, hle, rfl⟩ | ⟨hrunning, rfl⟩
    · rw [if_pos hended]
      exact Except.bind_eq_ok_iff.mpr ⟨_, checkedTimeAdd_eq_ok.mpr ⟨hle, rfl⟩, rfl⟩
    · rw [if_neg (Nat.not_lt.mpr hrunning)]
      rfl

theorem windowsOf_key (s : Store) (policy : RateLimitPolicy) (subject : RateSubject) :
    (s.rateWindows.filter fun row => row.rateKind = policy.rateClass ∧
      row.subjectScope = subject.scope ∧ row.subjectSha256 = subject.digest) =
      s.windowsOf (subject.key policy.rateClass) := by
  unfold Store.windowsOf
  refine List.filter_congr fun row _ => ?_
  simp only [RateWindowRow.key, RateSubject.key, RateKey.mk.injEq]

theorem loadRateState_eq (s : Store) (policy : RateLimitPolicy) (subject : RateSubject)
    (observedAt : TimeUnixMs) :
    loadRateState s policy subject observedAt =
      match s.windowsOf (subject.key policy.rateClass) with
      | [] => freshRateState s policy subject observedAt.get
      | [row] => existingRateState row policy subject observedAt.get
      | _ :: _ :: _ => .error .binding := by
  unfold loadRateState
  rcases hrows : s.windowsOf (subject.key policy.rateClass) with _ | ⟨row, _ | ⟨second, rest⟩⟩ <;>
    simp only [windowsOf_key, hrows]

/-- A loaded window is new, begins again after its end, or goes on. -/
theorem loadRateState_eq_ok {observedAt : TimeUnixMs} :
    loadRateState s policy subject observedAt = .ok state ↔
      (s.windowsOf (subject.key policy.rateClass) = [] ∧ s.Tracks policy subject ∧
          observedAt.get + policy.windowMs ≤ i64Max ∧
          state = newRateState policy subject observedAt.get) ∨
        ∃ row, s.windowsOf (subject.key policy.rateClass) = [row] ∧
          row.Sound policy observedAt.get ∧
          ((row.windowEndsAt < observedAt.get ∧ observedAt.get + policy.windowMs ≤ i64Max ∧
              state = row.rolled policy subject observedAt.get) ∨
            (observedAt.get ≤ row.windowEndsAt ∧ state = row.continued subject)) := by
  rw [loadRateState_eq]
  match h : s.windowsOf (subject.key policy.rateClass) with
  | [] => simp [freshRateState_eq_ok]
  | [row] => simp [existingRateState_eq_ok]
  | _ :: _ :: _ => simp

theorem loadRateState_subject {observedAt : TimeUnixMs}
    (h : loadRateState s policy subject observedAt = .ok state) : state.subject = subject := by
  rcases loadRateState_eq_ok.mp h with
    ⟨-, -, -, rfl⟩ | ⟨row, -, -, ⟨-, -, rfl⟩ | ⟨-, rfl⟩⟩ <;> rfl

/-- A loaded window holds the instant of the attempt. -/
theorem loadRateState_holds {observedAt : TimeUnixMs}
    (h : loadRateState s policy subject observedAt = .ok state) :
    state.windowStarted ≤ observedAt.get ∧ observedAt.get ≤ state.windowEnds ∧
      state.accepted ≤ policy.maxAttempts := by
  rcases loadRateState_eq_ok.mp h with
    ⟨-, -, -, rfl⟩ | ⟨row, -, hsound, ⟨-, -, rfl⟩ | ⟨hrunning, rfl⟩⟩
  · exact ⟨Nat.le_refl _, Nat.le_add_right _ _, Nat.zero_le _⟩
  · exact ⟨Nat.le_refl _, Nat.le_add_right _ _, Nat.zero_le _⟩
  · exact ⟨hsound.started.trans hsound.seen, hrunning, hsound.counted⟩

end

/-! ## Writing back -/

/-- The row an attempt writes. -/
def RateState.written (state : RateState) (policy : RateLimitPolicy) (observedAt : TimeUnixMs)
    (admitted : Bool) : RateWindowRow :=
  state.row policy observedAt admitted (observedAt.get + policy.retentionMs)

theorem RateState.written_key (state : RateState) (policy : RateLimitPolicy)
    (observedAt : TimeUnixMs) (admitted : Bool) :
    (state.written policy observedAt admitted).key = state.subject.key policy.rateClass := rfl

/-- Every number of the row can be stored. -/
structure RateState.Fits (state : RateState) (policy : RateLimitPolicy) (observedAt : TimeUnixMs)
    (admitted : Bool) : Prop where
  accepted : state.accepted + admitted.toNat ≤ i64Max
  rejected : state.rejected + (!admitted).toNat ≤ i64Max
  lifetimeAccepted : state.lifetimeAccepted + admitted.toNat ≤ i64Max
  lifetimeRejected : state.lifetimeRejected + (!admitted).toNat ≤ i64Max
  retention : observedAt.get + policy.retentionMs ≤ i64Max

section
variable {s s' : Store} {policy : RateLimitPolicy} {observedAt : TimeUnixMs} {admitted : Bool}
  {state : RateState} {u : Unit}

/-- The windows other than one are as they were. -/
structure OnlyWindow (key : RateKey) (new : RateWindowRow) (s s' : Store) : Prop where
  frame : s' = { s with rateWindows := s'.rateWindows }
  written : s'.windowsOf key = [new]
  others : ∀ other, other ≠ key → s'.windowsOf other = s.windowsOf other

theorem run_persistRateState_new (hnew : state.existingLast = none) :
    (persistRateState policy observedAt admitted state).run s = .ok (u, s') ↔
      state.Fits policy observedAt admitted ∧
        rateWindowInsertAllowed s (state.written policy observedAt admitted) = true ∧
        s' = { s with
          rateWindows := s.rateWindows ++ [state.written policy observedAt admitted] } := by
  unfold persistRateState
  rw [hnew]
  simp only [run_require_bind_eq_ok, run_query_bind_eq_ok, checkedTimeAdd_eq_ok]
  constructor
  · rintro ⟨⟨ha, hr, hla, hlr⟩, _, ⟨hret, rfl⟩, h⟩
    obtain ⟨hallowed, rfl⟩ := rateWindowsTable.run_insert_eq_ok.mp h
    exact ⟨⟨ha, hr, hla, hlr, hret⟩, hallowed, rfl⟩
  · rintro ⟨⟨ha, hr, hla, hlr, hret⟩, hallowed, rfl⟩
    exact ⟨⟨ha, hr, hla, hlr⟩, _, ⟨hret, rfl⟩,
      rateWindowsTable.run_insert_eq_ok.mpr ⟨hallowed, rfl⟩⟩

/-- The rows that the update of a state matches. -/
def RateState.replaces (state : RateState) (policy : RateLimitPolicy) (last : ℕ)
    (row : RateWindowRow) : Bool :=
  row.key = state.subject.key policy.rateClass ∧ row.lastObservedAt = last

theorem run_persistRateState_existing {last : ℕ} (hlast : state.existingLast = some last) :
    (persistRateState policy observedAt admitted state).run s = .ok (u, s') ↔
      state.Fits policy observedAt admitted ∧
        (∀ old ∈ s.rateWindows, state.replaces policy last old = true →
          rateWindowUpdateAllowed old (state.written policy observedAt admitted) = true) ∧
        (s.rateWindows.filter (state.replaces policy last)).length = 1 ∧
        s' = { s with
          rateWindows := Table.update (state.replaces policy last)
            (fun _ => state.written policy observedAt admitted) s.rateWindows } := by
  have hmatching : (fun row : RateWindowRow => decide
      (row.rateKind = policy.rateClass ∧ row.subjectScope = state.subject.scope ∧
        row.subjectSha256 = state.subject.digest ∧ row.lastObservedAt = last)) =
      state.replaces policy last := by
    funext row
    simp only [RateState.replaces, RateWindowRow.key, RateSubject.key, RateKey.mk.injEq, and_assoc]
  unfold persistRateState
  rw [hlast]
  simp only [run_require_bind_eq_ok, run_query_bind_eq_ok, checkedTimeAdd_eq_ok]
  constructor
  · rintro ⟨⟨ha, hr, hla, hlr⟩, _, ⟨hret, rfl⟩, h⟩
    obtain ⟨rows, s₁, hupdate, h⟩ := run_bind_eq_ok.mp h
    obtain ⟨hrows, rfl⟩ := run_require_eq_ok.mp h
    obtain ⟨hallowed, hlength, rfl⟩ := rateWindowsTable.run_update_eq_ok.mp hupdate
    rw [hrows] at hlength
    rw [← hmatching]
    exact ⟨⟨ha, hr, hla, hlr, hret⟩, hallowed, hlength, rfl⟩
  · rintro ⟨⟨ha, hr, hla, hlr, hret⟩, hallowed, hlength, rfl⟩
    rw [← hmatching] at hallowed hlength ⊢
    refine ⟨⟨ha, hr, hla, hlr⟩, _, ⟨hret, rfl⟩, ?_⟩
    exact run_bind_eq_ok.mpr ⟨1, _,
      rateWindowsTable.run_update_eq_ok.mpr ⟨hallowed, hlength, rfl⟩,
      run_require_eq_ok.mpr ⟨rfl, rfl⟩⟩

theorem filter_replaces {last : ℕ} {row : RateWindowRow}
    (hrow : s.windowsOf (state.subject.key policy.rateClass) = [row])
    (hlast : row.lastObservedAt = last) :
    s.rateWindows.filter (state.replaces policy last) = [row] := by
  have hsplit : s.rateWindows.filter (state.replaces policy last) =
      (s.windowsOf (state.subject.key policy.rateClass)).filter (·.lastObservedAt = last) := by
    unfold Store.windowsOf
    rw [List.filter_filter]
    refine List.filter_congr fun row _ => ?_
    simp only [RateState.replaces, Bool.decide_and, Bool.and_comm]
  rw [hsplit, hrow]
  simp [hlast]

theorem windowsOf_update {last : ℕ} {new : RateWindowRow} {row : RateWindowRow}
    (hkey : new.key = state.subject.key policy.rateClass)
    (hrow : s.windowsOf (state.subject.key policy.rateClass) = [row])
    (hlast : row.lastObservedAt = last) :
    OnlyWindow (state.subject.key policy.rateClass) new s
      { s with rateWindows :=
        Table.update (state.replaces policy last) (fun _ => new) s.rateWindows } where
  frame := rfl
  written := by
    have hmem : row ∈ s.windowsOf (state.subject.key policy.rateClass) := by simp [hrow]
    have hrowKey : row.key = state.subject.key policy.rateClass := by
      simpa using (List.mem_filter.mp hmem).2
    have hmatch : state.replaces policy last row = true := by
      simp [RateState.replaces, hrowKey, hlast]
    unfold Store.windowsOf at hrow ⊢
    rw [Table.filter_update _ fun old hold => ?_, hrow]
    · simp [hmatch]
    · simp only [RateState.replaces, decide_eq_true_eq] at hold
      simp [hkey, hold.1]
  others := by
    intro other hother
    unfold Store.windowsOf
    refine Table.filter_update_of_disjoint _ fun old hold => ?_
    simp only [RateState.replaces, decide_eq_true_eq] at hold
    simp [hold.1, hkey, hother.symm]

theorem windowsOf_insert {new : RateWindowRow} {key : RateKey} (hkey : new.key = key)
    (hnil : s.windowsOf key = []) :
    OnlyWindow key new s { s with rateWindows := s.rateWindows ++ [new] } where
  frame := rfl
  written := by
    unfold Store.windowsOf at hnil ⊢
    simp only [List.filter_append, hnil]
    simp [hkey]
  others := by
    intro other hother
    unfold Store.windowsOf
    simp [List.filter_append, hkey, hother.symm]

/-- A loaded state knows whether its subject has a row. -/
theorem loadRateState_existing {subject : RateSubject}
    (h : loadRateState s policy subject observedAt = .ok state) :
    (state.existingLast = none ∧ s.windowsOf (subject.key policy.rateClass) = []) ∨
      ∃ row, state.existingLast = some row.lastObservedAt ∧
        s.windowsOf (subject.key policy.rateClass) = [row] := by
  rcases loadRateState_eq_ok.mp h with
    ⟨hnil, -, -, rfl⟩ | ⟨row, hrow, -, ⟨-, -, rfl⟩ | ⟨-, rfl⟩⟩
  · exact .inl ⟨rfl, hnil⟩
  · exact .inr ⟨row, rfl, hrow⟩
  · exact .inr ⟨row, rfl, hrow⟩

/-- What a successful write leaves behind, given the window that was loaded. -/
theorem onlyWindow_of_persist {subject : RateSubject} {s₀ : Store}
    (hload : loadRateState s₀ policy subject observedAt = .ok state)
    (hsame : s.windowsOf (subject.key policy.rateClass) =
      s₀.windowsOf (subject.key policy.rateClass))
    (h : (persistRateState policy observedAt admitted state).run s = .ok (u, s')) :
    state.Fits policy observedAt admitted ∧
      OnlyWindow (subject.key policy.rateClass) (state.written policy observedAt admitted) s s' := by
  obtain rfl := loadRateState_subject hload
  rcases loadRateState_existing hload with ⟨hnone, hnil⟩ | ⟨row, hlast, hrow⟩
  · obtain ⟨hfits, -, rfl⟩ := (run_persistRateState_new hnone).mp h
    exact ⟨hfits, windowsOf_insert rfl (hsame.trans hnil)⟩
  · obtain ⟨hfits, -, -, rfl⟩ := (run_persistRateState_existing hlast).mp h
    exact ⟨hfits, windowsOf_update rfl (hsame.trans hrow) rfl⟩

/-! ## Rows that may be written -/

/-- The scopes that a class counts. -/
def SubjectScope.allowedFor (scope : SubjectScope) : RateLimitClass → Bool
  | .connectionAdmission => scope != .connection
  | .challengeCreation | .challengeAuthorization => scope == .connection

theorem rateWindowCheck_iff {row : RateWindowRow} :
    rateWindowCheck row = true ↔
      1 ≤ row.windowStartedAt ∧ row.windowStartedAt ≤ row.windowEndsAt ∧
        row.windowEndsAt ≤ i64Max ∧ row.acceptedCount ≤ 10000 ∧ row.rejectedCount ≤ i64Max ∧
        row.acceptedCount ≤ row.lifetimeAcceptedCount ∧ row.lifetimeAcceptedCount ≤ i64Max ∧
        row.rejectedCount ≤ row.lifetimeRejectedCount ∧ row.lifetimeRejectedCount ≤ i64Max ∧
        row.windowStartedAt ≤ row.lastObservedAt ∧ row.lastObservedAt ≤ i64Max ∧
        row.lastObservedAt ≤ row.retentionExpiresAt ∧ row.retentionExpiresAt ≤ i64Max ∧
        row.subjectScope.allowedFor row.rateKind = true := by
  unfold rateWindowCheck SubjectScope.allowedFor
  cases row.rateKind <;>
    simp only [Bool.and_eq_true, decide_eq_true_eq, and_assoc]

/-- The counts of a loaded state can be stored, and its window lies in time. -/
structure RateState.Sane (state : RateState) (policy : RateLimitPolicy) : Prop where
  started : 1 ≤ state.windowStarted
  ends : state.windowEnds ≤ i64Max
  accepted : state.accepted ≤ state.lifetimeAccepted
  rejected : state.rejected ≤ state.lifetimeRejected
  scope : state.subject.scope.allowedFor policy.rateClass = true

theorem loadRateState_sane {subject : RateSubject}
    (hload : loadRateState s policy subject observedAt = .ok state)
    (hchecked : ∀ row ∈ s.windowsOf (subject.key policy.rateClass), rateWindowCheck row = true)
    (hscope : subject.scope.allowedFor policy.rateClass = true) : state.Sane policy := by
  rcases loadRateState_eq_ok.mp hload with
    ⟨-, -, hends, rfl⟩ | ⟨row, hrow, -, ⟨-, hends, rfl⟩ | ⟨-, rfl⟩⟩
  · exact ⟨observedAt.pos, hends, Nat.le_refl _, Nat.le_refl _, hscope⟩
  · exact ⟨observedAt.pos, hends, Nat.zero_le _, Nat.zero_le _, hscope⟩
  · have hcheck := rateWindowCheck_iff.mp (hchecked row (by simp [hrow]))
    exact ⟨hcheck.1, hcheck.2.2.1, hcheck.2.2.2.2.2.1, hcheck.2.2.2.2.2.2.2.1, hscope⟩

theorem written_checked {subject : RateSubject} {s₀ : Store}
    (hload : loadRateState s₀ policy subject observedAt = .ok state) (hsane : state.Sane policy)
    (hadmitted : admitted = true → state.canAccept policy = true)
    (hfits : state.Fits policy observedAt admitted) :
    rateWindowCheck (state.written policy observedAt admitted) = true := by
  obtain ⟨hstarted, hends, hcounted⟩ := loadRateState_holds hload
  have hbounds := policy.bounds
  have hlimit : state.accepted + admitted.toNat ≤ policy.maxAttempts := by
    cases admitted with
    | false => simpa using hcounted
    | true =>
        have hroom : state.accepted < policy.maxAttempts := by
          simpa [RateState.canAccept] using hadmitted rfl
        exact hroom
  have htime := observedAt.sqlite
  refine rateWindowCheck_iff.mpr ⟨hsane.started, hstarted.trans hends, hsane.ends, ?_,
    hfits.rejected, ?_, hfits.lifetimeAccepted, ?_, hfits.lifetimeRejected, hstarted, htime, ?_,
    hfits.retention, hsane.scope⟩
  · exact hlimit.trans hbounds.2.1.2
  · exact Nat.add_le_add_right hsane.accepted _
  · exact Nat.add_le_add_right hsane.rejected _
  · exact Nat.le_add_right _ _

/-- The update of a loaded window passes the trigger. -/
theorem written_allowed {subject : RateSubject} {s₀ : Store} {row : RateWindowRow}
    (hload : loadRateState s₀ policy subject observedAt = .ok state)
    (hrow : s₀.windowsOf (subject.key policy.rateClass) = [row])
    (hchecked : rateWindowCheck (state.written policy observedAt admitted) = true) :
    rateWindowUpdateAllowed row (state.written policy observedAt admitted) = true := by
  have hmem : row ∈ s₀.windowsOf (subject.key policy.rateClass) := by simp [hrow]
  have hkey : row.key = subject.key policy.rateClass := by simpa using (List.mem_filter.mp hmem).2
  simp only [RateWindowRow.key, RateSubject.key, RateKey.mk.injEq] at hkey
  obtain ⟨hkind, hscope, hdigest⟩ := hkey
  have hbounds := policy.bounds
  rcases loadRateState_eq_ok.mp hload with
    ⟨hnil, -⟩ | ⟨row', hrow', hsound, ⟨hended, -, rfl⟩ | ⟨-, rfl⟩⟩
  · rw [hrow] at hnil
    cases hnil
  · rw [hrow] at hrow'
    cases hrow'
    obtain ⟨hseen, hstarted, hwithin, -, -⟩ := hsound
    unfold rateWindowUpdateAllowed
    rw [hchecked]
    cases admitted <;>
      simp [RateState.written, RateState.row, RateWindowRow.rolled, newRateState, hkind, hscope,
        hdigest] <;> omega
  · rw [hrow] at hrow'
    cases hrow'
    obtain ⟨hseen, hstarted, hwithin, -, -⟩ := hsound
    unfold rateWindowUpdateAllowed
    rw [hchecked]
    cases admitted <;>
      simp [RateState.written, RateState.row, RateWindowRow.continued, hkind, hscope, hdigest] <;>
      omega

/-- A loaded window can be written when its numbers fit. -/
theorem exists_run_persist {subject : RateSubject} {s₀ : Store}
    (hload : loadRateState s₀ policy subject observedAt = .ok state)
    (hsame : s.windowsOf (subject.key policy.rateClass) =
      s₀.windowsOf (subject.key policy.rateClass)) (hsane : state.Sane policy)
    (hadmitted : admitted = true → state.canAccept policy = true)
    (hfits : state.Fits policy observedAt admitted) :
    ∃ s', (persistRateState policy observedAt admitted state).run s = .ok ((), s') := by
  have hchecked := written_checked hload hsane hadmitted hfits
  obtain rfl := loadRateState_subject hload
  rcases loadRateState_existing hload with ⟨hnone, hnil⟩ | ⟨row, hlast, hrow⟩
  · refine ⟨_, (run_persistRateState_new hnone).mpr ⟨hfits, ?_, rfl⟩⟩
    unfold rateWindowInsertAllowed
    rw [hchecked, Bool.true_and, List.all_eq_true]
    intro other hother
    have hnot : other.key ≠ state.subject.key policy.rateClass := by
      have := List.filter_eq_nil_iff.mp (hsame.trans hnil) other hother
      simpa using this
    have hwritten := RateState.written_key state policy observedAt admitted
    rw [← hwritten] at hnot
    simp only [RateWindowRow.key, ne_eq, RateKey.mk.injEq, not_and] at hnot
    simp only [Bool.not_eq_eq_eq_not, Bool.not_true, Bool.and_eq_false_imp, beq_iff_eq,
      beq_eq_false_iff_ne, Bool.and_eq_true, and_imp]
    exact hnot
  · refine ⟨_, (run_persistRateState_existing hlast).mpr ⟨hfits, ?_, ?_, rfl⟩⟩
    · intro old hold hmatch
      have hmem : old ∈ s.rateWindows.filter (state.replaces policy row.lastObservedAt) :=
        List.mem_filter.mpr ⟨hold, hmatch⟩
      rw [filter_replaces (hsame.trans hrow) rfl] at hmem
      obtain rfl := List.mem_singleton.mp hmem
      exact written_allowed hload hrow hchecked
    · rw [filter_replaces (hsame.trans hrow) rfl]
      rfl

end

end MycSigner
