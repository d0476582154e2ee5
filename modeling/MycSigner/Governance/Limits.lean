import Mathlib
import MycSigner.Governance.Attempts
import MycSigner.Governance.Audit
import MycSigner.Lib.Run
import MycSigner.Lib.Window

/-!
# What a sequence of attempts admits

Attempts under one policy are committed one after another.  Each admitted attempt is an event
in the window of each of its subjects, and the windows of a subject follow each other as the
counting library asks.  A refused attempt leaves a record, and while that is kept, no attempt
with its correlation counts again.
-/

namespace MycSigner

open Transaction

/-- One call of `govern_rate_attempt`. -/
structure Attempt where
  subjects : List RateSubject
  evidence : AuditEvidence
  auditKind : AuditKind

namespace Attempt

def body (policy : RateLimitPolicy) (attempt : Attempt) : Tx Bool :=
  governRateAttempt policy policy.rateClass attempt.subjects attempt.evidence attempt.auditKind

/-- The store after an attempt; one that fails is rolled back. -/
def perform (policy : RateLimitPolicy) (s : Store) (attempt : Attempt) : Store :=
  ((attempt.body policy).atomically s).2

/-- The attempt is admitted. -/
def admitted (policy : RateLimitPolicy) (s : Store) (attempt : Attempt) : Bool :=
  match ((attempt.body policy).atomically s).1 with
  | .ok admitted => admitted
  | .error _ => false

def keys (policy : RateLimitPolicy) (attempt : Attempt) : List RateKey :=
  attempt.subjects.map (·.key policy.rateClass)

def auditId (attempt : Attempt) : Id32 :=
  deriveAuditId attempt.evidence.correlation attempt.auditKind

end Attempt

/-- An admitted attempt in the window of one of its subjects. -/
structure Admission where
  key : RateKey
  entry : Window.Entry
deriving DecidableEq

/-- The admission of a key at an instant, with the window the store has for it. -/
def Store.admission (s : Store) (now : ℕ) (key : RateKey) : Admission where
  key := key
  entry :=
    { time := now
      started := ((s.windowsOf key).head?.map (·.windowStartedAt)).getD 0
      ends := ((s.windowsOf key).head?.map (·.windowEndsAt)).getD 0 }

/-- The admissions of a sequence of attempts, one for each subject of each admitted attempt. -/
def admissions (policy : RateLimitPolicy) : Store → List Attempt → List Admission
  | _, [] => []
  | s, attempt :: rest =>
      (if attempt.admitted policy s then
        (attempt.keys policy).map
          ((attempt.perform policy s).admission attempt.evidence.occurredAt.get)
      else []) ++ admissions policy (attempt.perform policy s) rest

/-- The admissions of one subject, in order. -/
def entriesOf (key : RateKey) (log : List Admission) : List Window.Entry :=
  (log.filter (·.key = key)).map (·.entry)

/-! ## One attempt -/

section
variable {policy : RateLimitPolicy} {s : Store} {attempt : Attempt}

/-- An attempt that fails or replays changes nothing and is not admitted; any other counts
itself in its windows. -/
theorem Attempt.perform_cases (policy : RateLimitPolicy) (s : Store) (attempt : Attempt) :
    (attempt.perform policy s = s ∧ attempt.admitted policy s = false) ∨
      ∃ s₁, Counted policy attempt.subjects attempt.evidence.occurredAt
          (attempt.admitted policy s) s s₁ ∧
        (attempt.perform policy s).rateWindows = s₁.rateWindows := by
  cases hrun : (attempt.body policy).run s with
  | error e =>
      left
      simp [Attempt.perform, Attempt.admitted, atomically_of_error hrun]
  | ok result =>
      obtain ⟨admitted, s'⟩ := result
      have hperform : attempt.perform policy s = s' := by
        rw [Attempt.perform, atomically_of_ok hrun]
      have hadmitted : attempt.admitted policy s = admitted := by
        rw [Attempt.admitted, atomically_of_ok hrun]
      rw [hperform, hadmitted]
      obtain ⟨-, ⟨hfalse, hsame, -⟩ | ⟨-, s₁, hcounted, hend⟩⟩ := governRateAttempt_cases hrun
      · exact .inl ⟨hsame, hfalse⟩
      · refine .inr ⟨s₁, hcounted, ?_⟩
        rcases hend with ⟨-, rfl⟩ | ⟨-, hrecord⟩
        · rfl
        · rcases recordAudit_cases hrecord with rfl | ⟨-, -, rfl⟩ <;> rfl

end

/-! ## The windows of one subject -/

/-- The admissions of a subject from a store with these rows for it. -/
structure KeyLog (policy : RateLimitPolicy) (rows : List RateWindowRow) (log : List Window.Entry) :
    Prop where
  held : ∀ entry ∈ log, entry.Held
  spaced : log.Pairwise (Window.Entry.Precedes policy.windowMs)
  counted : ∀ started, (log.filter (·.started = started)).length ≤ policy.maxAttempts
  current : ∀ row, rows = [row] → log ≠ [] →
    row.acceptedCount + (log.filter (·.started = row.windowStartedAt)).length ≤
        policy.maxAttempts ∧
      ∀ entry ∈ log,
        Window.Entry.Precedes policy.windowMs
          ⟨row.lastObservedAt, row.windowStartedAt, row.windowEndsAt⟩ entry

theorem KeyLog.nil (policy : RateLimitPolicy) (rows : List RateWindowRow) : KeyLog policy rows [] where
  held := by simp
  spaced := .nil
  counted := by simp
  current := fun _ _ h => absurd rfl h

section
variable {policy : RateLimitPolicy} {subject : RateSubject} {observedAt : TimeUnixMs}
  {state : RateState} {s : Store} {log : List Window.Entry} {admitted : Bool}

/-- The entry of an admitted attempt. -/
def RateState.entry (state : RateState) (observedAt : TimeUnixMs) : Window.Entry :=
  ⟨observedAt.get, state.windowStarted, state.windowEnds⟩

/-- How the window of a loaded state follows the stored one. -/
theorem loadRateState_follows {row : RateWindowRow}
    (hload : loadRateState s policy subject observedAt = .ok state)
    (hrow : s.windowsOf (subject.key policy.rateClass) = [row]) :
    (state.windowStarted = row.windowStartedAt ∧ state.windowEnds = row.windowEndsAt ∧
        state.accepted = row.acceptedCount) ∨
      (row.windowStartedAt ≤ row.windowEndsAt ∧ row.windowEndsAt < state.windowStarted ∧
        state.windowEnds = state.windowStarted + policy.windowMs ∧
        row.acceptedCount ≤ policy.maxAttempts) := by
  rcases loadRateState_eq_ok.mp hload with
    ⟨hnil, -⟩ | ⟨row', hrow', hsound, ⟨hended, -, rfl⟩ | ⟨-, rfl⟩⟩
  · rw [hrow] at hnil
    cases hnil
  · rw [hrow] at hrow'
    cases hrow'
    exact .inr ⟨hsound.started.trans hsound.within, hended, rfl, hsound.counted⟩
  · rw [hrow] at hrow'
    cases hrow'
    exact .inl ⟨rfl, rfl, rfl⟩

/-- What comes after the loaded window comes after the stored one. -/
theorem precedes_of_loaded {row : RateWindowRow} {entry : Window.Entry}
    (hload : loadRateState s policy subject observedAt = .ok state)
    (hrow : s.windowsOf (subject.key policy.rateClass) = [row])
    (hentry : (state.entry observedAt).Precedes policy.windowMs entry) :
    Window.Entry.Precedes policy.windowMs
      ⟨row.lastObservedAt, row.windowStartedAt, row.windowEndsAt⟩ entry := by
  obtain ⟨hstarted, hends, -⟩ := loadRateState_holds hload
  unfold Window.Entry.Precedes RateState.entry at *
  rcases loadRateState_follows hload hrow with ⟨hs, he, -⟩ | ⟨-, hafter, hwide, -⟩
  · rw [hs, he] at hentry
    exact hentry
  · rcases hentry with ⟨hs, he⟩ | ⟨hs, he⟩
    · exact .inr ⟨by dsimp only at *; omega, by dsimp only at *; omega⟩
    · exact .inr ⟨by dsimp only at *; omega, he⟩

/-- A log that goes on from the loaded window keeps within the stored one. -/
theorem counted_of_loaded {row : RateWindowRow} {log : List Window.Entry}
    (hload : loadRateState s policy subject observedAt = .ok state)
    (hrow : s.windowsOf (subject.key policy.rateClass) = [row])
    (hafter : ∀ entry ∈ log, (state.entry observedAt).Precedes policy.windowMs entry)
    (hcount : state.accepted + (log.filter (·.started = state.windowStarted)).length ≤
      policy.maxAttempts) :
    row.acceptedCount + (log.filter (·.started = row.windowStartedAt)).length ≤
      policy.maxAttempts := by
  rcases loadRateState_follows hload hrow with ⟨hs, he, ha⟩ | ⟨hle, hnext, -, hcounted⟩
  · rwa [hs, ha] at hcount
  · -- nothing later is counted in a window that has ended
    have hnone : log.filter (·.started = row.windowStartedAt) = [] := by
      rw [List.filter_eq_nil_iff]
      intro entry hentry hsame
      obtain ⟨hstarted, hends, -⟩ := loadRateState_holds hload
      have hsame : entry.started = row.windowStartedAt := by simpa using hsame
      rcases hafter entry hentry with ⟨hs, -⟩ | ⟨hs, -⟩
      · dsimp only [RateState.entry] at hs
        omega
      · dsimp only [RateState.entry] at hs
        omega
    rw [hnone]
    exact hcounted

/-- A counted attempt in front of a log. -/
theorem KeyLog.cons (hload : loadRateState s policy subject observedAt = .ok state)
    (hadmitted : admitted = true → state.canAccept policy = true)
    (hlog : KeyLog policy [state.written policy observedAt admitted] log) :
    KeyLog policy (s.windowsOf (subject.key policy.rateClass))
      ((if admitted then [state.entry observedAt] else []) ++ log) := by
  have hafter : ∀ entry ∈ log, (state.entry observedAt).Precedes policy.windowMs entry :=
    fun entry hentry => (hlog.current _ rfl (List.ne_nil_of_mem hentry)).2 entry hentry
  obtain ⟨hstarted, hends, hcounted⟩ := loadRateState_holds hload
  -- what the written row says of the rest of the log
  have hrest : state.accepted + admitted.toNat +
      (log.filter (·.started = state.windowStarted)).length ≤ policy.maxAttempts := by
    by_cases hnil : log = []
    · subst hnil
      cases admitted with
      | false => simpa using hcounted
      | true =>
          have hroom : state.accepted < policy.maxAttempts := by
            simpa [RateState.canAccept] using hadmitted rfl
          exact hroom
    · exact (hlog.current _ rfl hnil).1
  cases admitted with
  | false =>
      refine ⟨hlog.held, hlog.spaced, hlog.counted, fun row hrow _ => ⟨?_, ?_⟩⟩
      · exact counted_of_loaded hload hrow hafter hrest
      · exact fun entry hentry => precedes_of_loaded hload hrow (hafter entry hentry)
  | true =>
      have hafter' : ∀ entry ∈ state.entry observedAt :: log,
          (state.entry observedAt).Precedes policy.windowMs entry := by
        intro entry hentry
        rcases List.mem_cons.mp hentry with rfl | hentry
        · exact .inl ⟨rfl, rfl⟩
        · exact hafter entry hentry
      have hcons : state.accepted + ((state.entry observedAt :: log).filter
          (·.started = state.windowStarted)).length ≤ policy.maxAttempts := by
        rw [List.filter_cons, if_pos (by simp [RateState.entry]), List.length_cons]
        simp only [Bool.toNat_true] at hrest
        omega
      refine ⟨?_, ?_, ?_, fun row hrow _ => ⟨?_, ?_⟩⟩
      · intro entry hentry
        rcases List.mem_cons.mp hentry with rfl | hentry
        · exact ⟨hstarted, hends⟩
        · exact hlog.held entry hentry
      · exact List.pairwise_cons.mpr ⟨hafter, hlog.spaced⟩
      · intro started
        by_cases hsame : started = state.windowStarted
        · subst hsame
          exact Nat.le_trans (Nat.le_add_left _ _) hcons
        · have hskip : ((state.entry observedAt :: log).filter (·.started = started)) =
              log.filter (·.started = started) := by
            rw [List.filter_cons, if_neg fun h => hsame (of_decide_eq_true h).symm]
          exact hskip ▸ hlog.counted started
      · exact counted_of_loaded hload hrow hafter' hcons
      · exact fun entry hentry => precedes_of_loaded hload hrow (hafter' entry hentry)

end

/-! ## The log of a sequence -/

section
variable {policy : RateLimitPolicy} {s : Store} {attempt : Attempt}

theorem entriesOf_append (key : RateKey) (first second : List Admission) :
    entriesOf key (first ++ second) = entriesOf key first ++ entriesOf key second := by
  simp [entriesOf]

theorem entriesOf_of_not_mem {key : RateKey} {keys : List RateKey} (hkey : key ∉ keys)
    (s : Store) (now : ℕ) : entriesOf key (keys.map (s.admission now)) = [] := by
  unfold entriesOf
  rw [List.map_eq_nil_iff, List.filter_eq_nil_iff]
  intro admission hadmission
  obtain ⟨other, hother, rfl⟩ := List.mem_map.mp hadmission
  intro heq
  have heq : other = key := of_decide_eq_true heq
  exact hkey (heq ▸ hother)

theorem entriesOf_of_mem {key : RateKey} {keys : List RateKey} (hkeys : keys.Nodup)
    (hkey : key ∈ keys) (s : Store) (now : ℕ) :
    entriesOf key (keys.map (s.admission now)) = [(s.admission now key).entry] := by
  induction keys with
  | nil => cases hkey
  | cons first rest ih =>
      rw [List.nodup_cons] at hkeys
      rw [List.map_cons, ← List.singleton_append, entriesOf_append]
      rcases List.mem_cons.mp hkey with rfl | hrest
      · rw [entriesOf_of_not_mem hkeys.1]
        simp [entriesOf, Store.admission]
      · have hne : first ≠ key := fun heq => hkeys.1 (heq ▸ hrest)
        rw [ih hkeys.2 hrest]
        simp [entriesOf, Store.admission, hne]

/-- The admissions of a subject go on from its stored window. -/
theorem keyLog_admissions (policy : RateLimitPolicy) (key : RateKey) (attempts : List Attempt) :
    ∀ s : Store, KeyLog policy (s.windowsOf key) (entriesOf key (admissions policy s attempts)) := by
  induction attempts with
  | nil => exact fun s => .nil policy _
  | cons attempt rest ih =>
      intro s
      have hrest := ih (attempt.perform policy s)
      rw [admissions, entriesOf_append]
      rcases attempt.perform_cases policy s with ⟨hsame, hadmitted⟩ | ⟨s₁, hcounted, hwindows⟩
      · rw [hadmitted]
        rw [hsame] at hrest ⊢
        exact hrest
      · have hof : (attempt.perform policy s).windowsOf key = s₁.windowsOf key := by
          unfold Store.windowsOf
          rw [hwindows]
        rw [hof] at hrest
        by_cases hkey : key ∈ attempt.keys policy
        · obtain ⟨subject, hsubject, rfl⟩ := List.mem_map.mp hkey
          obtain ⟨state, hload, -, hwritten⟩ := hcounted.touched subject hsubject
          rw [hwritten] at hrest
          have hentry : entriesOf (subject.key policy.rateClass)
              (if attempt.admitted policy s then
                (attempt.keys policy).map
                  ((attempt.perform policy s).admission attempt.evidence.occurredAt.get)
              else []) =
              if attempt.admitted policy s then [state.entry attempt.evidence.occurredAt] else [] := by
            split
            next =>
              rw [Attempt.keys, entriesOf_of_mem hcounted.distinct hkey]
              simp [Store.admission, hof, hwritten, RateState.entry, RateState.written,
                RateState.row]
            next => rfl
          rw [hentry]
          exact .cons hload (fun h => hcounted.decided.mp h subject hsubject state hload) hrest
        · rw [hcounted.others key hkey] at hrest
          have hnone : entriesOf key
              (if attempt.admitted policy s then
                (attempt.keys policy).map
                  ((attempt.perform policy s).admission attempt.evidence.occurredAt.get)
              else []) = [] := by
            split
            next => exact entriesOf_of_not_mem hkey _ _
            next => rfl
          rw [hnone]
          exact hrest

end

/-! ## The windows along a sequence -/

/-- The window of a row, at the last attempt it counts. -/
def RateWindowRow.entry (row : RateWindowRow) : Window.Entry :=
  ⟨row.lastObservedAt, row.windowStartedAt, row.windowEndsAt⟩

section
variable {policy : RateLimitPolicy} {s : Store} {key : RateKey} {row : RateWindowRow}

/-- An attempt leaves a subject its window, or one that begins after the end of it. -/
theorem Attempt.perform_precedes (attempt : Attempt) (hrow : s.windowsOf key = [row]) :
    ∃ row', (attempt.perform policy s).windowsOf key = [row'] ∧
      row.entry.Precedes policy.windowMs row'.entry := by
  rcases attempt.perform_cases policy s with ⟨hsame, -⟩ | ⟨s₁, hcounted, hwindows⟩
  · rw [hsame]
    exact ⟨row, hrow, .refl _⟩
  · have hof : (attempt.perform policy s).windowsOf key = s₁.windowsOf key := by
      unfold Store.windowsOf
      rw [hwindows]
    rw [hof]
    by_cases hkey : key ∈ attempt.keys policy
    · obtain ⟨subject, hsubject, rfl⟩ := List.mem_map.mp hkey
      obtain ⟨state, hload, -, hwritten⟩ := hcounted.touched subject hsubject
      refine ⟨_, hwritten, ?_⟩
      rcases loadRateState_follows hload hrow with ⟨hstarted, hends, -⟩ | ⟨-, hafter, hwide, -⟩
      · exact .inl ⟨hstarted, hends⟩
      · exact .inr ⟨hafter, hwide⟩
    · rw [hcounted.others key hkey]
      exact ⟨row, hrow, .refl _⟩

theorem Attempt.after_precedes (attempts : List Attempt) :
    ∀ {s : Store} {row : RateWindowRow}, s.windowsOf key = [row] →
      ∃ row', (Run.after (Attempt.perform policy) s attempts).windowsOf key = [row'] ∧
        row.entry.Precedes policy.windowMs row'.entry := by
  induction attempts with
  | nil => exact fun {s row} hrow => ⟨row, hrow, .refl _⟩
  | cons attempt rest ih =>
      intro s row hrow
      obtain ⟨between, hbetween, hfirst⟩ := @Attempt.perform_precedes policy s key row attempt hrow
      obtain ⟨row', hrow', hrest⟩ := ih hbetween
      exact ⟨row', hrow', hfirst.trans hrest⟩

end

/-! ## Replays -/

/-- The same correlation, operation and kind. -/
structure Attempt.Repeats (again attempt : Attempt) : Prop where
  correlation : again.evidence.correlation = attempt.evidence.correlation
  operationId : again.evidence.operationId = attempt.evidence.operationId
  auditKind : again.auditKind = attempt.auditKind

/-- The attempt is refused. -/
def Attempt.refused (policy : RateLimitPolicy) (s : Store) (attempt : Attempt) : Prop :=
  ((attempt.body policy).atomically s).1 = .ok false

section
variable {policy : RateLimitPolicy} {s s' : Store} {attempt again : Attempt}

theorem Attempt.Repeats.auditId_eq (h : again.Repeats attempt) : again.auditId = attempt.auditId := by
  rw [Attempt.auditId, Attempt.auditId, h.correlation, h.auditKind]

/-- While a record of its identity is kept, an attempt changes nothing and is not admitted. -/
theorem Attempt.perform_of_recorded (hrow : ∃ row ∈ s.audit, row.auditId = attempt.auditId) :
    attempt.perform policy s = s ∧ attempt.admitted policy s = false := by
  cases hrun : (attempt.body policy).run s with
  | error e => simp [Attempt.perform, Attempt.admitted, atomically_of_error hrun]
  | ok result =>
      obtain ⟨admitted, s'⟩ := result
      obtain ⟨-, ⟨rfl, rfl, -⟩ | ⟨hnone, -⟩⟩ := governRateAttempt_cases hrun
      · simp [Attempt.perform, Attempt.admitted, atomically_of_ok hrun]
      · obtain ⟨row, hrow, hid⟩ := hrow
        exact absurd hid (readAuditById_eq_none.mp hnone row hrow)

theorem Attempt.run_of_refused (h : attempt.refused policy s) :
    (attempt.body policy).run s = .ok (false, attempt.perform policy s) := by
  cases hrun : (attempt.body policy).run s with
  | error e =>
      rw [Attempt.refused, atomically_of_error hrun] at h
      cases h
  | ok result =>
      obtain ⟨admitted, s'⟩ := result
      rw [Attempt.refused, atomically_of_ok hrun] at h
      cases h
      rw [Attempt.perform, atomically_of_ok hrun]

/-- A refused attempt has left its record. -/
theorem Attempt.recorded_of_refused (h : attempt.refused policy s) :
    ∃ row ∈ (attempt.perform policy s).audit, row.auditId = attempt.auditId := by
  have hrun := Attempt.run_of_refused h
  obtain ⟨-, ⟨-, hsame, record, hrecord, -⟩ | ⟨hnone, s₁, hcounted, hend⟩⟩ :=
    governRateAttempt_cases hrun
  · rw [hsame]
    by_contra hcon
    have hnone := readAuditById_eq_none.mpr fun row hrow hid => hcon ⟨row, hrow, hid⟩
    rw [Attempt.auditId, hrecord] at hnone
    cases hnone
  · rcases hend with ⟨hcon, -⟩ | ⟨-, hrecord⟩
    · cases hcon
    · have haudit : s₁.audit = s.audit := by rw [hcounted.frame]
      rw [readAuditById_eq_none, ← haudit, ← readAuditById_eq_none] at hnone
      obtain ⟨-, hperform⟩ := (run_recordAudit_fresh hnone).mp hrecord
      rw [hperform]
      exact ⟨_, List.mem_append_right _ (List.mem_singleton_self _), rfl⟩

/-- A readable refusal is repeated. -/
theorem Attempt.run_of_readable {record : AuditRecord}
    (hrecord : readAuditById s attempt.auditId = .ok (some record))
    (hrefusal : RefusalOf attempt.evidence attempt.auditKind record)
    (hsubjects : attempt.subjects ≠ [] ∧ attempt.subjects.length ≤ 2) :
    (attempt.body policy).run s = .ok (false, s) := by
  unfold Attempt.body governRateAttempt
  refine run_require_bind_eq_ok.mpr ⟨⟨rfl, hsubjects⟩, ?_⟩
  refine run_query_bind_eq_ok.mpr ⟨some record, hrecord, ?_⟩
  exact run_require_bind_eq_ok.mpr ⟨hrefusal, rfl⟩

/-- The attempt is made for a stored request, with its correlation. -/
def Attempt.OfRequest (attempt : Attempt) (s : Store) : Prop :=
  ∃ operationId request, attempt.evidence.operationId = some operationId ∧
    (s.requests.filter fun row => row.operationId = operationId) = [request] ∧
    request.correlationId = attempt.evidence.correlation

/-- The refusal of a request's attempt is readable. -/
theorem Attempt.readable_of_refused (h : attempt.refused policy s) (hrequest : attempt.OfRequest s) :
    ∃ record, readAuditById (attempt.perform policy s) attempt.auditId = .ok (some record) ∧
      RefusalOf attempt.evidence attempt.auditKind record := by
  have hrun := Attempt.run_of_refused h
  obtain ⟨-, ⟨-, hsame, record, hrecord, hrefusal⟩ | ⟨hnone, s₁, hcounted, hend⟩⟩ :=
    governRateAttempt_cases hrun
  · exact ⟨record, by rw [hsame]; exact hrecord, hrefusal⟩
  · rcases hend with ⟨hcon, -⟩ | ⟨-, hrecord⟩
    · cases hcon
    · have haudit : s₁.audit = s.audit := by rw [hcounted.frame]
      have hrequests : s₁.requests = s.requests := by rw [hcounted.frame]
      rw [readAuditById_eq_none, ← haudit, ← readAuditById_eq_none] at hnone
      obtain ⟨hrecordable, hperform⟩ := (run_recordAudit_fresh hnone).mp hrecord
      obtain ⟨operationId, request, hoperation, hfilter, hcorrelation⟩ := hrequest
      rw [← hrequests] at hfilter
      rw [hperform]
      exact ⟨_, hrecordable.readable hnone hoperation hfilter hcorrelation, rfl,
        hoperation.symm, rfl, rfl, rfl⟩

/-- An attempt keeps every record that is there, and what is read of it. -/
theorem Attempt.perform_reads {auditId : Id32} (hrow : ∃ row ∈ s.audit, row.auditId = auditId) :
    (∃ row ∈ (attempt.perform policy s).audit, row.auditId = auditId) ∧
      readAuditById (attempt.perform policy s) auditId = readAuditById s auditId := by
  cases hrun : (attempt.body policy).run s with
  | error e =>
      rw [Attempt.perform, atomically_of_error hrun]
      exact ⟨hrow, rfl⟩
  | ok result =>
      obtain ⟨admitted, s'⟩ := result
      rw [Attempt.perform, atomically_of_ok hrun]
      dsimp only
      obtain ⟨-, ⟨-, rfl, -⟩ | ⟨hnone, s₁, hcounted, hend⟩⟩ := governRateAttempt_cases hrun
      · exact ⟨hrow, rfl⟩
      · have hreads : readAuditById s₁ auditId = readAuditById s auditId := by
          rw [hcounted.frame]
          rfl
        have haudit : s₁.audit = s.audit := by rw [hcounted.frame]
        rw [← haudit] at hrow
        rcases hend with ⟨-, rfl⟩ | ⟨-, hrecord⟩
        · exact ⟨hrow, hreads⟩
        · rw [readAuditById_eq_none, ← haudit, ← readAuditById_eq_none] at hnone
          obtain ⟨hrecordable, rfl⟩ := (run_recordAudit_fresh hnone).mp hrecord
          obtain ⟨row, hrow, rfl⟩ := hrow
          have hne := readAuditById_eq_none.mp hnone row hrow
          exact ⟨⟨row, List.mem_append_left _ hrow, rfl⟩,
            (readAuditById_recorded_of_ne hrecordable hne).trans hreads⟩

theorem Attempt.after_reads {auditId : Id32} (attempts : List Attempt) :
    ∀ {s : Store}, (∃ row ∈ s.audit, row.auditId = auditId) →
      readAuditById (Run.after (Attempt.perform policy) s attempts) auditId =
        readAuditById s auditId := by
  induction attempts with
  | nil => exact fun _ => rfl
  | cons attempt rest ih =>
      intro s hrow
      obtain ⟨hkept, hreads⟩ := @Attempt.perform_reads policy s attempt auditId hrow
      exact (ih hkept).trans hreads

end

/-! ## The limit -/

/-- The admissions of every subject keep within the limit. -/
structure RateLimited (policy : RateLimitPolicy) (log : List Admission) : Prop where
  held : ∀ key, ∀ entry ∈ entriesOf key log, entry.started ≤ entry.time ∧ entry.time ≤ entry.ends
  perWindow : ∀ key started,
    ((entriesOf key log).filter (·.started = started)).length ≤ policy.maxAttempts
  disjoint : ∀ key, (entriesOf key log).Pairwise fun earlier later =>
    (later.started = earlier.started ∧ later.ends = earlier.ends) ∨ earlier.ends < later.started
  perInterval : ∀ key start,
    ((entriesOf key log).filter fun entry =>
      start ≤ entry.time ∧ entry.time ≤ start + policy.windowMs).length ≤ 2 * policy.maxAttempts

/-- The stored windows of a subject do not overlap: each that it has after some of the attempts is
still there after the others, or one that begins after its end is. -/
def WindowsSucceed (policy : RateLimitPolicy) (s : Store) (attempts : List Attempt) : Prop :=
  ∀ first rest key row, attempts = first ++ rest →
    (Run.after (Attempt.perform policy) s first).windowsOf key = [row] →
      ∃ row', (Run.after (Attempt.perform policy) s attempts).windowsOf key = [row'] ∧
        ((row'.windowStartedAt = row.windowStartedAt ∧ row'.windowEndsAt = row.windowEndsAt) ∨
          row.windowEndsAt < row'.windowStartedAt)

/-- What a subject was ever admitted for. -/
def Store.lifetimeAccepted (s : Store) (key : RateKey) : ℕ :=
  ((s.windowsOf key).map (·.lifetimeAcceptedCount)).sum

/-- What a subject was admitted for in the window that holds an instant. -/
def Store.acceptedAt (s : Store) (now : ℕ) (key : RateKey) : ℕ :=
  (((s.windowsOf key).filter (now ≤ ·.windowEndsAt)).map (·.acceptedCount)).sum

/-- Every subject of the attempt is counted once, or none is. -/
def Attempt.CountsTogether (policy : RateLimitPolicy) (s : Store) (attempt : Attempt) : Prop :=
  ∀ key ∈ attempt.keys policy,
    (attempt.perform policy s).lifetimeAccepted key =
        s.lifetimeAccepted key + (attempt.admitted policy s).toNat ∧
      (attempt.perform policy s).acceptedAt attempt.evidence.occurredAt.get key =
        s.acceptedAt attempt.evidence.occurredAt.get key + (attempt.admitted policy s).toNat

/-- A refused attempt leaves a record, and while a store has it, repeating the attempt changes
nothing and admits nothing.  A request's refusal is repeated as such after any attempts. -/
def Attempt.StaysRefused (policy : RateLimitPolicy) (s : Store) (attempt : Attempt) : Prop :=
  attempt.refused policy s →
    (∃ row ∈ (attempt.perform policy s).audit, row.auditId = attempt.auditId) ∧
    (∀ later : Store, (∃ row ∈ later.audit, row.auditId = attempt.auditId) →
      ∀ again : Attempt, again.Repeats attempt →
        again.perform policy later = later ∧ again.admitted policy later = false) ∧
    (attempt.OfRequest s → ∀ (rest : List Attempt) (again : Attempt), again.Repeats attempt →
      again.subjects ≠ [] ∧ again.subjects.length ≤ 2 →
      let later := Run.after (Attempt.perform policy) (attempt.perform policy s) rest
      (again.body policy).atomically later = (.ok false, later))

section
variable {policy : RateLimitPolicy}

theorem rateLimited_admissions (policy : RateLimitPolicy) (s : Store) (attempts : List Attempt) :
    RateLimited policy (admissions policy s attempts) := by
  have hlog := fun key => keyLog_admissions policy key attempts s
  refine ⟨fun key => (hlog key).held, fun key => (hlog key).counted, fun key => ?_, fun key => ?_⟩
  · refine (hlog key).spaced.imp ?_
    rintro earlier later (hsame | ⟨hafter, -⟩)
    · exact .inl hsame
    · exact .inr hafter
  · exact Window.length_within_le (hlog key).spaced (hlog key).held (hlog key).counted

theorem windowsSucceed (policy : RateLimitPolicy) (s : Store) (attempts : List Attempt) :
    WindowsSucceed policy s attempts := by
  rintro first rest key row rfl hrow
  obtain ⟨row', hrow', hfollows⟩ := Attempt.after_precedes rest hrow
  refine ⟨row', (congrArg (Store.windowsOf · key) (Run.after_append ..)).trans hrow', ?_⟩
  exact hfollows.imp_right And.left

theorem Attempt.countsTogether (policy : RateLimitPolicy) (s : Store) (attempt : Attempt) :
    attempt.CountsTogether policy s := by
  intro key hkey
  rcases attempt.perform_cases policy s with ⟨hsame, hadmitted⟩ | ⟨s₁, hcounted, hwindows⟩
  · rw [hsame, hadmitted]
    exact ⟨rfl, rfl⟩
  · have hof : (attempt.perform policy s).windowsOf key = s₁.windowsOf key := by
      unfold Store.windowsOf
      rw [hwindows]
    obtain ⟨subject, hsubject, rfl⟩ := List.mem_map.mp hkey
    obtain ⟨state, hload, -, hwritten⟩ := hcounted.touched subject hsubject
    obtain ⟨-, hends, -⟩ := loadRateState_holds hload
    unfold Store.lifetimeAccepted Store.acceptedAt
    rw [hof, hwritten]
    rcases loadRateState_eq_ok.mp hload with
      ⟨hnil, -, -, rfl⟩ | ⟨row, hrow, -, ⟨hended, -, rfl⟩ | ⟨hrunning, rfl⟩⟩
    · simp [hnil, RateState.written, RateState.row, newRateState]
    · simp [hrow, RateState.written, RateState.row, RateWindowRow.rolled, newRateState,
        Nat.not_le.mpr hended]
    · simp [hrow, RateState.written, RateState.row, RateWindowRow.continued, hrunning]

theorem Attempt.staysRefused (policy : RateLimitPolicy) (s : Store) (attempt : Attempt) :
    attempt.StaysRefused policy s := by
  intro hrefused
  have hrecorded := Attempt.recorded_of_refused hrefused
  refine ⟨hrecorded, ?_, ?_⟩
  · intro later hlater again hagain
    refine Attempt.perform_of_recorded ?_
    rw [hagain.auditId_eq]
    exact hlater
  · intro hrequest rest again hagain hsubjects
    obtain ⟨record, hread, hrefusal⟩ := Attempt.readable_of_refused hrefused hrequest
    refine atomically_of_ok (Attempt.run_of_readable
      ?_ (?_ : RefusalOf again.evidence again.auditKind record) hsubjects)
    · rw [hagain.auditId_eq, Attempt.after_reads rest hrecorded]
      exact hread
    · unfold RefusalOf at hrefusal ⊢
      rw [hagain.correlation, hagain.operationId, hagain.auditKind]
      exact hrefusal

end

/-- Under one policy, whatever attempts are made in whatever order: no window of a subject
admits more than the limit, its windows do not overlap, and no interval as long as a window
holds more than twice the limit; the subjects of an attempt are counted together; and a
refused correlation stays refused. -/
theorem attempts_rate_limited (policy : RateLimitPolicy) (s : Store) (attempts : List Attempt) :
    RateLimited policy (admissions policy s attempts) ∧ WindowsSucceed policy s attempts ∧
      Run.EveryStep (Attempt.perform policy)
        (fun s attempt => attempt.CountsTogether policy s ∧ attempt.StaysRefused policy s)
        s attempts := by
  refine ⟨rateLimited_admissions policy s attempts, windowsSucceed policy s attempts, ?_⟩
  induction attempts generalizing s with
  | nil => trivial
  | cons attempt rest ih =>
      exact ⟨⟨attempt.countsTogether policy s, attempt.staysRefused policy s⟩,
        ih (attempt.perform policy s)⟩

end MycSigner
