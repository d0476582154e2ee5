import MycSigner.Governance.AuditPages
import MycSigner.Governance.Healing

/-!
# Attempts after a compaction

A compaction removes rate windows that have expired and audit records that are old.  Two runs
are compared from one store, one of them compacted, over the same later attempts.  While the
run without the compaction decides its attempts the other decides them alike: a window that was
removed had ended, and a subject that lost its window is tracked again without a refusal.
-/

namespace MycSigner

open Transaction

/-! ## Windows under fixed policies -/

namespace GovernancePolicies

/-- The policy of a class. -/
def policy (governance : GovernancePolicies) : RateLimitClass → RateLimitPolicy
  | .connectionAdmission => governance.connectionAdmission
  | .challengeCreation => governance.challengeCreation
  | .challengeAuthorization => governance.challengeAuthorization

theorem policy_class (governance : GovernancePolicies) (rateClass : RateLimitClass) :
    (governance.policy rateClass).rateClass = rateClass := by
  cases rateClass with
  | connectionAdmission => exact governance.admission_class
  | challengeCreation => exact governance.creation_class
  | challengeAuthorization => exact governance.authorization_class

end GovernancePolicies

/-- A policy of a configuration is the one of its class. -/
theorem Configuration.policy_eq {config : Configuration} {policy : RateLimitPolicy}
    (h : policy ∈ config.ratePolicies) : config.governance.policy policy.rateClass = policy := by
  simp only [Configuration.ratePolicies, List.mem_cons, List.not_mem_nil, or_false] at h
  rcases h with rfl | rfl | rfl
  · rw [config.governance.admission_class]
    rfl
  · rw [config.governance.creation_class]
    rfl
  · rw [config.governance.authorization_class]
    rfl

/-- The keys of a class that are tracked in a scope. -/
def Store.trackedKeys (s : Store) (rateClass : RateLimitClass) (scope : SubjectScope) :
    List RateKey :=
  (s.rateWindows.filter fun row => row.rateKind = rateClass ∧ row.subjectScope = scope).map
    RateWindowRow.key

/-- The windows of a store whose attempts were all counted under these policies. -/
structure PolicyWindows (governance : GovernancePolicies) (s : Store) : Prop where
  spans : ∀ row ∈ s.rateWindows,
    row.windowEndsAt ≤ row.windowStartedAt + (governance.policy row.rateKind).windowMs
  retained : ∀ row ∈ s.rateWindows,
    row.lastObservedAt + (governance.policy row.rateKind).retentionMs ≤ row.retentionExpiresAt
  tracked : ∀ rateClass scope, scope ≠ .global →
    (s.trackedKeys rateClass scope).length ≤
      (governance.policy rateClass).maximumTrackedSubjects

section
variable {s s' : Store} {rateClass : RateLimitClass} {scope : SubjectScope} {key : RateKey}

theorem mem_trackedKeys :
    key ∈ s.trackedKeys rateClass scope ↔
      s.windowsOf key ≠ [] ∧ key.rateKind = rateClass ∧ key.subjectScope = scope := by
  unfold Store.trackedKeys Store.windowsOf
  simp only [List.mem_map, List.mem_filter, decide_eq_true_eq, ne_eq, List.filter_eq_nil_iff,
    not_forall, not_not]
  constructor
  · rintro ⟨row, ⟨hrow, hclass, hscope⟩, rfl⟩
    exact ⟨⟨row, hrow, rfl⟩, hclass, hscope⟩
  · rintro ⟨⟨row, hrow, rfl⟩, hclass, hscope⟩
    exact ⟨row, ⟨hrow, hclass, hscope⟩, rfl⟩

/-- A key is tracked once. -/
theorem WindowInv.trackedKeys_nodup (inv : WindowInv s) (rateClass : RateLimitClass)
    (scope : SubjectScope) : (s.trackedKeys rateClass scope).Nodup := by
  unfold Store.trackedKeys
  refine List.Nodup.sublist (List.filter_sublist.map _) ?_
  have hsingle := inv.single
  unfold Store.windowsOf at hsingle
  rw [List.nodup_iff_count_le_one]
  intro key
  rw [List.count_eq_countP, List.countP_map, List.countP_eq_length_filter]
  exact hsingle key

theorem Store.tracks_iff {policy : RateLimitPolicy} {subject : RateSubject} :
    s.Tracks policy subject ↔ subject.scope = .global ∨
      (s.trackedKeys policy.rateClass subject.scope).length < policy.maximumTrackedSubjects := by
  unfold Store.Tracks Store.trackedKeys
  rw [List.length_map]

/-- The end of a window is not after its retention. -/
theorem PolicyWindows.ends_retained {governance : GovernancePolicies}
    (inv : PolicyWindows governance s) (hwindows : WindowInv s) {row : RateWindowRow}
    (hrow : row ∈ s.rateWindows) : row.windowEndsAt ≤ row.retentionExpiresAt := by
  have hspans := inv.spans row hrow
  have hretained := inv.retained row hrow
  have hstarted := (rateWindowCheck_iff.mp (hwindows.checked row hrow)).2.2.2.2.2.2.2.2.2.1
  have hpolicy := (governance.policy row.rateKind).bounds.2.2.1.1
  omega

/-- A loaded window is not longer than its policy says. -/
theorem loadRateState_span {policy : RateLimitPolicy} {subject : RateSubject}
    {observedAt : TimeUnixMs} {state : RateState}
    (hload : loadRateState s policy subject observedAt = .ok state)
    (hspans : ∀ row ∈ s.windowsOf (subject.key policy.rateClass),
      row.windowEndsAt ≤ row.windowStartedAt + policy.windowMs) :
    state.windowEnds ≤ state.windowStarted + policy.windowMs := by
  rcases loadRateState_eq_ok.mp hload with
    ⟨-, -, -, rfl⟩ | ⟨row, hrow, -, ⟨-, -, rfl⟩ | ⟨-, rfl⟩⟩
  · exact Nat.le_refl _
  · exact Nat.le_refl _
  · exact hspans row (by simp [hrow])

/-- The keys that an attempt tracks afresh were admitted one in each scope. -/
theorem PolicyWindows.counted {governance : GovernancePolicies} {policy : RateLimitPolicy}
    (hpolicy : governance.policy policy.rateClass = policy) {subjects : List RateSubject}
    {observedAt : TimeUnixMs} {admitted : Bool} (hdistinct : (subjects.map RateSubject.scope).Nodup)
    (hcounted : Counted policy subjects observedAt admitted s s') (hwindows : WindowInv s)
    (hwindows' : WindowInv s') (inv : PolicyWindows governance s) : PolicyWindows governance s' := by
  have hspans : ∀ subject : RateSubject, ∀ row ∈ s.windowsOf (subject.key policy.rateClass),
      row.windowEndsAt ≤ row.windowStartedAt + policy.windowMs := by
    intro subject row hrow
    obtain ⟨hmem, hkey⟩ := WindowInv.mem_windowsOf.mp hrow
    have hkind : row.rateKind = policy.rateClass := congrArg RateKey.rateKind hkey
    have hspan := inv.spans row hmem
    rwa [hkind, hpolicy] at hspan
  have hrows : ∀ row ∈ s'.rateWindows, row ∈ s.rateWindows ∨
      row.rateKind = policy.rateClass ∧
        row.windowEndsAt ≤ row.windowStartedAt + policy.windowMs ∧
        row.retentionExpiresAt = row.lastObservedAt + policy.retentionMs := by
    intro row hrow
    have hmem : row ∈ s'.windowsOf row.key := WindowInv.mem_windowsOf.mpr ⟨hrow, rfl⟩
    by_cases htouched : row.key ∈ subjects.map (·.key policy.rateClass)
    · obtain ⟨subject, hsubject, hkey⟩ := List.mem_map.mp htouched
      obtain ⟨state, hload, -, hwritten⟩ := hcounted.touched subject hsubject
      rw [← hkey, hwritten, List.mem_singleton] at hmem
      rw [hmem]
      exact .inr ⟨rfl, loadRateState_span hload (hspans subject), rfl⟩
    · rw [hcounted.others _ htouched] at hmem
      exact .inl (WindowInv.mem_windowsOf.mp hmem).1
  refine ⟨?_, ?_, ?_⟩
  · intro row hrow
    rcases hrows row hrow with hold | ⟨hkind, hspan, -⟩
    · exact inv.spans row hold
    · rwa [hkind, hpolicy]
  · intro row hrow
    rcases hrows row hrow with hold | ⟨hkind, -, hretention⟩
    · exact inv.retained row hold
    · rw [hkind, hpolicy, hretention]
  · intro rateClass scope hscope
    have hnodup := hwindows'.trackedKeys_nodup rateClass scope
    by_cases hnew : ∃ subject ∈ subjects, subject.scope = scope ∧ policy.rateClass = rateClass ∧
        s.windowsOf (subject.key policy.rateClass) = []
    · obtain ⟨subject, hsubject, rfl, rfl, hnil⟩ := hnew
      obtain ⟨state, hload, -⟩ := hcounted.touched subject hsubject
      have htracks : s.Tracks policy subject :=
        (hwindows.loadRateState_iff.mp hload).2.2.1 hnil
      have hroom := (Store.tracks_iff.mp htracks).resolve_left hscope
      have hsub : s'.trackedKeys policy.rateClass subject.scope ⊆
          subject.key policy.rateClass :: s.trackedKeys policy.rateClass subject.scope := by
        intro key hkey
        obtain ⟨hwindow, hclass, hkeyScope⟩ := mem_trackedKeys.mp hkey
        by_cases htouched : key ∈ subjects.map (·.key policy.rateClass)
        · obtain ⟨other, hother, rfl⟩ := List.mem_map.mp htouched
          have hsame : other = subject :=
            List.inj_on_of_nodup_map hdistinct hother hsubject hkeyScope
          rw [hsame]
          exact List.mem_cons_self
        · rw [hcounted.others _ htouched] at hwindow
          exact List.mem_cons_of_mem _ (mem_trackedKeys.mpr ⟨hwindow, hclass, hkeyScope⟩)
      have hlength := (List.subperm_of_subset hnodup hsub).length_le
      rw [List.length_cons] at hlength
      rw [hpolicy]
      omega
    · have hsub : s'.trackedKeys rateClass scope ⊆ s.trackedKeys rateClass scope := by
        intro key hkey
        obtain ⟨hwindow, hclass, hkeyScope⟩ := mem_trackedKeys.mp hkey
        refine mem_trackedKeys.mpr ⟨?_, hclass, hkeyScope⟩
        by_cases htouched : key ∈ subjects.map (·.key policy.rateClass)
        · obtain ⟨subject, hsubject, rfl⟩ := List.mem_map.mp htouched
          exact fun hnil => hnew ⟨subject, hsubject, hkeyScope, hclass, hnil⟩
        · rwa [hcounted.others _ htouched] at hwindow
      exact (List.subperm_of_subset hnodup hsub).length_le.trans
        (inv.tracked rateClass scope hscope)

end

namespace PolicyWindows

variable {governance : GovernancePolicies} {s s' : Store}

theorem of_rateWindows (inv : PolicyWindows governance s) (h : s'.rateWindows = s.rateWindows) :
    PolicyWindows governance s' := by
  refine ⟨?_, ?_, ?_⟩
  · rw [h]
    exact inv.spans
  · rw [h]
    exact inv.retained
  · unfold Store.trackedKeys
    rw [h]
    exact inv.tracked

theorem compacted (inv : PolicyWindows governance s) (sequences : List ℕ)
    (windows : List RateWindowRow) : PolicyWindows governance (s.compacted sequences windows) where
  spans := fun row hrow => inv.spans row (List.mem_filter.mp hrow).1
  retained := fun row hrow => inv.retained row (List.mem_filter.mp hrow).1
  tracked := by
    intro rateClass scope hscope
    have hsub : ((s.compacted sequences windows).trackedKeys rateClass scope).Sublist
        (s.trackedKeys rateClass scope) := (List.filter_sublist.filter _).map _
    exact hsub.length_le.trans (inv.tracked rateClass scope hscope)

/-- The windows in good order, counted under the policies in force. -/
theorem governance_invariant (config : Configuration) :
    GovernanceInvariant config fun s => WindowInv s ∧ PolicyWindows config.governance s where
  grows := fun htrail _ inv =>
    ⟨inv.1.of_rateWindows (congrArg (·.2.2.2) htrail),
      inv.2.of_rateWindows (congrArg (·.2.2.2) htrail)⟩
  recorded := fun _ _ _ inv => ⟨inv.1.of_rateWindows rfl, inv.2.of_rateWindows rfl⟩
  counted := fun hpolicy hscopes hdistinct hcounted inv =>
    have hwindows := inv.1.counted hscopes hcounted
    ⟨hwindows, inv.2.counted (Configuration.policy_eq hpolicy) hdistinct hcounted inv.1 hwindows⟩
  compacted := fun sequences windows inv =>
    ⟨inv.1.compacted sequences windows, inv.2.compacted sequences windows⟩

theorem initial (metadata : PersistedMetadata) (appliedAtUnixS : ℕ) :
    PolicyWindows governance (Store.initial metadata appliedAtUnixS) where
  spans := fun _ h => absurd h List.not_mem_nil
  retained := fun _ h => absurd h List.not_mem_nil
  tracked := fun _ _ _ => Nat.zero_le _

end PolicyWindows

/-- The event leaves the governance policies as they are. -/
def Event.KeepsGovernance (governance : GovernancePolicies) : Event → Prop
  | .operation _ => True
  | .apply candidate _ => candidate.governance = governance

/-- The service under fixed policies. -/
structure PolicyRun (governance : GovernancePolicies) (system : System) : Prop where
  fixed : system.config.governance = governance
  windows : WindowInv system.store
  counted : PolicyWindows governance system.store

theorem PolicyRun.perform {governance : GovernancePolicies} {system : System} (codec : EventCodec)
    {event : Event} (hkeeps : event.KeepsGovernance governance) (h : PolicyRun governance system) :
    PolicyRun governance (system.perform codec event) := by
  obtain ⟨rfl, hwindows, hcounted⟩ := h
  have hinv := PolicyWindows.governance_invariant system.config
  refine System.perform_cases (R := PolicyRun system.config.governance) event
    ⟨rfl, hwindows, hcounted⟩ ?_ ?_
  · intro operation u s' _ hrun
    obtain ⟨hwindows', hcounted'⟩ := hinv.operation hrun ⟨hwindows, hcounted⟩
    exact ⟨rfl, hwindows', hcounted'⟩
  · rintro candidate appliedAt outcome s' rfl hrun
    obtain ⟨hwindows', hcounted'⟩ := hinv.apply hrun ⟨hwindows, hcounted⟩
    refine ⟨?_, hwindows', hcounted'⟩
    unfold Configuration.appliedOver
    split
    next => rfl
    next => exact hkeeps

/-- Under fixed policies the windows of every reachable store were counted under them. -/
theorem PolicyRun.reachable (codec : EventCodec) (config : Configuration) (appliedAtUnixS : ℕ)
    {events : List Event} (hfixed : ∀ event ∈ events, event.KeepsGovernance config.governance) :
    PolicyRun config.governance
      (Run.after (System.perform codec) (System.initial config appliedAtUnixS) events) := by
  have hinit : PolicyRun config.governance (System.initial config appliedAtUnixS) :=
    ⟨rfl, .initial _ _, .initial _ _⟩
  generalize System.initial config appliedAtUnixS = system at hinit
  induction events generalizing system with
  | nil => exact hinit
  | cons event events ih =>
      obtain ⟨hkeeps, hfixed⟩ := List.forall_mem_cons.mp hfixed
      exact ih hfixed _ (hinit.perform codec hkeeps)

/-! ## Windows with and without a compaction -/

/-- A stored window of a run without the compaction and the one of the other run, which may have
forgotten earlier attempts. -/
structure RateWindowRow.Forgets (later row : RateWindowRow) : Prop where
  same : later = { row with
    lifetimeAcceptedCount := later.lifetimeAcceptedCount
    lifetimeRejectedCount := later.lifetimeRejectedCount }
  accepted : later.lifetimeAcceptedCount ≤ row.lifetimeAcceptedCount
  rejected : later.lifetimeRejectedCount ≤ row.lifetimeRejectedCount

/-- The windows of a key in the two runs: a window that is missing had ended. -/
inductive Thinned (cutoff : ℕ) : List RateWindowRow → List RateWindowRow → Prop
  | none : Thinned cutoff [] []
  | retired {row : RateWindowRow} (h : row.windowEndsAt < cutoff) : Thinned cutoff [row] []
  | kept {row later : RateWindowRow} (h : later.Forgets row) : Thinned cutoff [row] [later]

/-- The states that an attempt finds in the two runs. -/
structure RateState.Forgets (later state : RateState) : Prop where
  subject : later.subject = state.subject
  started : later.windowStarted = state.windowStarted
  ends : later.windowEnds = state.windowEnds
  counted : later.accepted = state.accepted
  refused : later.rejected = state.rejected
  accepted : later.lifetimeAccepted ≤ state.lifetimeAccepted
  rejected : later.lifetimeRejected ≤ state.lifetimeRejected

theorem RateState.Forgets.fits {later state : RateState} {policy : RateLimitPolicy}
    {observedAt : TimeUnixMs} {admitted : Bool} (h : later.Forgets state)
    (hfits : state.Fits policy observedAt admitted) : later.Fits policy observedAt admitted := by
  obtain ⟨haccepted, hrejected, hlifetime, hlifetime', hretention⟩ := hfits
  have hmore := h.accepted
  have hmore' := h.rejected
  exact ⟨by rw [h.counted]; exact haccepted, by rw [h.refused]; exact hrejected, by omega,
    by omega, hretention⟩

/-- What an attempt writes in the two runs. -/
theorem RateState.Forgets.written {later state : RateState} (h : later.Forgets state)
    (policy : RateLimitPolicy) (observedAt : TimeUnixMs) (admitted : Bool) :
    (later.written policy observedAt admitted).Forgets
      (state.written policy observedAt admitted) := by
  refine ⟨?_, Nat.add_le_add_right h.accepted _, Nat.add_le_add_right h.rejected _⟩
  simp only [RateState.written, RateState.row, h.subject, h.started, h.ends, h.counted, h.refused]

section
variable {s s' plain thinned : Store} {cutoff : ℕ} {policy : RateLimitPolicy}
  {subject : RateSubject}

/-- An attempt after the compaction finds the same window in both runs. -/
theorem Thinned.rateStateAt {now : ℕ}
    (h : Thinned cutoff (plain.windowsOf (subject.key policy.rateClass))
      (thinned.windowsOf (subject.key policy.rateClass))) (hnow : cutoff ≤ now) :
    (thinned.rateStateAt policy subject now).Forgets (plain.rateStateAt policy subject now) := by
  unfold Store.rateStateAt
  generalize plain.windowsOf (subject.key policy.rateClass) = rows at h
  generalize thinned.windowsOf (subject.key policy.rateClass) = rows' at h
  cases h with
  | none => exact ⟨rfl, rfl, rfl, rfl, rfl, Nat.le_refl _, Nat.le_refl _⟩
  | retired hended =>
      dsimp only
      rw [if_pos (Nat.lt_of_lt_of_le hended hnow)]
      exact ⟨rfl, rfl, rfl, rfl, rfl, Nat.zero_le _, Nat.zero_le _⟩
  | kept hforgets =>
      rename_i row later
      obtain ⟨hsame, haccepted, hrejected⟩ := hforgets
      have hends : later.windowEndsAt = row.windowEndsAt :=
        (congrArg RateWindowRow.windowEndsAt hsame :)
      dsimp only
      rw [hends]
      split
      next => exact ⟨rfl, rfl, rfl, rfl, rfl, haccepted, hrejected⟩
      next =>
        exact ⟨rfl, (congrArg RateWindowRow.windowStartedAt hsame :), hends,
          (congrArg RateWindowRow.acceptedCount hsame :),
          (congrArg RateWindowRow.rejectedCount hsame :), haccepted, hrejected⟩

/-- The two runs have windows that correspond. -/
def ThinnedWindows (cutoff : ℕ) (plain thinned : Store) : Prop :=
  ∀ key, Thinned cutoff (plain.windowsOf key) (thinned.windowsOf key)

/-- A subject that lost its window can be tracked again. -/
theorem ThinnedWindows.tracks {governance : GovernancePolicies}
    (h : ThinnedWindows cutoff plain thinned) (hpolicy : governance.policy policy.rateClass = policy)
    (hcounted : PolicyWindows governance plain) (hwindows' : WindowInv thinned)
    (hnil : thinned.windowsOf (subject.key policy.rateClass) = [])
    (htracks : plain.windowsOf (subject.key policy.rateClass) = [] →
      plain.Tracks policy subject) : thinned.Tracks policy subject := by
  rw [Store.tracks_iff]
  by_cases hglobal : subject.scope = .global
  · exact .inl hglobal
  · right
    have hnodup := hwindows'.trackedKeys_nodup policy.rateClass subject.scope
    have hkept : ∀ key, thinned.windowsOf key ≠ [] → plain.windowsOf key ≠ [] := by
      intro key hsome hplain
      have hkey := h key
      rw [hplain] at hkey
      generalize thinned.windowsOf key = rows at hkey hsome
      cases hkey with
      | none => exact hsome rfl
    have hnot : subject.key policy.rateClass ∉
        thinned.trackedKeys policy.rateClass subject.scope :=
      fun hmem => (mem_trackedKeys.mp hmem).1 hnil
    by_cases hplain : plain.windowsOf (subject.key policy.rateClass) = []
    · have hroom := (Store.tracks_iff.mp (htracks hplain)).resolve_left hglobal
      have hsub : thinned.trackedKeys policy.rateClass subject.scope ⊆
          plain.trackedKeys policy.rateClass subject.scope := by
        intro key hkey
        obtain ⟨hsome, hrest⟩ := mem_trackedKeys.mp hkey
        exact mem_trackedKeys.mpr ⟨hkept key hsome, hrest⟩
      exact (List.subperm_of_subset hnodup hsub).length_le.trans_lt hroom
    · have hsub : subject.key policy.rateClass ::
          thinned.trackedKeys policy.rateClass subject.scope ⊆
            plain.trackedKeys policy.rateClass subject.scope := by
        intro key hkey
        rcases List.mem_cons.mp hkey with rfl | hkey
        · exact mem_trackedKeys.mpr ⟨hplain, rfl, rfl⟩
        · obtain ⟨hsome, hrest⟩ := mem_trackedKeys.mp hkey
          exact mem_trackedKeys.mpr ⟨hkept key hsome, hrest⟩
      have hlength := (List.subperm_of_subset (List.nodup_cons.mpr ⟨hnot, hnodup⟩) hsub).length_le
      have hbound := hcounted.tracked policy.rateClass subject.scope hglobal
      rw [hpolicy] at hbound
      rw [List.length_cons] at hlength
      omega

/-- A compaction takes only windows that have ended. -/
theorem thinned_compacted {governance : GovernancePolicies} (hwindows : WindowInv s)
    (hcounted : PolicyWindows governance s) (sequences : List ℕ) {windows : List RateWindowRow}
    (hretired : ∀ row ∈ windows, row.retentionExpiresAt < cutoff) :
    ThinnedWindows cutoff s (s.compacted sequences windows) := by
  intro key
  have hfilter : (s.compacted sequences windows).windowsOf key =
      (s.windowsOf key).filter fun row => row ∉ windows := by
    unfold Store.windowsOf Store.compacted
    rw [List.filter_filter, List.filter_filter]
    exact List.filter_congr fun row _ => Bool.and_comm _ _
  rw [hfilter]
  rcases hwindows.windowsOf_cases key with hnil | ⟨row, hrow, hone⟩
  · rw [hnil]
    exact .none
  · rw [hone]
    by_cases htaken : row ∈ windows
    · rw [List.filter_cons_of_neg (by simpa using htaken)]
      exact .retired ((hcounted.ends_retained hwindows hrow).trans_lt (hretired row htaken))
    · rw [List.filter_cons_of_pos (by simpa using htaken)]
      exact .kept ⟨rfl, Nat.le_refl _, Nat.le_refl _⟩

/-! ## One attempt in both runs -/

variable {attempt : Attempt} {request : RequestRow}

theorem ThinnedWindows.hasRoom (h : ThinnedWindows cutoff plain thinned)
    (hnow : cutoff ≤ attempt.now) : attempt.hasRoom policy thinned = attempt.hasRoom policy plain := by
  unfold Attempt.hasRoom
  refine List.all_congr rfl fun subject => ?_
  have hstate := (h (subject.key policy.rateClass)).rateStateAt hnow
  unfold RateState.canAccept
  rw [hstate.counted]

/-- What the plain run can count the other can count too. -/
theorem ThinnedWindows.countable {governance : GovernancePolicies}
    (h : ThinnedWindows cutoff plain thinned) (hpolicy : governance.policy policy.rateClass = policy)
    (hcounted : PolicyWindows governance plain) (hwindows' : WindowInv thinned)
    (hnow : cutoff ≤ attempt.now)
    (hcountable : attempt.Countable policy plain) (hwithin : attempt.WithinLimit policy plain)
    (hnone : readAuditById thinned attempt.auditId = .ok none)
    (hnumbered : attempt.hasRoom policy plain = false → thinned.nextAuditSequence + 1 ≤ i64Max) :
    attempt.Countable policy thinned ∧ attempt.WithinLimit policy thinned := by
  have hrow : ∀ subject : RateSubject, ∀ later ∈ thinned.windowsOf (subject.key policy.rateClass),
      ∃ row ∈ plain.windowsOf (subject.key policy.rateClass), later.Forgets row := by
    intro subject later hlater
    have hkey := h (subject.key policy.rateClass)
    generalize plain.windowsOf (subject.key policy.rateClass) = rows at hkey
    generalize thinned.windowsOf (subject.key policy.rateClass) = rows' at hkey hlater
    cases hkey with
    | none => cases hlater
    | retired => cases hlater
    | kept hforgets =>
        obtain rfl := List.mem_singleton.mp hlater
        exact ⟨_, List.mem_singleton_self _, hforgets⟩
  refine ⟨⟨hnone, ?_, ?_, ?_, ?_, ?_⟩, ?_⟩
  · intro subject hsubject later hlater
    obtain ⟨row, hmem, hforgets⟩ := hrow subject later hlater
    have hlast : later.lastObservedAt = row.lastObservedAt :=
      (congrArg RateWindowRow.lastObservedAt hforgets.same :)
    rw [hlast]
    exact hcountable.seen subject hsubject row hmem
  · intro subject hsubject hnil
    exact h.tracks hpolicy hcounted hwindows' hnil (hcountable.tracked subject hsubject)
  · intro subject hsubject
    rw [((h (subject.key policy.rateClass)).rateStateAt hnow).ends]
    exact hcountable.ends subject hsubject
  · intro subject hsubject
    rw [h.hasRoom hnow]
    exact ((h (subject.key policy.rateClass)).rateStateAt hnow).fits
      (hcountable.fits subject hsubject)
  · rw [h.hasRoom hnow]
    exact hnumbered
  · intro subject hsubject later hlater
    obtain ⟨row, hmem, hforgets⟩ := hrow subject later hlater
    have haccepted : later.acceptedCount = row.acceptedCount :=
      (congrArg RateWindowRow.acceptedCount hforgets.same :)
    rw [haccepted]
    exact hwithin subject hsubject row hmem

end

/-! ## The log -/

/-- All records of a store, latest first. -/
def Store.log (s : Store) : List AuditRecord := s.auditLog fun _ => true

/-- The record that evidence leaves. -/
def AuditEvidence.record (evidence : AuditEvidence) (sequence : ℕ) (kind : AuditKind)
    (outcome : AuditOutcome) (reason : AuditReason) : AuditRecord where
  sequence := sequence
  correlationId := evidence.correlation
  operationId := evidence.operationId
  kind := kind
  outcome := outcome
  reason := reason
  occurredAt := evidence.occurredAt

section
variable {s : Store}

/-- The log is the one arrangement of the records with the latest first. -/
theorem Store.log_eq {rows : List AuditRow} (hperm : rows.Perm s.audit)
    (hsorted : rows.Pairwise fun left right => right.auditSequence < left.auditSequence) :
    s.log = rows.map s.auditRecord := by
  unfold Store.log Store.auditLog
  rw [List.filter_true]
  refine congrArg (List.map s.auditRecord) ?_
  have hordered : Table.ordered (fun left right : AuditRow =>
      decide (right.auditSequence ≤ left.auditSequence)) rows = rows :=
    Table.ordered_eq_self (hsorted.imp fun h => by simpa using h.le)
  have : Std.Total fun left right : AuditRow =>
      decide (right.auditSequence ≤ left.auditSequence) = true :=
    ⟨fun left right => by simpa using Nat.le_total _ _⟩
  have : IsTrans AuditRow fun left right =>
      decide (right.auditSequence ≤ left.auditSequence) = true :=
    ⟨fun _ _ _ => by simpa using fun h h' => Nat.le_trans h' h⟩
  have hmem := (Table.ordered_perm (fun left right : AuditRow =>
    decide (right.auditSequence ≤ left.auditSequence)) s.audit).trans hperm.symm
  refine List.Perm.eq_of_pairwise ?_ (List.pairwise_insertionSort (fun left right : AuditRow =>
    decide (right.auditSequence ≤ left.auditSequence) = true) _)
    (hsorted.imp fun h => by simpa using h.le) hmem
  intro left right hleft hright hle hge
  have hunique : Table.Unique AuditRow.auditSequence rows :=
    List.pairwise_map.mpr (hsorted.imp fun h => Nat.ne_of_gt h)
  refine hunique.eq_of_key_eq (hmem.mem_iff.mp hleft) hright ?_
  simp only [decide_eq_true_eq] at hle hge
  omega

/-- The rows behind the log. -/
theorem AuditInv.log_rows (inv : AuditInv s) :
    ∃ rows : List AuditRow, rows.Perm s.audit ∧
      (rows.Pairwise fun left right => right.auditSequence < left.auditSequence) ∧
      s.log = rows.map s.auditRecord := by
  have hsorted : (Keyset.remaining AuditRow.recency none s.audit).Pairwise fun left right =>
      AuditRow.recency left < AuditRow.recency right := Keyset.remaining_sorted inv.sequences
  have hperm : (Keyset.remaining AuditRow.recency none s.audit).Perm s.audit := by
    refine (Table.ordered_perm _ _).trans (.of_eq ?_)
    simp
  exact ⟨_, hperm, hsorted, Store.log_eq hperm hsorted⟩

theorem AuditInv.mem_log (inv : AuditInv s) {record : AuditRecord} :
    record ∈ s.log ↔ ∃ row ∈ s.audit, s.auditRecord row = record := by
  obtain ⟨rows, hperm, -, hlog⟩ := inv.log_rows
  rw [hlog, List.mem_map]
  simp only [hperm.mem_iff]

/-- The identity of a record is not stored when no record of the log has it. -/
theorem AuditInv.unrecorded_iff (inv : AuditInv s) {auditId : Id32} :
    readAuditById s auditId = .ok none ↔
      ∀ record ∈ s.log, deriveAuditId record.correlationId record.kind ≠ auditId := by
  rw [readAuditById_eq_none]
  constructor
  · intro h record hrecord heq
    obtain ⟨row, hrow, rfl⟩ := inv.mem_log.mp hrecord
    have hid : deriveAuditId row.correlationId row.auditKind = auditId := heq
    exact h row hrow ((inv.identified row hrow).trans hid)
  · intro h row hrow heq
    refine h _ (inv.mem_log.mpr ⟨row, hrow, rfl⟩) ?_
    have hid : deriveAuditId row.correlationId row.auditKind = auditId :=
      (inv.identified row hrow).symm.trans heq
    exact hid

/-- One more record comes first in the log. -/
theorem AuditInv.log_recorded (inv : AuditInv s) {evidence : AuditEvidence} {kind : AuditKind}
    {outcome : AuditOutcome} {reason : AuditReason} (hbound : evidence.BoundIn s kind)
    (hnone : readAuditById s (deriveAuditId evidence.correlation kind) = .ok none) :
    (s.recorded evidence kind outcome reason).log =
      evidence.record (s.nextAuditSequence + 1) kind outcome reason :: s.log := by
  have inv' := @AuditInv.recorded s evidence kind outcome reason inv hbound hnone
  obtain ⟨rows, hperm, hsorted, hlog⟩ := inv.log_rows
  have hnumbered : ∀ row ∈ rows, row.auditSequence < s.nextAuditSequence + 1 :=
    fun row hrow => Nat.lt_succ_of_le (inv.numbered row (hperm.mem_iff.mp hrow))
  have hperm' : (s.nextAudit evidence kind outcome reason :: rows).Perm
      (s.recorded evidence kind outcome reason).audit :=
    (hperm.cons _).trans (List.perm_append_singleton _ _).symm
  rw [Store.log_eq hperm' (List.pairwise_cons.mpr ⟨hnumbered, hsorted⟩), hlog, List.map_cons]
  refine congrArg₂ List.cons ?_ (List.map_congr_left fun row hrow => ?_)
  · have hlink : (s.recorded evidence kind outcome reason).linkOf
        (s.nextAudit evidence kind outcome reason) = evidence.operationId := by
      unfold Store.linkOf
      have hnew : ∀ link ∈ s.requestAudit, link.auditSequence ≠ s.nextAuditSequence + 1 := by
        intro link hlink
        obtain ⟨row, hrow, hsequence, -⟩ := inv.links link hlink
        have hnumber := inv.numbered row hrow
        omega
      have hfind : s.requestAudit.find? (fun link => decide (link.auditSequence =
          (s.nextAudit evidence kind outcome reason).auditSequence)) = none := by
        rw [List.find?_eq_none]
        intro link hlink
        exact fun hsame => hnew link hlink (of_decide_eq_true hsame)
      unfold Store.recorded
      rw [List.find?_append, hfind]
      cases evidence.operationId <;> simp [Store.nextAudit, Store.nextLink]
    unfold Store.auditRecord
    rw [hlink]
    rfl
  · exact ((TrailSince.refl s).recorded evidence kind outcome reason).auditRecord_eq inv inv'
      (hperm.mem_iff.mp hrow) (List.mem_append_left _ (hperm.mem_iff.mp hrow))

/-- A compaction takes records out of the log. -/
theorem AuditInv.log_compacted (inv : AuditInv s) (sequences : List ℕ)
    (windows : List RateWindowRow) :
    (s.compacted sequences windows).log =
      s.log.filter fun record => record.sequence ∉ sequences := by
  have inv' := inv.compacted sequences windows
  obtain ⟨rows, hperm, hsorted, hlog⟩ := inv.log_rows
  have hperm' : (rows.filter fun row => row.auditSequence ∉ sequences).Perm
      (s.compacted sequences windows).audit := hperm.filter _
  rw [Store.log_eq hperm' (hsorted.sublist List.filter_sublist), hlog, List.filter_map]
  refine List.map_congr_left fun row hrow => ?_
  obtain ⟨hrow, hkept⟩ := List.mem_filter.mp hrow
  have hmem := hperm.mem_iff.mp hrow
  exact ((TrailSince.refl s).compacted sequences windows).auditRecord_eq inv inv' hmem
    (List.mem_filter.mpr ⟨hmem, hkept⟩)

theorem Store.log_counted {rows : List RateWindowRow} {s' : Store}
    (hframe : s' = { s with rateWindows := rows }) : s'.log = s.log := by
  rw [hframe]
  rfl

end

/-! ## Attempts of both runs -/

/-- An attempt that the service makes for a request. -/
structure ServiceAttempt where
  rateClass : RateLimitClass
  request : RequestRow
  attempt : Attempt
  made : attempt.MadeFor request rateClass

namespace ServiceAttempt

def body (governance : GovernancePolicies) (made : ServiceAttempt) : Tx Bool :=
  made.attempt.body (governance.policy made.rateClass)

/-- The answer to an attempt. -/
def decision (governance : GovernancePolicies) (s : Store) (made : ServiceAttempt) :
    Except OperationError Bool :=
  ((made.body governance).atomically s).1

/-- The store after an attempt; one that fails is rolled back. -/
def perform (governance : GovernancePolicies) (s : Store) (made : ServiceAttempt) : Store :=
  ((made.body governance).atomically s).2

/-- The answers to attempts that follow one another. -/
def decisions (governance : GovernancePolicies) :
    Store → List ServiceAttempt → List (Except OperationError Bool)
  | _, [] => []
  | s, made :: rest =>
      made.decision governance s :: decisions governance (made.perform governance s) rest

end ServiceAttempt

/-- The record with the sequence that it has when one more record is before it. -/
def AuditRecord.next (record : AuditRecord) : AuditRecord :=
  { record with sequence := record.sequence + 1 }

/-- Two runs from one store, without and with a compaction that left the record `own`. -/
structure TwinRuns (governance : GovernancePolicies) (cutoff : ℕ) (own : AuditRecord)
    (old kept : List AuditRecord) (plain thinned : Store) : Prop where
  windows : ThinnedWindows cutoff plain thinned
  log : ∃ later, plain.log = later ++ old ∧ thinned.log = later.map AuditRecord.next ++ own :: kept
  kept_old : kept ⊆ old
  sequence : thinned.nextAuditSequence = plain.nextAuditSequence + 1
  requests : thinned.requests = plain.requests
  plainAudit : AuditInv plain
  thinnedAudit : AuditInv thinned
  plainWindows : WindowInv plain
  thinnedWindows : WindowInv thinned
  counted : PolicyWindows governance plain

section
variable {governance : GovernancePolicies} {cutoff : ℕ} {own : AuditRecord}
  {old kept : List AuditRecord} {s s' plain thinned : Store} {made : ServiceAttempt}
  {policy : RateLimitPolicy} {attempt : Attempt} {request : RequestRow} {admitted : Bool}

theorem Attempt.MadeFor.scopes_nodup {rateClass : RateLimitClass}
    (h : attempt.MadeFor request rateClass) : (attempt.subjects.map RateSubject.scope).Nodup := by
  cases h <;> simp [RateSubject.scope, relaySubject]

theorem AuditInv.mem_log_of_read (inv : AuditInv s) {auditId : Id32} {record : AuditRecord}
    (h : readAuditById s auditId = .ok (some record)) : record ∈ s.log := by
  have hrow : ∃ row ∈ s.audit, row.auditId = auditId := by
    by_contra hnone
    have := readAuditById_eq_none.mpr fun row hrow hid => hnone ⟨row, hrow, hid⟩
    rw [h] at this
    cases this
  obtain ⟨row, hrow, rfl⟩ := hrow
  rw [inv.readable hrow] at h
  exact inv.mem_log.mpr ⟨row, hrow, Option.some.inj (Except.ok.inj h)⟩

/-- The store after an attempt that counted itself. -/
def Attempt.counted (attempt : Attempt) (admitted : Bool) (s : Store) : Store :=
  if admitted then s else s.recorded attempt.evidence attempt.auditKind .rejected .rateLimited

/-- What a fresh attempt does that ends in a decision. -/
theorem Attempt.decided_cases (haudit : AuditInv s) (hwindows : WindowInv s)
    (hmade : attempt.MadeFor request policy.rateClass) (hrequest : request ∈ s.requests)
    (hnone : readAuditById s attempt.auditId = .ok none)
    (h : (attempt.body policy).run s = .ok (admitted, s')) :
    admitted = attempt.hasRoom policy s ∧ attempt.Decided policy s ∧ ∃ s₁,
      Counted policy attempt.subjects attempt.evidence.occurredAt admitted s s₁ ∧
        attempt.evidence.BoundIn s₁ attempt.auditKind ∧
        readAuditById s₁ attempt.auditId = .ok none ∧ AuditInv s₁ ∧
        s' = attempt.counted admitted s₁ := by
  obtain ⟨-, ⟨-, -, record, hrecord, -⟩ | ⟨-, s₁, hcounted, hend⟩⟩ := governRateAttempt_cases h
  · have hsome : readAuditById s attempt.auditId = .ok (some record) := hrecord
    rw [hnone] at hsome
    cases hsome
  · have hstate : ∀ subject ∈ attempt.subjects, loadRateState s policy subject
        attempt.evidence.occurredAt = .ok (s.rateStateAt policy subject attempt.now) := by
      intro subject hsubject
      obtain ⟨state, hload, -⟩ := hcounted.touched subject hsubject
      rw [hload, (hwindows.loadRateState_iff.mp hload).1]
      rfl
    have hdecision : admitted = attempt.hasRoom policy s := by
      rw [Bool.eq_iff_iff, hcounted.decided, Attempt.hasRoom, List.all_eq_true]
      refine forall₂_congr fun subject hsubject => ?_
      rw [hstate subject hsubject]
      simp
    have hnone₁ : readAuditById s₁ attempt.auditId = .ok none := by
      rw [hcounted.frame]
      exact hnone
    have hbound₁ : attempt.evidence.BoundIn s₁ attempt.auditKind := by
      rw [hcounted.frame]
      exact hmade.boundIn hrequest
    have hend' : s' = attempt.counted admitted s₁ := by
      rcases hend with ⟨rfl, rfl⟩ | ⟨rfl, hrecord⟩
      · rfl
      · exact ((run_recordAudit_fresh hnone₁).mp hrecord).2
    refine ⟨hdecision, ⟨s', hdecision ▸ h, fun subject hsubject => ?_⟩, s₁, hcounted, hbound₁,
      hnone₁, haudit.counted hcounted.frame, hend'⟩
    obtain ⟨state, hload, -, hwritten⟩ := hcounted.touched subject hsubject
    rw [hstate subject hsubject] at hload
    rw [← hdecision, Except.ok.inj hload, ← hwritten, hend']
    cases admitted <;> rfl

/-- The trail of a decided attempt. -/
theorem Attempt.counted_trail {s₁ : Store} (haudit : AuditInv s₁)
    (hbound : attempt.evidence.BoundIn s₁ attempt.auditKind)
    (hnone : readAuditById s₁ attempt.auditId = .ok none) (admitted : Bool) :
    AuditInv (attempt.counted admitted s₁) ∧
      (attempt.counted admitted s₁).log = (if admitted then [] else
        [attempt.evidence.record (s₁.nextAuditSequence + 1) attempt.auditKind .rejected
          .rateLimited]) ++ s₁.log ∧
      (attempt.counted admitted s₁).nextAuditSequence =
        s₁.nextAuditSequence + (!admitted).toNat := by
  cases admitted with
  | true => exact ⟨haudit, rfl, rfl⟩
  | false => exact ⟨haudit.recorded hbound hnone, haudit.log_recorded hbound hnone, rfl⟩

/-- What is written in both runs corresponds. -/
theorem ThinnedWindows.counted {s₁ t₁ : Store} (h : ThinnedWindows cutoff plain thinned)
    (hnow : cutoff ≤ attempt.now) (hwindows : WindowInv plain) (hwindows' : WindowInv thinned)
    (hplain : Counted policy attempt.subjects attempt.evidence.occurredAt admitted plain s₁)
    (hthinned : Counted policy attempt.subjects attempt.evidence.occurredAt admitted thinned t₁) :
    ThinnedWindows cutoff s₁ t₁ := by
  intro key
  by_cases htouched : key ∈ attempt.subjects.map (·.key policy.rateClass)
  · obtain ⟨subject, hsubject, rfl⟩ := List.mem_map.mp htouched
    obtain ⟨state, hload, -, hwritten⟩ := hplain.touched subject hsubject
    obtain ⟨state', hload', -, hwritten'⟩ := hthinned.touched subject hsubject
    obtain ⟨rfl, -⟩ := hwindows.loadRateState_iff.mp hload
    obtain ⟨rfl, -⟩ := hwindows'.loadRateState_iff.mp hload'
    rw [hwritten, hwritten']
    exact .kept (((h (subject.key policy.rateClass)).rateStateAt hnow).written _ _ _)
  · rw [hplain.others key htouched, hthinned.others key htouched]
    exact h key

/-- An attempt that the plain run decides is decided alike by the other run. -/
theorem TwinRuns.step (h : TwinRuns governance cutoff own old kept plain thinned)
    (hrequest : made.request ∈ plain.requests) (hnow : cutoff ≤ made.attempt.now)
    (hnone : readAuditById plain made.attempt.auditId = .ok none)
    (hown : made.attempt.auditId ≠ deriveAuditId own.correlationId own.kind)
    (hrun : (made.body governance).run plain = .ok (admitted, s'))
    (hroom : s'.nextAuditSequence < i64Max) :
    ∃ t', (made.body governance).run thinned = .ok (admitted, t') ∧
      TwinRuns governance cutoff own old kept s' t' ∧
      s'.requests = plain.requests ∧
      ∀ record ∈ s'.log, record ∈ plain.log ∨
        record.correlationId = made.attempt.evidence.correlation := by
  obtain ⟨later, hlog, hlog'⟩ := h.log
  have hclass := governance.policy_class made.rateClass
  have hpolicy : governance.policy (governance.policy made.rateClass).rateClass =
      governance.policy made.rateClass := by rw [hclass]
  have hmade : made.attempt.MadeFor made.request
      (governance.policy made.rateClass).rateClass := by
    rw [hclass]
    exact made.made
  obtain ⟨hdecision, hdecided, s₁, hcounted, hbound₁, hnone₁, haudit₁, rfl⟩ :=
    Attempt.decided_cases h.plainAudit h.plainWindows hmade hrequest hnone hrun
  obtain ⟨hcountable, hwithin⟩ := hdecided.countable h.plainWindows hmade.subjects.1
  -- the other run has no record of the attempt either
  have hnone' : readAuditById thinned made.attempt.auditId = .ok none := by
    have hfresh := h.plainAudit.unrecorded_iff.mp hnone
    refine h.thinnedAudit.unrecorded_iff.mpr fun record hrecord => ?_
    rw [hlog', List.mem_append, List.mem_cons, List.mem_map] at hrecord
    rcases hrecord with ⟨before, hbefore, rfl⟩ | rfl | hrecord
    · exact hfresh before (by rw [hlog]; exact List.mem_append_left _ hbefore)
    · exact hown.symm
    · exact hfresh record (by rw [hlog]; exact List.mem_append_right _ (h.kept_old hrecord))
  obtain ⟨haudit, hrecorded, hsequence⟩ :=
    Attempt.counted_trail haudit₁ hbound₁ hnone₁ admitted
  have hsequence₁ : s₁.nextAuditSequence = plain.nextAuditSequence := by rw [hcounted.frame]
  have hnumbered : made.attempt.hasRoom (governance.policy made.rateClass) plain = false →
      thinned.nextAuditSequence + 1 ≤ i64Max := by
    intro hrefused
    rw [hsequence, hsequence₁, hdecision, hrefused] at hroom
    rw [h.sequence]
    exact hroom
  obtain ⟨hcountable', hwithin'⟩ := h.windows.countable hpolicy h.counted h.thinnedWindows hnow
    hcountable hwithin hnone' hnumbered
  have hrequest' : made.request ∈ thinned.requests := h.requests ▸ hrequest
  obtain ⟨t', hrun', -⟩ := Attempt.decided_of_countable h.thinnedAudit h.thinnedWindows hrequest'
    hmade hcountable' hwithin'
  rw [h.windows.hasRoom hnow, ← hdecision] at hrun'
  obtain ⟨-, -, t₁, hcounted', hbound', hnone₁', haudit₁', rfl⟩ :=
    Attempt.decided_cases h.thinnedAudit h.thinnedWindows hmade hrequest' hnone' hrun'
  obtain ⟨haudit', hrecorded', hsequence'⟩ :=
    Attempt.counted_trail haudit₁' hbound' hnone₁' admitted
  have hsequence₁' : t₁.nextAuditSequence = thinned.nextAuditSequence := by rw [hcounted'.frame]
  have hlog₁ : s₁.log = plain.log := Store.log_counted hcounted.frame
  have hlog₁' : t₁.log = thinned.log := Store.log_counted hcounted'.frame
  have hrows : (made.attempt.counted admitted s₁).rateWindows = s₁.rateWindows := by
    cases admitted <;> rfl
  have hrows' : (made.attempt.counted admitted t₁).rateWindows = t₁.rateWindows := by
    cases admitted <;> rfl
  have hrequests : (made.attempt.counted admitted s₁).requests = plain.requests := by
    rw [hcounted.frame]
    cases admitted <;> rfl
  have hrequests' : (made.attempt.counted admitted t₁).requests = thinned.requests := by
    rw [hcounted'.frame]
    cases admitted <;> rfl
  have hwindows₁ := h.plainWindows.counted hmade.scopes hcounted
  have hwindows₁' := h.thinnedWindows.counted hmade.scopes hcounted'
  refine ⟨_, hrun', ⟨?_, ?_, h.kept_old, ?_, ?_, haudit, haudit', hwindows₁.of_rateWindows hrows,
    hwindows₁'.of_rateWindows hrows', ?_⟩, hrequests, ?_⟩
  · have hthinned := h.windows.counted hnow h.plainWindows h.thinnedWindows hcounted hcounted'
    intro key
    unfold Store.windowsOf
    rw [hrows, hrows']
    exact hthinned key
  · refine ⟨(if admitted then [] else [made.attempt.evidence.record (s₁.nextAuditSequence + 1)
      made.attempt.auditKind .rejected .rateLimited]) ++ later, ?_, ?_⟩
    · rw [hrecorded, hlog₁, hlog, List.append_assoc]
    · rw [hrecorded', hlog₁', hlog', hsequence₁', h.sequence, hsequence₁]
      cases admitted <;> rfl
  · rw [hsequence, hsequence', hsequence₁, hsequence₁', h.sequence]
    omega
  · rw [hrequests, hrequests', h.requests]
  · exact (h.counted.counted hpolicy hmade.scopes_nodup hcounted h.plainWindows
      hwindows₁).of_rateWindows hrows
  · intro record hrecord
    rw [hrecorded, hlog₁, List.mem_append] at hrecord
    rcases hrecord with hrecord | hrecord
    · right
      cases admitted with
      | true => cases hrecord
      | false =>
          obtain rfl := List.mem_singleton.mp hrecord
          rfl
    · exact .inl hrecord

/-- Attempts only take sequences. -/
theorem ServiceAttempt.sequence_le (s : Store) (attempts : List ServiceAttempt) :
    s.nextAuditSequence ≤
      (Run.after (ServiceAttempt.perform governance) s attempts).nextAuditSequence := by
  induction attempts generalizing s with
  | nil => exact Nat.le_refl _
  | cons made attempts ih =>
      refine Nat.le_trans ?_ (ih _)
      unfold ServiceAttempt.perform
      rcases atomically_state_cases (made.body governance) s with heq | ⟨admitted, hrun⟩
      · rw [heq]
      · obtain ⟨-, ⟨-, heq, -⟩ | ⟨-, s₁, hcounted, hend⟩⟩ := governRateAttempt_cases hrun
        · rw [heq]
        · have hsame : s₁.nextAuditSequence = s.nextAuditSequence := by rw [hcounted.frame]
          rcases hend with ⟨-, heq⟩ | ⟨-, hrecord⟩
          · rw [heq, hsame]
          · rcases recordAudit_cases hrecord with heq | ⟨-, -, heq⟩
            · rw [heq, hsame]
            · rw [heq, ← hsame]
              exact Nat.le_succ _

/-- The attempts that the comparison is about: of stored requests, after the compaction, and with
correlations that are new to the log, to one another and to the compaction. -/
structure FreshAttempts (cutoff : ℕ) (ownId : Id32) (s : Store) (attempts : List ServiceAttempt) :
    Prop where
  stored : ∀ made ∈ attempts, made.request ∈ s.requests
  later : ∀ made ∈ attempts, cutoff ≤ made.attempt.now
  unlogged : ∀ made ∈ attempts, ∀ record ∈ s.log,
    record.correlationId ≠ made.attempt.evidence.correlation
  distinct : (attempts.map fun made => made.attempt.evidence.correlation).Nodup
  other : ∀ made ∈ attempts, made.attempt.auditId ≠ ownId

/-- A fresh attempt that ends in a decision is no replay. -/
theorem AuditInv.unread (inv : AuditInv s)
    (hfresh : ∀ record ∈ s.log, record.correlationId ≠ attempt.evidence.correlation)
    (h : (attempt.body policy).run s = .ok (admitted, s')) :
    readAuditById s attempt.auditId = .ok none := by
  obtain ⟨-, ⟨-, -, record, hrecord, hrefusal⟩ | ⟨hnone, -⟩⟩ := governRateAttempt_cases h
  · exact absurd hrefusal.1 (hfresh record (inv.mem_log_of_read hrecord))
  · exact hnone

/-- Attempts that the plain run decides are decided alike by the other run. -/
theorem TwinRuns.run (h : TwinRuns governance cutoff own old kept plain thinned)
    {attempts : List ServiceAttempt}
    (hfresh : FreshAttempts cutoff (deriveAuditId own.correlationId own.kind) plain attempts)
    (hdecided : ∀ decision ∈ ServiceAttempt.decisions governance plain attempts,
      ∃ admitted, decision = .ok admitted)
    (hroom : (Run.after (ServiceAttempt.perform governance) plain attempts).nextAuditSequence <
      i64Max) :
    ServiceAttempt.decisions governance thinned attempts =
        ServiceAttempt.decisions governance plain attempts ∧
      TwinRuns governance cutoff own old kept
        (Run.after (ServiceAttempt.perform governance) plain attempts)
        (Run.after (ServiceAttempt.perform governance) thinned attempts) := by
  induction attempts generalizing plain thinned with
  | nil => exact ⟨rfl, h⟩
  | cons made attempts ih =>
      obtain ⟨⟨admitted, hdecision⟩, hdecided⟩ := List.forall_mem_cons.mp hdecided
      obtain ⟨s', hrun⟩ : ∃ s', (made.body governance).run plain = .ok (admitted, s') := by
        unfold ServiceAttempt.decision at hdecision
        cases hrun : (made.body governance).run plain with
        | error e =>
            rw [atomically_of_error hrun] at hdecision
            cases hdecision
        | ok result =>
            rw [atomically_of_ok hrun] at hdecision
            obtain rfl := Except.ok.inj hdecision
            exact ⟨result.2, rfl⟩
      have hplain : made.perform governance plain = s' := by
        unfold ServiceAttempt.perform
        rw [atomically_of_ok hrun]
      have hroom' : s'.nextAuditSequence < i64Max := by
        refine (@ServiceAttempt.sequence_le governance s' attempts).trans_lt ?_
        rw [← hplain]
        exact hroom
      have hnone := h.plainAudit.unread (hfresh.unlogged made List.mem_cons_self) hrun
      obtain ⟨t', hrun', htwins, hrequests, hlogged⟩ :=
        h.step (hfresh.stored made List.mem_cons_self) (hfresh.later made List.mem_cons_self) hnone
          (hfresh.other made List.mem_cons_self) hrun hroom'
      have hthinned : made.perform governance thinned = t' := by
        unfold ServiceAttempt.perform
        rw [atomically_of_ok hrun']
      have hdistinct := List.nodup_cons.mp hfresh.distinct
      have hfresh' : FreshAttempts cutoff (deriveAuditId own.correlationId own.kind) s'
          attempts := by
        refine ⟨?_, fun next hnext => hfresh.later next (List.mem_cons_of_mem _ hnext), ?_,
          hdistinct.2, fun next hnext => hfresh.other next (List.mem_cons_of_mem _ hnext)⟩
        · intro next hnext
          rw [hrequests]
          exact hfresh.stored next (List.mem_cons_of_mem _ hnext)
        · intro next hnext record hrecord
          rcases hlogged record hrecord with hold | hcorrelation
          · exact hfresh.unlogged next (List.mem_cons_of_mem _ hnext) record hold
          · intro hsame
            exact hdistinct.1 (List.mem_map.mpr ⟨next, hnext, hsame.symm.trans hcorrelation⟩)
      have hrest := ih htwins hfresh' (hplain ▸ hdecided) (hplain ▸ hroom)
      refine ⟨?_, ?_⟩
      · unfold ServiceAttempt.decisions
        rw [hplain, hthinned, hrest.1]
        unfold ServiceAttempt.decision
        rw [atomically_of_ok hrun, atomically_of_ok hrun']
      · change TwinRuns governance cutoff own old kept
          (Run.after (ServiceAttempt.perform governance) (made.perform governance plain) attempts)
          (Run.after (ServiceAttempt.perform governance) (made.perform governance thinned) attempts)
        rw [hplain, hthinned]
        exact hrest.2

/-- What a compaction did: it found its record, or it removed windows past their retention and
records before the cutoff and recorded itself. -/
theorem compactGovernance_inversion {observedAt : TimeUnixMs}
    {auditRetentionMs maximumRowsPerClass : ℕ} {correlation : Id32} {u : Unit}
    (h : (compactGovernance observedAt auditRetentionMs maximumRowsPerClass correlation).run s =
      .ok (u, s')) :
    (s' = s ∧ ∃ record,
        readAuditById s (deriveAuditId correlation .governanceCompaction) = .ok (some record) ∧
        record.correlationId = correlation ∧ record.operationId = none ∧
        record.kind = .governanceCompaction ∧ record.outcome = .succeeded ∧
        record.reason = .compacted ∧ record.occurredAt = observedAt) ∨
      readAuditById s (deriveAuditId correlation .governanceCompaction) = .ok none ∧
        ∃ sequences windows,
          (∀ sequence ∈ sequences, ∃ row ∈ s.audit, row.auditSequence = sequence ∧
            row.occurredAt.get < observedAt.get - auditRetentionMs) ∧
          (∀ row ∈ windows, row.retentionExpiresAt < observedAt.get) ∧
          s' = (s.compacted sequences windows).recorded ⟨correlation, observedAt, none⟩
            .governanceCompaction .succeeded .compacted := by
  unfold compactGovernance at h
  obtain ⟨existing, hexisting, h⟩ := run_query_bind_eq_ok.mp h
  cases existing with
  | some record =>
      obtain ⟨hrecord, rfl⟩ := run_require_eq_ok.mp h
      exact .inl ⟨rfl, record, hexisting, hrecord⟩
  | none =>
      obtain ⟨sequences, hsequences, h⟩ := run_query_bind_eq_ok.mp h
      obtain ⟨windows, hwindows, h⟩ := run_query_bind_eq_ok.mp h
      obtain ⟨_, s₁, haudit, h⟩ := run_bind_eq_ok.mp h
      cases run_modify_eq_ok.mp haudit
      obtain ⟨_, s₂, hrates, h⟩ := run_bind_eq_ok.mp h
      cases run_modify_eq_ok.mp hrates
      obtain ⟨-, h⟩ := run_require_bind_eq_ok.mp h
      refine .inr ⟨hexisting, sequences, windows, ?_, ?_, ?_⟩
      · intro sequence hsequence
        rw [← Except.ok.inj hsequences] at hsequence
        obtain ⟨row, hrow, rfl⟩ := List.mem_map.mp hsequence
        have hmem := (Table.ordered_perm _ _).mem_iff.mp (List.mem_of_mem_take hrow)
        obtain ⟨hrow, hold⟩ := List.mem_filter.mp hmem
        exact ⟨row, hrow, rfl, by simpa using hold⟩
      · intro row hrow
        rw [← Except.ok.inj hwindows] at hrow
        have hmem := (Table.ordered_perm _ _).mem_iff.mp (List.mem_of_mem_take hrow)
        simpa using (List.mem_filter.mp hmem).2
      · have hnone : readAuditById (s.compacted sequences windows)
            (deriveAuditId correlation .governanceCompaction) = .ok none := by
          rw [readAuditById_eq_none] at hexisting ⊢
          exact fun row hrow => hexisting row (List.mem_filter.mp hrow).1
        have hrecord : (recordAudit ⟨correlation, observedAt, none⟩ .governanceCompaction .succeeded
            .compacted).run (s.compacted sequences windows) = .ok (u, s') := h
        exact ((@run_recordAudit_fresh _ s' ⟨correlation, observedAt, none⟩ _ _ _ u hnone).mp
          hrecord).2

/-- The two runs begin at the compaction. -/
theorem TwinRuns.start {observedAt : TimeUnixMs} {correlation : Id32} (haudit : AuditInv s)
    (hwindows : WindowInv s) (hcounted : PolicyWindows governance s)
    (hnone : readAuditById s (deriveAuditId correlation .governanceCompaction) = .ok none)
    (sequences : List ℕ) {windows : List RateWindowRow}
    (hretired : ∀ row ∈ windows, row.retentionExpiresAt < observedAt.get) :
    TwinRuns governance observedAt.get
      ((⟨correlation, observedAt, none⟩ : AuditEvidence).record (s.nextAuditSequence + 1)
        .governanceCompaction .succeeded .compacted) s.log
      (s.log.filter fun record => record.sequence ∉ sequences) s
      ((s.compacted sequences windows).recorded ⟨correlation, observedAt, none⟩
        .governanceCompaction .succeeded .compacted) := by
  have haudit' := haudit.compacted sequences windows
  have hnone' : readAuditById (s.compacted sequences windows)
      (deriveAuditId correlation .governanceCompaction) = .ok none := by
    rw [readAuditById_eq_none] at hnone ⊢
    exact fun row hrow => hnone row (List.mem_filter.mp hrow).1
  have hbound : (⟨correlation, observedAt, none⟩ : AuditEvidence).BoundIn
      (s.compacted sequences windows) .governanceCompaction := rfl
  refine ⟨thinned_compacted hwindows hcounted sequences hretired, ⟨[], rfl, ?_⟩,
    List.filter_subset_self _, rfl, rfl, haudit, haudit'.recorded hbound hnone', hwindows,
    (hwindows.compacted sequences windows).of_rateWindows rfl, hcounted⟩
  rw [haudit'.log_recorded hbound hnone', haudit.log_compacted]
  rfl

/-- Attempts of stored requests leave the trail in order. -/
theorem ServiceAttempt.after_audit {attempts : List ServiceAttempt} (inv : AuditInv s)
    (hstored : ∀ made ∈ attempts, made.request ∈ s.requests) :
    AuditInv (Run.after (ServiceAttempt.perform governance) s attempts) := by
  induction attempts generalizing s with
  | nil => exact inv
  | cons made attempts ih =>
      obtain ⟨hrequest, hstored⟩ := List.forall_mem_cons.mp hstored
      have hstep : AuditInv (made.perform governance s) ∧
          (made.perform governance s).requests = s.requests := by
        unfold ServiceAttempt.perform
        rcases atomically_state_cases (made.body governance) s with heq | ⟨admitted, hrun⟩
        · rw [heq]
          exact ⟨inv, rfl⟩
        · obtain ⟨-, ⟨-, heq, -⟩ | ⟨-, s₁, hcounted, hend⟩⟩ := governRateAttempt_cases hrun
          · rw [heq]
            exact ⟨inv, rfl⟩
          · have inv₁ := inv.counted hcounted.frame
            have hrequests : s₁.requests = s.requests := by rw [hcounted.frame]
            rcases hend with ⟨-, heq⟩ | ⟨-, hrecord⟩
            · rw [heq]
              exact ⟨inv₁, hrequests⟩
            · rcases recordAudit_cases hrecord with heq | ⟨hnone, -, heq⟩
              · rw [heq]
                exact ⟨inv₁, hrequests⟩
              · rw [heq]
                exact ⟨inv₁.recorded (made.made.boundIn (hrequests ▸ hrequest)) hnone, hrequests⟩
      exact ih hstep.1 fun next hnext => hstep.2 ▸ hstored next hnext

/-- A record stays readable over the attempts. -/
theorem ServiceAttempt.after_reads {auditId : Id32} (attempts : List ServiceAttempt)
    (hrow : ∃ row ∈ s.audit, row.auditId = auditId) :
    readAuditById (Run.after (ServiceAttempt.perform governance) s attempts) auditId =
      readAuditById s auditId := by
  induction attempts generalizing s with
  | nil => rfl
  | cons made attempts ih =>
      obtain ⟨hkept, hreads⟩ := @Attempt.perform_reads (governance.policy made.rateClass) s
        made.attempt auditId hrow
      exact (ih hkept).trans hreads

/-- A compaction whose record is there does nothing. -/
theorem run_compactGovernance_again {observedAt : TimeUnixMs}
    {auditRetentionMs maximumRowsPerClass : ℕ} {correlation : Id32} {record : AuditRecord}
    (hread : readAuditById s (deriveAuditId correlation .governanceCompaction) =
      .ok (some record))
    (hrecord : record.correlationId = correlation ∧ record.operationId = none ∧
      record.kind = .governanceCompaction ∧ record.outcome = .succeeded ∧
      record.reason = .compacted ∧ record.occurredAt = observedAt) :
    (compactGovernance observedAt auditRetentionMs maximumRowsPerClass correlation).run s =
      .ok ((), s) := by
  unfold compactGovernance
  exact run_query_bind_eq_ok.mpr ⟨some record, hread, run_require_eq_ok.mpr ⟨hrecord, rfl⟩⟩

end

/-- Under fixed policies a compaction of any reachable store changes no later decision: attempts
with fresh correlations that are all admitted or refused without it are decided alike with it, as
long as the run without it leaves a sequence free.  The logs differ by the record of the
compaction, by records before its cutoff, and by one in the sequences that follow; every record
that is left can be read, and compacting again changes nothing. -/
theorem compaction_decides_alike (codec : EventCodec) (config : Configuration)
    (appliedAtUnixS : ℕ) (events : List Event)
    (hfixed : ∀ event ∈ events, event.KeepsGovernance config.governance) (observedAt : TimeUnixMs)
    (auditRetentionMs maximumRowsPerClass : ℕ) (correlation : Id32) (thinned : Store)
    (attempts : List ServiceAttempt) :
    let plain := (Run.after (System.perform codec) (.initial config appliedAtUnixS) events).store
    let compact := compactGovernance observedAt auditRetentionMs maximumRowsPerClass correlation
    let plainEnd := Run.after (ServiceAttempt.perform config.governance) plain attempts
    let thinnedEnd := Run.after (ServiceAttempt.perform config.governance) thinned attempts
    compact.run plain = .ok ((), thinned) →
    FreshAttempts observedAt.get (deriveAuditId correlation .governanceCompaction) plain attempts →
    (∀ decision ∈ ServiceAttempt.decisions config.governance plain attempts,
      ∃ admitted, decision = .ok admitted) →
    plainEnd.nextAuditSequence < i64Max →
    ServiceAttempt.decisions config.governance thinned attempts =
        ServiceAttempt.decisions config.governance plain attempts ∧
      (thinned = plain ∨ ∃ (own : AuditRecord) (later : List AuditRecord) (removed : List ℕ),
        own.correlationId = correlation ∧ own.kind = .governanceCompaction ∧
        (∀ record ∈ plain.log, record.sequence ∈ removed →
          record.occurredAt.get < observedAt.get - auditRetentionMs) ∧
        plainEnd.log = later ++ plain.log ∧
        thinnedEnd.log = later.map AuditRecord.next ++
          own :: plain.log.filter fun record => record.sequence ∉ removed) ∧
      (∀ row ∈ thinnedEnd.audit, readAuditById thinnedEnd row.auditId =
        .ok (some (thinnedEnd.auditRecord row))) ∧
      compact.run thinnedEnd = .ok ((), thinnedEnd) := by
  intro plain compact plainEnd thinnedEnd hcompact hfresh hdecided hroom
  obtain ⟨-, hwindows, hcounted⟩ := PolicyRun.reachable codec config appliedAtUnixS hfixed
  have haudit : AuditInv plain := AuditInv.reachable codec config appliedAtUnixS events
  have hagain : ∀ record, readAuditById thinned (deriveAuditId correlation
      .governanceCompaction) = .ok (some record) → record.correlationId = correlation →
      record.operationId = none → record.kind = .governanceCompaction →
      record.outcome = .succeeded → record.reason = .compacted → record.occurredAt = observedAt →
      compact.run thinnedEnd = .ok ((), thinnedEnd) := by
    intro record hread hcorrelation hoperation hkind houtcome hreason htime
    have hrow : ∃ row ∈ thinned.audit,
        row.auditId = deriveAuditId correlation .governanceCompaction := by
      by_contra hnone
      have := readAuditById_eq_none.mpr fun row hrow hid => hnone ⟨row, hrow, hid⟩
      rw [hread] at this
      cases this
    refine run_compactGovernance_again ((ServiceAttempt.after_reads attempts hrow).trans hread)
      ⟨hcorrelation, hoperation, hkind, houtcome, hreason, htime⟩
  rcases compactGovernance_inversion hcompact with
    ⟨rfl, record, hread, hcorrelation, hoperation, hkind, houtcome, hreason, htime⟩ |
      ⟨hnone, sequences, windows, hstale, hretired, rfl⟩
  · have hend : AuditInv thinnedEnd := ServiceAttempt.after_audit haudit hfresh.stored
    exact ⟨rfl, .inl rfl, fun row hrow => hend.readable hrow,
      hagain record hread hcorrelation hoperation hkind houtcome hreason htime⟩
  · have htwins := TwinRuns.start haudit hwindows hcounted hnone sequences hretired
    obtain ⟨hdecisions, hend⟩ := htwins.run hfresh hdecided hroom
    obtain ⟨later, hlog, hlog'⟩ := hend.log
    refine ⟨hdecisions, .inr ⟨_, later, sequences, rfl, rfl, ?_, hlog, hlog'⟩,
      fun row hrow => hend.thinnedAudit.readable hrow, ?_⟩
    · intro record hrecord hremoved
      obtain ⟨row, hrow, rfl⟩ := haudit.mem_log.mp hrecord
      obtain ⟨other, hother, hsequence, hold⟩ := hstale _ hremoved
      obtain rfl := haudit.sequences.eq_of_key_eq hother hrow hsequence
      exact hold
    · obtain ⟨before, -, hthinned⟩ := htwins.log
      obtain ⟨row, hrow, hown⟩ := htwins.thinnedAudit.mem_log.mp
        (hthinned ▸ List.mem_append_right _ List.mem_cons_self)
      have hread := htwins.thinnedAudit.readable hrow
      have hcorrelation : row.correlationId = correlation :=
        congrArg AuditRecord.correlationId hown
      have hkind : row.auditKind = .governanceCompaction := congrArg AuditRecord.kind hown
      rw [htwins.thinnedAudit.identified row hrow, hcorrelation, hkind] at hread
      exact hagain _ (hread.trans (congrArg (fun record => Except.ok (some record)) hown)) rfl rfl
        rfl rfl rfl rfl

theorem run_of_committed {α : Type} {body : Tx α} {s : Store} {a : α}
    (h : (body.atomically s).1 = .ok a) : body.run s = .ok (a, (body.atomically s).2) :=
  run_of_atomically_ok (Prod.ext h rfl)

/-! ## One subject at a time -/

namespace SampleCompaction

open SampleService

/-- Connections are admitted once in a window, and on one relay at a time. -/
def tightRate : RateLimitPolicy :=
  { rateLimit .connectionAdmission with maxAttempts := 1, maximumTrackedSubjects := 1, valid := rfl }

def tightConfig : Configuration :=
  { config with
    governance := { governance with connectionAdmission := tightRate, admission_class := rfl } }

/-- The client connects on its relay; two more requests wait for a decision. -/
def requested : List Event :=
  connects ++ [.operation (.admitRequest secondConnect), .operation (.admitRequest thirdConnect)]

theorem requested_keepGovernance :
    ∀ event ∈ requested, event.KeepsGovernance tightConfig.governance := by
  intro event hevent
  simp only [requested, connects, List.cons_append, List.nil_append, List.mem_cons,
    List.not_mem_nil, or_false] at hevent
  rcases hevent with rfl | rfl | rfl | rfl <;> exact trivial

def plain : Store :=
  (Run.after (System.perform codec) (.initial tightConfig 1) requested).store

def compact : Tx Unit := compactGovernance (sampleTime 3001) 1000 16 9

def thinned : Store := (compact.atomically plain).2

def otherRelay : RelayId := ⟨[98], by decide⟩

/-- The attempt that the decision of a request makes on a relay. -/
def attemptOn (relay : RelayId) (request : SignerRequest) : ServiceAttempt where
  rateClass := .connectionAdmission
  request := newRequestRow request
  attempt :=
    ⟨[.global, relaySubject relay], ⟨(newRequestRow request).correlationId,
      sampleTime 4000, some (newRequestRow request).operationId⟩, .connectionAdmission⟩
  made := .admission relay _

/-- The second attempt is refused. -/
def sameRelay : List ServiceAttempt := [attemptOn relay secondConnect, attemptOn relay thirdConnect]

/-- The first attempt is on a relay for which no slot is free. -/
def relaysTaken : List ServiceAttempt :=
  [attemptOn otherRelay secondConnect, attemptOn relay thirdConnect]

def decisions : Store → List ServiceAttempt → List (Except OperationError Bool) :=
  ServiceAttempt.decisions tightConfig.governance

def after : Store → List ServiceAttempt → Store :=
  Run.after (ServiceAttempt.perform tightConfig.governance)

set_option maxRecDepth 4000 in
/-- One evaluation of the attempts, with and without the compaction. -/
theorem compacted_evaluates :
    ((compact.atomically plain).1 = .ok () ∧
      (∀ made ∈ sameRelay ++ relaysTaken, made.request ∈ plain.requests) ∧
      (∀ made ∈ sameRelay ++ relaysTaken, ∀ record ∈ plain.log,
        record.correlationId ≠ made.attempt.evidence.correlation) ∧
      (∀ made ∈ sameRelay ++ relaysTaken,
        made.attempt.auditId ≠ deriveAuditId 9 .governanceCompaction) ∧
      ((sameRelay.map fun made => made.attempt.evidence.correlation).Nodup ∧
        (relaysTaken.map fun made => made.attempt.evidence.correlation).Nodup) ∧
      (after plain sameRelay).nextAuditSequence < i64Max) ∧
    (decisions plain sameRelay = [.ok true, .ok false] ∧
      decisions plain relaysTaken = [.error .binding, .ok true] ∧
      decisions thinned relaysTaken = [.ok true, .error .binding]) ∧
    (after plain sameRelay).log.map AuditRecord.sequence = [2, 1] ∧
      (after thinned sameRelay).log.map AuditRecord.sequence = [3, 2] ∧
      (after thinned sameRelay).log.map AuditRecord.kind =
        [.connectionAdmission, .governanceCompaction] := by
  decide +kernel

theorem compact_run : compact.run plain = .ok ((), thinned) := by
  obtain ⟨⟨hcompact, -⟩, -⟩ := compacted_evaluates
  rw [thinned]
  exact run_of_committed hcompact

theorem fresh_of_mem {attempts : List ServiceAttempt} (h : attempts ⊆ sameRelay ++ relaysTaken)
    (hdistinct : (attempts.map fun made => made.attempt.evidence.correlation).Nodup) :
    FreshAttempts 3001 (deriveAuditId 9 .governanceCompaction) plain attempts := by
  obtain ⟨⟨-, hstored, hunlogged, hother, -⟩, -⟩ := compacted_evaluates
  have hlater : ∀ made ∈ sameRelay ++ relaysTaken, 3001 ≤ made.attempt.now := by decide
  exact ⟨fun made hmade => hstored made (h hmade), fun made hmade => hlater made (h hmade),
    fun made hmade => hunlogged made (h hmade), hdistinct, fun made hmade => hother made (h hmade)⟩

theorem sameRelay_fresh :
    FreshAttempts 3001 (deriveAuditId 9 .governanceCompaction) plain sameRelay := by
  obtain ⟨⟨-, -, -, -, ⟨hdistinct, -⟩, -⟩, -⟩ := compacted_evaluates
  exact fresh_of_mem (List.subset_append_left _ _) hdistinct

theorem relaysTaken_fresh :
    FreshAttempts 3001 (deriveAuditId 9 .governanceCompaction) plain relaysTaken := by
  obtain ⟨⟨-, -, -, -, ⟨-, hdistinct⟩, -⟩, -⟩ := compacted_evaluates
  exact fresh_of_mem (List.subset_append_right _ _) hdistinct

end SampleCompaction

open SampleCompaction in
/-- After an attempt that failed for want of a slot the decisions can differ, and a refusal after
a compaction has another sequence. -/
theorem compaction_frees_slot :
    (∀ event ∈ requested, event.KeepsGovernance tightConfig.governance) ∧
      compact.run plain = .ok ((), thinned) ∧
      (FreshAttempts 3001 (deriveAuditId 9 .governanceCompaction) plain relaysTaken ∧
        ¬ ∀ (index : ℕ) (admitted : Bool),
          (decisions plain relaysTaken)[index]? = some (.ok admitted) →
          (decisions thinned relaysTaken)[index]? = some (.ok admitted)) ∧
      (FreshAttempts 3001 (deriveAuditId 9 .governanceCompaction) plain sameRelay ∧
        ¬ ∀ record ∈ (after thinned sameRelay).log, record.kind ≠ .governanceCompaction →
          record ∈ (after plain sameRelay).log) := by
  obtain ⟨-, ⟨-, hplain, hthinned⟩, hplainLog, hthinnedLog, hkinds⟩ := compacted_evaluates
  refine ⟨requested_keepGovernance, compact_run, ⟨relaysTaken_fresh, ?_⟩, sameRelay_fresh, ?_⟩
  · intro h
    have hsecond := h 1 true (by rw [hplain]; rfl)
    rw [hthinned] at hsecond
    cases hsecond
  · intro h
    generalize (after thinned sameRelay).log = log at h hthinnedLog hkinds
    rcases log with - | ⟨refusal, rest⟩
    · cases hkinds
    · rw [List.map_cons, List.cons.injEq] at hthinnedLog hkinds
      have hmem := List.mem_map_of_mem (f := AuditRecord.sequence)
        (h refusal List.mem_cons_self (by rw [hkinds.1]; decide))
      rw [hplainLog, hthinnedLog.1] at hmem
      exact absurd hmem (by decide)

open SampleCompaction in
/-- One attempt is admitted and one refused, with and without the compaction. -/
theorem refusal_after_compaction :
    (decisions thinned sameRelay = decisions plain sameRelay) ∧
      compact.run (after thinned sameRelay) = .ok ((), after thinned sameRelay) := by
  obtain ⟨⟨-, -, -, -, -, hroom⟩, ⟨hplain, -⟩, -⟩ := compacted_evaluates
  have hdecided : ∀ decision ∈ decisions plain sameRelay, ∃ admitted, decision = .ok admitted := by
    rw [hplain]
    simp
  have hrun := compact_run
  have hfresh := sameRelay_fresh
  rw [plain] at hrun hfresh hdecided hroom ⊢
  rw [compact] at hrun ⊢
  have h := compaction_decides_alike SampleService.codec tightConfig 1 requested
    requested_keepGovernance (sampleTime 3001) 1000 16 9 thinned sameRelay hrun
    hfresh hdecided hroom
  exact ⟨h.1, h.2.2.2⟩

end MycSigner
