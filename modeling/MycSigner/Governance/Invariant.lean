import MycSigner.Governance.Reachable

/-!
# The trail and the windows of a reachable store

Two invariants of governance, whatever the configurations of a run were: the audit trail is
in order, so that every stored record is readable, and every key has at most one rate window,
whose last attempt lies in it.
-/

namespace MycSigner

open Transaction

/-! ## The trail -/

namespace AuditInv

variable {s s' : Store}

theorem grows (inv : AuditInv s) (htrail : s'.trail = s.trail) (hgrows : RequestsGrow s s') :
    AuditInv s' := by
  have hsequence : s'.nextAuditSequence = s.nextAuditSequence := congrArg (·.1) htrail
  have haudit : s'.audit = s.audit := congrArg (·.2.1) htrail
  have hlinks : s'.requestAudit = s.requestAudit := congrArg (·.2.2.1) htrail
  refine ⟨hgrows.unique inv.requests, ?_, ?_, ?_, ?_, ?_, ?_, ?_⟩
  · rw [haudit, hsequence]
    exact inv.numbered
  · rw [haudit]
    exact inv.sequences
  · rw [haudit]
    exact inv.ids
  · rw [haudit]
    exact inv.identified
  · rw [hlinks]
    exact inv.linkSequences
  · rw [haudit, hlinks]
    intro link hlink
    obtain ⟨row, hrow, hsequence, hkind, hbound, request, hrequest, hrest⟩ := inv.links link hlink
    exact ⟨row, hrow, hsequence, hkind, hbound, request, hgrows.kept request hrequest, hrest⟩
  · rw [haudit, hlinks]
    exact inv.bound

/-- Links and records go together. -/
theorem compacted (inv : AuditInv s) (sequences : List ℕ) (windows : List RateWindowRow) :
    AuditInv (s.compacted sequences windows) where
  requests := inv.requests
  numbered := fun row hrow => inv.numbered row (List.mem_filter.mp hrow).1
  sequences := inv.sequences.sublist (List.filter_sublist.map _)
  ids := inv.ids.sublist (List.filter_sublist.map _)
  identified := fun row hrow => inv.identified row (List.mem_filter.mp hrow).1
  linkSequences := inv.linkSequences.sublist (List.filter_sublist.map _)
  links := by
    intro link hlink
    obtain ⟨hlink, hkept⟩ := List.mem_filter.mp hlink
    obtain ⟨row, hrow, hsequence, hrest⟩ := inv.links link hlink
    rw [← hsequence] at hkept
    exact ⟨row, List.mem_filter.mpr ⟨hrow, hkept⟩, hsequence, hrest⟩
  bound := by
    intro row hrow hbound
    obtain ⟨hrow, hkept⟩ := List.mem_filter.mp hrow
    obtain ⟨link, hlink, hsequence⟩ := inv.bound row hrow hbound
    rw [← hsequence] at hkept
    exact ⟨link, List.mem_filter.mpr ⟨hlink, hkept⟩, hsequence⟩

theorem counted (inv : AuditInv s) {rows : List RateWindowRow}
    (hframe : s' = { s with rateWindows := rows }) : AuditInv s' := by
  rw [hframe]
  exact ⟨inv.requests, inv.numbered, inv.sequences, inv.ids, inv.identified, inv.linkSequences,
    inv.links, inv.bound⟩

theorem governance (config : Configuration) : GovernanceInvariant config AuditInv where
  grows := fun htrail hgrows inv => inv.grows htrail hgrows
  recorded := fun hbound hnone _ inv => inv.recorded hbound hnone
  counted := fun _ _ _ hcounted inv => inv.counted hcounted.frame
  compacted := fun sequences windows inv => inv.compacted sequences windows

theorem initial (metadata : PersistedMetadata) (appliedAtUnixS : ℕ) :
    AuditInv (Store.initial metadata appliedAtUnixS) where
  requests := .nil
  numbered := fun _ h => absurd h List.not_mem_nil
  sequences := .nil
  ids := .nil
  identified := fun _ h => absurd h List.not_mem_nil
  linkSequences := .nil
  links := fun _ h => absurd h List.not_mem_nil
  bound := fun _ h => absurd h List.not_mem_nil

theorem reachable (codec : EventCodec) (config : Configuration) (appliedAtUnixS : ℕ)
    (events : List Event) :
    AuditInv
      (Run.after (System.perform codec) (System.initial config appliedAtUnixS) events).store :=
  GovernanceInvariant.reachable governance codec config appliedAtUnixS (initial _ _) events

end AuditInv

/-! ## The windows -/

/-- The windows of a store in good order. -/
structure WindowInv (s : Store) : Prop where
  single : ∀ key, (s.windowsOf key).length ≤ 1
  checked : ∀ row ∈ s.rateWindows, rateWindowCheck row = true
  within : ∀ row ∈ s.rateWindows, row.lastObservedAt ≤ row.windowEndsAt

namespace WindowInv

variable {s s' : Store}

theorem mem_windowsOf {row : RateWindowRow} {key : RateKey} :
    row ∈ s.windowsOf key ↔ row ∈ s.rateWindows ∧ row.key = key := by
  simp [Store.windowsOf]

/-- A key has no window, or one. -/
theorem windowsOf_cases (inv : WindowInv s) (key : RateKey) :
    s.windowsOf key = [] ∨ ∃ row ∈ s.rateWindows, s.windowsOf key = [row] := by
  have hsingle := inv.single key
  match h : s.windowsOf key with
  | [] => exact .inl rfl
  | [row] =>
      have hmem : row ∈ s.windowsOf key := by simp [h]
      exact .inr ⟨row, (mem_windowsOf.mp hmem).1, rfl⟩
  | _ :: _ :: _ =>
      rw [h] at hsingle
      simp at hsingle

/-- A window that counted an attempt passes the checks and holds its instant. -/
theorem counted (inv : WindowInv s) {policy : RateLimitPolicy} {subjects : List RateSubject}
    {observedAt : TimeUnixMs} {admitted : Bool}
    (hscopes : ∀ subject ∈ subjects, subject.scope.allowedFor policy.rateClass = true)
    (hcounted : Counted policy subjects observedAt admitted s s') : WindowInv s' := by
  have hkey : ∀ key, s'.windowsOf key = s.windowsOf key ∨ ∃ row, s'.windowsOf key = [row] ∧
      rateWindowCheck row = true ∧ row.lastObservedAt ≤ row.windowEndsAt := by
    intro key
    by_cases hmem : key ∈ subjects.map (·.key policy.rateClass)
    · right
      obtain ⟨subject, hsubject, rfl⟩ := List.mem_map.mp hmem
      obtain ⟨state, hload, hfits, hwritten⟩ := hcounted.touched subject hsubject
      have hsane := loadRateState_sane hload
        (fun row hrow => inv.checked row (mem_windowsOf.mp hrow).1) (hscopes subject hsubject)
      refine ⟨_, hwritten, written_checked hload hsane (fun hadmitted => ?_) hfits,
        (loadRateState_holds hload).2.1⟩
      exact hcounted.decided.mp hadmitted subject hsubject state hload
    · exact .inl (hcounted.others key hmem)
  have hrows : ∀ row ∈ s'.rateWindows,
      rateWindowCheck row = true ∧ row.lastObservedAt ≤ row.windowEndsAt := by
    intro row hrow
    have hmem : row ∈ s'.windowsOf row.key := mem_windowsOf.mpr ⟨hrow, rfl⟩
    rcases hkey row.key with hsame | ⟨row', hrow', hgood⟩
    · rw [hsame] at hmem
      have hold := (mem_windowsOf.mp hmem).1
      exact ⟨inv.checked row hold, inv.within row hold⟩
    · rw [hrow', List.mem_singleton] at hmem
      rw [hmem]
      exact hgood
  refine ⟨fun key => ?_, fun row hrow => (hrows row hrow).1, fun row hrow => (hrows row hrow).2⟩
  rcases hkey key with hsame | ⟨row, hrow, -⟩
  · rw [hsame]
    exact inv.single key
  · rw [hrow]
    exact Nat.le_refl 1

theorem of_rateWindows (inv : WindowInv s) (h : s'.rateWindows = s.rateWindows) :
    WindowInv s' := by
  refine ⟨fun key => ?_, ?_, ?_⟩
  · unfold Store.windowsOf
    rw [h]
    exact inv.single key
  · rw [h]
    exact inv.checked
  · rw [h]
    exact inv.within

theorem compacted (inv : WindowInv s) (sequences : List ℕ) (windows : List RateWindowRow) :
    WindowInv (s.compacted sequences windows) where
  single := by
    intro key
    have hsub : ((s.compacted sequences windows).windowsOf key).Sublist (s.windowsOf key) :=
      List.filter_sublist.filter _
    exact hsub.length_le.trans (inv.single key)
  checked := fun row hrow => inv.checked row (List.mem_filter.mp hrow).1
  within := fun row hrow => inv.within row (List.mem_filter.mp hrow).1

theorem governance (config : Configuration) : GovernanceInvariant config WindowInv where
  grows := fun htrail _ inv => inv.of_rateWindows (congrArg (·.2.2.2) htrail)
  recorded := fun _ _ _ inv => inv.of_rateWindows rfl
  counted := fun _ hscopes _ hcounted inv => inv.counted hscopes hcounted
  compacted := fun sequences windows inv => inv.compacted sequences windows

theorem initial (metadata : PersistedMetadata) (appliedAtUnixS : ℕ) :
    WindowInv (Store.initial metadata appliedAtUnixS) where
  single := fun _ => Nat.zero_le 1
  checked := fun _ h => absurd h List.not_mem_nil
  within := fun _ h => absurd h List.not_mem_nil

theorem reachable (codec : EventCodec) (config : Configuration) (appliedAtUnixS : ℕ)
    (events : List Event) :
    WindowInv
      (Run.after (System.perform codec) (System.initial config appliedAtUnixS) events).store :=
  GovernanceInvariant.reachable governance codec config appliedAtUnixS (initial _ _) events

end WindowInv

end MycSigner
