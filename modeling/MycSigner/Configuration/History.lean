import MycSigner.Outbox.Reconfiguration

/-!
# The history of configuration bindings

Every configuration that was in force leaves one binding.  The bindings are numbered from one
without a gap, their application times never go back, and the last one is the configuration
in force.  Only an application adds a binding, and an application that fails adds nothing.
-/

namespace MycSigner

open Transaction

/-! ## The bindings of a store -/

/-- The generations count from one, there are few of them, and time does not go back. -/
structure BindingHistory (bindings : List ConfigBindingRow) : Prop where
  generations : bindings.map ConfigBindingRow.generation = List.range' 1 bindings.length
  nonempty : bindings ≠ []
  few : bindings.length ≤ 1024
  times : bindings.Pairwise fun earlier later => earlier.appliedAtUnixS ≤ later.appliedAtUnixS

namespace BindingHistory

variable {bindings : List ConfigBindingRow}

theorem unique (h : BindingHistory bindings) :
    Table.Unique ConfigBindingRow.generation bindings := by
  unfold Table.Unique
  rw [h.generations]
  exact List.nodup_range'

theorem generation_le (h : BindingHistory bindings) {row : ConfigBindingRow}
    (hrow : row ∈ bindings) : 1 ≤ row.generation ∧ row.generation ≤ bindings.length := by
  have hmem := List.mem_map_of_mem (f := ConfigBindingRow.generation) hrow
  rw [h.generations, List.mem_range'_1] at hmem
  omega

theorem generation_getLast (h : BindingHistory bindings) :
    (bindings.getLast h.nonempty).generation = bindings.length := by
  have hlast : (bindings.map ConfigBindingRow.generation).getLast
      (by simpa using h.nonempty) = (bindings.getLast h.nonempty).generation :=
    List.getLast_map ..
  rw [← hlast]
  simp only [h.generations]
  have hpos := List.length_pos_of_ne_nil h.nonempty
  rw [List.getLast_range']
  omega

/-- The last binding is the one with the largest generation. -/
theorem latest {s : Store} (h : BindingHistory s.configBindings) :
    latestBinding s = some (s.configBindings.getLast h.nonempty) := by
  have hperm := Table.ordered_perm
    (fun left right : ConfigBindingRow => right.generation ≤ left.generation) s.configBindings
  have htotal : Std.Total fun left right : ConfigBindingRow =>
      decide (right.generation ≤ left.generation) = true :=
    ⟨fun left right => by simpa using Nat.le_total right.generation left.generation⟩
  have htrans : IsTrans ConfigBindingRow fun left right =>
      decide (right.generation ≤ left.generation) = true :=
    ⟨fun first second third h₁ h₂ => by
      simp only [decide_eq_true_eq] at h₁ h₂ ⊢
      exact Nat.le_trans h₂ h₁⟩
  have hsorted := List.pairwise_insertionSort (fun left right : ConfigBindingRow =>
    decide (right.generation ≤ left.generation) = true) s.configBindings
  have hlast := List.getLast_mem h.nonempty
  unfold latestBinding
  change (Table.ordered (fun left right : ConfigBindingRow =>
    right.generation ≤ left.generation) s.configBindings).Pairwise _ at hsorted
  cases hordered : Table.ordered (fun left right : ConfigBindingRow =>
      right.generation ≤ left.generation) s.configBindings with
  | nil =>
      rw [hordered] at hperm
      exact absurd hperm.symm.eq_nil h.nonempty
  | cons head rest =>
      rw [hordered] at hperm hsorted
      have hhead := hperm.mem_iff.mp (.head _)
      -- the head is no smaller than the last binding, whose generation is the largest
      have hle : s.configBindings.length ≤ head.generation := by
        rw [← h.generation_getLast]
        rcases List.mem_cons.mp (hperm.mem_iff.mpr hlast) with heq | hrest
        · rw [heq]
        · exact of_decide_eq_true ((List.pairwise_cons.mp hsorted).1 _ hrest)
      have heq : head.generation = (s.configBindings.getLast h.nonempty).generation := by
        rw [h.generation_getLast]
        exact Nat.le_antisymm (h.generation_le hhead).2 hle
      rw [List.head?_cons, h.unique.eq_of_key_eq hhead hlast heq]

/-- One more generation, applied no earlier than the last one. -/
theorem append (h : BindingHistory bindings) (hfew : bindings.length < 1024)
    {metadata : PersistedMetadata} {appliedAtUnixS : ℕ}
    (htimes : ∀ row ∈ bindings, row.appliedAtUnixS ≤ appliedAtUnixS) :
    BindingHistory (bindings ++ [⟨bindings.length + 1, metadata, appliedAtUnixS⟩]) where
  generations := by
    rw [List.map_append, h.generations, List.length_append, List.length_singleton,
      List.range'_concat]
    simp [Nat.add_comm]
  nonempty := by simp
  few := by
    rw [List.length_append, List.length_singleton]
    exact hfew
  times := by
    rw [List.pairwise_append]
    exact ⟨h.times, List.pairwise_singleton .., fun row hrow other hother =>
      List.mem_singleton.mp hother ▸ htimes row hrow⟩

end BindingHistory

/-! ## One application -/

/-- A relay of the current configuration is changed or removed while an open job targets it. -/
def Detaches (s : Store) (current candidate : Configuration) : Prop :=
  ∃ relay ∈ current.relays, relay ∉ candidate.relays ∧ ∃ target ∈ s.targets,
    target.relayId = relay.id ∧ ∃ job ∈ s.jobs, job.jobId = target.jobId ∧
      (job.status = .pending ∨ job.status = .active)

theorem isOpen_iff {status : JobStatus} :
    status.isOpen = true ↔ status = .pending ∨ status = .active := by
  cases status <;> simp [JobStatus.isOpen, JobStatus.isTerminal]

theorem detaches_iff {s : Store} {current candidate : Configuration} :
    Detaches s current candidate ↔
      (changedExistingRelays current candidate).any (relayHasNonterminalJob s) = true := by
  simp only [Detaches, changedExistingRelays, relayHasNonterminalJob, List.any_eq_true,
    List.mem_map, List.mem_filter, decide_eq_true_eq, Bool.and_eq_true, beq_iff_eq, isOpen_iff]
  constructor
  · rintro ⟨relay, hrelay, hchanged, target, htarget, hid, job, hjob, hof, hopen⟩
    exact ⟨relay.id, ⟨relay, ⟨hrelay, hchanged⟩, rfl⟩, target, htarget, hid, job, hjob, hof, hopen⟩
  · rintro ⟨_, ⟨relay, ⟨hrelay, hchanged⟩, rfl⟩, target, htarget, hid, job, hjob, hof, hopen⟩
    exact ⟨relay, hrelay, hchanged, target, htarget, hid, job, hjob, hof, hopen⟩

theorem run_readLatestHeader_eq_ok {latest : ConfigBindingRow} {s s' : Store} :
    readLatestHeader.run s = .ok (latest, s') ↔ latestBinding s = some latest ∧
      (1 ≤ latest.generation ∧ latest.generation ≤ 1024) ∧ s = s' := by
  unfold readLatestHeader
  rw [run_query_bind_eq_ok]
  constructor
  · rintro ⟨_, hread, h⟩
    obtain rfl := Except.ok.inj hread
    obtain ⟨_, hsome, h⟩ := run_orFail_bind_eq_ok.mp h
    obtain ⟨hbounds, h⟩ := run_require_bind_eq_ok.mp h
    obtain ⟨rfl, rfl⟩ := run_pure_eq_ok.mp h
    exact ⟨hsome, hbounds, rfl⟩
  · rintro ⟨hsome, hbounds, rfl⟩
    exact ⟨_, rfl, run_orFail_bind_eq_ok.mpr ⟨latest, hsome, run_require_bind_eq_ok.mpr
      ⟨hbounds, run_pure_eq_ok.mpr ⟨rfl, rfl⟩⟩⟩⟩

theorem reconfigured_configBindings (s : Store) (current candidate : Configuration)
    (appliedAtUnixS : ℕ) :
    (s.reconfigured current candidate appliedAtUnixS).configBindings = s.configBindings := by
  unfold Store.reconfigured
  split
  next => rfl
  next =>
    split
    next => rfl
    next => rfl

/-- What a committed application of another configuration has checked and written. -/
structure Applies (s : Store) (current candidate : Configuration) (appliedAtUnixS : ℕ)
    (generation : ℕ) (s' : Store) : Prop where
  bound : Bound current s
  attached : ¬ Detaches s current candidate
  few : s.configBindings.length < 1024
  times : ∀ row ∈ s.configBindings, row.appliedAtUnixS ≤ appliedAtUnixS
  latest : ∃ row, latestBinding s = some row ∧ generation = row.generation + 1
  store : s' = { s.reconfigured current candidate appliedAtUnixS with
    configBindings := s.configBindings ++ [⟨generation, candidate.metadata, appliedAtUnixS⟩] }

theorem applyConfiguration_applies {current candidate : Configuration} {appliedAtUnixS : ℕ}
    {outcome : ConfigApplyOutcome} {s s' : Store}
    (hdiffers : candidate.metadata ≠ current.metadata)
    (h : (applyConfiguration current candidate appliedAtUnixS).run s = .ok (outcome, s')) :
    Applies s current candidate appliedAtUnixS outcome.generation s' := by
  unfold applyConfiguration at h
  obtain ⟨_, s₁, hcurrent, h⟩ := run_bind_eq_ok.mp h
  obtain ⟨hbound, hsame⟩ := run_requireExpectedMetadata.mp hcurrent
  rw [hsame] at h
  obtain ⟨latest, s₂, hread, h⟩ := run_bind_eq_ok.mp h
  obtain ⟨hlatest, -, hsame⟩ := run_readLatestHeader_eq_ok.mp hread
  rw [← hsame, if_neg hdiffers] at h
  obtain ⟨-, h⟩ := run_require_bind_eq_ok.mp h
  obtain ⟨-, h⟩ := run_require_bind_eq_ok.mp h
  obtain ⟨_, hblocked, h⟩ := run_query_bind_eq_ok.mp h
  obtain ⟨hfree, h⟩ := run_require_bind_eq_ok.mp h
  rw [← Except.ok.inj hblocked] at hfree
  obtain ⟨counts, s₃, hrevoke, h⟩ := run_bind_eq_ok.mp h
  obtain rfl := run_revokeForConfiguration hrevoke
  obtain ⟨_, s₄, hinsert, h⟩ := run_bind_eq_ok.mp h
  obtain ⟨hallowed, rfl⟩ := configBindingsTable.run_insert_eq_ok.mp hinsert
  obtain ⟨_, s₅, hexpected, h⟩ := run_bind_eq_ok.mp h
  obtain ⟨-, hsame⟩ := run_requireExpectedMetadata.mp hexpected
  rw [hsame] at h
  obtain ⟨actual, s₆, hactual, h⟩ := run_bind_eq_ok.mp h
  rw [← run_readLatestHeader hactual] at h
  obtain ⟨-, h⟩ := run_require_bind_eq_ok.mp h
  obtain ⟨rfl, rfl⟩ := run_pure_eq_ok.mp h
  simp only [configBindingInsertAllowed, Bool.and_eq_true, decide_eq_true_eq, List.all_eq_true,
    reconfigured_configBindings] at hallowed
  refine ⟨hbound, ?_, hallowed.1.2, hallowed.2, ⟨latest, hlatest, rfl⟩, ?_⟩
  · rw [detaches_iff, hfree]
    simp
  · rw [← reconfigured_configBindings s current candidate appliedAtUnixS]
    rfl

/-- An equal candidate is a replay. -/
theorem run_applyConfiguration_replay {current candidate : Configuration} {s : Store}
    (hbound : Bound current s) (history : BindingHistory s.configBindings)
    (hequal : candidate.metadata = current.metadata) (appliedAtUnixS : ℕ) :
    (applyConfiguration current candidate appliedAtUnixS).run s =
      .ok (⟨s.configBindings.length, 0, 0⟩, s) := by
  have hmem := List.getLast_mem history.nonempty
  have hgeneration := history.generation_le hmem
  have hread : readLatestHeader.run s =
      .ok (s.configBindings.getLast history.nonempty, s) := by
    refine run_readLatestHeader_eq_ok.mpr ⟨history.latest, ?_, rfl⟩
    exact ⟨hgeneration.1, Nat.le_trans hgeneration.2 history.few⟩
  have hcurrent : (requireExpectedMetadata current).run s = .ok ((), s) :=
    run_requireExpectedMetadata.mpr ⟨hbound, rfl⟩
  unfold applyConfiguration
  rw [run_bind_of_ok hcurrent, run_bind_of_ok hread,
    if_pos hequal, history.generation_getLast]
  rfl

/-! ## Runs of the service -/

/-- No operation of the running service touches the bindings. -/
theorem SessionStep.configBindings {config : Configuration} {s s₁ : Store} {operation : Operation}
    (h : SessionStep config s operation s₁) : s₁.configBindings = s.configBindings := by
  cases h with
  | quiet => rfl
  | requests admits => exact (congrArg Store.configBindings admits.outside :)
  | outbox outside => exact (congrArg Store.configBindings outside :)
  | connect => rfl
  | approve => rfl
  | deny => rfl
  | finish => rfl
  | issue => rfl
  | resolve => rfl
  | complete => rfl
  | answerPending => rfl

/-- The store is bound to the configuration in force, at the end of its history. -/
structure System.InForce (system : System) : Prop where
  history : BindingHistory system.store.configBindings
  bound : Bound system.config system.store

theorem Bound.of_configBindings {config : Configuration} {s s' : Store} (h : Bound config s)
    (heq : s'.configBindings = s.configBindings) : Bound config s' := by
  unfold Bound latestBinding
  rw [heq]
  exact h

namespace System.InForce

variable {system : System}

theorem applied (h : system.InForce) {candidate : Configuration} {appliedAtUnixS : ℕ}
    {generation : ℕ} {s' : Store}
    (applies : Applies system.store system.config candidate appliedAtUnixS generation s') :
    generation = system.store.configBindings.length + 1 ∧ InForce ⟨candidate, s'⟩ := by
  obtain ⟨row, hlatest, hgeneration⟩ := applies.latest
  rw [h.history.latest] at hlatest
  obtain rfl := Option.some.inj hlatest
  rw [h.history.generation_getLast] at hgeneration
  have hbindings : s'.configBindings = system.store.configBindings ++
      [⟨system.store.configBindings.length + 1, candidate.metadata, appliedAtUnixS⟩] := by
    rw [applies.store, hgeneration]
  have history : BindingHistory s'.configBindings := by
    rw [hbindings]
    exact h.history.append applies.few applies.times
  refine ⟨hgeneration, history, ?_⟩
  unfold Bound
  rw [history.latest]
  simp [hbindings]

/-- Every event keeps the history. -/
theorem perform {codec : EventCodec} (h : system.InForce) (event : Event) :
    (system.perform codec event).InForce := by
  refine System.perform_cases event h ?_ ?_
  · intro operation u s' _ hrun
    obtain ⟨s₁, hstep, hview⟩ := Operation.step hrun
    have hbindings : s'.configBindings = system.store.configBindings :=
      (congrArg Store.configBindings hview :).trans hstep.configBindings
    exact ⟨by rw [hbindings]; exact h.history, h.bound.of_configBindings hbindings⟩
  · intro candidate appliedAtUnixS outcome s' _ hrun
    unfold Configuration.appliedOver
    by_cases hequal : candidate.metadata = system.config.metadata
    · rw [run_applyConfiguration_replay h.bound h.history hequal] at hrun
      cases hrun
      rw [if_pos hequal]
      exact h
    · rw [if_neg hequal]
      exact (h.applied (applyConfiguration_applies hequal hrun)).2

theorem initial (config : Configuration) (appliedAtUnixS : ℕ) :
    (System.initial config appliedAtUnixS).InForce where
  history := ⟨rfl, by simp [System.initial, Store.initial], by simp [System.initial, Store.initial],
    List.pairwise_singleton ..⟩
  bound := rfl

end System.InForce

/-- What an application of a candidate does to a system. -/
structure ApplyRules (codec : EventCodec) (system : System) (candidate : Configuration)
    (appliedAtUnixS : ℕ) : Prop where
  /-- An equal binding is a replay of the current generation. -/
  replay : candidate.metadata = system.config.metadata →
    (applyConfiguration system.config candidate appliedAtUnixS).run system.store =
        .ok (⟨system.store.configBindings.length, 0, 0⟩, system.store) ∧
      system.perform codec (.apply candidate appliedAtUnixS) = system
  /-- Another binding is committed as the next generation. -/
  appends : candidate.metadata ≠ system.config.metadata → ∀ outcome s',
    (applyConfiguration system.config candidate appliedAtUnixS).run system.store =
        .ok (outcome, s') →
    outcome.generation = system.store.configBindings.length + 1 ∧
      s'.configBindings = system.store.configBindings ++
        [⟨system.store.configBindings.length + 1, candidate.metadata, appliedAtUnixS⟩]
  /-- A failure changes nothing, whichever configuration the caller took for the current one. -/
  failure : ∀ current e,
    ((applyConfiguration current candidate appliedAtUnixS).atomically system.store).1 = .error e →
      ((applyConfiguration current candidate appliedAtUnixS).atomically system.store).2 =
        system.store
  /-- The caller must know the configuration in force. -/
  stale : ∀ current : Configuration, current.metadata ≠ system.config.metadata →
    ∃ e, (applyConfiguration current candidate appliedAtUnixS).run system.store = .error e
  /-- A relay with open work is not changed or removed. -/
  detached : candidate.metadata ≠ system.config.metadata →
    Detaches system.store system.config candidate →
    ∃ e, (applyConfiguration system.config candidate appliedAtUnixS).run system.store = .error e

theorem System.InForce.applyRules {codec : EventCodec} {system : System} (h : system.InForce)
    (candidate : Configuration) (appliedAtUnixS : ℕ) :
    ApplyRules codec system candidate appliedAtUnixS where
  replay := by
    intro hequal
    have hrun := run_applyConfiguration_replay h.bound h.history hequal appliedAtUnixS
    refine ⟨hrun, ?_⟩
    simp only [System.perform, atomically_of_ok hrun, Configuration.appliedOver, hequal, if_true]
  appends := by
    intro hdiffers outcome s' hrun
    have happlies := applyConfiguration_applies hdiffers hrun
    have hgeneration := (h.applied happlies).1
    exact ⟨hgeneration, by rw [happlies.store, hgeneration]⟩
  failure := by
    intro current e herror
    rcases atomically_state_cases (applyConfiguration current candidate appliedAtUnixS)
      system.store with hsame | ⟨outcome, hrun⟩
    · exact hsame
    · rw [atomically_of_ok hrun] at herror
      cases herror
  stale := by
    intro current hstale
    cases hrun : (applyConfiguration current candidate appliedAtUnixS).run system.store with
    | error e => exact ⟨e, rfl⟩
    | ok result =>
        obtain ⟨_, s₁, hcurrent, -⟩ := run_bind_eq_ok.mp hrun
        have hbound := (run_requireExpectedMetadata.mp hcurrent).1
        exact absurd (Option.some.inj (hbound.symm.trans h.bound)) hstale
  detached := by
    intro hdiffers hdetaches
    cases hrun : (applyConfiguration system.config candidate appliedAtUnixS).run system.store with
    | error e => exact ⟨e, rfl⟩
    | ok result => exact absurd hdetaches (applyConfiguration_applies hdiffers hrun).attached

/-- In every state that the service reaches the bindings are numbered from one without a gap,
at most 1024 of them, in the order of their times; and every application follows the rules. -/
theorem configuration_history_sound (codec : EventCodec) (config : Configuration)
    (appliedAtUnixS : ℕ) (events : List Event) :
    let system := Run.after (System.perform codec) (.initial config appliedAtUnixS) events
    BindingHistory system.store.configBindings ∧
      ∀ candidate appliedAtUnixS', ApplyRules codec system candidate appliedAtUnixS' := by
  have hforce : (Run.after (System.perform codec) (.initial config appliedAtUnixS)
      events).InForce :=
    Run.invariant_always (fun _ event h => h.perform event) events
      (.initial config appliedAtUnixS)
  exact ⟨hforce.history, fun candidate appliedAtUnixS' =>
    hforce.applyRules candidate appliedAtUnixS'⟩

end MycSigner
