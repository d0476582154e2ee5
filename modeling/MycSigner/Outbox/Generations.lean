import MycSigner.Outbox.Moves

/-!
# Discovery generations

Over every run of the service the pointer of discovery is safe.  Its desired columns name a
generation whose document and job are stored, and its current columns a generation that was
delivered, and that was the desired one when it became current.  A commit makes desired only a
generation that was never committed before, so that a generation that was replaced is out for
good: it is never desired again, and it does not become current any more.
-/

namespace MycSigner

open Transaction

variable {s s' s'' : Store}

/-! ## What the pointer names -/

/-- The current columns are empty or name a delivered job with its generation. -/
def CurrentNamed (s : Store) : Prop :=
  ∀ state ∈ s.publicationState,
    (state.currentGenerationId = none ∧ state.currentJobId = none) ∨
      ∃ job ∈ s.jobs, job.sourceKind = .discoveryHandler ∧ job.status = .delivered ∧
        state.currentGenerationId = some job.sourceId ∧ state.currentJobId = some job.jobId

/-- The desired columns name a generation, with its document and the job that delivers it. -/
def DesiredNamed (s : Store) : Prop :=
  ∀ state ∈ s.publicationState, ∃ row ∈ s.desired, ∃ document ∈ s.documents, ∃ job ∈ s.jobs,
    row.generationId = state.desiredGenerationId ∧
    document.generationId = state.desiredGenerationId ∧ job.jobId = state.desiredJobId ∧
    job.Delivers state.desiredGenerationId document.eventSha256

structure GenerationInv (s : Store) : Prop extends DeliveryInv s where
  current : CurrentNamed s
  desired : DesiredNamed s

theorem GenerationInv.initial (metadata : PersistedMetadata) (appliedAtUnixS : ℕ) :
    GenerationInv (Store.initial metadata appliedAtUnixS) :=
  ⟨NoDelivery.inv ⟨rfl, rfl, rfl⟩, nofun, nofun⟩

theorem JobRow.Continues.delivers {job job' : JobRow} {generationId artifact : Id32}
    (h : job.Continues job') (hdelivers : job.Delivers generationId artifact) :
    job'.Delivers generationId artifact where
  kind := (congrArg JobRow.sourceKind h.same :).trans hdelivers.kind
  source := (congrArg JobRow.sourceId h.same :).trans hdelivers.source
  artifact := (congrArg JobRow.artifactSha256 h.same :).trans hdelivers.artifact

/-- The invariant reads the outbox, and jobs may go on. -/
theorem GenerationInv.of_carried (inv : GenerationInv s) (hdelivery : DeliveryInv s')
    (hjobs : Table.Carried JobRow.Continues s.jobs s'.jobs)
    (hdesired : s'.desired = s.desired) (hdocuments : s'.documents = s.documents)
    (hpointer : s'.publicationState = s.publicationState) : GenerationInv s' where
  toDeliveryInv := hdelivery
  current := by
    intro state hstate
    rw [hpointer] at hstate
    rcases inv.current state hstate with hnone | ⟨job, hjob, hkind, hdelivered, hcurrent⟩
    · exact .inl hnone
    · obtain ⟨job', hjob', hcontinues⟩ := hjobs job hjob
      obtain rfl := hcontinues.final (by rw [hdelivered]; rfl)
      exact .inr ⟨job', hjob', hkind, hdelivered, hcurrent⟩
  desired := by
    intro state hstate
    rw [hpointer] at hstate
    obtain ⟨row, hrow, document, hdocument, job, hjob, hgeneration, hsame, hid, hdelivers⟩ :=
      inv.desired state hstate
    obtain ⟨job', hjob', hcontinues⟩ := hjobs job hjob
    exact ⟨row, hdesired ▸ hrow, document, hdocuments ▸ hdocument, job', hjob', hgeneration, hsame,
      hcontinues.jobId.trans hid, hcontinues.delivers hdelivers⟩

theorem GenerationInv.move (inv : GenerationInv s) (h : OutboxMove s s') : GenerationInv s' := by
  have hdelivery := h.deliveryInv inv.toDeliveryInv
  cases h with
  | elsewhere h =>
      simp only [Store.outbox, Prod.mk.injEq] at h
      obtain ⟨hjobs, -, -, hdesired, hdocuments, hpointer⟩ := h
      exact inv.of_carried hdelivery (hjobs ▸ .refl .refl) hdesired hdocuments hpointer
  | deliver h =>
      obtain ⟨hdesired, hdocuments, hpointer⟩ := h.discovery_eq
      exact inv.of_carried hdelivery h.jobs_carried hdesired hdocuments hpointer
  | @promote state jobId observedAt h =>
      refine ⟨hdelivery, ?_, ?_⟩
      · intro row hrow
        obtain rfl := Option.some.inj hrow
        obtain ⟨job, hjob, hid, hkind, hsource, hdelivered⟩ := h.delivered
        refine .inr ⟨job, hjob, hkind, hdelivered, ?_, ?_⟩
        · rw [hsource]
          rfl
        · rw [hid, ← h.desired]
          rfl
      · intro row hrow
        obtain rfl := Option.some.inj hrow
        exact inv.desired state h.pointer

theorem GenerationInv.moves (inv : GenerationInv s) (h : Relation.ReflTransGen OutboxMove s s') :
    GenerationInv s' := by
  induction h with
  | refl => exact inv
  | tail _ hmove ih => exact ih.move hmove

/-- The jobs of a store before a commit go on. -/
theorem jobs_carried_of_creates {request : DiscoveryCommitRequest} {s₁ : Store}
    (h : s₁ = s.withGeneration request ∨ DeliveryStep (s.withGeneration request) s₁) :
    Table.Carried JobRow.Continues s.jobs s₁.jobs := by
  rcases h with rfl | hstep
  · exact .refl .refl
  · exact hstep.jobs_carried

theorem discovery_of_creates {request : DiscoveryCommitRequest} {s₁ : Store}
    (h : s₁ = s.withGeneration request ∨ DeliveryStep (s.withGeneration request) s₁) :
    s₁.desired = s.desired ++ [request.desiredRow] ∧
      s₁.documents = s.documents ++ [request.documentRow] := by
  rcases h with rfl | hstep
  · exact ⟨rfl, rfl⟩
  · exact ⟨hstep.discovery_eq.1, hstep.discovery_eq.2.1⟩

theorem GenerationInv.commit (inv : GenerationInv s) (hdelivery : DeliveryInv s')
    (h : OutboxCommit s s') : GenerationInv s' := by
  obtain ⟨-, hcreates, hjob, hdelivers, -⟩ := h
  rename_i request job s₁
  obtain ⟨hdesired, hdocuments⟩ := discovery_of_creates hcreates
  refine ⟨hdelivery, ?_, ?_⟩
  · -- the current columns are those of the pointer before
    intro row hrow
    obtain rfl := Option.some.inj hrow
    rw [DiscoveryCommitRequest.pointer_currentGenerationId,
      DiscoveryCommitRequest.pointer_currentJobId]
    cases hstate : s.publicationState with
    | none => exact .inl ⟨rfl, rfl⟩
    | some state =>
        rcases inv.current state hstate with hnone | ⟨old, hold, hkind, hdelivered, hcurrent⟩
        · exact .inl hnone
        · obtain ⟨old', hold', hcontinues⟩ := jobs_carried_of_creates hcreates old hold
          obtain rfl := hcontinues.final (by rw [hdelivered]; rfl)
          exact .inr ⟨old', hold', hkind, hdelivered, hcurrent⟩
  · intro row hrow
    obtain rfl := Option.some.inj hrow
    rw [DiscoveryCommitRequest.pointer_desiredGenerationId,
      DiscoveryCommitRequest.pointer_desiredJobId]
    refine ⟨request.desiredRow, ?_, request.documentRow, ?_, job, hjob, rfl, rfl, rfl, hdelivers⟩
    · rw [show Store.desired _ = s₁.desired from rfl, hdesired]
      exact List.mem_append_right _ (List.mem_singleton_self _)
    · rw [show Store.documents _ = s₁.documents from rfl, hdocuments]
      exact List.mem_append_right _ (List.mem_singleton_self _)

/-! ## What a run keeps -/

/-- What holds from any state of a run to any later one. -/
structure Follows (s s' : Store) : Prop where
  kept : ∀ row ∈ s.desired, row ∈ s'.desired
  times : ∀ state ∈ s.publicationState, ∃ state' ∈ s'.publicationState,
    state.updatedAt ≤ state'.updatedAt
  retired : ∀ generation, (∃ row ∈ s.desired, row.generationId = generation) →
    (∀ state ∈ s.publicationState, state.desiredGenerationId ≠ generation) →
    ∀ state' ∈ s'.publicationState, state'.desiredGenerationId ≠ generation ∧
      (state'.currentGenerationId = some generation →
        ∃ state ∈ s.publicationState, state.currentGenerationId = some generation)

namespace Follows

theorem refl (s : Store) : Follows s s where
  kept _ hrow := hrow
  times state hstate := ⟨state, hstate, Nat.le_refl _⟩
  retired _ _ hretired state hstate := ⟨hretired state hstate, fun hcurrent => ⟨state, hstate, hcurrent⟩⟩

theorem trans (h : Follows s s') (h' : Follows s' s'') : Follows s s'' where
  kept row hrow := h'.kept row (h.kept row hrow)
  times state hstate := by
    obtain ⟨state', hstate', hle⟩ := h.times state hstate
    obtain ⟨state'', hstate'', hle'⟩ := h'.times state' hstate'
    exact ⟨state'', hstate'', Nat.le_trans hle hle'⟩
  retired generation hknown hretired state'' hstate'' := by
    obtain ⟨row, hrow, hid⟩ := hknown
    have hlater := h.retired generation ⟨row, hrow, hid⟩ hretired
    obtain ⟨hdesired, hcurrent⟩ := h'.retired generation ⟨row, h.kept row hrow, hid⟩
      (fun state hstate => (hlater state hstate).1) state'' hstate''
    refine ⟨hdesired, fun hsame => ?_⟩
    obtain ⟨state', hstate', hsame'⟩ := hcurrent hsame
    exact (hlater state' hstate').2 hsame'

theorem of_eq (hdesired : s'.desired = s.desired)
    (hpointer : s'.publicationState = s.publicationState) : Follows s s' where
  kept _ hrow := hdesired ▸ hrow
  times state hstate := ⟨state, hpointer ▸ hstate, Nat.le_refl _⟩
  retired _ _ hretired state hstate := by
    rw [hpointer] at hstate
    exact ⟨hretired state hstate, fun hcurrent => ⟨state, hstate, hcurrent⟩⟩

theorem move (h : OutboxMove s s') : Follows s s' := by
  cases h with
  | elsewhere h =>
      simp only [Store.outbox, Prod.mk.injEq] at h
      exact of_eq h.2.2.2.1 h.2.2.2.2.2
  | deliver h => exact of_eq h.discovery_eq.1 h.discovery_eq.2.2
  | @promote state jobId observedAt h =>
      refine ⟨fun _ hrow => hrow, ?_, ?_⟩
      · intro row hrow
        rw [h.pointer] at hrow
        obtain rfl := Option.some.inj hrow
        exact ⟨state.promoted observedAt, rfl, h.ordered⟩
      · intro generation _ hretired row hrow
        obtain rfl := Option.some.inj hrow
        have hother := hretired state h.pointer
        exact ⟨hother, fun hcurrent => absurd (Option.some.inj hcurrent) hother⟩

theorem moves (h : Relation.ReflTransGen OutboxMove s s') : Follows s s' := by
  induction h with
  | refl => exact refl s
  | tail _ hmove ih => exact ih.trans (move hmove)

theorem commit (h : OutboxCommit s s') : Follows s s' := by
  obtain ⟨hfresh, hcreates, -, -, htimes⟩ := h
  rename_i request job s₁
  obtain ⟨hdesired, -⟩ := discovery_of_creates hcreates
  refine ⟨fun row hrow => ?_, fun state hstate => ?_, ?_⟩
  · rw [show Store.desired _ = s₁.desired from rfl, hdesired]
    exact List.mem_append_left _ hrow
  · refine ⟨_, rfl, ?_⟩
    rw [DiscoveryCommitRequest.pointer_updatedAt]
    exact Nat.le_of_lt (htimes state hstate)
  · rintro generation ⟨known, hknown, rfl⟩ - row hrow
    obtain rfl := Option.some.inj hrow
    rw [DiscoveryCommitRequest.pointer_desiredGenerationId,
      DiscoveryCommitRequest.pointer_currentGenerationId]
    refine ⟨Ne.symm (hfresh known hknown), fun hcurrent => ?_⟩
    obtain ⟨state, hstate, hsame⟩ := Option.bind_eq_some_iff.mp hcurrent
    exact ⟨state, hstate, hsame⟩

end Follows

/-! ## What becomes current -/

/-- A generation and job that are current were current before or were the desired ones. -/
def PromotesDesired (s s' : Store) : Prop :=
  ∀ state' ∈ s'.publicationState, ∀ generation jobId,
    state'.currentGenerationId = some generation → state'.currentJobId = some jobId →
      ∃ state ∈ s.publicationState,
        (state.currentGenerationId = some generation ∧ state.currentJobId = some jobId) ∨
          (state.desiredGenerationId = generation ∧ state.desiredJobId = jobId)

/-- The desired columns of the pointer. -/
def Store.desiredPair (s : Store) : Option (Id32 × Id32) :=
  s.publicationState.map fun state => (state.desiredGenerationId, state.desiredJobId)

theorem OutboxMove.desiredPair_eq (h : OutboxMove s s') : s'.desiredPair = s.desiredPair := by
  cases h with
  | elsewhere h =>
      simp only [Store.outbox, Prod.mk.injEq] at h
      rw [Store.desiredPair, h.2.2.2.2.2]
      rfl
  | deliver h =>
      rw [Store.desiredPair, h.discovery_eq.2.2]
      rfl
  | promote h =>
      rw [Store.desiredPair, Store.desiredPair, h.pointer]
      rfl

theorem OutboxMove.promotesDesired (h : OutboxMove s s') : PromotesDesired s s' := by
  have hkept : s'.publicationState = s.publicationState → PromotesDesired s s' := by
    intro hpointer state hstate generation jobId hgeneration hjobId
    rw [hpointer] at hstate
    exact ⟨state, hstate, .inl ⟨hgeneration, hjobId⟩⟩
  cases h with
  | elsewhere h =>
      simp only [Store.outbox, Prod.mk.injEq] at h
      exact hkept h.2.2.2.2.2
  | deliver h => exact hkept h.discovery_eq.2.2
  | @promote state _ observedAt h =>
      intro row hrow generation jobId hgeneration hjobId
      obtain rfl := Option.some.inj hrow
      exact ⟨state, h.pointer, .inr ⟨Option.some.inj hgeneration, Option.some.inj hjobId⟩⟩

/-- Moves keep the desired columns, so that the current ones can only become these. -/
theorem promotesDesired_of_moves (h : Relation.ReflTransGen OutboxMove s s') :
    s'.desiredPair = s.desiredPair ∧ PromotesDesired s s' := by
  induction h with
  | refl => exact ⟨rfl, fun state hstate _ _ hgeneration hjobId =>
      ⟨state, hstate, .inl ⟨hgeneration, hjobId⟩⟩⟩
  | @tail s₁ s₂ _ hmove ih =>
      obtain ⟨hpair, hpromotes⟩ := ih
      refine ⟨hmove.desiredPair_eq.trans hpair, ?_⟩
      intro state hstate generation jobId hgeneration hjobId
      obtain ⟨state₁, hstate₁, ⟨hgeneration₁, hjobId₁⟩ | ⟨rfl, rfl⟩⟩ :=
        hmove.promotesDesired state hstate generation jobId hgeneration hjobId
      · exact hpromotes state₁ hstate₁ generation jobId hgeneration₁ hjobId₁
      · have hdesired : s.desiredPair =
            some (state₁.desiredGenerationId, state₁.desiredJobId) := by
          rw [← hpair, Store.desiredPair, show s₁.publicationState = some state₁ from hstate₁]
          rfl
        obtain ⟨old, hold, hsame⟩ := Option.map_eq_some_iff.mp hdesired
        exact ⟨old, hold, .inr (Prod.mk.inj hsame)⟩

/-- A commit leaves the current columns. -/
theorem OutboxCommit.promotesDesired (h : OutboxCommit s s') : PromotesDesired s s' := by
  obtain ⟨-, -, -, -, -⟩ := h
  intro row hrow generation jobId hgeneration hjobId
  obtain rfl := Option.some.inj hrow
  rw [DiscoveryCommitRequest.pointer_currentGenerationId] at hgeneration
  rw [DiscoveryCommitRequest.pointer_currentJobId] at hjobId
  obtain ⟨state, hstate, hsame⟩ := Option.bind_eq_some_iff.mp hgeneration
  rw [hstate] at hjobId
  exact ⟨state, hstate, .inl ⟨hsame, hjobId⟩⟩

/-! ## Runs of the service -/

section

variable {codec : EventCodec} {system : System}

theorem GenerationInv.performed (inv : GenerationInv system.store) (event : Event) :
    GenerationInv (system.perform codec event).store := by
  obtain ⟨hdelivery, hmoves | hcommit⟩ := System.moves codec inv.toDeliveryInv event
  · exact inv.moves hmoves
  · exact inv.commit hdelivery hcommit

theorem Follows.performed (inv : DeliveryInv system.store) (event : Event) :
    Follows system.store (system.perform codec event).store := by
  obtain ⟨-, hmoves | hcommit⟩ := System.moves codec inv event
  · exact .moves hmoves
  · exact .commit hcommit

theorem PromotesDesired.performed (inv : DeliveryInv system.store) (event : Event) :
    PromotesDesired system.store (system.perform codec event).store := by
  obtain ⟨-, hmoves | hcommit⟩ := System.moves codec inv event
  · exact (promotesDesired_of_moves hmoves).2
  · exact hcommit.promotesDesired

end

/-- The store of the service after a run. -/
def storeAfter (codec : EventCodec) (config : Configuration) (appliedAtUnixS : ℕ)
    (events : List Event) : Store :=
  (Run.after (System.perform codec) (.initial config appliedAtUnixS) events).store

theorem GenerationInv.service (codec : EventCodec) (config : Configuration) (appliedAtUnixS : ℕ)
    (events : List Event) : GenerationInv (storeAfter codec config appliedAtUnixS events) :=
  Run.invariant_always (I := fun system : System => GenerationInv system.store)
    (fun _ event inv => inv.performed event) events (.initial config.metadata appliedAtUnixS)

theorem Follows.service (codec : EventCodec) (config : Configuration) (appliedAtUnixS : ℕ)
    (events later : List Event) :
    Follows (storeAfter codec config appliedAtUnixS events)
      (storeAfter codec config appliedAtUnixS (events ++ later)) := by
  unfold storeAfter
  rw [Run.after_append]
  exact Run.related (I := fun system : System => GenerationInv system.store)
    (R := fun system system' : System => Follows system.store system'.store)
    (fun _ => .refl _) .trans (fun _ event inv => inv.performed event)
    (fun _ event inv => .performed inv.toDeliveryInv event)
    (GenerationInv.service codec config appliedAtUnixS events) later

/-- Over every run of the service, in any order of commits, deliveries, promotions and
recoveries: the current generation is unset or was delivered by its job, and what becomes current
was desired before; the desired generation has its document and its job; the pointer stays and
its time does not go back; a generation that was desired and is no longer so is never desired
again and does not become current; a commit that fails changes nothing. -/
theorem discovery_generations_safe (codec : EventCodec) (config : Configuration)
    (appliedAtUnixS : ℕ) (events : List Event) :
    let store := storeAfter codec config appliedAtUnixS
    CurrentNamed (store events) ∧ DesiredNamed (store events) ∧
      (∀ event, PromotesDesired (store events) (store (events ++ [event]))) ∧
      (∀ later, ∀ state ∈ (store events).publicationState,
        ∃ state' ∈ (store (events ++ later)).publicationState,
          state.updatedAt ≤ state'.updatedAt) ∧
      (∀ generation, (∃ state ∈ (store events).publicationState,
          state.desiredGenerationId = generation) →
        ∀ replaced, (∀ state ∈ (store (events ++ replaced)).publicationState,
            state.desiredGenerationId ≠ generation) →
          ∀ later, ∀ state ∈ (store (events ++ replaced ++ later)).publicationState,
            state.desiredGenerationId ≠ generation ∧
              (state.currentGenerationId = some generation →
                ∃ before ∈ (store (events ++ replaced)).publicationState,
                  before.currentGenerationId = some generation)) ∧
      ∀ config request e,
        ((commitDiscoveryDesiredState codec config request).atomically (store events)).1 =
            .error e →
          ((commitDiscoveryDesiredState codec config request).atomically (store events)).2 =
            store events := by
  intro store
  have inv := GenerationInv.service codec config appliedAtUnixS events
  refine ⟨inv.current, inv.desired, fun event => ?_, fun later => ?_, ?_, ?_⟩
  · have hlast : store (events ++ [event]) = ((Run.after (System.perform codec)
        (.initial config appliedAtUnixS) events).perform codec event).store := by
      simp only [store, storeAfter, Run.after_append]
      rfl
    rw [hlast]
    exact PromotesDesired.performed inv.toDeliveryInv event
  · exact (Follows.service codec config appliedAtUnixS events later).times
  · rintro generation ⟨state, hstate, rfl⟩ replaced hreplaced later
    obtain ⟨row, hrow, -, -, -, -, hid, -⟩ := inv.desired state hstate
    have hknown := (Follows.service codec config appliedAtUnixS events replaced).kept row hrow
    exact (Follows.service codec config appliedAtUnixS (events ++ replaced) later).retired _
      ⟨row, hknown, hid⟩ hreplaced
  · exact fun config request e herror => atomically_of_failed herror

end MycSigner
