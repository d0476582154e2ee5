import MycSigner.Sessions.SoleSession

/-!
# The permission ceiling

Every grant of an active connection lies within the ceiling of the current configuration, as
long as no administrator approves a pending connection beyond it: the administrator's path
is the one path to a grant that does not consult the ceiling.  Applying a narrower ceiling
ends exactly the active connections whose grants exceed it.
-/

namespace MycSigner

/-- The grants of every active connection lie within the ceiling. -/
def WithinCeiling (ceiling : PermissionSet) (s : Store) : Prop :=
  ∀ row ∈ s.connections, row.status = .active →
    ∀ permission ∈ permissionsOf s row.connectionId .granted, permission ∈ ceiling.permissions

/-- The operation would approve a pending connection beyond the ceiling. -/
def Operation.approvesBeyond (ceiling : PermissionSet) (s : Store) : Operation → Bool
  | .adminConnection connectionId _ _ _ (.approve permissions _) =>
      (s.connections.any fun row => row.connectionId == connectionId && row.status == .pending) &&
        !permissions.isSubsetOf ceiling
  | _ => false

def Event.approvesBeyond (system : System) : Event → Bool
  | .operation op => op.approvesBeyond system.config.connection.permissionCeiling system.store
  | .apply _ _ => false

/-! ## Permissions of a connection -/

theorem mem_permissionsOf {s : Store} {connectionId : Id32} {scope : PermissionScope}
    {permission : Permission} :
    permission ∈ permissionsOf s connectionId scope ↔
      ⟨connectionId, scope, permission⟩ ∈ s.permissions := by
  unfold permissionsOf
  constructor
  · intro h
    obtain ⟨⟨id, scope', permission'⟩, hmem, rfl⟩ := List.mem_map.mp h
    obtain ⟨hrow, hmatch⟩ := List.mem_filter.mp hmem
    obtain ⟨rfl, rfl⟩ := of_decide_eq_true hmatch
    exact hrow
  · intro h
    exact List.mem_map.mpr ⟨_, List.mem_filter.mpr ⟨h, decide_eq_true ⟨rfl, rfl⟩⟩, rfl⟩

namespace WithinCeiling

variable {ceiling : PermissionSet} {s s₁ : Store}

/-- A step that activates nothing and grants nothing stays within the ceiling. -/
theorem of_no_new (h : WithinCeiling ceiling s)
    (hnew : ∀ row ∈ s₁.connections, row.status = .active → row ∈ s.connections)
    (hpermissions : s₁.permissions = s.permissions) : WithinCeiling ceiling s₁ := by
  intro row hrow hactive permission hpermission
  rw [mem_permissionsOf, hpermissions, ← mem_permissionsOf] at hpermission
  exact h row (hnew row hrow hactive) hactive permission hpermission

theorem mono {wider : PermissionSet} (h : WithinCeiling ceiling s)
    (hsubset : ceiling.isSubsetOf wider = true) : WithinCeiling wider s := by
  intro row hrow hactive permission hpermission
  exact PermissionSet.isSubsetOf_iff.mp hsubset permission (h row hrow hactive permission hpermission)

theorem ended {connectionId : Id32} {generation : PolicyGeneration} {observedAt : TimeUnixMs}
    {limited : ConnectionRow → Bool} (h : WithinCeiling ceiling s) :
    WithinCeiling ceiling (s.ended connectionId generation observedAt limited) :=
  h.of_no_new (fun _ hrow hactive => no_new_active_update (by simp) hrow hactive) rfl

theorem admitted {config : Configuration} {request : AdmissionRequest} (inv : SessionInv s)
    (h : WithinCeiling config.connection.permissionCeiling s) (guard : Admits config s request) :
    WithinCeiling config.connection.permissionCeiling (s.admitted request) := by
  intro row hrow hactive permission hpermission
  rw [mem_permissionsOf] at hpermission
  have hgranted : ∀ permission, ⟨row.connectionId, .granted, permission⟩ ∈ request.permissionRows →
      request.policy = .trusted ∧ row.connectionId = request.connectionId ∧
        permission ∈ request.requestedPermissions.permissions := by
    intro permission hmem
    unfold AdmissionRequest.permissionRows at hmem
    cases hpolicy : request.policy with
    | denied => simp [hpolicy] at hmem
    | explicitApproval =>
        simp only [hpolicy] at hmem
        have := (SessionInv.mem_permissionRows hmem).2.1
        cases this
    | trusted =>
        simp only [hpolicy, List.mem_append] at hmem
        rcases hmem with hmem | hmem
        · have := (SessionInv.mem_permissionRows hmem).2.1
          cases this
        · obtain ⟨hid, -, hmem⟩ := SessionInv.mem_permissionRows hmem
          exact ⟨rfl, hid, hmem⟩
  rcases List.mem_append.mp hrow with hold | hnew
  · rcases List.mem_append.mp hpermission with hpermission | hpermission
    · exact h row hold hactive permission (mem_permissionsOf.mpr hpermission)
    · obtain ⟨hpolicy, hid, -⟩ := hgranted permission hpermission
      exact absurd hid (guard.fresh (by simp [hpolicy]) row hold)
  · -- the grants of the new connection are what it requested
    have hrowId : row.connectionId = request.connectionId ∧ request.policy = .trusted := by
      unfold AdmissionRequest.connectionRows at hnew
      cases hpolicy : request.policy with
      | denied => simp [hpolicy] at hnew
      | explicitApproval =>
          simp only [hpolicy, List.mem_singleton] at hnew
          subst hnew
          cases hactive
      | trusted =>
          simp only [hpolicy, List.mem_singleton] at hnew
          subst hnew
          exact ⟨rfl, rfl⟩
    rcases List.mem_append.mp hpermission with hpermission | hpermission
    · obtain ⟨other, hother, hid⟩ := inv.permission_owned _ hpermission
      exact absurd (hid.trans hrowId.1) (guard.fresh (by simp [hrowId.2]) other hother)
    · obtain ⟨-, -, hmem⟩ := hgranted permission hpermission
      have hadmitted := guard.admitted
      simp only [ConnectionPolicies.admitsConnectionRequest, Bool.and_eq_true, beq_iff_eq] at hadmitted
      rw [← hadmitted.1, hrowId.2] at hadmitted
      simp only [Bool.and_eq_true] at hadmitted
      exact PermissionSet.isSubsetOf_iff.mp hadmitted.2.1 permission hmem

theorem approved {operationId connectionId : Id32} {generation : PolicyGeneration}
    {observedAt : TimeUnixMs} {set : PermissionSet} {authorizedUntil : Option TimeUnixMs}
    (h : WithinCeiling ceiling s)
    (guard : Decides s operationId connectionId generation observedAt)
    (hset : set.isSubsetOf ceiling = true) :
    WithinCeiling ceiling
      (s.approved operationId connectionId generation observedAt set authorizedUntil) := by
  intro row hrow hactive permission hpermission
  rw [mem_permissionsOf] at hpermission
  rcases List.mem_append.mp hpermission with hold | hnew
  · obtain ⟨old, hold', rfl⟩ := Table.mem_update.mp hrow
    split at hactive
    next hmatch =>
      -- the approved connection had no grants
      have hid := (of_decide_eq_true hmatch).1
      simp only [hmatch, if_true] at hold
      have hmem := mem_permissionsOf.mpr hold
      rw [hid, guard.ungranted] at hmem
      cases hmem
    next hmatch =>
      simp only [hmatch] at hold
      exact h old hold' hactive permission (mem_permissionsOf.mpr hold)
  · exact PermissionSet.isSubsetOf_iff.mp hset permission (SessionInv.mem_permissionRows hnew).2.2

theorem step {config : Configuration} {operation : Operation} (inv : SessionInv s)
    (h : WithinCeiling config.connection.permissionCeiling s)
    (hstep : SessionStep config s operation s₁)
    (hguard : operation.approvesBeyond config.connection.permissionCeiling s = false) :
    WithinCeiling config.connection.permissionCeiling s₁ := by
  cases hstep with
  | quiet => exact h
  | requests hadmits =>
      have hconnections : s₁.connections = s.connections :=
        (congrArg Store.connections hadmits.outside :)
      exact h.of_no_new (fun row hrow _ => hconnections ▸ hrow)
        (congrArg Store.permissions hadmits.outside :)
  | outbox houtside =>
      have hconnections : s₁.connections = s.connections :=
        (congrArg Store.connections houtside :)
      exact h.of_no_new (fun row hrow _ => hconnections ▸ hrow)
        (congrArg Store.permissions houtside :)
  | connect guard => exact admitted inv h guard
  | @approve _ _ connectionId _ _ _ _ label guard =>
      cases label with
      | operator hceiling => exact h.approved guard hceiling
      | admin =>
          refine h.approved guard ?_
          obtain ⟨row, hrow, hid, hpending, -⟩ := guard.connection
          have hany : (s.connections.any fun row =>
              row.connectionId == connectionId && row.status == .pending) = true :=
            List.any_eq_true.mpr ⟨row, hrow, by simp [hid, hpending]⟩
          simpa [Operation.approvesBeyond, hany] using hguard
  | deny guard =>
      exact h.of_no_new (fun _ hrow hactive => no_new_active_update (by simp) hrow hactive) rfl
  | finish guard => exact h.ended
  | issue guard => exact h.of_no_new (fun _ hrow _ => hrow) rfl
  | resolve guard => exact h.of_no_new (fun _ hrow _ => hrow) rfl
  | @complete request guard =>
      have heffect : WithinCeiling config.connection.permissionCeiling
          (s.effected request.completion) := by
        unfold Store.effected CommitRequest.effect
        split
        next => exact h.ended
        next => exact h
      exact heffect.of_no_new (fun _ hrow _ => hrow) rfl
  | answerPending guard => exact h.of_no_new (fun _ hrow _ => hrow) rfl

/-- A new configuration ends the sessions beyond its ceiling, so what is left lies within. -/
theorem reconfigured {current candidate : Configuration} {appliedAtUnixS : ℕ}
    (h : WithinCeiling current.connection.permissionCeiling s) :
    WithinCeiling candidate.connection.permissionCeiling
      (s.reconfigured current candidate appliedAtUnixS) := by
  unfold Store.reconfigured
  split
  next =>
    intro row hrow hactive
    have hrow := no_new_active_update (by simp [ConnectionRow.endedAs]) hrow hactive
    obtain ⟨old, -, rfl⟩ := Table.mem_update.mp hrow
    split at hactive
    next => cases hactive
    next hmatch => exact absurd (decide_eq_true hactive) hmatch
  next =>
    split
    next =>
      intro row hrow hactive permission hpermission
      obtain ⟨old, hold, rfl⟩ := Table.mem_update.mp hrow
      split at hactive
      next => cases hactive
      next hmatch =>
        rw [if_neg hmatch, mem_permissionsOf] at hpermission
        by_contra hout
        refine hmatch (decide_eq_true ⟨hactive, List.any_eq_true.mpr ⟨permission, ?_, ?_⟩⟩)
        · exact mem_permissionsOf.mpr hpermission
        · simpa [PermissionSet.contains] using hout
    next hnarrowed =>
      refine h.mono ?_
      simpa [permissionsNarrowed] using hnarrowed

theorem perform {codec : EventCodec} {system : System} (inv : SessionInv system.store)
    (h : WithinCeiling system.config.connection.permissionCeiling system.store) (event : Event)
    (hguard : event.approvesBeyond system = false) :
    WithinCeiling (system.perform codec event).config.connection.permissionCeiling
      (system.perform codec event).store := by
  refine System.perform_sessions (P := fun system =>
    WithinCeiling system.config.connection.permissionCeiling system.store) event h ?_ ?_
  · intro operation s₁ s' hevent hstep hview
    subst hevent
    have hconnections : s'.connections = s₁.connections := (congrArg Store.connections hview :)
    exact (h.step inv hstep hguard).of_no_new (fun row hrow _ => hconnections ▸ hrow)
      (congrArg Store.permissions hview :)
  · intro candidate appliedAtUnixS bindings _ _
    exact h.reconfigured

end WithinCeiling

/-! ## Runs -/

theorem withinCeiling_run {codec : EventCodec} {config : Configuration} {appliedAtUnixS : ℕ}
    {events : List Event}
    (h : Run.EveryStep (System.perform codec) (Run.Changing (System.perform codec)
      fun system event => event.approvesBeyond system = false) (.initial config appliedAtUnixS)
      events) :
    let system := Run.after (System.perform codec) (.initial config appliedAtUnixS) events
    WithinCeiling system.config.connection.permissionCeiling system.store := by
  have hboth := Run.invariant_changing
    (I := fun system : System => SessionInv system.store ∧
      WithinCeiling system.config.connection.permissionCeiling system.store)
    (fun system event inv hguard => ⟨inv.1.perform event, inv.2.perform inv.1 event hguard⟩)
    ⟨.initial config.metadata appliedAtUnixS, by simp [WithinCeiling, System.initial, Store.initial]⟩
    h
  exact hboth.2

/-- The narrowing update ends exactly the active sessions with a grant outside the ceiling. -/
theorem connections_narrowed (s : Store) (appliedAtUnixS : ℕ) (ceiling : PermissionSet) :
    (s.narrowed appliedAtUnixS ceiling).connections =
      s.connections.map fun row =>
        if row.status = .active ∧ ¬ ∀ permission ∈ permissionsOf s row.connectionId .granted,
            permission ∈ ceiling.permissions then
          row.endedAs .expired appliedAtUnixS
        else row := by
  unfold Store.narrowed Table.update
  refine List.map_congr_left fun row _ => ?_
  have hexceeds : exceedsCeiling s ceiling .granted row.connectionId = true ↔
      ¬ ∀ permission ∈ permissionsOf s row.connectionId .granted,
        permission ∈ ceiling.permissions := by
    simp [exceedsCeiling, PermissionSet.contains]
  simp only [hexceeds, decide_eq_true_eq]

/-- Every grant of an active connection lies within the current ceiling in every run in which no
administrator's approval beyond it succeeds, and applying a narrower ceiling ends exactly the active
connections beyond it. -/
theorem grants_within_ceiling (codec : EventCodec) (config : Configuration) (appliedAtUnixS : ℕ)
    (events : List Event) :
    let system := Run.after (System.perform codec) (.initial config appliedAtUnixS) events
    (Run.EveryStep (System.perform codec) (Run.Changing (System.perform codec)
        fun system event => event.approvesBeyond system = false)
        (.initial config appliedAtUnixS) events →
      WithinCeiling system.config.connection.permissionCeiling system.store) ∧
    ∀ (candidate : Configuration) (reappliedAtUnixS : ℕ) (outcome : ConfigApplyOutcome) (s' : Store),
      (applyConfiguration system.config candidate reappliedAtUnixS).run system.store =
          .ok (outcome, s') →
        candidate.metadata ≠ system.config.metadata →
        identitiesChanged system.config.metadata candidate.metadata = false →
        permissionsNarrowed system.config candidate = true →
        s'.connections = system.store.connections.map fun row =>
          if row.status = .active ∧
              ¬ ∀ permission ∈ permissionsOf system.store row.connectionId .granted,
                permission ∈ candidate.connection.permissionCeiling.permissions then
            row.endedAs .expired reappliedAtUnixS
          else row := by
  intro system
  refine ⟨withinCeiling_run, ?_⟩
  intro candidate reappliedAtUnixS outcome s' hrun hdiffers hidentities hnarrowed
  rcases applyConfiguration_cases hrun with ⟨hsame, -⟩ | ⟨-, bindings, rfl⟩
  · exact absurd hsame hdiffers
  · rw [← connections_narrowed]
    simp [Store.reconfigured, hidentities, hnarrowed]

/-! ## A grant that outlives its ceiling -/

namespace SampleService

/-- A client that the configuration neither trusts nor denies. -/
def stranger : PublicKey := ⟨6⟩

/-- The configuration without the permission to answer pings. -/
def narrowerConfig : Configuration :=
  { config with
    metadata := { config.metadata with normalizedConfigSha256 := 8 }
    connection := { connection with permissionCeiling := ⟨[.nip44Encrypt], by decide⟩ } }

def strangerConnect : SignerRequest := { firstConnect with clientPublicKey := stranger }

def strangerAdmission : AdmissionRequest :=
  { admission strangerConnect with
    clientPublicKey := stranger, policy := .explicitApproval, trusted_limit := by simp [admission] }

/-- The administrator grants what the connection asked for. -/
def strangerApproval : Operation :=
  .adminConnection strangerAdmission.connectionId strangerAdmission.policyGeneration
    (sampleTime 4000) 3 (.approve strangerAdmission.requestedPermissions none)

/-- The ceiling is narrowed while the connection waits for its approval. -/
def approvedAfterNarrowing : List Event :=
  [.operation (.admitRequest strangerConnect), .operation (.admitConnection strangerAdmission),
    .apply narrowerConfig 2, .operation strangerApproval]

end SampleService

open SampleService in
/-- A connection requested under a wider ceiling is approved beyond the current one. -/
theorem grant_beyond_narrowed_ceiling :
    ¬ ∀ (codec : EventCodec) (config : Configuration) (appliedAtUnixS : ℕ) (events : List Event),
      let system := Run.after (System.perform codec) (.initial config appliedAtUnixS) events
      WithinCeiling system.config.connection.permissionCeiling system.store := by
  intro h
  have hwithin := h codec config 1 approvedAfterNarrowing
  revert hwithin
  unfold WithinCeiling
  decide +kernel

open SampleService in
/-- After the trusted connect the grants lie within the ceiling, and the narrower ceiling ends
the session. -/
theorem grants_within_ceiling_after_connect :
    let system := Run.after (System.perform codec) (.initial config 1) connects
    WithinCeiling system.config.connection.permissionCeiling system.store ∧
      ∃ outcome s', (applyConfiguration config narrowerConfig 2).run system.store =
        .ok (outcome, s') ∧ s'.connections.map (·.status) = [.expired] := by
  intro system
  have hsteps : Run.EveryStep (System.perform codec)
      (fun system event => event.approvesBeyond system = false) (.initial config 1) connects := by
    decide +kernel
  have hconfig : system.config = config := by decide +kernel
  obtain ⟨hwithin, hnarrowing⟩ := grants_within_ceiling codec config 1 connects
  refine ⟨hwithin hsteps.changing, ?_⟩
  match hrun : (applyConfiguration config narrowerConfig 2).run system.store with
  | .error _ =>
      have hok : ((applyConfiguration config narrowerConfig 2).run system.store).isOk = true := by
        decide +kernel
      rw [hrun] at hok
      cases hok
  | .ok (outcome, s') =>
      rw [← hconfig] at hrun
      have hrows := hnarrowing narrowerConfig 2 outcome s' hrun
        (by rw [hconfig]; decide) (by rw [hconfig]; decide) (by rw [hconfig]; decide)
      refine ⟨outcome, s', rfl, ?_⟩
      rw [hrows]
      decide +kernel

end MycSigner
