import MycSigner.Configuration.Publication
import MycSigner.Outbox.Recovered
import MycSigner.Sessions.SoleSession

/-!
# What is leased while the loop idles

The loop never looks at a target that is leased, and expired leases are resolved when the daemon
starts and at no other time.  A lease that a crash leaves behind is therefore resolved by the
next start exactly when it has expired by then.
-/

namespace MycSigner

open Transaction

/-! ## The account of the worker -/

/-- What the worker knows about the leases of open jobs. -/
def Accounts (s : Store) : Worker → Prop
  | .stopped => True
  | .recovering _ observedAt cursor _ => Expired s observedAt ∧
      ∀ attempt, Held s attempt → cursor.all (· < attempt.jobId) = true
  | .looping | .found _ _ _ => ∀ attempt, ¬ Held s attempt
  | .claimed hold | .submitted hold _ =>
      ∀ attempt, Held s attempt → attempt.attemptId = hold.attempt.attemptId

/-- The invariant of the daemon. -/
structure Daemon.Accounted (daemon : Daemon) : Prop where
  inv : DeliveryInv daemon.store
  leases : Accounts daemon.store daemon.worker

theorem Accounts.release {s s' : Store} {worker : Worker} (h : Accounts s worker)
    (hreleases : Releases s s') : Accounts s' worker := by
  cases worker with
  | stopped => trivial
  | recovering entropy observedAt cursor aggregate =>
      exact ⟨hreleases.expired h.1, fun attempt hheld => h.2 attempt (hreleases.held attempt hheld)⟩
  | looping | found _ _ _ => exact fun attempt hheld => h attempt (hreleases.held attempt hheld)
  | claimed hold | submitted hold job =>
      exact fun attempt hheld => h attempt (hreleases.held attempt hheld)

namespace Daemon

variable {codec : EventCodec} {config : Configuration} {daemon : Daemon}

theorem Accounted.stop (h : daemon.Accounted) : Accounted ⟨daemon.store, .stopped⟩ := ⟨h.inv, trivial⟩

/-! ## The steps of the task -/

theorem transact_cases {α : Type} {body : Tx α} {next : α → Worker} {P : Daemon → Prop}
    (hfailed : P ⟨daemon.store, .stopped⟩)
    (hdone : ∀ {a s'}, body.run daemon.store = .ok (a, s') → P ⟨s', next a⟩) :
    P (daemon.transact body next) := by
  unfold transact
  cases hrun : body.run daemon.store with
  | error e => rw [atomically_of_error hrun]; exact hfailed
  | ok result => rw [atomically_of_ok hrun]; exact hdone hrun

theorem Accounted.recoverStep {entropy : Id32} {observedAt : TimeUnixMs} {cursor : Option Id32}
    {aggregate : RecoveryReport} (h : daemon.Accounted) (hexpired : Expired daemon.store observedAt)
    (hcursor : ∀ attempt, Held daemon.store attempt → cursor.all (· < attempt.jobId) = true) :
    (daemon.recoverStep codec config entropy observedAt cursor aggregate).Accounted := by
  unfold Daemon.recoverStep
  cases hrun : (withBinding config (recoverBatch codec config.discovery
    config.delivery.outboxMaximum entropy observedAt cursor)).run daemon.store with
  | error e =>
      rw [atomically_of_error hrun]
      exact h.stop
  | ok result =>
      obtain ⟨⟨batch, continuation⟩, store⟩ := result
      obtain ⟨hreleases, hleft⟩ :=
        recoverBatch_releases h.inv hexpired hcursor (run_withBinding_eq_ok hrun)
      rw [atomically_of_ok hrun]
      dsimp only
      split
      next => exact ⟨hreleases.inv, trivial⟩
      next merged next _ =>
        refine ⟨hreleases.inv, hreleases.expired hexpired, fun attempt hheld => ?_⟩
        obtain ⟨_, hnext, hlt⟩ := hleft attempt hheld
        obtain rfl := Option.some.inj hnext
        simpa using hlt
      next =>
        refine transact_cases ⟨hreleases.inv, trivial⟩ fun hverify => ?_
        obtain ⟨-, rfl⟩ := run_query_eq_ok.mp (run_withBinding_eq_ok hverify)
        refine ⟨hreleases.inv, fun attempt hheld => ?_⟩
        obtain ⟨_, hnext, -⟩ := hleft attempt hheld
        cases hnext

theorem Accounted.poll {now : TimeUnixMs} (h : daemon.Accounted)
    (hfree : ∀ attempt, ¬ Held daemon.store attempt) :
    (daemon.transact (nextReadyDeliveryTarget config now) (pollNext now)).Accounted := by
  refine transact_cases h.stop fun {found _} hrun => ?_
  obtain ⟨-, rfl⟩ := run_query_eq_ok.mp (run_withBinding_eq_ok hrun)
  cases found with
  | none => exact ⟨h.inv, hfree⟩
  | some found => exact ⟨h.inv, hfree⟩

theorem Accounted.claim {jobId nonce : Id32} {relayId : RelayId} {now : TimeUnixMs}
    {retryEntropy : ℕ} (h : daemon.Accounted) (hfree : ∀ attempt, ¬ Held daemon.store attempt) :
    (daemon.transact (withBinding config (claimTarget jobId relayId nonce now))
      (claimNext jobId relayId now retryEntropy)).Accounted := by
  refine transact_cases h.stop fun {claim s'} hrun => ?_
  have hclaim := run_withBinding_eq_ok hrun
  have hinv : DeliveryInv s' := by
    rcases claimTarget_step h.inv.toDeliveryWf hclaim with rfl | hstep
    · exact h.inv
    · exact h.inv.step hstep
  have hheld : ∀ attempt, Held s' attempt →
      ∃ stored, claim = .claimed stored ∧ stored.attemptId = attempt.attemptId := by
    intro attempt hattempt
    exact (claimTarget_held h.inv hclaim hattempt).resolve_left (hfree attempt)
  cases claim with
  | claimed stored =>
      refine ⟨hinv, fun attempt hattempt => ?_⟩
      obtain ⟨_, hsame, hid⟩ := hheld attempt hattempt
      cases hsame
      exact hid.symm
  | exactReplay _ | notReady | terminal =>
      refine ⟨hinv, fun attempt hattempt => ?_⟩
      obtain ⟨_, hsame, -⟩ := hheld attempt hattempt
      cases hsame

/-- An outcome ends the lease that the worker holds. -/
theorem Accounted.persistOutcome {hold : Hold} {job record : JobRecord} {outcome : AttemptOutcome}
    {s' : Store} (h : daemon.Accounted)
    (hheld : ∀ attempt, Held daemon.store attempt → attempt.attemptId = hold.attempt.attemptId)
    (hrun : (MycSigner.persistOutcome config hold job outcome).run daemon.store = .ok (record, s')) :
    Accounted ⟨s', .looping⟩ := by
  obtain ⟨jitter, -, hrecord⟩ := run_orFail_bind_eq_ok.mp hrun
  obtain ⟨hreleases, hunheld⟩ := recordOutcome_releases h.inv (run_withBinding_eq_ok hrecord)
  exact ⟨hreleases.inv, fun attempt hattempt =>
    hunheld attempt hattempt (hheld attempt (hreleases.held attempt hattempt))⟩

theorem Accounted.submit {hold : Hold} {prepared : Bool} (h : daemon.Accounted)
    (hheld : ∀ attempt, Held daemon.store attempt → attempt.attemptId = hold.attempt.attemptId) :
    (daemon.transact (submitPrepared codec config hold prepared) (submitNext hold)).Accounted := by
  refine transact_cases h.stop fun {submitted s'} hrun => ?_
  unfold submitPrepared at hrun
  obtain ⟨_, s₁, hread, hrun⟩ := run_bind_eq_ok.mp hrun
  obtain ⟨-, rfl⟩ := run_query_eq_ok.mp (run_withBinding_eq_ok hread)
  obtain ⟨job, -, hafter⟩ := run_orFail_bind_eq_ok.mp hrun
  obtain ⟨_, s₂, hexact, hafter⟩ := run_bind_eq_ok.mp hafter
  obtain ⟨-, hsame⟩ := run_query_eq_ok.mp (run_withBinding_eq_ok hexact)
  rw [← hsame] at hafter
  split at hafter
  next =>
    obtain ⟨_, s₃, hmark, hdone⟩ := run_bind_eq_ok.mp hafter
    obtain ⟨rfl, rfl⟩ := run_pure_eq_ok.mp hdone
    have hmark := run_withBinding_eq_ok hmark
    refine ⟨?_, fun attempt hattempt => ?_⟩
    · rcases markSubmitted_step h.inv.toDeliveryWf hmark with rfl | hstep
      · exact h.inv
      · exact h.inv.step hstep
    · obtain ⟨old, hold, hid⟩ := markSubmitted_held h.inv hmark hattempt
      exact hid.symm.trans (hheld old hold)
  next =>
    obtain ⟨record, s₃, hpersist, hdone⟩ := run_bind_eq_ok.mp hafter
    obtain ⟨rfl, rfl⟩ := run_pure_eq_ok.mp hdone
    exact h.persistOutcome hheld hpersist

/-! ## The other tasks -/

theorem Accounted.others {α : Type} {body : Tx α} (h : daemon.Accounted)
    (hbody : ∀ {a s'}, body.run daemon.store = .ok (a, s') → Releases daemon.store s') :
    (daemon.others body).Accounted := by
  have hreleases : Releases daemon.store (body.atomically daemon.store).2 :=
    atomically_cases h.inv.releases_refl fun hrun => .inr (hbody hrun)
  exact ⟨hreleases.inv, h.leases.release hreleases⟩

theorem commitDiscovery_releases {s s' : Store} {request : DiscoveryCommitRequest}
    {admission : DiscoveryCommitAdmission} (inv : DeliveryInv s)
    (h : (commitDiscoveryDesiredState codec config request).run s = .ok (admission, s')) :
    Releases s s' := by
  have hbody := run_withBinding_eq_ok h
  obtain ⟨policy, -, hcommit⟩ := run_orFail_bind_eq_ok.mp hbody
  unfold commitDesired at hcommit
  obtain ⟨_, -, hcommit⟩ := run_query_bind_eq_ok.mp hcommit
  obtain ⟨_, -, hcommit⟩ := run_query_bind_eq_ok.mp hcommit
  obtain ⟨existing, -, hcommit⟩ := run_query_bind_eq_ok.mp hcommit
  obtain ⟨_, s₁, hinsert, hcommit⟩ := run_bind_eq_ok.mp hcommit
  obtain ⟨created, s₂, hcreate, hpoint⟩ := run_bind_eq_ok.mp hcommit
  obtain ⟨hjobs, htargets, hattempts⟩ :=
    delivery_of_withoutDiscovery (insertGeneration_keeps_others _ _ hinsert)
  have hinserted : Releases s s₁ := inv.releases_congr hjobs htargets hattempts
  have hcreated : Releases s₁ s₂ := createJob_releases hinserted.inv hcreate
  obtain ⟨hjobs', htargets', hattempts'⟩ :=
    delivery_of_withoutDiscovery (pointDesired_keeps_others _ _ _ _ _ hpoint)
  exact (hinserted.trans hcreated).trans
    (hcreated.inv.releases_congr hjobs' htargets' hattempts')

/-! ## Runs -/

/-- The daemon starts only after every lease it finds has expired. -/
def startsAfterLeases (daemon : Daemon) (event : OutboxEvent) : Bool :=
  match event, daemon.worker with
  | .start observedAt _, .stopped =>
      (openLeases daemon.store).all fun attempt => decide (attempt.leaseExpiresAt < observedAt)
  | _, _ => true

/-- The loop runs, finds no ready target at this time, and goes idle. -/
def goesIdle (config : Configuration) (daemon : Daemon) (now : TimeUnixMs) : Bool :=
  match daemon.worker, ((nextReadyDeliveryTarget config now).atomically daemon.store).1 with
  | .looping, .ok none => true
  | _, _ => false

/-- When the loop goes idle no open job has a target under a lease that has expired. -/
def IdleUnstranded (config : Configuration) (daemon : Daemon) : OutboxEvent → Prop
  | .poll false now => goesIdle config daemon now = true →
      ∀ attempt ∈ openLeases daemon.store, ¬ attempt.leaseExpiresAt < now
  | _ => True

theorem looping_of_goesIdle {now : TimeUnixMs} (h : goesIdle config daemon now = true) :
    daemon.worker = .looping := by
  unfold goesIdle at h
  split at h
  next hworker _ => exact hworker
  next => cases h

theorem Accounted.perform (h : daemon.Accounted) {event : OutboxEvent}
    (hstarts : daemon.startsAfterLeases event = true) :
    (daemon.perform codec config event).Accounted := by
  have hleases := h.leases
  have wf := h.inv.toDeliveryWf
  unfold Daemon.perform
  split
  next observedAt entropy hworker =>
    simp only [startsAfterLeases, hworker, List.all_eq_true, decide_eq_true_eq] at hstarts
    exact ⟨h.inv, fun attempt hheld => hstarts attempt (wf.mem_openLeases_iff.mpr hheld),
      fun _ _ => rfl⟩
  next entropy observedAt cursor aggregate hworker =>
    rw [hworker] at hleases
    exact h.recoverStep hleases.1 hleases.2
  next cancelled now hworker =>
    rw [hworker] at hleases
    split
    next => exact h.stop
    next => exact h.poll hleases
  next cancelled nonce retryEntropy jobId relayId now hworker =>
    rw [hworker] at hleases
    split
    next => exact ⟨h.inv, hleases⟩
    next => exact h.claim hleases
  next prepared hold hworker =>
    rw [hworker] at hleases
    exact h.submit hleases
  next outcome hold job hworker =>
    rw [hworker] at hleases
    exact transact_cases h.stop fun hrun => h.persistOutcome hleases hrun
  next => exact h.stop
  next => exact h.others fun hrun => createJob_releases h.inv (run_withBinding_eq_ok hrun)
  next => exact h.others fun hrun => commitDiscovery_releases h.inv hrun
  next =>
    refine h.others fun hrun => ?_
    obtain ⟨hjobs, htargets, hattempts⟩ := delivery_of_withoutDiscovery
      (promoteCurrent_keeps_others _ _ (run_withBinding_eq_ok hrun))
    exact h.inv.releases_congr hjobs htargets hattempts
  next other =>
    have hreleases : Releases daemon.store { other with
        jobs := daemon.store.jobs, targets := daemon.store.targets,
        attempts := daemon.store.attempts, desired := daemon.store.desired,
        documents := daemon.store.documents,
        publicationState := daemon.store.publicationState } :=
      h.inv.releases_congr rfl rfl rfl
    exact ⟨hreleases.inv, hleases.release hreleases⟩
  next => exact h

theorem accounted_initial (appliedAtUnixS : ℕ) : (initial config appliedAtUnixS).Accounted :=
  ⟨NoDelivery.inv ⟨rfl, rfl, rfl⟩, trivial⟩

/-- In every run whose starts all come after the leases they find, no expired lease of an open
job is left when the loop goes idle. -/
theorem idle_without_expired_leases (codec : EventCodec) (config : Configuration)
    (appliedAtUnixS : ℕ) (events : List OutboxEvent)
    (hstarts : Run.EveryStep (perform codec config)
      (fun daemon event => daemon.startsAfterLeases event = true)
      (initial config appliedAtUnixS) events) :
    Run.EveryStep (perform codec config) (IdleUnstranded config) (initial config appliedAtUnixS)
      events := by
  refine Run.everyStep_of_guard (I := Accounted) ?_ (accounted_initial appliedAtUnixS) hstarts
  intro daemon event h hstart
  refine ⟨?_, h.perform hstart⟩
  unfold IdleUnstranded
  split
  next now =>
    intro hidle attempt hlease
    have hleases := h.leases
    rw [looping_of_goesIdle hidle] at hleases
    exact absurd (h.inv.toDeliveryWf.mem_openLeases_iff.mp hlease) (hleases attempt)
  next => trivial

end Daemon

namespace SampleHandler

def policy : DiscoveryPolicies where
  handlerIdentifier := ascii "myc"
  authorPublicKey := ⟨2⟩
  publicRelays := [ascii "wss://relay.example"]
  nostrconnectUrl := none
  metadataJson := ascii "myc"
  eventMaxBytes := 1024
  projectionBytes := [2]
  event_bounded := by decide

/-- The sample service with a handler to publish. -/
def config : Configuration := { SampleService.config with discovery := some policy }

def codec : EventCodec := handlerCodec policy

def request : DiscoveryCommitRequest where
  configurationDigest := config.metadata.normalizedConfigSha256
  eventId := 7
  eventBytes := [1]
  projectionBytes := policy.projectionBytes
  createdAt := sampleTime 1000

/-- The handler is committed and its only target claimed, under a lease of one second. -/
def claims : List OutboxEvent :=
  [.commitDiscovery request, .start (sampleTime 2000) 5, .recover,
    .poll false (sampleTime 3000), .claim false 11 0]

/-- The daemon crashes under the lease and starts again at the given time. -/
def restarts (observedAt : TimeUnixMs) : List OutboxEvent :=
  claims ++ [.crash, .start observedAt 6, .recover]

end SampleHandler

namespace Daemon

theorem not_idleUnstranded {config : Configuration} {daemon : Daemon} {now : TimeUnixMs}
    (h : goesIdle config daemon now = true ∧ (openLeases daemon.store).any (fun attempt =>
      decide (attempt.leaseExpiresAt < now)) = true) :
    ¬ IdleUnstranded config daemon (.poll false now) := by
  intro hclean
  obtain ⟨attempt, hattempt, hexpired⟩ := List.any_eq_true.mp h.2
  exact hclean h.1 attempt hattempt (of_decide_eq_true hexpired)

open SampleHandler in
/-- A lease that is still live at the restart is left alone when it expires. -/
theorem live_lease_stranded :
    ¬ ∀ (codec : EventCodec) (config : Configuration) (appliedAtUnixS : ℕ)
        (events : List OutboxEvent),
      Run.EveryStep (perform codec config) (IdleUnstranded config) (initial config appliedAtUnixS)
        events := by
  intro h
  have hidle := (h codec config 1 (restarts (sampleTime 3500) ++
    [.poll false (sampleTime 5000)])).at_step
  exact not_idleUnstranded (by decide +kernel) hidle

open SampleHandler in
/-- A start after the lease has expired resolves it. -/
theorem expired_lease_recovered :
    Run.EveryStep (perform codec config) (IdleUnstranded config) (initial config 1)
      (restarts (sampleTime 4500) ++ [.poll false (sampleTime 4500)]) := by
  have hstarts : Run.EveryStep (perform codec config)
      (fun daemon event => daemon.startsAfterLeases event = true) (initial config 1)
      (restarts (sampleTime 4500) ++ [.poll false (sampleTime 4500)]) := by
    decide +kernel
  exact idle_without_expired_leases codec config 1 _ hstarts

end Daemon

end MycSigner
