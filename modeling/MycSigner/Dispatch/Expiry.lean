import MycSigner.Dispatch.Poison
import MycSigner.Sessions.Challenges

/-!
# Sessions that end while an item is repeated

The receive time of an item is taken once and kept by its repetitions.  The session is looked
up and checked as of that time, and neither the providers nor the commit look at its limit
again.  So a call uses no session that had ended when the item was received, while a repetition
may well use one that ended since.
-/

namespace MycSigner

open Process

/-- The first reading of the wall clock by a call is past the time. -/
def Environment.startsAfter (env : Environment) (start : World) (time : TimeUnixMs) : Prop :=
  ∃ seconds, env.clock start.tick = some seconds ∧ time.get < seconds * 1000

namespace Coordinator

variable {coordinator : Coordinator} {env : Environment} {item : Item} {evidence : Evidence}

/-- The worlds in which the calls of the loop over one item start. -/
def callStarts (coordinator : Coordinator) (env : Environment) (item : Item) (evidence : Evidence) :
    ℕ → World → List World
  | 0, _ => []
  | fuel + 1, world => world ::
      match coordinator.process env item evidence world with
      | (.error .provider, world) => callStarts coordinator env item evidence fuel world
      | _ => []

/-- A call uses a session: it executes an operation of the user provider that was prepared
under the session, or completes a request under it. -/
inductive UsesSession (coordinator : Coordinator) (env : Environment) (item : Item)
    (evidence : Evidence) (start : World) (connection : ConnectionRecord) : Prop where
  | executes {work : Work} {operation : ProviderOperation} {observedAt : TimeUnixMs}
      {prepared executing : World} :
      (coordinator.prepareItem env item evidence).run start = (.ok work, prepared) →
      work.connection = some connection → work.providerOperation = some operation →
      operation.role = .user →
      (Dispatch.timeNow env).run prepared = (.ok observedAt, executing) →
      UsesSession coordinator env item evidence start connection
  | commits {work : Work} {prepared finished : World} :
      (coordinator.prepareItem env item evidence).run start = (.ok work, prepared) →
      work.connection = some connection →
      (coordinator.decideAndComplete env work item.relayId evidence.receivedAt).run prepared =
        (.ok .completed, finished) →
      UsesSession coordinator env item evidence start connection

/-! ## The session of prepared work -/

theorem prepareWork_session {protocol : Protocol} {metadata : PersistedMetadata}
    {prepared : PreparedRequest} {record : RequestRecord} {found : Option ConnectionRecord}
    {observedAt : TimeUnixMs} {deadline : Option TimeUnixMs} {work : Work}
    {connection : ConnectionRecord}
    (h : prepareWork protocol metadata prepared record found observedAt deadline = .ok work)
    (hconnection : work.connection = some connection) :
    requireSession protocol prepared found observedAt = .ok connection := by
  unfold prepareWork at h
  obtain ⟨_, -, h⟩ := Except.bind_eq_ok_iff.mp h
  split at h
  next =>
    obtain ⟨_, -, h⟩ := Except.bind_eq_ok_iff.mp h
    obtain ⟨_, -, h⟩ := Except.bind_eq_ok_iff.mp h
    obtain ⟨_, -, h⟩ := Except.bind_eq_ok_iff.mp h
    obtain rfl := Except.ok.inj h
    cases hconnection
  next => cases h
  next =>
    obtain ⟨session, hsession, h⟩ := Except.bind_eq_ok_iff.mp h
    obtain ⟨_, -, h⟩ := Except.bind_eq_ok_iff.mp h
    obtain rfl := Except.ok.inj h
    obtain rfl := Option.some.inj hconnection
    exact hsession

theorem requireSession_limit {protocol : Protocol} {prepared : PreparedRequest}
    {found : Option ConnectionRecord} {observedAt limit : TimeUnixMs} {connection : ConnectionRecord}
    (h : requireSession protocol prepared found observedAt = .ok connection)
    (hlimit : connection.authorizedUntil = some limit) : observedAt ≤ limit := by
  unfold requireSession at h
  obtain ⟨session, -, h⟩ := Except.bind_eq_ok_iff.mp h
  obtain ⟨_, -, h⟩ := Except.bind_eq_ok_iff.mp h
  obtain ⟨_, hlive, h⟩ := Except.bind_eq_ok_iff.mp h
  obtain ⟨-, hserves⟩ := Except.require_eq_ok.mp hlive
  have hsame : session = connection := by
    split at h
    next => exact Except.ok.inj h
    next =>
      obtain ⟨_, -, h⟩ := Except.bind_eq_ok_iff.mp h
      obtain ⟨_, -, h⟩ := Except.bind_eq_ok_iff.mp h
      exact Except.ok.inj h
  rw [hsame, hlimit] at hserves
  exact of_decide_eq_true hserves

/-- The session of prepared work had not ended when the item was received. -/
theorem prepareItem_session {work : Work} {start prepared : World} {connection : ConnectionRecord}
    {limit : TimeUnixMs}
    (h : (coordinator.prepareItem env item evidence).run start = (.ok work, prepared))
    (hconnection : work.connection = some connection)
    (hlimit : connection.authorizedUntil = some limit) : evidence.receivedAt ≤ limit := by
  unfold prepareItem at h
  obtain ⟨request, world₁, -, h⟩ := run_bind_eq_ok.mp h
  obtain ⟨record, world₂, -, h⟩ := run_bind_eq_ok.mp h
  unfold bindWork at h
  obtain ⟨found, world₃, -, h⟩ := run_bind_eq_ok.mp h
  obtain ⟨deadline, world₄, -, h⟩ := run_bind_eq_ok.mp h
  obtain ⟨hwork, -⟩ := run_orExit_eq_ok.mp h
  cases hprepared : prepareWork coordinator.protocol coordinator.config.metadata request record found
    evidence.receivedAt deadline with
  | error e =>
      rw [hprepared] at hwork
      cases hwork
  | ok result =>
      rw [hprepared] at hwork
      obtain rfl := Option.some.inj hwork
      exact requireSession_limit (prepareWork_session hprepared hconnection) hlimit

/-- A call uses a session only if it had not ended when the item was received. -/
theorem UsesSession.received {start : World} {connection : ConnectionRecord} {limit : TimeUnixMs}
    (h : coordinator.UsesSession env item evidence start connection)
    (hlimit : connection.authorizedUntil = some limit) : evidence.receivedAt ≤ limit := by
  cases h with
  | executes hprepared hconnection => exact prepareItem_session hprepared hconnection hlimit
  | commits hprepared hconnection => exact prepareItem_session hprepared hconnection hlimit

/-! ## The loop -/

/-- An ended session authorizes nothing in a run of the loop, unless an item that was received
by its limit is repeated after it. -/
theorem ended_session_unused_unless_repeated (coordinator : Coordinator) (env : Environment)
    (item : Item) (evidence : Evidence) (fuel : ℕ) (world : World) (connection : ConnectionRecord)
    (limit : TimeUnixMs) (hlimit : connection.authorizedUntil = some limit)
    (htimely : ∀ start ∈ coordinator.callStarts env item evidence fuel world,
      env.startsAfter start limit → limit < evidence.receivedAt) :
    ∀ start ∈ coordinator.callStarts env item evidence fuel world,
      env.startsAfter start limit →
      ¬ coordinator.UsesSession env item evidence start connection := by
  intro start hstart hafter huses
  exact absurd (htimely start hstart hafter) (Nat.not_lt.mpr (huses.received hlimit))

/-! ## What a completed call committed -/

theorem run_transaction_eq_ok {α : Type} {body : Tx α} {a : α} {world world' : World}
    (h : (Dispatch.transaction coordinator env body).run world = (.ok a, world')) :
    body.run (Dispatch.interfere coordinator (env.others world.tick) world.store) =
      .ok (a, world'.store) := by
  unfold Dispatch.transaction at h
  rw [run_bind_of_ok (run_step _ _)] at h
  cases hbody : body.run
    (Dispatch.interfere coordinator (env.others world.tick) world.store) with
  | error e =>
      rw [Transaction.atomically_of_error hbody] at h
      cases h
  | ok result =>
      obtain ⟨value, store⟩ := result
      rw [Transaction.atomically_of_ok hbody] at h
      obtain ⟨hvalue, rfl⟩ := Prod.mk.inj h
      rw [Except.ok.inj hvalue]

end Coordinator

/-- The session under which a call completes its request, if it does. -/
def Coordinator.completedSession (coordinator : Coordinator) (env : Environment)
    (item : Coordinator.Item) (evidence : Coordinator.Evidence) (start : World) :
    Option ConnectionRecord :=
  match (coordinator.prepareItem env item evidence).run start with
  | (.ok work, prepared) =>
      match (coordinator.decideAndComplete env work item.relayId evidence.receivedAt).run prepared with
      | (.ok .completed, _) => work.connection
      | _ => none
  | _ => none

theorem Coordinator.usesSession_of_completed {coordinator : Coordinator} {env : Environment}
    {item : Coordinator.Item} {evidence : Coordinator.Evidence} {start : World}
    {connection : ConnectionRecord}
    (h : coordinator.completedSession env item evidence start = some connection) :
    coordinator.UsesSession env item evidence start connection := by
  unfold Coordinator.completedSession at h
  split at h
  next work prepared hprepared =>
    split at h
    next finished hfinished => exact .commits hprepared h hfinished
    next => cases h
  next => cases h

/-- A call that a provider failed is followed by another. -/
theorem Coordinator.callStarts_repeat {coordinator : Coordinator} {env : Environment}
    {item : Coordinator.Item} {evidence : Coordinator.Evidence} {world : World} (fuel : ℕ)
    (h : (coordinator.process env item evidence world).1 = .error .provider) :
    (coordinator.process env item evidence world).2 ∈
      coordinator.callStarts env item evidence (fuel + 2) world := by
  unfold callStarts
  match hprocess : coordinator.process env item evidence world with
  | (outcome, next) =>
      rw [hprocess] at h
      rw [show outcome = .error .provider from h]
      exact List.mem_cons_of_mem _ List.mem_cons_self

/-! ## A ping that outlives its session -/

namespace SampleService

/-- The client connects under a limit of nine seconds. -/
def limitedConnect : List Event :=
  [.operation (.admitRequest firstConnect), .operation (.admitConnection limitedAdmission)]

/-- A library that also writes the answer to the ping. -/
def answeringProtocol : Protocol :=
  { pingProtocol with
    envelope := fun _ _ => some (ascii "\x7b\"id\":\"7\",\"result\":\"pong\"\x7d")
    unsignedResponse := fun _ _ _ content => content }

def limitedCoordinator : Coordinator :=
  { coordinator with config := challengeConfig, protocol := answeringProtocol, codec := pongCodec }

/-- The transport provider is out of reach at first, and available after the limit. -/
def delayedProviders : Environment where
  clock tick := some (if tick < 3 then 4 else 20)
  entropy _ := some 8
  providers tick operation _ :=
    if tick < 3 then none
    else match operation.input with
      | .signEvent _ => some (.signedEvent (encode pongEvent))
      | _ => some (.protectedPayload pingPlaintext)
  others _ := []

abbrev limitedWorld : World :=
  ⟨(Run.after (System.perform limitedCoordinator.codec) (.initial limitedCoordinator.config 1)
    limitedConnect).store, 0⟩

/-- The world in which the ping is repeated. -/
abbrev repeatedWorld : World :=
  (limitedCoordinator.process delayedProviders (item pingEvent) evidence limitedWorld).2

/-- The receive time of a ping after the limit. -/
def lateEvidence : Coordinator.Evidence := ⟨6, sampleTime 12000⟩

/-- The clock of a ping after the limit. -/
def lateProviders : Environment := { delayedProviders with clock := fun _ => some 20 }

/-- One evaluation of the ping: the client has a session with its limit, the first call fails with
the provider, and the second completes under the session. -/
theorem limitedPing_evaluates :
    ((readActiveConnectionForClient limitedWorld.store client
        (sampleTime 3000)).toOption.bind id).map ConnectionRecord.authorizedUntil =
          some (some (sampleTime 9000)) ∧
      (limitedCoordinator.process delayedProviders (item pingEvent) evidence limitedWorld).1 =
        .error .provider ∧
      repeatedWorld.tick = 3 ∧
      (limitedCoordinator.completedSession delayedProviders (item pingEvent) evidence
        repeatedWorld).map ConnectionRecord.authorizedUntil = some (some (sampleTime 9000)) := by
  have hworld : limitedWorld = ⟨limitedStore, 0⟩ :=
    congrArg (fun system : System => World.mk system.store 0) (after_limitedConnect pongCodec [])
  unfold repeatedWorld
  rw [hworld]
  decide +kernel

end SampleService

open SampleService in
/-- The ping is received in time, the transport provider fails the first call, and the second
starts eleven seconds after the session's limit and commits the answer. -/
theorem repeated_ping_uses_ended_session :
    ¬ ∀ (coordinator : Coordinator) (appliedAtUnixS : ℕ) (events : List Event) (env : Environment)
        (item : Coordinator.Item) (evidence : Coordinator.Evidence) (fuel tick : ℕ)
        (connection : ConnectionRecord) (limit : TimeUnixMs),
      let world : World := ⟨(Run.after (System.perform coordinator.codec)
        (.initial coordinator.config appliedAtUnixS) events).store, tick⟩
      connection.authorizedUntil = some limit →
      ∀ start ∈ coordinator.callStarts env item evidence fuel world,
        env.startsAfter start limit →
        ¬ coordinator.UsesSession env item evidence start connection := by
  intro h
  obtain ⟨-, hfailed, htick, hsession⟩ := limitedPing_evaluates
  obtain ⟨connection, hcompleted, hlimit⟩ := Option.map_eq_some_iff.mp hsession
  refine h limitedCoordinator 1 limitedConnect delayedProviders (item pingEvent) evidence 2 0
    connection (sampleTime 9000) hlimit repeatedWorld
    (Coordinator.callStarts_repeat 0 hfailed) ⟨20, ?_, by decide⟩
    (Coordinator.usesSession_of_completed hcompleted)
  rw [htick]
  rfl

open SampleService in
/-- A ping received after the limit uses the session in no call, though all of them start after
the limit. -/
theorem late_ping_uses_no_session :
    ∃ connection, readActiveConnectionForClient limitedWorld.store client
        (sampleTime 3000) = .ok (some connection) ∧
      connection.authorizedUntil = some (sampleTime 9000) ∧
      ∀ start ∈ limitedCoordinator.callStarts lateProviders (item pingEvent) lateEvidence 2
          limitedWorld,
        lateProviders.startsAfter start (sampleTime 9000) ∧
        ¬ limitedCoordinator.UsesSession lateProviders (item pingEvent) lateEvidence start
          connection := by
  obtain ⟨hsession, -⟩ := limitedPing_evaluates
  obtain ⟨connection, hfound, hlimit⟩ := Option.map_eq_some_iff.mp hsession
  have hafter : ∀ start, lateProviders.startsAfter start (sampleTime 9000) :=
    fun start => ⟨20, rfl, by decide⟩
  have hunused := Coordinator.ended_session_unused_unless_repeated limitedCoordinator lateProviders
    (item pingEvent) lateEvidence 2 limitedWorld connection (sampleTime 9000) hlimit
    fun _ _ _ => by decide
  refine ⟨connection, ?_, hlimit, fun start hstart =>
    ⟨hafter start, hunused start hstart (hafter start)⟩⟩
  generalize readActiveConnectionForClient _ _ _ = found at hfound
  cases found with
  | error e => cases hfound
  | ok session =>
      rw [show session = some connection from hfound]

end MycSigner
