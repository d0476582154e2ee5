import MycSigner.Dispatch.Expiry
import MycSigner.Lib.History
import MycSigner.Sessions.Decisions

/-!
# What the list of denied clients does

The list is consulted when a client connects: while it names a client, no connection is made
for that client.  A session is looked up by its client and its limit alone, so a session that
was made under an earlier configuration goes on answering until something else ends it.
-/

namespace MycSigner

open Transaction

/-! ## Where connections come from -/

/-- A connection of the client. -/
def hasConnection (connections : List ConnectionRow) (id : Id32) (client : PublicKey) : Prop :=
  ∃ row ∈ connections, row.connectionId = id ∧ row.clientPublicKey = client

/-- The event admits the connection, and the configuration does not deny its client. -/
def Event.admits (system : System) (id : Id32) (client : PublicKey) (event : Event) : Prop :=
  ∃ request, event = .operation (.admitConnection request) ∧ request.connectionId = id ∧
    request.clientPublicKey = client ∧ client ∉ system.config.connection.deniedClients

section Origin

variable {s : Store} {id : Id32} {client : PublicKey} {connections : List ConnectionRow}

theorem hasConnection.of_update {matching : ConnectionRow → Bool}
    {set : ConnectionRow → ConnectionRow}
    (h : hasConnection (Table.update matching set connections) id client)
    (hid : ∀ row, (set row).connectionId = row.connectionId)
    (hclient : ∀ row, (set row).clientPublicKey = row.clientPublicKey) :
    hasConnection connections id client := by
  obtain ⟨row, hrow, hrowId, hrowClient⟩ := h
  obtain ⟨old, hold, rfl⟩ := Table.mem_update.mp hrow
  simp only [apply_ite ConnectionRow.connectionId, apply_ite ConnectionRow.clientPublicKey, hid,
    hclient, ite_self] at hrowId hrowClient
  exact ⟨old, hold, hrowId, hrowClient⟩

/-- Only a client that is not denied gets a connection. -/
theorem Admits.undenied {config : Configuration} {request : AdmissionRequest}
    (guard : Admits config s request) (hpolicy : request.policy ≠ .denied) :
    request.clientPublicKey ∉ config.connection.deniedClients := by
  intro hdenied
  have hadmitted := guard.admitted
  simp only [ConnectionPolicies.admitsConnectionRequest, Bool.and_eq_true, beq_iff_eq] at hadmitted
  refine hpolicy (hadmitted.1.trans ?_)
  simp [ConnectionPolicies.expectedAdmission, hdenied]

theorem hasConnection.of_admitted {config : Configuration} {request : AdmissionRequest}
    (guard : Admits config s request) (h : hasConnection (s.admitted request).connections id client) :
    hasConnection s.connections id client ∨ request.connectionId = id ∧ request.clientPublicKey = client ∧
      client ∉ config.connection.deniedClients := by
  obtain ⟨row, hrow, hid, hclient⟩ := h
  rcases List.mem_append.mp hrow with hold | hnew
  · exact .inl ⟨row, hold, hid, hclient⟩
  · have hpolicy : request.policy ≠ .denied := by
      intro hdenied
      simp [AdmissionRequest.connectionRows, hdenied] at hnew
    have hrowClient : row.clientPublicKey = request.clientPublicKey := by
      unfold AdmissionRequest.connectionRows at hnew
      split at hnew
      next => rw [List.mem_singleton.mp hnew]; rfl
      next => rw [List.mem_singleton.mp hnew]; rfl
      next => cases hnew
    have hsame := hrowClient.symm.trans hclient
    refine .inr ⟨(request.connectionRows_named row hnew).symm.trans hid, hsame, ?_⟩
    rw [← hsame]
    exact guard.undenied hpolicy

theorem SessionStep.connection_origin {config : Configuration} {operation : Operation}
    {s₁ : Store} (h : SessionStep config s operation s₁) (hconnection : hasConnection s₁.connections id client) :
    hasConnection s.connections id client ∨
      Event.admits ⟨config, s⟩ id client (.operation operation) := by
  cases h with
  | requests hadmits =>
      have hsame : s₁.connections = s.connections := (congrArg Store.connections hadmits.outside :)
      rw [hsame] at hconnection
      exact .inl hconnection
  | outbox houtside =>
      have hsame : s₁.connections = s.connections := (congrArg Store.connections houtside :)
      rw [hsame] at hconnection
      exact .inl hconnection
  | @connect request guard =>
      rcases hconnection.of_admitted guard with hold | ⟨hid, hclient, hundenied⟩
      · exact .inl hold
      · exact .inr ⟨request, rfl, hid, hclient, hundenied⟩
  | approve => exact .inl (hconnection.of_update (fun _ => rfl) fun _ => rfl)
  | deny => exact .inl (hconnection.of_update (fun _ => rfl) fun _ => rfl)
  | finish => exact .inl (hconnection.of_update (fun _ => rfl) fun _ => rfl)
  | @complete request guard =>
      have heffect : hasConnection (request.completion.effect s.connections) id client := hconnection
      unfold CommitRequest.effect at heffect
      split at heffect
      next => exact .inl (heffect.of_update (fun _ => rfl) fun _ => rfl)
      next => exact .inl heffect
  | quiet | issue | resolve | answerPending => exact .inl hconnection

theorem hasConnection.of_reconfigured {current candidate : Configuration} {appliedAtUnixS : ℕ}
    (h : hasConnection (s.reconfigured current candidate appliedAtUnixS).connections id client) :
    hasConnection s.connections id client := by
  unfold Store.reconfigured at h
  split at h
  next =>
    have hactive := h.of_update (fun _ => rfl) fun _ => rfl
    exact hactive.of_update (fun _ => rfl) fun _ => rfl
  next =>
    split at h
    next => exact h.of_update (fun _ => rfl) fun _ => rfl
    next => exact h

end Origin

/-- A connection was there before an event, or the event admits it. -/
theorem System.connection_origin {codec : EventCodec} (system : System) (event : Event)
    {id : Id32} {client : PublicKey}
    (h : hasConnection (system.perform codec event).store.connections id client) :
    hasConnection system.store.connections id client ∨ event.admits system id client := by
  revert h
  refine System.perform_sessions (P := fun after => hasConnection after.store.connections id client →
    hasConnection system.store.connections id client ∨ event.admits system id client) event .inl ?_ ?_
  · rintro operation s₁ s' rfl hstep hview hconnection
    have hsame : s'.connections = s₁.connections := (congrArg Store.connections hview :)
    rw [hsame] at hconnection
    exact hstep.connection_origin hconnection
  · intro candidate appliedAtUnixS bindings _ _ hconnection
    exact .inl (hasConnection.of_reconfigured hconnection)

/-! ## The connections of a denied client in a call -/

/-- Every connection of the client was there before. -/
def World.GainsNone (client : PublicKey) (world world' : World) : Prop :=
  ∀ id, hasConnection world'.store.connections id client →
    hasConnection world.store.connections id client

instance (client : PublicKey) : Std.Refl (World.GainsNone client) := ⟨fun _ _ h => h⟩

instance (client : PublicKey) : IsTrans World (World.GainsNone client) :=
  ⟨fun _ _ _ first second id h => first id (second id h)⟩

theorem System.denied_gains_none {codec : EventCodec} (system : System) {client : PublicKey}
    (hdenied : client ∈ system.config.connection.deniedClients) (event : Event) (id : Id32)
    (h : hasConnection (system.perform codec event).store.connections id client) :
    hasConnection system.store.connections id client := by
  rcases system.connection_origin event h with hbefore | ⟨_, _, _, _, hundenied⟩
  · exact hbefore
  · exact absurd hdenied hundenied

namespace Dispatch

variable {coordinator : Coordinator} {env : Environment} {client : PublicKey} {α : Type}

/-- The transactions of others make no connection for a denied client. -/
theorem interfere_gains_none (hdenied : client ∈ coordinator.config.connection.deniedClients)
    (operations : List Operation) {store : Store} {id : Id32}
    (h : hasConnection (interfere coordinator operations store).connections id client) :
    hasConnection store.connections id client := by
  induction operations generalizing store with
  | nil => exact h
  | cons operation operations ih =>
      exact System.denied_gains_none ⟨coordinator.config, store⟩ hdenied (.operation operation) id
        (ih h)

theorem along_tick {f : World → α} :
    Process.Along (ε := Exit) (World.GainsNone client)
      (Process.step fun world => (f world, { world with tick := world.tick + 1 })) :=
  .step fun _ _ h => h

theorem transaction_along {body : Tx α}
    (hdenied : client ∈ coordinator.config.connection.deniedClients)
    (hbody : Respects (fun s s' : Store => s'.connections = s.connections) body) :
    Process.Along (World.GainsNone client) (transaction coordinator env body) := by
  refine .bind (.step fun world id h => ?_) fun result => ?_
  · have hsame := hbody.atomically (interfere coordinator (env.others world.tick) world.store)
    rw [hsame] at h
    exact interfere_gains_none hdenied _ h
  · cases result with
    | ok a => exact .pure a
    | error e => exact .exit _

theorem wallTimeMillis_along : Process.Along (World.GainsNone client) (wallTimeMillis env) :=
  .bind along_tick fun _ => .orExit _ _

theorem providerDeadline_along :
    Process.Along (World.GainsNone client) (providerDeadline coordinator env) :=
  .bind wallTimeMillis_along fun _ => .orExit _ _

theorem execute_along (operation : ProviderOperation) :
    Process.Along (World.GainsNone client) (execute env operation) :=
  .bind (.bind wallTimeMillis_along fun _ => .orExit _ _) fun _ => .bind along_tick fun _ =>
    .bind (.orExit _ _) fun _ => .pure _

end Dispatch

namespace Coordinator

variable {coordinator : Coordinator} {env : Environment} {item : Item} {evidence : Evidence}
  {client : PublicKey}

theorem decryptRequest_along :
    Process.Along (World.GainsNone client) (coordinator.decryptRequest env item evidence) :=
  .bind (.orExit _ _) fun _ => .bind Dispatch.providerDeadline_along fun _ =>
    .bind (.orExit _ _) fun _ => .bind (Dispatch.execute_along _) fun _ =>
      .bind (.orExit _ _) fun _ => .bind (.orExit _ _) fun _ => .orExit _ _

theorem admitRequest_along (hdenied : client ∈ coordinator.config.connection.deniedClients)
    (prepared : PreparedRequest) :
    Process.Along (World.GainsNone client) (coordinator.admitRequest env prepared) := by
  refine .bind (Dispatch.transaction_along hdenied ?_) fun admission => ?_
  · exact respects_withBinding _ fun _ _ _ hrun =>
      (congrArg Store.connections (admitRequest_admits _ hrun).outside :)
  · cases admission with
    | conflictingReuse record => exact .exit _
    | admitted record | exactReplay record =>
        refine .bind (Dispatch.transaction_along hdenied ?_) fun response => ?_
        · exact respects_withBinding _ (.query _)
        · cases response with
          | some response => exact .exit _
          | none => exact .pure _

/-! ## The session that serves a call -/

theorem readActiveConnectionForClient_mem {s : Store} {observedAt : TimeUnixMs}
    {connection : ConnectionRecord}
    (h : readActiveConnectionForClient s client observedAt = .ok (some connection)) :
    hasConnection s.connections connection.id connection.clientPublicKey := by
  unfold readActiveConnectionForClient at h
  split at h
  next => cases h
  next row _ =>
    cases hread : readConnection s row.connectionId with
    | error e => simp [hread, Except.map] at h
    | ok record =>
        obtain rfl : record = connection := by simpa [hread, Except.map] using h
        obtain ⟨row, requested, granted, hreads⟩ := readConnection_eq_ok hread
        exact ⟨row, hreads.mem, by simp [hreads.record_eq, ConnectionRow.record],
          by simp [hreads.record_eq, ConnectionRow.record]⟩
  next => cases h

theorem requireSession_found {protocol : Protocol} {prepared : PreparedRequest}
    {found : Option ConnectionRecord} {observedAt : TimeUnixMs} {connection : ConnectionRecord}
    (h : requireSession protocol prepared found observedAt = .ok connection) :
    found = some connection ∧
      connection.clientPublicKey = prepared.signerRequest.clientPublicKey := by
  unfold requireSession at h
  obtain ⟨session, hfound, h⟩ := Except.bind_eq_ok_iff.mp h
  obtain ⟨_, hclient, h⟩ := Except.bind_eq_ok_iff.mp h
  obtain ⟨_, -, h⟩ := Except.bind_eq_ok_iff.mp h
  have hsame : session = connection := by
    split at h
    next => exact Except.ok.inj h
    next =>
      obtain ⟨_, -, h⟩ := Except.bind_eq_ok_iff.mp h
      obtain ⟨_, -, h⟩ := Except.bind_eq_ok_iff.mp h
      exact Except.ok.inj h
  rw [← hsame]
  exact ⟨Except.ofOption_eq_ok.mp hfound, Except.require_eq_ok.mp hclient⟩

/-- The work of a request other than a connect is bound to a session of its client. -/
theorem prepareWork_requires_session {protocol : Protocol} {metadata : PersistedMetadata}
    {prepared : PreparedRequest} {record : RequestRecord} {found : Option ConnectionRecord}
    {observedAt : TimeUnixMs} {deadline : Option TimeUnixMs} {work : Work}
    (h : prepareWork protocol metadata prepared record found observedAt deadline = .ok work)
    (hrequest : prepared.request.method = some prepared.signerRequest.method)
    (hmethod : work.method ≠ .connect) :
    prepared.signerRequest.method ≠ .connect ∧ ∃ connection, work.connection = some connection ∧
      found = some connection ∧ connection.clientPublicKey = work.request.clientPublicKey := by
  have hsession (connection : ConnectionRecord) : work.connection = some connection →
      requireSession protocol prepared found observedAt = .ok connection := prepareWork_session h
  unfold prepareWork at h
  obtain ⟨_, hmatches, h⟩ := Except.bind_eq_ok_iff.mp h
  have hclient : record.clientPublicKey = prepared.signerRequest.clientPublicKey := by
    have hmatches := (Except.require_eq_ok.mp hmatches).1
    simp only [RequestRecord.matchesRequest, Bool.and_eq_true, beq_iff_eq] at hmatches
    exact hmatches.1.1.1.1.1.2
  split at h
  next hconnect =>
    obtain ⟨_, -, h⟩ := Except.bind_eq_ok_iff.mp h
    obtain ⟨_, -, h⟩ := Except.bind_eq_ok_iff.mp h
    obtain ⟨_, -, h⟩ := Except.bind_eq_ok_iff.mp h
    obtain rfl := Except.ok.inj h
    rw [hconnect] at hrequest
    exact absurd (Option.some.inj hrequest).symm hmethod
  next => cases h
  next =>
    obtain ⟨connection, -, h⟩ := Except.bind_eq_ok_iff.mp h
    obtain ⟨_, -, h⟩ := Except.bind_eq_ok_iff.mp h
    obtain rfl := Except.ok.inj h
    obtain ⟨hfound, hown⟩ := requireSession_found (hsession connection rfl)
    exact ⟨hmethod, connection, rfl, hfound, hown.trans hclient.symm⟩

theorem decryptRequest_method {request : PreparedRequest} {start world : World}
    (h : (coordinator.decryptRequest env item evidence).run start = (.ok request, world)) :
    request.request.method = some request.signerRequest.method := by
  unfold decryptRequest at h
  obtain ⟨event, _, -, h⟩ := Process.run_bind_eq_ok.mp h
  obtain ⟨deadline, _, -, h⟩ := Process.run_bind_eq_ok.mp h
  obtain ⟨operation, _, -, h⟩ := Process.run_bind_eq_ok.mp h
  obtain ⟨response, _, -, h⟩ := Process.run_bind_eq_ok.mp h
  obtain ⟨plaintext, _, -, h⟩ := Process.run_bind_eq_ok.mp h
  obtain ⟨decrypted, _, -, h⟩ := Process.run_bind_eq_ok.mp h
  have hrequest := (Process.run_orExit_eq_ok.mp h).1
  unfold prepareRequest at hrequest
  obtain ⟨_, hmethod, hrequest⟩ := Option.bind_eq_some_iff.mp hrequest
  obtain rfl := Option.some.inj hrequest
  exact (Option.guard_eq_some' _).mp hmethod

/-- The session of the work of a denied client was there before the call. -/
theorem prepareItem_denied {work : Work} {start prepared : World}
    (hdenied : client ∈ coordinator.config.connection.deniedClients)
    (h : (coordinator.prepareItem env item evidence).run start = (.ok work, prepared))
    (hmethod : work.method ≠ .connect) (hclient : work.request.clientPublicKey = client) :
    ∃ connection, work.connection = some connection ∧ connection.clientPublicKey = client ∧
      hasConnection start.store.connections connection.id client := by
  unfold prepareItem at h
  obtain ⟨request, world₁, hdecrypt, h⟩ := Process.run_bind_eq_ok.mp h
  obtain ⟨record, world₂, hadmit, h⟩ := Process.run_bind_eq_ok.mp h
  unfold bindWork at h
  obtain ⟨found, world₃, hfound, h⟩ := Process.run_bind_eq_ok.mp h
  obtain ⟨deadline, world₄, -, h⟩ := Process.run_bind_eq_ok.mp h
  have hwork := (Process.run_orExit_eq_ok.mp h).1
  cases hprepared : prepareWork coordinator.protocol coordinator.config.metadata request record found
    evidence.receivedAt deadline with
  | error e =>
      rw [hprepared] at hwork
      cases hwork
  | ok result =>
      rw [hprepared] at hwork
      obtain rfl := Option.some.inj hwork
      obtain ⟨hother, connection, hconnection, hsession, hown⟩ :=
        prepareWork_requires_session hprepared (decryptRequest_method hdecrypt) hmethod
      refine ⟨connection, hconnection, hown.trans hclient, ?_⟩
      rw [readSession, if_neg hother] at hfound
      have hread := run_withBinding_eq_ok (run_transaction_eq_ok hfound)
      have hmem := readActiveConnectionForClient_mem (hsession ▸ (run_query_eq_ok.mp hread).1)
      rw [hown, hclient] at hmem
      have hstart : World.GainsNone client start world₁ := decryptRequest_along.of_run hdecrypt
      have hadmitted := (admitRequest_along hdenied request).of_run hadmit
      exact hstart _ (hadmitted _ (Dispatch.interfere_gains_none hdenied _ hmem))

end Coordinator

/-! ## Denial over runs -/

/-- While the configuration denies a client, no event makes a connection for it, and what the
client still gets done other than connecting is done under a connection that an earlier event
admitted, when the configuration did not deny the client. -/
theorem denied_client_keeps_earlier_sessions (coordinator : Coordinator) (config : Configuration)
    (appliedAtUnixS : ℕ) (events : List Event) (client : PublicKey) :
    let after := Run.after (System.perform coordinator.codec) (.initial config appliedAtUnixS)
    let system := after events
    client ∈ system.config.connection.deniedClients →
      (∀ event id, hasConnection (system.perform coordinator.codec event).store.connections id client →
        hasConnection system.store.connections id client) ∧
      ∀ (env : Environment) (item : Coordinator.Item) (evidence : Coordinator.Evidence) (tick : ℕ)
        (work : Work) (prepared : World),
        ({ coordinator with config := system.config }.prepareItem env item evidence).run
          ⟨system.store, tick⟩ = (.ok work, prepared) →
        work.method ≠ .connect → work.request.clientPublicKey = client →
        ∃ connection, work.connection = some connection ∧ connection.clientPublicKey = client ∧
          ∃ earlier event later, events = earlier ++ event :: later ∧
            event.admits (after earlier) connection.id client := by
  intro after system hdenied
  refine ⟨fun event id => system.denied_gains_none hdenied event id, ?_⟩
  intro env item evidence tick work prepared hprepared hmethod hclient
  obtain ⟨connection, hconnection, hown, hthere⟩ :=
    Coordinator.prepareItem_denied hdenied hprepared hmethod hclient
  refine ⟨connection, hconnection, hown, ?_⟩
  rcases Run.origin
    (P := fun system : System => hasConnection system.store.connections connection.id client)
    (Q := fun system event => event.admits system connection.id client)
    (fun system event => system.connection_origin event) events hthere with hinitial | hadmitted
  · obtain ⟨row, hrow, -⟩ := hinitial
    cases hrow
  · exact hadmitted

/-! ## A session that outlives its client's trust -/

namespace SampleService

/-- The configuration that denies the client it used to trust. -/
def deniedConfig : Configuration :=
  { config with
    metadata := { config.metadata with normalizedConfigSha256 := 8 }
    connection := { connection with
      trustedClients := [], deniedClients := [client], disjoint := by decide } }

/-- The client connects while it is trusted, and is denied from then on. -/
def deniedAfterConnect : List Event := connects ++ [.apply deniedConfig 2]

def answeringCoordinator : Coordinator :=
  { coordinator with protocol := answeringProtocol, codec := pongCodec }

/-- Providers that decrypt the ping and sign its answer. -/
def answeringProviders : Environment :=
  { environment with
    providers := fun _ operation _ =>
      match operation.input with
      | .signEvent _ => some (.signedEvent (encode pongEvent))
      | _ => some (.protectedPayload pingPlaintext) }

abbrev deniedSystem : System :=
  Run.after (System.perform answeringCoordinator.codec) (.initial config 1) deniedAfterConnect

abbrev deniedCoordinator : Coordinator :=
  { answeringCoordinator with config := deniedSystem.config }

/-- One evaluation of the ping: it is prepared, and answered under the session. -/
theorem deniedPing_evaluates :
    (deniedCoordinator.completedSession answeringProviders (item pingEvent) evidence
        ⟨deniedSystem.store, 0⟩).any (fun connection =>
          decide (connection.clientPublicKey ∈ deniedSystem.config.connection.deniedClients)) =
            true ∧
      ((deniedCoordinator.prepareItem answeringProviders (item pingEvent) evidence).run
          ⟨deniedSystem.store, 0⟩).1.toOption.any (fun work : Work =>
            work.method != .connect && work.request.clientPublicKey == client) = true ∧
      client ∈ deniedSystem.config.connection.deniedClients := by
  have hsystem : deniedSystem = Run.after (System.perform answeringCoordinator.codec)
      ⟨config, connectedStore⟩ [.apply deniedConfig 2] := by
    rw [deniedSystem, deniedAfterConnect, Run.after_append, after_connects]
  unfold deniedCoordinator
  rw [hsystem]
  decide +kernel

end SampleService

open SampleService in
/-- The client connects, the next configuration denies it, and its ping is still answered under
the session. -/
theorem denied_client_completes_ping :
    ¬ ∀ (coordinator : Coordinator) (config : Configuration) (appliedAtUnixS : ℕ)
        (events : List Event) (env : Environment) (item : Coordinator.Item)
        (evidence : Coordinator.Evidence) (tick : ℕ) (connection : ConnectionRecord),
      let system := Run.after (System.perform coordinator.codec) (.initial config appliedAtUnixS)
        events
      { coordinator with config := system.config }.completedSession env item evidence
        ⟨system.store, tick⟩ = some connection →
      connection.clientPublicKey ∉ system.config.connection.deniedClients := by
  intro h
  obtain ⟨hsession, -⟩ := deniedPing_evaluates
  obtain ⟨connection, hcompleted, hdenied⟩ := (Option.any_eq_true _ _).mp hsession
  refine h answeringCoordinator config 1 deniedAfterConnect answeringProviders (item pingEvent)
    evidence 0 connection hcompleted ?_
  with_reducible exact of_decide_eq_true hdenied

open SampleService in
/-- The ping of the denied client is prepared under the connection that it was given while it
was trusted. -/
theorem denied_ping_prepared_under_earlier_session :
    client ∈ deniedSystem.config.connection.deniedClients ∧
      ∃ (work : Work) (prepared : World) (connection : ConnectionRecord),
        (deniedCoordinator.prepareItem answeringProviders (item pingEvent) evidence).run
          ⟨deniedSystem.store, 0⟩ = (.ok work, prepared) ∧
        work.connection = some connection ∧ ∃ earlier event later,
          deniedAfterConnect = earlier ++ event :: later ∧
          event.admits (Run.after (System.perform answeringCoordinator.codec) (.initial config 1)
            earlier) connection.id client := by
  obtain ⟨-, hany, hdenied⟩ := deniedPing_evaluates
  refine ⟨hdenied, ?_⟩
  have hsessions := (denied_client_keeps_earlier_sessions answeringCoordinator config 1
    deniedAfterConnect client (by with_reducible exact hdenied)).2 answeringProviders
    (item pingEvent) evidence 0
  match hrun : (deniedCoordinator.prepareItem answeringProviders (item pingEvent) evidence).run
      ⟨deniedSystem.store, 0⟩ with
  | (.error e, prepared) =>
      rw [hrun] at hany
      cases hany
  | (.ok work, prepared) =>
      rw [hrun] at hany
      obtain ⟨hmethod, hclient⟩ := Bool.and_eq_true_iff.mp hany
      obtain ⟨connection, hconnection, -, hadmitted⟩ :=
        hsessions work prepared hrun (bne_iff_ne.mp hmethod) (beq_iff_eq.mp hclient)
      exact ⟨work, prepared, connection, rfl, hconnection, hadmitted⟩

end MycSigner
