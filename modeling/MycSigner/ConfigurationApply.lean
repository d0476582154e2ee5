import MycSigner.Connections.Operations

/-!
# Applying a configuration

A candidate configuration replaces the current one while the service is offline.  A changed
identity ends every session and every pending request; a narrower permission ceiling ends
the sessions whose grants it no longer covers.
-/

namespace MycSigner

open Transaction

def configBindingsTable : TableRef Store ConfigBindingRow :=
  ⟨Store.configBindings, fun rows s => { s with configBindings := rows }⟩

/-- The `myc_config_bindings_guard_insert` trigger with the `CHECK`s. -/
def configBindingInsertAllowed (s : Store) (row : ConfigBindingRow) : Bool :=
  (1 ≤ row.generation && row.generation ≤ 1024) && row.appliedAtUnixS ≤ i64Max &&
    row.generation == (s.configBindings.map ConfigBindingRow.generation).foldr max 0 + 1 &&
    s.configBindings.length < 1024 &&
    s.configBindings.all fun other => other.appliedAtUnixS ≤ row.appliedAtUnixS

def insertConfigBinding (row : ConfigBindingRow) : Tx Unit :=
  configBindingsTable.insert configBindingInsertAllowed .storage row

/-- `identities_changed` -/
def identitiesChanged (current candidate : PersistedMetadata) : Bool :=
  current.transportPublicKey != candidate.transportPublicKey ||
    current.userPublicKey != candidate.userPublicKey ||
    current.discoveryPublicKey != candidate.discoveryPublicKey

/-- `changed_existing_relays` -/
def changedExistingRelays (current candidate : Configuration) : List RelayId :=
  (current.relays.filter fun relay => relay ∉ candidate.relays).map RelayBinding.id

/-- `relay_has_nonterminal_job` -/
def relayHasNonterminalJob (s : Store) (relayId : RelayId) : Bool :=
  s.targets.any fun target => target.relayId == relayId &&
    s.jobs.any fun job => job.jobId == target.jobId && job.status.isOpen

/-- The ceiling loses a permission. -/
def permissionsNarrowed (current candidate : Configuration) : Bool :=
  !current.connection.permissionCeiling.isSubsetOf candidate.connection.permissionCeiling

/-- The connection has a permission of the scope outside the ceiling. -/
def exceedsCeiling (s : Store) (ceiling : PermissionSet) (scope : PermissionScope)
    (connectionId : Id32) : Bool :=
  (permissionsOf s connectionId scope).any fun permission => !ceiling.contains permission

/-- `MAX(time, ?)` with the saturated millisecond value of an application time. -/
def TimeUnixMs.noEarlier (time : TimeUnixMs) (appliedAtUnixS : ℕ) : TimeUnixMs where
  get := max time.get (min (appliedAtUnixS * 1000) i64Max)
  pos := Nat.lt_of_lt_of_le time.pos (Nat.le_max_left _ _)
  sqlite := Nat.max_le.mpr ⟨time.sqlite, Nat.min_le_right _ _⟩

theorem TimeUnixMs.le_noEarlier (time : TimeUnixMs) (appliedAtUnixS : ℕ) :
    time ≤ time.noEarlier appliedAtUnixS := Nat.le_max_left _ _

/-- Ends a session no earlier than its last update. -/
def ConnectionRow.endedAs (status : ConnectionStatus) (appliedAtUnixS : ℕ) (row : ConnectionRow) :
    ConnectionRow :=
  { row with status, updatedAt := row.updatedAt.noEarlier appliedAtUnixS, authorizedUntil := none }

/-- Expires a challenge no earlier than it was issued. -/
def ChallengeRow.expiredAt (appliedAtUnixS : ℕ) (row : ChallengeRow) : ChallengeRow :=
  { row with state := .expired, resolvedAt := some (row.issuedAt.noEarlier appliedAtUnixS) }

/-- `revoke_for_identity_change` -/
def revokeForIdentityChange (appliedAtUnixS : ℕ) : Tx (ℕ × ℕ) := do
  let active ← updateConnections (fun row => row.status = .active)
    (ConnectionRow.endedAs .expired appliedAtUnixS)
  let pending ← updateConnections (fun row => row.status = .pending)
    (ConnectionRow.endedAs .denied appliedAtUnixS)
  let challenges ← updateChallenges (fun row => row.state = .pending)
    (ChallengeRow.expiredAt appliedAtUnixS)
  return (active + pending, challenges)

/-- `update_affected_connections` -/
def updateAffectedConnections (appliedAtUnixS : ℕ) (ceiling : PermissionSet) : Tx ℕ := do
  let exceeding ← query fun s => .ok (exceedsCeiling s ceiling .granted)
  updateConnections (fun row => row.status = .active ∧ exceeding row.connectionId = true)
    (ConnectionRow.endedAs .expired appliedAtUnixS)

/-- `update_affected_challenges` -/
def updateAffectedChallenges (appliedAtUnixS : ℕ) (ceiling : PermissionSet) : Tx ℕ := do
  let exceeding ← query fun s => .ok (exceedsCeiling s ceiling .requested)
  updateChallenges (fun row => row.state = .pending ∧ exceeding row.connectionId = true)
    (ChallengeRow.expiredAt appliedAtUnixS)

/-- `revoke_for_permission_narrowing` -/
def revokeForPermissionNarrowing (appliedAtUnixS : ℕ) (ceiling : PermissionSet) :
    Tx (ℕ × ℕ) := do
  let connections ← updateAffectedConnections appliedAtUnixS ceiling
  let challenges ← updateAffectedChallenges appliedAtUnixS ceiling
  return (connections, challenges)

/-- What a changed configuration ends. -/
def revokeForConfiguration (current candidate : Configuration) (appliedAtUnixS : ℕ) :
    Tx (ℕ × ℕ) :=
  if identitiesChanged current.metadata candidate.metadata then
    revokeForIdentityChange appliedAtUnixS
  else if permissionsNarrowed current candidate then
    revokeForPermissionNarrowing appliedAtUnixS candidate.connection.permissionCeiling
  else
    return (0, 0)

/-- Committed configuration-generation evidence. -/
structure ConfigApplyOutcome where
  generation : ℕ
  revokedConnections : ℕ
  revokedChallenges : ℕ
deriving DecidableEq

/-- `read_latest_header` -/
def readLatestHeader : Tx ConfigBindingRow := do
  let latest ← query fun s => .ok (latestBinding s)
  let latest ← orFail latest .binding
  require (1 ≤ latest.generation ∧ latest.generation ≤ 1024) .binding
  return latest

/-- The transaction of `apply_configuration`; the profile, provider and build checks that come
before it do not read the store. -/
def applyConfiguration (current candidate : Configuration) (appliedAtUnixS : ℕ) :
    Tx ConfigApplyOutcome := do
  requireExpectedMetadata current
  let latest ← readLatestHeader
  if candidate.metadata = current.metadata then
    return ⟨latest.generation, 0, 0⟩
  else do
    require (latest.generation < 1024) .resourceExhausted
    require (latest.appliedAtUnixS ≤ appliedAtUnixS) .invalidInput
    let blocked ← query fun s =>
      .ok ((changedExistingRelays current candidate).any (relayHasNonterminalJob s))
    require (blocked = false) .policyConflict
    let (connections, challenges) ←
      revokeForConfiguration current candidate appliedAtUnixS
    insertConfigBinding ⟨latest.generation + 1, candidate.metadata, appliedAtUnixS⟩
    requireExpectedMetadata candidate
    let actual ← readLatestHeader
    require (actual.generation = latest.generation + 1 ∧ actual.appliedAtUnixS = appliedAtUnixS)
      .binding
    return ⟨latest.generation + 1, connections, challenges⟩

end MycSigner
