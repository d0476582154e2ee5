import MycSigner.Delivery.Operations

/-!
# Configuration

The part of an admitted configuration that the state transactions read: the binding that a
store is matched against, the relays, the connection policy with its permission ceiling, the
rate policies, and the delivery and discovery policies.  A policy carries the checks of its
constructor, so that an inadmissible one cannot be built.
-/

namespace MycSigner

open Transaction

/-! ## Permissions -/

/-- The derived order of the permissions, as a number. -/
def Permission.rank : Permission → ℕ
  | .getPublicKey => 0
  | .getSessionCapability => 1
  | .signEvent kind => 2 + kind.toNat
  | .nip04Encrypt => 4294967298
  | .nip04Decrypt => 4294967299
  | .nip44Encrypt => 4294967300
  | .nip44Decrypt => 4294967301
  | .ping => 4294967302
  | .switchRelays => 4294967303
  | .logout => 4294967304

/-- The decimal digits of a number. -/
def decimal (n : ℕ) : Bytes := (Nat.toDigits 10 n).map fun digit => UInt8.ofNat digit.toNat

/-- The stored code of a permission. -/
def Permission.code : Permission → Bytes
  | .getPublicKey => ascii "get_public_key"
  | .getSessionCapability => ascii "get_session_capability"
  | .signEvent kind => ascii "sign_event:kind:" ++ decimal kind.toNat
  | .nip04Encrypt => ascii "nip04_encrypt"
  | .nip04Decrypt => ascii "nip04_decrypt"
  | .nip44Encrypt => ascii "nip44_encrypt"
  | .nip44Decrypt => ascii "nip44_decrypt"
  | .ping => ascii "ping"
  | .switchRelays => ascii "switch_relays"
  | .logout => ascii "logout"

/-- What `MycConnectionPermissionSet::new` requires of the sorted permissions. -/
def permissionsValid (permissions : List Permission) : Bool :=
  permissions.length ≤ 64 &&
    decide (permissions.Pairwise fun left right => left.rank < right.rank)

/-- Immutable canonical set of connection permissions. -/
structure PermissionSet where
  permissions : List Permission
  valid : permissionsValid permissions = true
deriving DecidableEq

namespace PermissionSet

/-- Validates, orders, and seals one bounded permission set. -/
def new (permissions : List Permission) : Option PermissionSet :=
  let sorted := Table.ordered (fun left right => left.rank ≤ right.rank) permissions
  if valid : permissionsValid sorted = true then some ⟨sorted, valid⟩ else none

/-- `permission_digest` -/
def digest (set : PermissionSet) : Id32 :=
  Sha256.digest (domain "radroots.myc.connection_permissions.v1" ++
    u64Bytes set.permissions.length ++
    set.permissions.flatMap fun permission => lengthPrefixed permission.code)

/-- Binary search in an ordered set. -/
def contains (set : PermissionSet) (permission : Permission) : Bool :=
  permission ∈ set.permissions

def isSubsetOf (set other : PermissionSet) : Bool :=
  set.permissions.all fun permission => other.contains permission

theorem contains_iff {set : PermissionSet} {permission : Permission} :
    set.contains permission = true ↔ permission ∈ set.permissions := by
  simp [contains]

theorem isSubsetOf_iff {set other : PermissionSet} :
    set.isSubsetOf other = true ↔
      ∀ permission ∈ set.permissions, permission ∈ other.permissions := by
  simp [isSubsetOf, contains]

theorem mem_of_new {permissions : List Permission} {set : PermissionSet}
    (h : new permissions = some set) (permission : Permission) :
    permission ∈ set.permissions ↔ permission ∈ permissions := by
  dsimp only [new] at h
  split at h
  next =>
    obtain rfl := Option.some.inj h
    exact (Table.ordered_perm _ permissions).mem_iff
  next => cases h

end PermissionSet

/-! ## Connection policy -/

/-- Closed admission authority for a connect request. -/
inductive AdmissionPolicy where
  | trusted
  | explicitApproval
  | denied
deriving DecidableEq

/-- The challenge switch and its two lifetimes. -/
structure ChallengePolicy where
  url : ChallengeUrl
  pendingLifetimeMs : ℕ
  authorizedLifetimeMs : ℕ
  pending_pos : 0 < pendingLifetimeMs
  pending_le : pendingLifetimeMs ≤ authorizedLifetimeMs
  authorized_le : authorizedLifetimeMs ≤ i64Max

instance : DecidableEq ChallengePolicy := fun left right =>
  decidable_of_decidable_of_iff
    (p := left.url = right.url ∧ left.pendingLifetimeMs = right.pendingLifetimeMs ∧
      left.authorizedLifetimeMs = right.authorizedLifetimeMs) <| by
    cases left
    cases right
    simp

/-- Configuration-bound connection and challenge policy. -/
structure ConnectionPolicies where
  trustedClients : List PublicKey
  deniedClients : List PublicKey
  permissionCeiling : PermissionSet
  challenge : Option ChallengePolicy
  disjoint : ∀ client ∈ trustedClients, client ∉ deniedClients
deriving DecidableEq

namespace ConnectionPolicies

/-- `expected_admission`: denial comes before trust, and every other client needs approval. -/
def expectedAdmission (policies : ConnectionPolicies) (client : PublicKey) : AdmissionPolicy :=
  if client ∈ policies.deniedClients then .denied
  else if client ∈ policies.trustedClients then .trusted
  else .explicitApproval

/-- `admits_authorized_until`: a bounded lifetime exactly when challenges are enabled. -/
def admitsAuthorizedUntil (policies : ConnectionPolicies) (observedAt : TimeUnixMs)
    (authorizedUntil : Option TimeUnixMs) : Bool :=
  match policies.challenge, authorizedUntil with
  | none, none => true
  | some policy, some limit =>
      observedAt < limit && limit.get - observedAt.get ≤ policy.authorizedLifetimeMs
  | _, _ => false

end ConnectionPolicies

/-! ## Rate policy -/

/-- What `MycRateLimitPolicy::new` accepts. -/
def rateLimitPolicyValid (windowMs maxAttempts retentionMs maximumTrackedSubjects : ℕ) : Bool :=
  (1 ≤ windowMs && windowMs ≤ 86400000) && (1 ≤ maxAttempts && maxAttempts ≤ 10000) &&
    (windowMs ≤ retentionMs && retentionMs ≤ 2592000000) &&
    (1 ≤ maximumTrackedSubjects && maximumTrackedSubjects ≤ 65536)

/-- One rate window of a class. -/
structure RateLimitPolicy where
  rateClass : RateLimitClass
  windowMs : ℕ
  maxAttempts : ℕ
  retentionMs : ℕ
  maximumTrackedSubjects : ℕ
  valid : rateLimitPolicyValid windowMs maxAttempts retentionMs maximumTrackedSubjects = true
deriving DecidableEq

/-- The three rate policies and the configured relays. -/
structure GovernancePolicies where
  connectionAdmission : RateLimitPolicy
  challengeCreation : RateLimitPolicy
  challengeAuthorization : RateLimitPolicy
  auditRetentionMs : ℕ
  relays : List RelayId
  admission_class : connectionAdmission.rateClass = .connectionAdmission
  creation_class : challengeCreation.rateClass = .challengeCreation
  authorization_class : challengeAuthorization.rateClass = .challengeAuthorization
  audit_bounded : 1 ≤ auditRetentionMs ∧ auditRetentionMs ≤ 31536000000
  relays_nonempty : relays ≠ []
deriving DecidableEq

/-- `admits_relay` -/
def GovernancePolicies.admitsRelay (policies : GovernancePolicies) (relay : RelayId) : Bool :=
  relay ∈ policies.relays

/-! ## Discovery policy -/

/-- The configured discovery handler; the projection bytes are the serialized projection
input, which the configuration determines. -/
structure DiscoveryPolicies where
  handlerIdentifier : Bytes
  authorPublicKey : PublicKey
  publicRelays : List Bytes
  nostrconnectUrl : Option Bytes
  metadataJson : Bytes
  eventMaxBytes : ℕ
  projectionBytes : Bytes
  event_bounded : 1 ≤ eventMaxBytes ∧ eventMaxBytes ≤ 524288
deriving DecidableEq

/-! ## The configuration -/

/-- The part of a relay entry that `apply_configuration` compares. -/
structure RelayBinding where
  id : RelayId
  url : Bytes
  read : Bool
  write : Bool
  required : Bool
  authentication : Bytes
deriving DecidableEq

/-- An admitted configuration. -/
structure Configuration where
  metadata : PersistedMetadata
  relays : List RelayBinding
  connection : ConnectionPolicies
  governance : GovernancePolicies
  delivery : DeliveryPolicies
  discovery : Option DiscoveryPolicies
deriving DecidableEq

/-- The binding with the largest generation. -/
def latestBinding (s : Store) : Option ConfigBindingRow :=
  (Table.ordered (fun left right => right.generation ≤ left.generation) s.configBindings).head?

/-- `require_expected_metadata` -/
def requireExpectedMetadata (config : Configuration) : Tx Unit := do
  let latest ← query fun s => .ok (latestBinding s)
  let latest ← orFail latest .binding
  require (latest.metadata = config.metadata) .binding

/-- A transaction body runs after the binding check, in the same transaction. -/
def withBinding {α : Type} (config : Configuration) (body : Tx α) : Tx α := do
  requireExpectedMetadata config
  body

theorem run_requireExpectedMetadata_eq_ok {config : Configuration} {s s' : Store} {u : Unit}
    (h : (requireExpectedMetadata config).run s = .ok (u, s')) : s' = s := by
  unfold requireExpectedMetadata at h
  obtain ⟨latest, _, hlatest, h⟩ := run_bind_eq_ok.mp h
  obtain ⟨-, rfl⟩ := run_query_eq_ok.mp hlatest
  obtain ⟨latest, _, hsome, h⟩ := run_bind_eq_ok.mp h
  obtain ⟨-, rfl⟩ := run_orFail_eq_ok.mp hsome
  exact (run_require_eq_ok.mp h).2.symm

/-- A successful bound body ran from the state itself. -/
theorem run_withBinding_eq_ok {α : Type} {config : Configuration} {body : Tx α} {s s' : Store} {a : α}
    (h : (withBinding config body).run s = .ok (a, s')) : body.run s = .ok (a, s') := by
  obtain ⟨_, s₁, hbinding, hbody⟩ := run_bind_eq_ok.mp h
  rwa [run_requireExpectedMetadata_eq_ok hbinding] at hbody

theorem respects_withBinding {α : Type} {R : Store → Store → Prop} {body : Tx α}
    (config : Configuration) (h : Respects R body) : Respects R (withBinding config body) :=
  fun _ _ _ hrun => h (run_withBinding_eq_ok hrun)

end MycSigner
