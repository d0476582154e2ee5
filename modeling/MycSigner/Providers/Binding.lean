import MycSigner.Providers.Verification

/-!
# What an operation is bound by

A verified response carries a digest of the operation it answers, and it is committed only for
an operation with the same digest.  The digest is taken of every field of the operation, each of
a fixed width or behind its length, so that the bytes under it belong to one operation.
-/

namespace MycSigner.Provider

/-! ## The bytes under the digest -/

/-- `MycProviderRole::as_str`, which is also the spelling of an instance. -/
def Role.asStr : Role → Bytes
  | .transport => ascii "transport"
  | .user => ascii "user"
  | .discovery => ascii "discovery"

/-- `MycProviderKind::as_str` -/
def Kind.asStr : Kind → Bytes
  | .encryptedFile => ascii "encrypted_file"
  | .localSigner => ascii "local_signer"

/-- `MycProviderCapability::as_str` -/
def Capability.asStr : Capability → Bytes
  | .describe => ascii "describe"
  | .publicIdentity => ascii "public_identity"
  | .signEvent => ascii "sign_event"
  | .nip04Encrypt => ascii "nip04_encrypt"
  | .nip04Decrypt => ascii "nip04_decrypt"
  | .nip44Encrypt => ascii "nip44_encrypt"
  | .nip44Decrypt => ascii "nip44_decrypt"

namespace Input

/-- `MycProviderOperationInput::peer` -/
def peer : Input → Option PublicKey
  | .request (.nip04Encrypt peer _) | .request (.nip04Decrypt peer _)
  | .request (.nip44Encrypt peer _) | .request (.nip44Decrypt peer _) => some peer
  | .describe | .publicIdentity | .request (.signEvent _) => none

/-- `MycProviderOperationInput::nip44_version` -/
def nip44Version : Input → Option UInt8
  | .request (.nip44Encrypt ..) | .request (.nip44Decrypt ..) => some 2
  | _ => none

/-- `MycProviderOperationInput::bytes` -/
def bytes : Input → Option Bytes
  | .request (.signEvent unsigned) => some unsigned
  | .request (.nip04Encrypt _ plaintext) | .request (.nip44Encrypt _ plaintext) => some plaintext
  | .request (.nip04Decrypt _ ciphertext) | .request (.nip44Decrypt _ ciphertext) =>
      some ciphertext
  | .describe | .publicIdentity => none

end Input

/-- An operation with the instance of its provider.  Its input was copied within the bound of
the contract. -/
structure BoundOperation where
  operation : Operation
  providerInstance : Role
  bounded : (operation.input.bytes.getD []).length ≤ providerInputMaxBytes
deriving DecidableEq

namespace BoundOperation

/-- What `binding_digest` hashes; a framed field stands behind its length. -/
def bindingBytes (bound : BoundOperation) : Bytes :=
  let operation := bound.operation
  domain "radroots.myc.provider.operation_binding.v1" ++
    (lengthPrefixed operation.role.asStr ++
    (lengthPrefixed bound.providerInstance.asStr ++
    (lengthPrefixed operation.provider.asStr ++
    (Id32.bytes operation.operationId ++
    (Id32.bytes operation.correlationId ++
    (u64Bytes operation.deadline.get ++
    (lengthPrefixed operation.expectedIdentity.asHex ++
    (lengthPrefixed operation.input.capability.asStr ++
    (lengthPrefixed ((operation.input.peer.map PublicKey.asHex).getD []) ++
    ([operation.input.nip44Version.getD 0] ++
    lengthPrefixed (operation.input.bytes.getD [])))))))))))

/-- `binding_digest` -/
def bindingDigest (bound : BoundOperation) : Id32 := Sha256.digest bound.bindingBytes

end BoundOperation

/-! ## One operation for the bytes -/

theorem Role.asStr_injective : Function.Injective Role.asStr := by
  intro left right h
  cases left <;> cases right <;> first | rfl | exact absurd h (by decide +kernel)

theorem Kind.asStr_injective : Function.Injective Kind.asStr := by
  intro left right h
  cases left <;> cases right <;> first | rfl | exact absurd h (by decide +kernel)

theorem Capability.asStr_injective : Function.Injective Capability.asStr := by
  intro left right h
  cases left <;> cases right <;> first | rfl | exact absurd h (by decide +kernel)

/-- The input that a capability, a peer and bytes make. -/
def Input.ofParts : Capability → Option PublicKey → Bytes → Option Input
  | .describe, _, _ => some .describe
  | .publicIdentity, _, _ => some .publicIdentity
  | .signEvent, _, bytes => some (.request (.signEvent bytes))
  | .nip04Encrypt, peer, bytes => peer.map fun peer => .request (.nip04Encrypt peer bytes)
  | .nip04Decrypt, peer, bytes => peer.map fun peer => .request (.nip04Decrypt peer bytes)
  | .nip44Encrypt, peer, bytes => peer.map fun peer => .request (.nip44Encrypt peer bytes)
  | .nip44Decrypt, peer, bytes => peer.map fun peer => .request (.nip44Decrypt peer bytes)

theorem Input.ofParts_eq (input : Input) :
    Input.ofParts input.capability input.peer (input.bytes.getD []) = some input := by
  cases input with
  | describe | publicIdentity => rfl
  | request input => cases input <;> rfl

/-- An absent peer is no key. -/
theorem peerHex_injective {left right : Option PublicKey}
    (h : (left.map PublicKey.asHex).getD [] = (right.map PublicKey.asHex).getD []) :
    left = right := by
  have hne : ∀ key : PublicKey, key.asHex ≠ [] := by
    intro key hnil
    have hlength := key.length_asHex
    rw [hnil] at hlength
    cases hlength
  cases left with
  | none =>
      cases right with
      | none => rfl
      | some key => exact absurd h.symm (hne key)
  | some key =>
      cases right with
      | none => exact absurd h (hne key)
      | some other => rw [PublicKey.asHex_injective h]

/-- Fields of one width can be split off. -/
theorem id32_append_injective {left right : Id32} {rest rest' : Bytes}
    (h : Id32.bytes left ++ rest = Id32.bytes right ++ rest') : left = right ∧ rest = rest' := by
  obtain ⟨hbytes, hrest⟩ := List.append_inj h (by rw [Id32.length_bytes, Id32.length_bytes])
  exact ⟨Id32.bytes_injective hbytes, hrest⟩

theorem deadline_append_injective {left right : TimeUnixMs} {rest rest' : Bytes}
    (h : u64Bytes left.get ++ rest = u64Bytes right.get ++ rest') : left = right ∧ rest = rest' := by
  obtain ⟨hbytes, hrest⟩ := List.append_inj h (by
    rw [u64Bytes, u64Bytes, length_bigEndian, length_bigEndian])
  have hvalue := bigEndian_injective hbytes
  have hleft := left.sqlite
  have hright := right.sqlite
  unfold i64Max at hleft hright
  rw [Nat.mod_eq_of_lt (by omega), Nat.mod_eq_of_lt (by omega)] at hvalue
  cases left
  cases right
  exact ⟨by congr, hrest⟩

theorem Role.length_asStr (role : Role) : role.asStr.length < 2 ^ 64 := by
  cases role <;> decide +kernel

theorem Kind.length_asStr (kind : Kind) : kind.asStr.length < 2 ^ 64 := by
  cases kind <;> decide +kernel

theorem Capability.length_asStr (capability : Capability) : capability.asStr.length < 2 ^ 64 := by
  cases capability <;> decide +kernel

theorem length_peerHex (peer : Option PublicKey) :
    ((peer.map PublicKey.asHex).getD []).length < 2 ^ 64 := by
  cases peer with
  | none => decide
  | some key =>
      rw [Option.map_some, Option.getD_some, key.length_asHex]
      decide

/-- The bytes of an operation are its own. -/
theorem BoundOperation.bindingBytes_injective : Function.Injective BoundOperation.bindingBytes := by
  intro left right h
  have hidentity : ∀ key : PublicKey, key.asHex.length < 2 ^ 64 := fun key => by
    rw [key.length_asHex]
    decide
  obtain ⟨hrole, h₁⟩ := lengthPrefixed_append_injective (Role.length_asStr _) (Role.length_asStr _)
    (List.append_cancel_left h)
  obtain ⟨hinstance, h₂⟩ := lengthPrefixed_append_injective (Role.length_asStr _)
    (Role.length_asStr _) h₁
  obtain ⟨hkind, h₃⟩ := lengthPrefixed_append_injective (Kind.length_asStr _)
    (Kind.length_asStr _) h₂
  obtain ⟨hoperation, h₄⟩ := id32_append_injective h₃
  obtain ⟨hcorrelation, h₅⟩ := id32_append_injective h₄
  obtain ⟨hdeadline, h₆⟩ := deadline_append_injective h₅
  obtain ⟨hexpected, h₇⟩ := lengthPrefixed_append_injective (hidentity _) (hidentity _) h₆
  obtain ⟨hcapability, h₈⟩ := lengthPrefixed_append_injective (Capability.length_asStr _)
    (Capability.length_asStr _) h₇
  obtain ⟨hpeer, h₉⟩ := lengthPrefixed_append_injective (length_peerHex _) (length_peerHex _) h₈
  have hbytes := lengthPrefixed_injective (List.cons.inj h₉).2
  have hinput : left.operation.input = right.operation.input := by
    have hparts := Input.ofParts_eq left.operation.input
    rw [Capability.asStr_injective hcapability, peerHex_injective hpeer, hbytes,
      Input.ofParts_eq] at hparts
    exact (Option.some.inj hparts).symm
  obtain ⟨⟨_, _, _, _, _, _, _⟩, _, _⟩ := left
  obtain ⟨⟨_, _, _, _, _, _, _⟩, _, _⟩ := right
  obtain rfl := Role.asStr_injective hrole
  obtain rfl := Role.asStr_injective hinstance
  obtain rfl := Kind.asStr_injective hkind
  obtain rfl : _ = _ := hoperation
  obtain rfl : _ = _ := hcorrelation
  obtain rfl : _ = _ := hdeadline
  obtain rfl := PublicKey.asHex_injective hexpected
  obtain rfl : _ = _ := hinput
  rfl

/-! ## Verified responses -/

/-- `MycVerifiedProviderResponse`: what was verified, under the digest of its operation. -/
structure VerifiedResponse where
  operationBinding : Id32
  verified : Verified
deriving DecidableEq

/-- `verify_encrypted_provider_response` of a bound operation. -/
def verifyEncryptedBound (library : Library) (binding : Binding) (bound : BoundOperation)
    (observedAt : TimeUnixMs) (result : WireResult) :
    Except VerificationError VerifiedResponse := do
  Except.require (bound.providerInstance = binding.role) .invalidBinding
  let verified ←
    verifyEncryptedProviderResponse library binding bound.operation observedAt result
  return ⟨bound.bindingDigest, verified⟩

/-- `verify_response` of a bound operation. -/
def verifyBound (library : Library) (binding : Binding) (bound : BoundOperation)
    (observedAt : TimeUnixMs) (response : WireResponse) :
    Except VerificationError VerifiedResponse := do
  Except.require (bound.providerInstance = binding.role) .invalidBinding
  let verified ← verifyResponse library binding bound.operation observedAt response
  return ⟨bound.bindingDigest, verified⟩

/-- `matches_operation` -/
def VerifiedResponse.matchesOperation (response : VerifiedResponse) (bound : BoundOperation) :
    Bool :=
  response.operationBinding = bound.bindingDigest

/-- A response that either verifier lets through for an operation. -/
inductive VerifiedFor (library : Library) (binding : Binding) (bound : BoundOperation) :
    VerifiedResponse → Prop where
  | encrypted {observedAt : TimeUnixMs} {result : WireResult} {response : VerifiedResponse}
      (h : verifyEncryptedBound library binding bound observedAt result = .ok response) :
      VerifiedFor library binding bound response
  | localSigner {observedAt : TimeUnixMs} {wire : WireResponse} {response : VerifiedResponse}
      (h : verifyBound library binding bound observedAt wire = .ok response) :
      VerifiedFor library binding bound response

/-- The digest of a verified response is that of its operation. -/
theorem VerifiedFor.operationBinding_eq {library : Library} {binding : Binding}
    {bound : BoundOperation} {response : VerifiedResponse}
    (h : VerifiedFor library binding bound response) :
    response.operationBinding = bound.bindingDigest := by
  cases h with
  | encrypted h =>
      simp only [verifyEncryptedBound, Except.bind_eq_ok_iff, pure, Except.pure,
        Except.ok.injEq] at h
      obtain ⟨-, -, -, -, rfl⟩ := h
      rfl
  | localSigner h =>
      simp only [verifyBound, Except.bind_eq_ok_iff, pure, Except.pure, Except.ok.injEq] at h
      obtain ⟨-, -, -, -, rfl⟩ := h
      rfl

/-- Where the hash does not collide on their bytes, two operations with one digest are one, and
a verified response matches only the operation it was verified against. -/
theorem operation_binding_injective :
    (∀ left right : BoundOperation, CollisionFree [left.bindingBytes, right.bindingBytes] →
      left.bindingDigest = right.bindingDigest → left = right) ∧
    ∀ (library : Library) (binding : Binding) (bound other : BoundOperation)
      (response : VerifiedResponse), VerifiedFor library binding bound response →
        CollisionFree [bound.bindingBytes, other.bindingBytes] →
        (response.matchesOperation other = true ↔ other = bound) := by
  have hsame : ∀ left right : BoundOperation,
      CollisionFree [left.bindingBytes, right.bindingBytes] →
        left.bindingDigest = right.bindingDigest → left = right := fun left right hfree hdigest =>
    BoundOperation.bindingBytes_injective (hfree _ (by simp) _ (by simp) hdigest)
  refine ⟨hsame, fun library binding bound other response hverified hfree => ?_⟩
  rw [VerifiedResponse.matchesOperation, decide_eq_true_eq, hverified.operationBinding_eq]
  constructor
  · exact fun hdigest => (hsame bound other hfree hdigest).symm
  · rintro rfl
    rfl

/-- The hash does not collide on two operations that differ in their capability. -/
theorem description_distinguished :
    let operation (input : Input) : Operation :=
      { role := .transport, provider := .encryptedFile, operationId := 1, correlationId := 2,
        deadline := ⟨1000, by decide, by decide⟩, expectedIdentity := ⟨3⟩, input := input }
    let describes : BoundOperation := ⟨operation .describe, .transport, by decide⟩
    let identifies : BoundOperation := ⟨operation .publicIdentity, .transport, by decide⟩
    CollisionFree [describes.bindingBytes, identifies.bindingBytes] ∧
      describes.bindingDigest ≠ identifies.bindingDigest := by
  intro operation describes identifies
  have hfree : CollisionFree [describes.bindingBytes, identifies.bindingBytes] := by decide +kernel
  have hinjective := operation_binding_injective.1 describes identifies hfree
  exact ⟨hfree, fun hdigest =>
    absurd (congrArg (·.operation.input) (hinjective hdigest)) (by decide)⟩

end MycSigner.Provider
