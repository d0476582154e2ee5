import MycSigner.Encoding

/-!
# The wrapped data key

The data key of an encrypted identity is sealed under the wrapping credential of the operator and
written as a magic, a version, a nonce and the ciphertext.  The authenticated data bind the secret
reference and the context.  The cipher and the two types of secret bytes come from other packages:
they are parameters, with what their interfaces promise as fields.
-/

namespace MycSigner.WrappedKey

/-! ## What other packages provide -/

/-- An authenticated cipher.  A ciphertext is accepted exactly when it is the encryption of the
message that is returned, and its tag has 16 bytes. -/
structure Cipher where
  encrypt : (key nonce aad message : Bytes) → Option Bytes
  decrypt : (key nonce aad ciphertext : Bytes) → Option Bytes
  accepts : ∀ key nonce aad message ciphertext,
    decrypt key nonce aad ciphertext = some message ↔
      encrypt key nonce aad message = some ciphertext
  tagged : ∀ key nonce aad message ciphertext,
    encrypt key nonce aad message = some ciphertext → ciphertext.length = message.length + 16

/-- The bytes that the types of secrets admit. -/
structure Secrets where
  isMaterial : Bytes → Bool
  isWrapped : Bytes → Bool

/-- `SecretMaterial` -/
structure SecretMaterial (secrets : Secrets) where
  bytes : Bytes
  admitted : secrets.isMaterial bytes = true

/-- `WrappedSecret` -/
structure WrappedSecret (secrets : Secrets) where
  bytes : Bytes
  admitted : secrets.isWrapped bytes = true

/-- `SecretRef`: an identity, its backend and the version of its key. -/
structure SecretRef where
  id : Bytes
  isExternal : Bool
  keyVersion : ℕ
  id_bounded : id.length < 2 ^ 16
  version_bounded : keyVersion < 2 ^ 32

/-- `EnvelopeContext`, by its authentication digest. -/
structure EnvelopeContext where
  authenticationDigest : Id32

inductive Error where
  | wrapFailed
  | unwrapFailed
  | rejected
deriving DecidableEq

section

variable {secrets : Secrets}

/-- `SecretMaterial::from_slice` -/
def SecretMaterial.fromSlice (secrets : Secrets) (bytes : Bytes) :
    Except Error (SecretMaterial secrets) :=
  if h : secrets.isMaterial bytes = true then .ok ⟨bytes, h⟩ else .error .rejected

/-- `WrappedSecret::from_bytes` -/
def WrappedSecret.fromBytes (secrets : Secrets) (bytes : Bytes) :
    Except Error (WrappedSecret secrets) :=
  if h : secrets.isWrapped bytes = true then .ok ⟨bytes, h⟩ else .error .rejected

end

/-! ## The format -/

/-- `WRAPPED_KEY_MAGIC` -/
def magic : Bytes := ascii "MYWK"

/-- `WRAPPED_KEY_VERSION` -/
def version : UInt8 := 1

/-- `WRAPPED_KEY_BYTES` -/
def wrappedKeyBytes : ℕ := 4 + 1 + 24 + 48

/-- A nonce of 24 bytes. -/
structure Nonce where
  bytes : Bytes
  width : bytes.length = 24

/-- `wrapping_aad` -/
def wrappingAad (reference : SecretRef) (context : EnvelopeContext) : Bytes :=
  domain "radroots.myc.wrapped_data_key.v1" ++ Sha256.bigEndian 2 reference.id.length ++
    reference.id ++ u32Bytes reference.keyVersion ++ context.authenticationDigest.bytes

/-- What a sealer writes: the magic, the version, the nonce and the ciphertext. -/
def frame (nonce : Nonce) (ciphertext : Bytes) : Bytes :=
  magic ++ [version] ++ nonce.bytes ++ ciphertext

/-- `validate_external_reference` -/
def externalReference (reference : SecretRef) : Bool :=
  reference.isExternal && reference.keyVersion == 1

/-! ## Sealing and opening -/

section

variable {secrets : Secrets} (cipher : Cipher) (credential : Bytes)

/-- `CredentialSealer::wrap`: the nonce is taken before the encryption, and it stays taken. -/
def wrap (reference : SecretRef) (context : EnvelopeContext) (plaintext : SecretMaterial secrets)
    (state : Option Nonce) : Except Error (WrappedSecret secrets) × Option Nonce :=
  if externalReference reference = true then
    match state with
    | none => (.error .wrapFailed, none)
    | some nonce =>
        match cipher.encrypt credential nonce.bytes (wrappingAad reference context)
            plaintext.bytes with
        | none => (.error .wrapFailed, none)
        | some ciphertext => (WrappedSecret.fromBytes secrets (frame nonce ciphertext), none)
  else (.error .wrapFailed, state)

/-- `CredentialOpener::unwrap`, with the flag that says whether an opening succeeded. -/
def unwrap (reference : SecretRef) (context : EnvelopeContext) (wrapped : WrappedSecret secrets)
    (succeeded : Bool) : Except Error (SecretMaterial secrets) × Bool :=
  let encoded := wrapped.bytes
  if externalReference reference = true then
    if encoded.length ≠ wrappedKeyBytes ∨ encoded.take 4 ≠ magic ∨ encoded[4]? ≠ some version then
      (.error .unwrapFailed, succeeded)
    else
      match cipher.decrypt credential ((encoded.drop 5).take 24) (wrappingAad reference context)
          (encoded.drop 29) with
      | none => (.error .unwrapFailed, succeeded)
      | some plaintext =>
          match SecretMaterial.fromSlice secrets plaintext with
          | .error e => (.error e, succeeded)
          | .ok material => (.ok material, true)
  else (.error .unwrapFailed, succeeded)

end

/-! ## The frame can be split -/

theorem magic_length : magic.length = 4 := by decide +kernel

theorem frame_length (nonce : Nonce) (ciphertext : Bytes) :
    (frame nonce ciphertext).length = 29 + ciphertext.length := by
  simp only [frame, List.length_append, magic_length, nonce.width, List.length_singleton]

theorem take_frame (nonce : Nonce) (ciphertext : Bytes) :
    (frame nonce ciphertext).take 4 = magic := by
  unfold frame
  rw [List.append_assoc, List.append_assoc, List.take_left' magic_length]

theorem version_frame (nonce : Nonce) (ciphertext : Bytes) :
    (frame nonce ciphertext)[4]? = some version := by
  unfold frame
  rw [List.append_assoc, List.append_assoc, List.getElem?_append_right (by rw [magic_length]),
    magic_length]
  rfl

theorem drop_frame (nonce : Nonce) (ciphertext : Bytes) :
    (frame nonce ciphertext).drop 5 = nonce.bytes ++ ciphertext := by
  unfold frame
  rw [List.append_assoc]
  exact List.drop_left' (by rw [List.length_append, magic_length]; rfl)

theorem nonce_frame (nonce : Nonce) (ciphertext : Bytes) :
    ((frame nonce ciphertext).drop 5).take 24 = nonce.bytes := by
  rw [drop_frame, List.take_left' nonce.width]

theorem ciphertext_frame (nonce : Nonce) (ciphertext : Bytes) :
    (frame nonce ciphertext).drop 29 = ciphertext := by
  rw [show 29 = 5 + 24 from rfl, ← List.drop_drop, drop_frame, List.drop_left' nonce.width]

/-- Bytes with the width, the magic and the version are a frame. -/
theorem exists_frame {encoded : Bytes} (hlength : encoded.length = wrappedKeyBytes)
    (hmagic : encoded.take 4 = magic) (hversion : encoded[4]? = some version) :
    ∃ nonce : Nonce, nonce.bytes = (encoded.drop 5).take 24 ∧
      encoded = frame nonce (encoded.drop 29) := by
  have hwidth : ((encoded.drop 5).take 24).length = 24 := by
    rw [List.length_take, List.length_drop, hlength]
    rfl
  refine ⟨⟨(encoded.drop 5).take 24, hwidth⟩, rfl, ?_⟩
  have hrest : encoded.drop 4 = version :: encoded.drop 5 := by
    have hlt : 4 < encoded.length := by rw [hlength]; decide
    rw [List.getElem?_eq_getElem hlt] at hversion
    rw [List.drop_eq_getElem_cons hlt, Option.some.inj hversion]
  have hnonce : encoded.drop 5 = (encoded.drop 5).take 24 ++ encoded.drop 29 := by
    rw [show 29 = 5 + 24 from rfl, ← List.drop_drop, List.take_append_drop]
  calc encoded = encoded.take 4 ++ encoded.drop 4 := (List.take_append_drop 4 encoded).symm
    _ = magic ++ (version :: ((encoded.drop 5).take 24 ++ encoded.drop 29)) := by
        rw [hmagic, hrest, ← hnonce]
    _ = frame ⟨(encoded.drop 5).take 24, hwidth⟩ (encoded.drop 29) := by
        simp [frame]

/-! ## What is opened -/

section

variable {secrets : Secrets} {cipher : Cipher} {credential : Bytes} {reference : SecretRef}
  {context : EnvelopeContext}

theorem fromSlice_eq_ok {bytes : Bytes} {material : SecretMaterial secrets} :
    SecretMaterial.fromSlice secrets bytes = .ok material ↔ material.bytes = bytes := by
  unfold SecretMaterial.fromSlice
  constructor
  · intro h
    split at h
    next => rw [← Except.ok.inj h]
    next => cases h
  · rintro rfl
    rw [dif_pos material.admitted]

theorem fromBytes_eq_ok {bytes : Bytes} {wrapped : WrappedSecret secrets} :
    WrappedSecret.fromBytes secrets bytes = .ok wrapped ↔ wrapped.bytes = bytes := by
  unfold WrappedSecret.fromBytes
  constructor
  · intro h
    split at h
    next => rw [← Except.ok.inj h]
    next => cases h
  · rintro rfl
    rw [dif_pos wrapped.admitted]

/-- A sealing that succeeds used the nonce of the sealer. -/
theorem wrap_eq_ok {plaintext : SecretMaterial secrets} {state : Option Nonce}
    {wrapped : WrappedSecret secrets} :
    (wrap cipher credential reference context plaintext state).1 = .ok wrapped ↔
      externalReference reference = true ∧ ∃ nonce ciphertext, state = some nonce ∧
        cipher.encrypt credential nonce.bytes (wrappingAad reference context) plaintext.bytes =
          some ciphertext ∧ wrapped.bytes = frame nonce ciphertext := by
  unfold wrap
  constructor
  · intro h
    split at h
    next hexternal =>
      split at h
      next => cases h
      next nonce =>
        split at h
        next => cases h
        next ciphertext hencrypt =>
          exact ⟨hexternal, nonce, ciphertext, rfl, hencrypt, fromBytes_eq_ok.mp h⟩
    next => cases h
  · rintro ⟨hexternal, nonce, ciphertext, rfl, hencrypt, hbytes⟩
    rw [if_pos hexternal]
    dsimp only
    rw [hencrypt]
    exact fromBytes_eq_ok.mpr hbytes

theorem unwrap_eq_ok {wrapped : WrappedSecret secrets} {succeeded : Bool}
    {material : SecretMaterial secrets} :
    (unwrap cipher credential reference context wrapped succeeded).1 = .ok material ↔
      externalReference reference = true ∧ wrapped.bytes.length = wrappedKeyBytes ∧
        wrapped.bytes.take 4 = magic ∧ wrapped.bytes[4]? = some version ∧
        cipher.decrypt credential ((wrapped.bytes.drop 5).take 24)
          (wrappingAad reference context) (wrapped.bytes.drop 29) = some material.bytes := by
  unfold unwrap
  dsimp only
  constructor
  · intro h
    split at h
    next hexternal =>
      split at h
      next => cases h
      next hformat =>
        simp only [not_or, not_not] at hformat
        obtain ⟨hlength, hmagic, hversion⟩ := hformat
        split at h
        next => cases h
        next plaintext hdecrypt =>
          split at h
          next => cases h
          next opened hmaterial =>
            obtain rfl := Except.ok.inj h
            exact ⟨hexternal, hlength, hmagic, hversion,
              hdecrypt.trans (congrArg some (fromSlice_eq_ok.mp hmaterial).symm)⟩
    next => cases h
  · rintro ⟨hexternal, hlength, hmagic, hversion, hdecrypt⟩
    rw [if_pos hexternal, if_neg (by simp [hlength, hmagic, hversion]), hdecrypt]
    dsimp only
    rw [fromSlice_eq_ok.mpr rfl]

end

/-- An opener accepts exactly what a sealer under the same credential, reference and context writes
for a data key of 32 bytes: it returns that key, whatever the nonce was. -/
theorem opens_exactly_what_is_sealed (secrets : Secrets) (cipher : Cipher) (credential : Bytes)
    (reference : SecretRef) (context : EnvelopeContext) (wrapped : WrappedSecret secrets)
    (succeeded : Bool) (material : SecretMaterial secrets) :
    (unwrap cipher credential reference context wrapped succeeded).1 = .ok material ↔
      material.bytes.length = 32 ∧ ∃ nonce,
        (wrap cipher credential reference context material (some nonce)).1 = .ok wrapped := by
  rw [unwrap_eq_ok]
  constructor
  · rintro ⟨hexternal, hlength, hmagic, hversion, hdecrypt⟩
    obtain ⟨nonce, hnonce, hframe⟩ := exists_frame hlength hmagic hversion
    rw [← hnonce] at hdecrypt
    have hencrypt := (cipher.accepts _ _ _ _ _).mp hdecrypt
    have htagged := cipher.tagged _ _ _ _ _ hencrypt
    refine ⟨?_, nonce, wrap_eq_ok.mpr ⟨hexternal, nonce, _, rfl, hencrypt, hframe⟩⟩
    rw [List.length_drop, hlength] at htagged
    have hbytes : wrappedKeyBytes = 77 := rfl
    omega
  · rintro ⟨hkey, nonce, hwrap⟩
    obtain ⟨hexternal, other, ciphertext, hsame, hencrypt, hframe⟩ := wrap_eq_ok.mp hwrap
    obtain rfl := Option.some.inj hsame
    have htagged := cipher.tagged _ _ _ _ _ hencrypt
    refine ⟨hexternal, ?_, ?_, ?_, ?_⟩
    · rw [hframe, frame_length, htagged, hkey]
      rfl
    · rw [hframe, take_frame]
    · rw [hframe, version_frame]
    · rw [hframe, nonce_frame, ciphertext_frame]
      exact (cipher.accepts _ _ _ _ _).mpr hencrypt

/-! ## One nonce, one ciphertext -/

/-- One call of a sealer. -/
structure Call (secrets : Secrets) where
  reference : SecretRef
  context : EnvelopeContext
  plaintext : SecretMaterial secrets

/-- What the calls of one sealer return. -/
def wrapAll {secrets : Secrets} (cipher : Cipher) (credential : Bytes) :
    Option Nonce → List (Call secrets) → List (Except Error (WrappedSecret secrets))
  | _, [] => []
  | state, call :: calls =>
      let (result, state') :=
        wrap cipher credential call.reference call.context call.plaintext state
      result :: wrapAll cipher credential state' calls

section

variable {secrets : Secrets} {cipher : Cipher} {credential : Bytes}

/-- A call without the nonce fails and leaves the sealer without it. -/
theorem wrap_none (reference : SecretRef) (context : EnvelopeContext)
    (plaintext : SecretMaterial secrets) :
    wrap cipher credential reference context plaintext none = (.error .wrapFailed, none) := by
  unfold wrap
  split <;> rfl

/-- A call keeps the nonce only when it fails. -/
theorem wrap_cases (reference : SecretRef) (context : EnvelopeContext)
    (plaintext : SecretMaterial secrets) (state : Option Nonce) :
    wrap cipher credential reference context plaintext state = (.error .wrapFailed, state) ∨
      (wrap cipher credential reference context plaintext state).2 = none := by
  unfold wrap
  split
  next =>
    cases state with
    | none => exact .inr rfl
    | some nonce =>
        dsimp only
        split
        next => exact .inr rfl
        next => exact .inr rfl
  next => exact .inl rfl

theorem wrapAll_none (calls : List (Call secrets)) :
    ∀ result ∈ wrapAll cipher credential none calls, result.isOk = false := by
  induction calls with
  | nil => nofun
  | cons call calls ih =>
      intro result hresult
      rw [wrapAll, wrap_none] at hresult
      rcases List.mem_cons.mp hresult with rfl | hresult
      · rfl
      · exact ih result hresult

end

/-- A sealer writes at most one ciphertext under its nonce, whatever it is asked to seal and however
often, and that one is framed with this nonce. -/
theorem sealer_seals_once (secrets : Secrets) (cipher : Cipher) (credential : Bytes)
    (nonce : Nonce) (calls : List (Call secrets)) :
    ((wrapAll cipher credential (some nonce) calls).filter Except.isOk).length ≤ 1 ∧
      ∀ wrapped, .ok wrapped ∈ wrapAll cipher credential (some nonce) calls →
        ∃ ciphertext, wrapped.bytes = frame nonce ciphertext := by
  induction calls with
  | nil => exact ⟨Nat.zero_le _, nofun⟩
  | cons call calls ih =>
      rw [wrapAll]
      rcases wrap_cases call.reference call.context call.plaintext (some nonce) with hkept | htaken
      · rw [hkept]
        refine ⟨ih.1, fun wrapped hmem => ?_⟩
        rcases List.mem_cons.mp hmem with heq | hmem
        · cases heq
        · exact ih.2 wrapped hmem
      · -- the nonce is gone, so that every later call fails
        have hlater : ((wrapAll cipher credential none calls).filter Except.isOk) = [] :=
          List.filter_eq_nil_iff.mpr fun result hresult => by
            rw [wrapAll_none calls result hresult]
            exact Bool.false_ne_true
        dsimp only
        rw [htaken]
        refine ⟨?_, fun wrapped hmem => ?_⟩
        · rw [List.filter_cons]
          split
          next =>
            rw [List.length_cons, hlater]
            exact Nat.le_refl _
          next =>
            rw [hlater]
            exact Nat.zero_le _
        · rcases List.mem_cons.mp hmem with heq | hmem
          · obtain ⟨-, other, ciphertext, hsame, -, hframe⟩ := wrap_eq_ok.mp heq.symm
            obtain rfl := Option.some.inj hsame
            exact ⟨ciphertext, hframe⟩
          · have hfails := wrapAll_none calls _ hmem
            cases hfails

/-! ## What the authenticated data bind -/

/-- The authenticated data determine the identity and the key version of the reference and the
digest of the context. -/
theorem wrappingAad_eq_iff (left right : SecretRef) (context context' : EnvelopeContext) :
    wrappingAad left context = wrappingAad right context' ↔
      left.id = right.id ∧ left.keyVersion = right.keyVersion ∧ context = context' := by
  constructor
  · intro h
    unfold wrappingAad at h
    have hwidth : ((domain "radroots.myc.wrapped_data_key.v1" ++
        Sha256.bigEndian 2 left.id.length ++ left.id ++ u32Bytes left.keyVersion)).length =
          (domain "radroots.myc.wrapped_data_key.v1" ++ Sha256.bigEndian 2 right.id.length ++
            right.id ++ u32Bytes right.keyVersion).length := by
      have hlength := congrArg List.length h
      rw [List.length_append, @List.length_append _ _ context'.authenticationDigest.bytes,
        Id32.length_bytes, Id32.length_bytes] at hlength
      exact Nat.add_right_cancel hlength
    obtain ⟨hreference, hdigest⟩ := List.append_inj h hwidth
    obtain ⟨hid, hversion⟩ := List.append_inj' hreference (by
      rw [u32Bytes, u32Bytes, length_bigEndian, length_bigEndian])
    rw [List.append_assoc, List.append_assoc] at hid
    obtain ⟨-, hid⟩ := List.append_inj (List.append_cancel_left hid) (by
      rw [length_bigEndian, length_bigEndian])
    have hnumber := bigEndian_injective hversion
    rw [Nat.mod_eq_of_lt (by simpa using left.version_bounded),
      Nat.mod_eq_of_lt (by simpa using right.version_bounded)] at hnumber
    refine ⟨hid, hnumber, ?_⟩
    cases context
    cases context'
    exact congrArg EnvelopeContext.mk (Id32.bytes_injective hdigest)
  · rintro ⟨hid, hversion, rfl⟩
    rw [wrappingAad, wrappingAad, hid, hversion]

end MycSigner.WrappedKey
