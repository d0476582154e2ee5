import MycSigner.Dispatch.Verification
import MycSigner.Providers.Verification

/-!
# Two verifiers of ciphertexts

A ciphertext is checked where it comes in with an event and again where it goes to a provider or
comes from one.  The two checks are written apart and accept the same texts; where the length of
the plaintext is known, the second asks for more.  The lengths that the padding of NIP-44 gives
are exactly the ones that both accept.
-/

namespace MycSigner

/-! ## Powers of two -/

open private Nat.nextPowerOfTwo.go from Init.Data.Nat.Power2.Basic

/-- The search for a power of two from one that is not too large. -/
theorem nextPowerOfTwo_go {n k : ℕ} (h : k ≤ Nat.clog 2 n) (hpos : 2 ^ k > 0) :
    Nat.nextPowerOfTwo.go n (2 ^ k) hpos = 2 ^ Nat.clog 2 n := by
  induction hsteps : Nat.clog 2 n - k generalizing k with
  | zero =>
      obtain rfl : k = Nat.clog 2 n := by omega
      rw [Nat.nextPowerOfTwo.go, if_neg (Nat.not_lt.mpr (Nat.le_pow_clog (by decide) n))]
  | succ steps ih =>
      have hbelow : 2 ^ k < n := Nat.pow_lt_of_lt_clog (by omega)
      rw [Nat.nextPowerOfTwo.go, if_pos hbelow]
      exact ih (k := k + 1) (by omega) (Nat.pow_pos (by decide)) (by omega)

theorem nextPowerOfTwo_eq (n : ℕ) : Nat.nextPowerOfTwo n = 2 ^ Nat.clog 2 n :=
  nextPowerOfTwo_go (k := 0) (Nat.zero_le _) (by decide)

/-! ## Padding -/

/-- The least multiple of a chunk that is not below a number. -/
def roundUp (chunk n : ℕ) : ℕ := chunk * ((n - 1) / chunk + 1)

section

variable {chunk n m : ℕ}

theorem dvd_roundUp : chunk ∣ roundUp chunk n := ⟨_, rfl⟩

theorem le_roundUp (hchunk : 0 < chunk) (hn : 0 < n) : n ≤ roundUp chunk n := by
  have hlt : n - 1 < chunk * ((n - 1) / chunk + 1) := Nat.lt_mul_div_succ (n - 1) hchunk
  unfold roundUp
  omega

theorem roundUp_le (hn : 0 < n) (hdvd : chunk ∣ m) (hle : n ≤ m) :
    roundUp chunk n ≤ m := by
  obtain ⟨q, rfl⟩ := hdvd
  refine Nat.mul_le_mul_left chunk ?_
  refine Nat.succ_le_of_lt (Nat.div_lt_of_lt_mul ?_)
  omega

theorem roundUp_mono (h : n ≤ m) : roundUp chunk n ≤ roundUp chunk m :=
  Nat.mul_le_mul_left chunk (Nat.succ_le_succ (Nat.div_le_div_right (by omega)))

theorem roundUp_eq_self (hchunk : 0 < chunk) (hn : 0 < n) (hdvd : chunk ∣ n) :
    roundUp chunk n = n :=
  Nat.le_antisymm (roundUp_le hn hdvd (Nat.le_refl n)) (le_roundUp hchunk hn)

end

/-- The width of the chunks below a power of two. -/
def paddingChunk (k : ℕ) : ℕ := if 2 ^ k ≤ 256 then 32 else 2 ^ k / 8

theorem paddingChunk_pos (k : ℕ) : 0 < paddingChunk k := by
  unfold paddingChunk
  split <;> omega

/-- A chunk divides the power above the numbers that it pads and the power below them. -/
theorem paddingChunk_dvd {k : ℕ} (hk : 6 ≤ k) :
    paddingChunk k ∣ 2 ^ k ∧ paddingChunk k ∣ 2 ^ (k - 1) := by
  obtain ⟨j, rfl⟩ : ∃ j, k = j + 6 := ⟨k - 6, by omega⟩
  unfold paddingChunk
  split
  next hsmall =>
    have hj : j ≤ 2 := by
      by_contra hlarge
      have hpow : 2 ^ 9 ≤ 2 ^ (j + 6) := Nat.pow_le_pow_right (by decide) (by omega)
      omega
    rcases (by omega : j = 0 ∨ j = 1 ∨ j = 2) with rfl | rfl | rfl <;> decide
  next =>
    have hchunk : 2 ^ (j + 6) / 8 = 2 ^ (j + 3) := by
      rw [show (8 : ℕ) = 2 ^ 3 from rfl, Nat.pow_div (by omega) (by decide),
        Nat.add_sub_assoc (by decide)]
    rw [hchunk]
    exact ⟨Nat.pow_dvd_pow 2 (by omega), Nat.pow_dvd_pow 2 (by omega)⟩

namespace Provider

/-- The padding of a length between two powers of two. -/
theorem nip44PaddingLength_eq {length : ℕ} (h : 32 < length)
    (hmax : length ≤ providerNip44PlaintextMaxBytes) :
    nip44PaddingLength length = some (roundUp (paddingChunk (Nat.clog 2 length)) length) := by
  unfold nip44PaddingLength
  rw [if_neg (by omega), if_neg (by omega)]
  rfl

theorem six_le_clog {length : ℕ} (h : 32 < length) : 6 ≤ Nat.clog 2 length :=
  (Nat.lt_clog_iff_pow_lt (by decide)).mpr h

/-- A padded length stands between the length and the next power of two. -/
theorem roundUp_bounds {length : ℕ} (h : 32 < length) :
    length ≤ roundUp (paddingChunk (Nat.clog 2 length)) length ∧
      roundUp (paddingChunk (Nat.clog 2 length)) length ≤ 2 ^ Nat.clog 2 length :=
  ⟨le_roundUp (paddingChunk_pos _) (by omega),
    roundUp_le (by omega) (paddingChunk_dvd (six_le_clog h)).1 (Nat.le_pow_clog (by decide) _)⟩

/-- Padding does not cross a power of two. -/
theorem clog_roundUp {length : ℕ} (h : 32 < length) :
    Nat.clog 2 (roundUp (paddingChunk (Nat.clog 2 length)) length) = Nat.clog 2 length := by
  obtain ⟨hle, hpow⟩ := roundUp_bounds h
  exact Nat.le_antisymm (Nat.clog_le_of_le_pow hpow) (Nat.clog_mono_right 2 hle)

theorem pow_clog_le_iff {n : ℕ} : 2 ^ Nat.clog 2 n ≤ 256 ↔ n ≤ 256 := by
  rw [show (256 : ℕ) = 2 ^ 8 from rfl, Nat.pow_le_pow_iff_right (by decide),
    Nat.clog_le_iff_le_pow (by decide)]

/-- What the checks of a padded length ask for. -/
theorem isValidNip44PaddingLength_iff {padded : ℕ} :
    isValidNip44PaddingLength padded = true ↔
      (32 ≤ padded ∧ padded ≤ 65536) ∧ paddingChunk (Nat.clog 2 padded) ∣ padded := by
  unfold isValidNip44PaddingLength paddingChunk
  simp only [pow_clog_le_iff]
  split
  next hrange =>
    constructor
    · intro hfalse
      cases hfalse
    · rintro ⟨hbounds, -⟩
      omega
  next hrange =>
    have hbounds : 32 ≤ padded ∧ padded ≤ 65536 := by omega
    split <;> simp only [decide_eq_true_eq, Nat.dvd_iff_mod_eq_zero, hbounds, and_self, true_and]

/-- The padding of a plaintext length. -/
structure PadsTo (length padded : ℕ) : Prop where
  padding : nip44PaddingLength length = some padded
  valid : isValidNip44PaddingLength padded = true
  le : length ≤ padded

/-- Every plaintext length has a padding, which both verifiers accept. -/
theorem exists_padsTo {length : ℕ} (hpos : 1 ≤ length)
    (hmax : length ≤ providerNip44PlaintextMaxBytes) : ∃ padded, PadsTo length padded := by
  by_cases hsmall : length ≤ 32
  · refine ⟨32, ?_, by decide, hsmall⟩
    unfold nip44PaddingLength
    rw [if_neg (by omega), if_pos hsmall]
  · have hlarge : 32 < length := Nat.lt_of_not_le hsmall
    obtain ⟨hle, hpow⟩ := roundUp_bounds hlarge
    refine ⟨_, nip44PaddingLength_eq hlarge hmax, ?_, hle⟩
    have hclog : Nat.clog 2 length ≤ 16 := Nat.clog_le_of_le_pow (by
      unfold providerNip44PlaintextMaxBytes at hmax
      omega)
    have htop : 2 ^ Nat.clog 2 length ≤ 2 ^ 16 := Nat.pow_le_pow_right (by decide) hclog
    rw [isValidNip44PaddingLength_iff, clog_roundUp hlarge]
    exact ⟨⟨by omega, by omega⟩, dvd_roundUp⟩

/-- Every accepted length is the padding of a plaintext length. -/
theorem exists_length_of_valid {padded : ℕ} (h : isValidNip44PaddingLength padded = true) :
    ∃ length, (1 ≤ length ∧ length ≤ providerNip44PlaintextMaxBytes) ∧
      nip44PaddingLength length = some padded := by
  obtain ⟨⟨hlow, hhigh⟩, hdvd⟩ := isValidNip44PaddingLength_iff.mp h
  by_cases hplain : padded ≤ providerNip44PlaintextMaxBytes
  · refine ⟨padded, ⟨by omega, hplain⟩, ?_⟩
    rcases Nat.eq_or_lt_of_le hlow with rfl | hlarge
    · decide
    · rw [nip44PaddingLength_eq hlarge hplain,
        roundUp_eq_self (paddingChunk_pos _) (by omega) hdvd]
  · -- Above the longest plaintext only the power of two itself is a multiple of the chunk.
    unfold providerNip44PlaintextMaxBytes at hplain
    have hclog : Nat.clog 2 padded = 16 :=
      Nat.le_antisymm (Nat.clog_le_of_le_pow hhigh)
        ((Nat.lt_clog_iff_pow_lt (by decide)).mpr (by omega))
    rw [hclog] at hdvd
    obtain ⟨q, hq⟩ := hdvd
    have hchunk : paddingChunk 16 = 8192 := by decide
    rw [hchunk] at hq
    obtain rfl : padded = 65536 := by omega
    refine ⟨65408, by decide, ?_⟩
    have hlast : Nat.clog 2 65408 = 16 :=
      Nat.le_antisymm (Nat.clog_le_of_le_pow (by decide))
        ((Nat.lt_clog_iff_pow_lt (by decide)).mpr (by decide))
    rw [nip44PaddingLength_eq (by decide) (by decide), hlast, hchunk]
    decide

/-- Longer plaintexts are not padded to less. -/
theorem padding_mono {length length' padded padded' : ℕ} (hle : length ≤ length')
    (h : nip44PaddingLength length = some padded)
    (h' : nip44PaddingLength length' = some padded') : padded ≤ padded' := by
  have hrange : ∀ {n m : ℕ}, nip44PaddingLength n = some m →
      1 ≤ n ∧ n ≤ providerNip44PlaintextMaxBytes := by
    intro n m hsome
    unfold nip44PaddingLength at hsome
    split at hsome
    next => cases hsome
    next hbounds => omega
  obtain ⟨hpos, hmax⟩ := hrange h
  obtain ⟨hpos', hmax'⟩ := hrange h'
  obtain ⟨_, hpads'⟩ := exists_padsTo hpos' hmax'
  obtain rfl := Option.some.inj (h'.symm.trans hpads'.padding)
  have hvalid := (isValidNip44PaddingLength_iff.mp hpads'.valid).1
  by_cases hsmall : length ≤ 32
  · unfold nip44PaddingLength at h
    rw [if_neg (by omega), if_pos hsmall] at h
    obtain rfl := Option.some.inj h
    exact hvalid.1
  · have hlarge : 32 < length := Nat.lt_of_not_le hsmall
    rw [nip44PaddingLength_eq hlarge hmax] at h
    rw [nip44PaddingLength_eq (by omega) hmax'] at h'
    obtain rfl := Option.some.inj h
    obtain rfl := Option.some.inj h'
    rcases Nat.eq_or_lt_of_le (Nat.clog_mono_right 2 hle) with hsame | hless
    · rw [hsame]
      exact roundUp_mono hle
    · have hpow := (roundUp_bounds hlarge).2
      have hbelow : 2 ^ Nat.clog 2 length < length' := Nat.pow_lt_of_lt_clog hless
      have hpads := hpads'.le
      omega

end Provider

/-! ## The verifiers -/

/-- `decode_canonical_base64`, without its error. -/
def VerificationLibrary.canonicalBase64 (lib : VerificationLibrary) (text : Bytes) :
    Option Bytes := do
  let decoded ← lib.decodeBase64 text
  guard (lib.encodeBase64 decoded = text)
  return decoded

/-- The provider's verifier reads base64 with the same library. -/
def Provider.Library.withBase64 (library : Provider.Library) (lib : VerificationLibrary) :
    Provider.Library :=
  { library with base64 := lib.canonicalBase64 }

/-- `verify_nip04_envelope` -/
def verifyNip04EnvelopeText (lib : VerificationLibrary) (ciphertext : Bytes) :
    Except VerificationError Unit := do
  let (encrypted, iv) ← Except.ofOption .invalidNip04Envelope
    (splitOnce (ascii "?iv=") ciphertext)
  verifyNip04Envelope lib encrypted iv

/-- A verifier lets a text through. -/
def Accepts {ε α : Type} (outcome : Except ε α) : Prop := ∃ a, outcome = .ok a

theorem decodeCanonicalBase64_eq_ok {lib : VerificationLibrary} {text decoded : Bytes}
    {e : VerificationError} :
    decodeCanonicalBase64 lib text e = .ok decoded ↔ lib.canonicalBase64 text = some decoded := by
  unfold decodeCanonicalBase64 VerificationLibrary.canonicalBase64
  cases lib.decodeBase64 text with
  | none => simp [Except.ofOption, Except.bind_eq_ok_iff]
  | some found =>
      by_cases hcanonical : lib.encodeBase64 found = text
      · simp [Except.ofOption, Except.require, hcanonical, Except.bind_eq_ok_iff, pure, Except.pure,
          guard]
      · simp [Except.ofOption, Except.require, hcanonical, Except.bind_eq_ok_iff, guard]

/-- What an envelope of NIP-04 is. -/
structure Nip04Text (lib : VerificationLibrary) (text encrypted iv ciphertext vector : Bytes) :
    Prop where
  split : splitOnce (ascii "?iv=") text = some (encrypted, iv)
  parts : encrypted ≠ [] ∧ iv ≠ [] ∧ splitOnce (ascii "?iv=") iv = none
  ciphertext_eq : lib.canonicalBase64 encrypted = some ciphertext
  vector_eq : lib.canonicalBase64 iv = some vector
  blocks : ciphertext ≠ [] ∧ ciphertext.length % 16 = 0 ∧ vector.length = 16

theorem accepts_nip04Envelope {lib : VerificationLibrary} {text : Bytes} :
    Accepts (verifyNip04EnvelopeText lib text) ↔
      ∃ encrypted iv ciphertext vector, Nip04Text lib text encrypted iv ciphertext vector := by
  unfold Accepts verifyNip04EnvelopeText verifyNip04Envelope
  simp only [Except.bind_eq_ok_iff, Except.ofOption_eq_ok, Except.require_eq_ok,
    decodeCanonicalBase64_eq_ok]
  constructor
  · rintro ⟨-, ⟨encrypted, iv⟩, hsplit, -, hparts, ciphertext, hciphertext, vector, hvector, hblocks⟩
    exact ⟨encrypted, iv, ciphertext, vector, hsplit, hparts, hciphertext, hvector, hblocks⟩
  · rintro ⟨encrypted, iv, ciphertext, vector, hsplit, hparts, hciphertext, hvector, hblocks⟩
    exact ⟨(), (encrypted, iv), hsplit, (), hparts, ciphertext, hciphertext, vector, hvector,
      hblocks⟩

/-- The provider's verifier of NIP-04: the same envelope, of the length of the plaintext. -/
theorem accepts_nip04Ciphertext {lib : VerificationLibrary} {library : Provider.Library}
    {text : Bytes} {plaintextLength : Option ℕ} :
    Accepts (Provider.verifyNip04Ciphertext (library.withBase64 lib) text plaintextLength) ↔
      ∃ encrypted iv ciphertext vector, Nip04Text lib text encrypted iv ciphertext vector ∧
        ∀ length ∈ plaintextLength, ciphertext.length = (length / 16 + 1) * 16 := by
  unfold Accepts Provider.verifyNip04Ciphertext
  simp only [Except.bind_eq_ok_iff, Except.ofOption_eq_ok, Except.require_eq_ok]
  constructor
  · rintro ⟨found, ⟨encrypted, iv⟩, hsplit, -, hparts, ciphertext, hciphertext, vector, hvector, -,
      ⟨hiv, hne, hblocks⟩, hlength⟩
    refine ⟨encrypted, iv, ciphertext, vector,
      ⟨hsplit, hparts, hciphertext, hvector, hne, hblocks, hiv⟩, ?_⟩
    rintro length rfl
    obtain ⟨_, hexact, -⟩ := Except.bind_eq_ok_iff.mp hlength
    exact Except.require_eq_ok.mp hexact
  · rintro ⟨encrypted, iv, ciphertext, vector,
      ⟨hsplit, hparts, hciphertext, hvector, hne, hblocks, hiv⟩, hlength⟩
    refine ⟨ciphertext.length, (encrypted, iv), hsplit, (), hparts, ciphertext, hciphertext, vector,
      hvector, (), ⟨hiv, hne, hblocks⟩, ?_⟩
    cases plaintextLength with
    | none => rfl
    | some length =>
        exact Except.bind_eq_ok_iff.mpr ⟨(), Except.require_eq_ok.mpr (hlength length rfl), rfl⟩

theorem isValidNip44PaddingLength_eq (padded : ℕ) :
    isValidNip44PaddingLength padded = Provider.isValidNip44PaddingLength padded := by
  unfold isValidNip44PaddingLength Provider.isValidNip44PaddingLength
  rw [nextPowerOfTwo_eq]
  by_cases hrange : padded < 32 ∨ 65536 < padded
  · rw [if_pos hrange, Bool.and_eq_false_iff, Bool.and_eq_false_iff]
    simp only [decide_eq_false_iff_not]
    omega
  · have hbounds : (decide (32 ≤ padded) && decide (padded ≤ 65536)) = true := by
      simp only [Bool.and_eq_true, decide_eq_true_eq]
      omega
    rw [if_neg hrange, hbounds, Bool.true_and]
    split <;> rfl

theorem accepts_nip44Envelope {lib : VerificationLibrary} {text : Bytes} :
    Accepts (verifyNip44Envelope lib text) ↔
      ∃ decoded, lib.canonicalBase64 text = some decoded ∧ decoded.head? = some 2 ∧
        67 ≤ decoded.length ∧ Provider.isValidNip44PaddingLength (decoded.length - 67) = true := by
  unfold Accepts verifyNip44Envelope
  simp only [Except.bind_eq_ok_iff, Except.require_eq_ok, decodeCanonicalBase64_eq_ok,
    isValidNip44PaddingLength_eq]
  constructor
  · rintro ⟨-, decoded, hdecoded, -, hversion, hlength, hvalid⟩
    exact ⟨decoded, hdecoded, hversion, hlength, hvalid⟩
  · rintro ⟨decoded, hdecoded, hversion, hlength, hvalid⟩
    exact ⟨(), decoded, hdecoded, (), hversion, hlength, hvalid⟩

/-- The provider's verifier of NIP-44: the same envelope, of the padding of the plaintext. -/
theorem accepts_nip44Ciphertext {lib : VerificationLibrary} {library : Provider.Library}
    {text : Bytes} {plaintextLength : Option ℕ} :
    Accepts (Provider.verifyNip44Ciphertext (library.withBase64 lib) text plaintextLength) ↔
      ∃ decoded, lib.canonicalBase64 text = some decoded ∧ decoded.head? = some 2 ∧
        99 ≤ decoded.length ∧
        match plaintextLength with
        | some length => ∃ padded, Provider.nip44PaddingLength length = some padded ∧
            decoded.length = 67 + padded
        | none => Provider.isValidNip44PaddingLength (decoded.length - 67) = true := by
  unfold Accepts Provider.verifyNip44Ciphertext
  cases plaintextLength with
  | none =>
      simp only [Except.bind_eq_ok_iff, Except.ofOption_eq_ok, Except.require_eq_ok]
      constructor
      · rintro ⟨-, decoded, hdecoded, -, ⟨hversion, hlength⟩, -, hvalid, -⟩
        exact ⟨decoded, hdecoded, hversion, hlength, hvalid⟩
      · rintro ⟨decoded, hdecoded, hversion, hlength, hvalid⟩
        exact ⟨_, decoded, hdecoded, (), ⟨hversion, hlength⟩, (), hvalid, rfl⟩
  | some length =>
      simp only [Except.bind_eq_ok_iff, Except.ofOption_eq_ok, Except.require_eq_ok]
      constructor
      · rintro ⟨-, decoded, hdecoded, -, ⟨hversion, hlength⟩, padded, hpadded, -, hexact, -⟩
        exact ⟨decoded, hdecoded, hversion, hlength, padded, hpadded, hexact⟩
      · rintro ⟨decoded, hdecoded, hversion, hlength, padded, hpadded, hexact⟩
        exact ⟨_, decoded, hdecoded, (), ⟨hversion, hlength⟩, padded, hpadded, (), hexact, rfl⟩

/-- The verifiers of NIP-04 and of NIP-44 accept the same texts, and fewer where the length of
the plaintext is known.  The paddings of the plaintext lengths are the accepted padded lengths,
and they are monotone and not below the plaintext. -/
theorem ciphertext_verifiers_agree (lib : VerificationLibrary) (library : Provider.Library) :
    let provider := library.withBase64 lib
    (∀ text, Accepts (verifyNip04EnvelopeText lib text) ↔
      Accepts (Provider.verifyNip04Ciphertext provider text none)) ∧
    (∀ text, Accepts (verifyNip44Envelope lib text) ↔
      Accepts (Provider.verifyNip44Ciphertext provider text none)) ∧
    (∀ text length, Accepts (Provider.verifyNip04Ciphertext provider text (some length)) →
      Accepts (verifyNip04EnvelopeText lib text)) ∧
    (∀ text length, Accepts (Provider.verifyNip44Ciphertext provider text (some length)) →
      Accepts (verifyNip44Envelope lib text)) ∧
    (∀ length, 1 ≤ length → length ≤ 65408 → ∃ padded,
      Provider.nip44PaddingLength length = some padded ∧ length ≤ padded ∧
        Provider.isValidNip44PaddingLength padded = true ∧
        isValidNip44PaddingLength padded = true) ∧
    (∀ padded, Provider.isValidNip44PaddingLength padded = true ∨
      isValidNip44PaddingLength padded = true → ∃ length, (1 ≤ length ∧ length ≤ 65408) ∧
        Provider.nip44PaddingLength length = some padded) ∧
    (∀ length length' padded padded', length ≤ length' →
      Provider.nip44PaddingLength length = some padded →
      Provider.nip44PaddingLength length' = some padded' → padded ≤ padded') := by
  intro provider
  have hvalid44 : ∀ text length,
      Accepts (Provider.verifyNip44Ciphertext provider text (some length)) →
        Accepts (verifyNip44Envelope lib text) := by
    intro text length haccepts
    obtain ⟨decoded, hdecoded, hversion, hlength, padded, hpadded, hexact⟩ :=
      accepts_nip44Ciphertext.mp haccepts
    obtain ⟨plain, hplain⟩ : ∃ plain, Provider.PadsTo plain padded := by
      have hrange : 1 ≤ length ∧ length ≤ providerNip44PlaintextMaxBytes := by
        unfold Provider.nip44PaddingLength at hpadded
        split at hpadded
        next => cases hpadded
        next hbounds => omega
      obtain ⟨found, hfound⟩ := Provider.exists_padsTo hrange.1 hrange.2
      obtain rfl := Option.some.inj (hpadded.symm.trans hfound.padding)
      exact ⟨length, hfound⟩
    refine accepts_nip44Envelope.mpr ⟨decoded, hdecoded, hversion, by omega, ?_⟩
    rw [hexact, Nat.add_sub_cancel_left]
    exact hplain.valid
  refine ⟨fun text => ?_, fun text => ?_, fun text length haccepts => ?_, hvalid44,
    fun length hpos hmax => ?_, fun padded hpadded => ?_,
    fun length length' padded padded' hle h h' => Provider.padding_mono hle h h'⟩
  · rw [accepts_nip04Envelope, accepts_nip04Ciphertext]
    simp
  · rw [accepts_nip44Envelope, accepts_nip44Ciphertext]
    refine exists_congr fun decoded => and_congr_right fun _ => and_congr_right fun _ => ?_
    constructor
    · rintro ⟨hlength, hpadding⟩
      have hlow := (Provider.isValidNip44PaddingLength_iff.mp hpadding).1
      exact ⟨by omega, hpadding⟩
    · rintro ⟨hlength, hpadding⟩
      exact ⟨by omega, hpadding⟩
  · obtain ⟨encrypted, iv, ciphertext, vector, htext, -⟩ := accepts_nip04Ciphertext.mp haccepts
    exact accepts_nip04Envelope.mpr ⟨encrypted, iv, ciphertext, vector, htext⟩
  · obtain ⟨padded, hpads⟩ := Provider.exists_padsTo hpos hmax
    exact ⟨padded, hpads.padding, hpads.le, hpads.valid,
      (isValidNip44PaddingLength_eq padded).trans hpads.valid⟩
  · rw [isValidNip44PaddingLength_eq, or_self] at hpadded
    exact Provider.exists_length_of_valid hpadded

end MycSigner
