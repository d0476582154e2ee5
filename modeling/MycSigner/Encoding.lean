import MycSigner.Base
import Mathlib.Data.Nat.Log

/-!
# Encodings that lose nothing

The texts and the byte strings that enter a digest or an event determine the values they were
made from.
-/

namespace MycSigner

/-! ## Hexadecimal text -/

/-- The two lower-case digits of a byte. -/
def hexPair (byte : UInt8) : Bytes :=
  let digit (n : ℕ) : UInt8 := UInt8.ofNat (if n < 10 then 48 + n else 87 + n)
  [digit (byte.toNat / 16), digit (byte.toNat % 16)]

/-- `to_hex` -/
def hexText (bytes : Bytes) : Bytes := bytes.flatMap hexPair

theorem PublicKey.asHex_eq (key : PublicKey) : key.asHex = hexText (Id32.bytes key.bytes) := rfl

theorem hexPair_injective : Function.Injective hexPair := by
  intro left right h
  have hdigit : ∀ m < 16, ∀ n < 16, UInt8.ofNat (if m < 10 then 48 + m else 87 + m) =
      UInt8.ofNat (if n < 10 then 48 + n else 87 + n) → m = n := by decide
  have hleft := left.toNat_lt
  have hright := right.toNat_lt
  simp only [hexPair, List.cons.injEq, and_true] at h
  have hhigh := hdigit _ (by omega) _ (by omega) h.1
  have hlow := hdigit _ (by omega) _ (by omega) h.2
  exact UInt8.toNat_inj.mp (by omega)

theorem hexText_injective : Function.Injective hexText := by
  intro left
  induction left with
  | nil =>
      intro right h
      cases right with
      | nil => rfl
      | cons byte rest => simp [hexText, hexPair] at h
  | cons byte rest ih =>
      intro right h
      cases right with
      | nil => simp [hexText, hexPair] at h
      | cons other others =>
          simp only [hexText, List.flatMap_cons] at h
          obtain ⟨hpair, hrest⟩ := List.append_inj h rfl
          rw [hexPair_injective hpair, ih hrest]

/-- Bytes of a fixed width determine the number they spell. -/
theorem bigEndian_injective {width left right : ℕ}
    (h : Sha256.bigEndian width left = Sha256.bigEndian width right) :
    left % 256 ^ width = right % 256 ^ width := by
  induction width with
  | zero => simp [Nat.mod_one]
  | succ width ih =>
      obtain ⟨hhead, htail⟩ := List.cons.inj h
      have hbyte : left / 256 ^ width % 256 = right / 256 ^ width % 256 := by
        simpa using congrArg UInt8.toNat hhead
      rw [Nat.mod_pow_succ, Nat.mod_pow_succ, hbyte, ih htail]

/-- Two keys with one text are one key. -/
theorem PublicKey.asHex_injective : Function.Injective PublicKey.asHex := by
  intro left right h
  rw [PublicKey.asHex_eq, PublicKey.asHex_eq] at h
  have hnumber := bigEndian_injective (hexText_injective h)
  have hwidth : 2 ^ 256 ≤ 256 ^ 32 := by decide +kernel
  rw [Nat.mod_eq_of_lt (Nat.lt_of_lt_of_le left.bytes.isLt hwidth),
    Nat.mod_eq_of_lt (Nat.lt_of_lt_of_le right.bytes.isLt hwidth)] at hnumber
  cases left
  cases right
  exact congrArg PublicKey.mk (BitVec.eq_of_toNat_eq hnumber)

/-! ## Fixed and prefixed widths -/

theorem length_bigEndian (width n : ℕ) : (Sha256.bigEndian width n).length = width := by
  induction width with
  | zero => rfl
  | succ width ih => simp [Sha256.bigEndian, ih]

theorem Id32.length_bytes (id : Id32) : (Id32.bytes id).length = 32 := length_bigEndian ..

theorem Id32.bytes_injective : Function.Injective Id32.bytes := by
  intro left right h
  have hnumber := bigEndian_injective h
  have hwidth : 2 ^ 256 ≤ 256 ^ 32 := by decide +kernel
  rw [Nat.mod_eq_of_lt (Nat.lt_of_lt_of_le left.isLt hwidth),
    Nat.mod_eq_of_lt (Nat.lt_of_lt_of_le right.isLt hwidth)] at hnumber
  exact BitVec.eq_of_toNat_eq hnumber

theorem length_hexText (bytes : Bytes) : (hexText bytes).length = 2 * bytes.length := by
  induction bytes with
  | nil => rfl
  | cons byte rest ih =>
      rw [hexText, List.flatMap_cons, List.length_append, List.length_cons]
      change 2 + (hexText rest).length = _
      omega

theorem PublicKey.length_asHex (key : PublicKey) : key.asHex.length = 64 := by
  rw [PublicKey.asHex_eq, length_hexText, Id32.length_bytes]

/-- The prefix has a fixed width, so that it can be split off. -/
theorem lengthPrefixed_injective : Function.Injective lengthPrefixed := by
  intro left right h
  have hwidth : (u64Bytes left.length).length = (u64Bytes right.length).length := by
    rw [u64Bytes, u64Bytes, length_bigEndian, length_bigEndian]
  exact (List.append_inj h hwidth).2

/-- A prefixed field can be split off from what follows it. -/
theorem lengthPrefixed_append_injective {left right rest rest' : Bytes}
    (hleft : left.length < 2 ^ 64) (hright : right.length < 2 ^ 64)
    (h : lengthPrefixed left ++ rest = lengthPrefixed right ++ rest') :
    left = right ∧ rest = rest' := by
  rw [lengthPrefixed, lengthPrefixed, List.append_assoc, List.append_assoc] at h
  have hwidth : (u64Bytes left.length).length = (u64Bytes right.length).length := by
    rw [u64Bytes, u64Bytes, length_bigEndian, length_bigEndian]
  obtain ⟨hinitial, hbytes⟩ := List.append_inj h hwidth
  have hlength := bigEndian_injective hinitial
  rw [Nat.mod_eq_of_lt (by simpa using hleft), Nat.mod_eq_of_lt (by simpa using hright)] at hlength
  exact List.append_inj hbytes hlength

/-! ## UTF-8 -/

theorem utf8_injective : Function.Injective utf8 := by
  intro left right h
  have hencode : left.utf8Encode = right.utf8Encode := congrArg List.toByteArray h
  refine String.ofList_injective (String.toByteArray_inj.mp ?_)
  rw [String.toByteArray_ofList, String.toByteArray_ofList, hencode]

/-! ## Digests -/

/-- No two of these byte strings have the same digest. -/
def CollisionFree (inputs : List Bytes) : Prop :=
  ∀ left ∈ inputs, ∀ right ∈ inputs, Sha256.digest left = Sha256.digest right → left = right

instance (inputs : List Bytes) : Decidable (CollisionFree inputs) :=
  inferInstanceAs (Decidable (∀ left ∈ inputs, ∀ right ∈ inputs, _ → left = right))

theorem CollisionFree.mono {inputs more : List Bytes} (h : CollisionFree more)
    (hsub : inputs ⊆ more) : CollisionFree inputs :=
  fun left hleft right hright => h left (hsub hleft) right (hsub hright)

end MycSigner
