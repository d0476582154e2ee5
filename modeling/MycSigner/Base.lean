import MycSigner.Lib.Sha256
import MycSigner.Lib.Transaction

/-!
# Values shared by every table

Identifiers are 32 bytes wide and are compared as blobs, which is the order of the numbers
they spell.  A time is a positive millisecond instant that SQLite can hold; a value outside
that range cannot be built.  The error type unites the closed error enumerations of the
state modules, whose conversions keep `Binding` and `Storage` apart and add nothing.
-/

namespace MycSigner

/-- A byte string. -/
abbrev Bytes := List UInt8

/-- A 32-byte identifier or digest. -/
abbrev Id32 := BitVec 256

/-- The bytes of an identifier, most significant first. -/
def Id32.bytes (id : Id32) : Bytes := Sha256.bigEndian 32 id.toNat

/-- The bytes of an ASCII text. -/
def ascii (text : String) : Bytes := text.toUTF8.toList

/-- A domain separator: the text followed by a zero byte. -/
def domain (text : String) : Bytes := ascii text ++ [0]

def u32Bytes (n : ℕ) : Bytes := Sha256.bigEndian 4 n

def u64Bytes (n : ℕ) : Bytes := Sha256.bigEndian 8 n

/-- `update_length_prefixed`: the length as eight bytes, then the bytes. -/
def lengthPrefixed (value : Bytes) : Bytes := u64Bytes value.length ++ value

/-- The largest integer an SQLite column holds. -/
def i64Max : ℕ := 9223372036854775807

/-- Positive UTC millisecond evidence representable by SQLite. -/
structure TimeUnixMs where
  /-- The instant. -/
  get : ℕ
  pos : 0 < get
  sqlite : get ≤ i64Max
deriving DecidableEq

namespace TimeUnixMs

/-- Validates one positive UTC millisecond instant. -/
def new (value : ℕ) : Option TimeUnixMs :=
  if h : 0 < value ∧ value ≤ i64Max then some ⟨value, h.1, h.2⟩ else none

instance : LE TimeUnixMs := ⟨fun left right => left.get ≤ right.get⟩

instance : LT TimeUnixMs := ⟨fun left right => left.get < right.get⟩

instance (left right : TimeUnixMs) : Decidable (left ≤ right) :=
  inferInstanceAs (Decidable (left.get ≤ right.get))

instance (left right : TimeUnixMs) : Decidable (left < right) :=
  inferInstanceAs (Decidable (left.get < right.get))

theorem le_def {left right : TimeUnixMs} : left ≤ right ↔ left.get ≤ right.get := Iff.rfl

theorem lt_def {left right : TimeUnixMs} : left < right ↔ left.get < right.get := Iff.rfl

/-- SQLite's two-argument `MAX`. -/
def latest (left right : TimeUnixMs) : TimeUnixMs := if left ≤ right then right else left

theorem new_eq_some {value : ℕ} {t : TimeUnixMs} : new value = some t ↔ t.get = value := by
  unfold new
  split
  next h =>
    simp only [Option.some.injEq]
    constructor
    · rintro rfl
      rfl
    · rintro rfl
      rfl
  next h =>
    constructor
    · intro hn
      cases hn
    · rintro rfl
      exact absurd ⟨t.pos, t.sqlite⟩ h

theorem new_of_le {value : ℕ} (hpos : 0 < value) (hle : value ≤ i64Max) :
    new value = some ⟨value, hpos, hle⟩ := dif_pos ⟨hpos, hle⟩

theorem le_latest_left (left right : TimeUnixMs) : left ≤ latest left right := by
  unfold latest
  split
  next h => exact h
  next h => exact Nat.le_refl _

end TimeUnixMs

/-- Nonzero immutable connection-policy generation representable by SQLite. -/
structure PolicyGeneration where
  get : ℕ
  pos : 0 < get
  sqlite : get ≤ i64Max
deriving DecidableEq

/-- Lowercase-hexadecimal 32-byte public key; the text is determined by the bytes. -/
structure PublicKey where
  bytes : BitVec 256
deriving DecidableEq

/-- The canonical text of a public key, as bytes. -/
def PublicKey.asHex (key : PublicKey) : Bytes :=
  (Id32.bytes key.bytes).flatMap fun byte =>
    let digit (n : ℕ) : UInt8 := UInt8.ofNat (if n < 10 then 48 + n else 87 + n)
    [digit (byte.toNat / 16), digit (byte.toNat % 16)]

/-- `u8::is_ascii_lowercase`. -/
def isAsciiLowercase (byte : UInt8) : Bool := 97 ≤ byte && byte ≤ 122

/-- `u8::is_ascii_digit`. -/
def isAsciiDigit (byte : UInt8) : Bool := 48 ≤ byte && byte ≤ 57

/-- `u8::is_ascii_alphanumeric`. -/
def isAsciiAlphanumeric (byte : UInt8) : Bool :=
  isAsciiLowercase byte || isAsciiDigit byte || (65 ≤ byte && byte ≤ 90)

/-- Two neighbouring underscores occur. -/
def hasDoubleUnderscore : Bytes → Bool
  | first :: second :: rest =>
      (first == 95 && second == 95) || hasDoubleUnderscore (second :: rest)
  | _ => false

/-- The frozen lower-snake relay grammar. -/
def relayIdValid (bytes : Bytes) : Bool :=
  !bytes.isEmpty && bytes.length ≤ 64 &&
    bytes.head?.any isAsciiLowercase &&
    bytes.getLast?.any isAsciiAlphanumeric &&
    bytes.all (fun byte => isAsciiLowercase byte || isAsciiDigit byte || byte == 95) &&
    !hasDoubleUnderscore bytes

/-- Canonical configured relay identifier, as its UTF-8 bytes. -/
structure RelayId where
  bytes : Bytes
  valid : relayIdValid bytes = true
deriving DecidableEq

/-- `char::is_control`: the general category `Cc`. -/
def isControl (c : Char) : Bool := c.val < 0x20 || (0x7f ≤ c.val && c.val < 0xa0)

/-- `char::is_whitespace`: the property `White_Space`. -/
def isWhitespace (c : Char) : Bool :=
  (0x09 ≤ c.val && c.val ≤ 0x0d) || c.val == 0x20 || c.val == 0x85 || c.val == 0xa0 ||
    c.val == 0x1680 || (0x2000 ≤ c.val && c.val ≤ 0x200a) || c.val == 0x2028 ||
    c.val == 0x2029 || c.val == 0x202f || c.val == 0x205f || c.val == 0x3000

/-- The UTF-8 bytes of a text. -/
def utf8 (text : List Char) : Bytes := text.flatMap String.utf8EncodeChar

/-- What `MycNip46RequestId::new` accepts: a trimmed text without control characters. -/
def requestIdValid (text : List Char) : Bool :=
  !text.isEmpty && (utf8 text).length ≤ 128 &&
    !text.head?.any isWhitespace && !text.getLast?.any isWhitespace && !text.any isControl

/-- A bounded canonical NIP-46 request ID. -/
structure RequestId where
  text : List Char
  valid : requestIdValid text = true
deriving DecidableEq

/-- Validated operator-owned challenge URL, as its bytes; the URL grammar is the parser's. -/
structure ChallengeUrl where
  bytes : Bytes
  bounded : 1 ≤ bytes.length ∧ bytes.length ≤ 2048
deriving DecidableEq

/-- The closed error classes of the state transactions. -/
inductive OperationError where
  | binding
  | storage
  | conflict
  | invalidInput
  | policyConflict
  | resourceExhausted
deriving DecidableEq

end MycSigner
