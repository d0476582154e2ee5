import Mathlib.Data.Nat.Notation
import Mathlib.Algebra.Group.Nat.Defs

/-!
# SHA-256

The hash function of FIPS 180-4 on byte strings.  A 32-bit word is a natural number below
`2 ^ 32`; every addition is reduced, so no word leaves that range.  The recursion is on the
table of round constants, which keeps the function structurally recursive and evaluable.
-/

namespace Sha256

/-- The round constants. -/
def roundConstants : List ℕ := [
  0x428a2f98, 0x71374491, 0xb5c0fbcf, 0xe9b5dba5, 0x3956c25b, 0x59f111f1, 0x923f82a4, 0xab1c5ed5,
  0xd807aa98, 0x12835b01, 0x243185be, 0x550c7dc3, 0x72be5d74, 0x80deb1fe, 0x9bdc06a7, 0xc19bf174,
  0xe49b69c1, 0xefbe4786, 0x0fc19dc6, 0x240ca1cc, 0x2de92c6f, 0x4a7484aa, 0x5cb0a9dc, 0x76f988da,
  0x983e5152, 0xa831c66d, 0xb00327c8, 0xbf597fc7, 0xc6e00bf3, 0xd5a79147, 0x06ca6351, 0x14292967,
  0x27b70a85, 0x2e1b2138, 0x4d2c6dfc, 0x53380d13, 0x650a7354, 0x766a0abb, 0x81c2c92e, 0x92722c85,
  0xa2bfe8a1, 0xa81a664b, 0xc24b8b70, 0xc76c51a3, 0xd192e819, 0xd6990624, 0xf40e3585, 0x106aa070,
  0x19a4c116, 0x1e376c08, 0x2748774c, 0x34b0bcb5, 0x391c0cb3, 0x4ed8aa4a, 0x5b9cca4f, 0x682e6ff3,
  0x748f82ee, 0x78a5636f, 0x84c87814, 0x8cc70208, 0x90befffa, 0xa4506ceb, 0xbef9a3f7, 0xc67178f2]

/-- Addition of words. -/
def add (x y : ℕ) : ℕ := (x + y) % 2 ^ 32

/-- Rotation of a word to the right. -/
def rotr (n x : ℕ) : ℕ := (x >>> n) ||| ((x <<< (32 - n)) % 2 ^ 32)

def ch (x y z : ℕ) : ℕ := (x &&& y) ^^^ ((x ^^^ 0xffffffff) &&& z)

def maj (x y z : ℕ) : ℕ := (x &&& y) ^^^ (x &&& z) ^^^ (y &&& z)

def bigSigma0 (x : ℕ) : ℕ := rotr 2 x ^^^ rotr 13 x ^^^ rotr 22 x

def bigSigma1 (x : ℕ) : ℕ := rotr 6 x ^^^ rotr 11 x ^^^ rotr 25 x

def smallSigma0 (x : ℕ) : ℕ := rotr 7 x ^^^ rotr 18 x ^^^ (x >>> 3)

def smallSigma1 (x : ℕ) : ℕ := rotr 17 x ^^^ rotr 19 x ^^^ (x >>> 10)

/-- The eight working words. -/
structure Registers where
  (a b c d e f g h : ℕ)

def initial : Registers where
  a := 0x6a09e667
  b := 0xbb67ae85
  c := 0x3c6ef372
  d := 0xa54ff53a
  e := 0x510e527f
  f := 0x9b05688c
  g := 0x1f83d9ab
  h := 0x5be0cd19

/-- One round; `kw` is the round constant plus the schedule word. -/
def round (r : Registers) (kw : ℕ) : Registers :=
  let t₁ := add r.h (add (bigSigma1 r.e) (add (ch r.e r.f r.g) kw))
  let t₂ := add (bigSigma0 r.a) (maj r.a r.b r.c)
  ⟨add t₁ t₂, r.a, r.b, r.c, add r.d t₁, r.e, r.f, r.g⟩

/-- All rounds; the window holds the next sixteen schedule words, oldest first. -/
def rounds : List ℕ → List ℕ → Registers → Registers
  | k :: ks, w :: ws, r =>
      let next := add (add (smallSigma1 (ws.getD 13 0)) (ws.getD 8 0))
        (add (smallSigma0 (ws.getD 0 0)) w)
      rounds ks (ws ++ [next]) (round r (add k w))
  | _, _, r => r

def compress (r : Registers) (block : List ℕ) : Registers :=
  let t := rounds roundConstants block r
  ⟨add r.a t.a, add r.b t.b, add r.c t.c, add r.d t.d,
    add r.e t.e, add r.f t.f, add r.g t.g, add r.h t.h⟩

/-- The bytes of a number, most significant first. -/
def bigEndian : ℕ → ℕ → List UInt8
  | 0, _ => []
  | width + 1, n => UInt8.ofNat (n / 256 ^ width) :: bigEndian width n

/-- The message followed by one bit, zeros and its length in bits. -/
def pad (message : List UInt8) : List UInt8 :=
  message ++ [0x80] ++ List.replicate ((119 - message.length % 64) % 64) 0 ++
    bigEndian 8 (message.length * 8)

def words : List UInt8 → List ℕ
  | a :: b :: c :: d :: rest =>
      (((a.toNat * 256 + b.toNat) * 256 + c.toNat) * 256 + d.toNat) :: words rest
  | _ => []

def blocks : ℕ → List ℕ → List (List ℕ)
  | 0, _ => []
  | n + 1, ws => ws.take 16 :: blocks n (ws.drop 16)

def Registers.value (r : Registers) : ℕ :=
  [r.b, r.c, r.d, r.e, r.f, r.g, r.h].foldl (fun acc word => acc * 2 ^ 32 + word) r.a

/-- The digest of a byte string, as the number its 32 bytes spell. -/
def digest (message : List UInt8) : BitVec 256 :=
  let ws := words (pad message)
  BitVec.ofNat 256 ((blocks (ws.length / 16) ws).foldl compress initial).value

-- the one-block example of the standard
example : digest [0x61, 0x62, 0x63] =
    0xba7816bf8f01cfea414140de5dae2223b00361a396177a9cb410ff61f20015ad := by
  decide +kernel

end Sha256
