/-
SHA-256 on byte lists, and HMAC over it: `hashlib.sha256` and `hmac.new` as
functions that compute. The message schedule is kept as its last sixteen
words. Of the values, only the widths are used later.
-/
import Mathlib.Tactic.Common

namespace Sha256

abbrev Word := BitVec 32

/-- The round constants. -/
def k : List Word := [
  0x428a2f98, 0x71374491, 0xb5c0fbcf, 0xe9b5dba5, 0x3956c25b, 0x59f111f1, 0x923f82a4, 0xab1c5ed5,
  0xd807aa98, 0x12835b01, 0x243185be, 0x550c7dc3, 0x72be5d74, 0x80deb1fe, 0x9bdc06a7, 0xc19bf174,
  0xe49b69c1, 0xefbe4786, 0x0fc19dc6, 0x240ca1cc, 0x2de92c6f, 0x4a7484aa, 0x5cb0a9dc, 0x76f988da,
  0x983e5152, 0xa831c66d, 0xb00327c8, 0xbf597fc7, 0xc6e00bf3, 0xd5a79147, 0x06ca6351, 0x14292967,
  0x27b70a85, 0x2e1b2138, 0x4d2c6dfc, 0x53380d13, 0x650a7354, 0x766a0abb, 0x81c2c92e, 0x92722c85,
  0xa2bfe8a1, 0xa81a664b, 0xc24b8b70, 0xc76c51a3, 0xd192e819, 0xd6990624, 0xf40e3585, 0x106aa070,
  0x19a4c116, 0x1e376c08, 0x2748774c, 0x34b0bcb5, 0x391c0cb3, 0x4ed8aa4a, 0x5b9cca4f, 0x682e6ff3,
  0x748f82ee, 0x78a5636f, 0x84c87814, 0x8cc70208, 0x90befffa, 0xa4506ceb, 0xbef9a3f7, 0xc67178f2]

structure State where
  (a b c d e f g h : Word)

def initial : State :=
  ⟨0x6a09e667, 0xbb67ae85, 0x3c6ef372, 0xa54ff53a, 0x510e527f, 0x9b05688c, 0x1f83d9ab, 0x5be0cd19⟩

def State.add (s t : State) : State :=
  ⟨s.a + t.a, s.b + t.b, s.c + t.c, s.d + t.d, s.e + t.e, s.f + t.f, s.g + t.g, s.h + t.h⟩

/-- One round, with the constant and the schedule word already added up. -/
def round (s : State) (kw : Word) : State :=
  let t₁ := s.h + (s.e.rotateRight 6 ^^^ s.e.rotateRight 11 ^^^ s.e.rotateRight 25) +
    ((s.e &&& s.f) ^^^ (~~~s.e &&& s.g)) + kw
  let t₂ := (s.a.rotateRight 2 ^^^ s.a.rotateRight 13 ^^^ s.a.rotateRight 22) +
    ((s.a &&& s.b) ^^^ (s.a &&& s.c) ^^^ (s.b &&& s.c))
  ⟨t₁ + t₂, s.a, s.b, s.c, s.d + t₁, s.e, s.f, s.g⟩

/-- The next word of the schedule, from the sixteen before it. -/
def nextWord (w₀ w₁ w₉ w₁₄ : Word) : Word :=
  w₀ + (w₁.rotateRight 7 ^^^ w₁.rotateRight 18 ^^^ (w₁ >>> 3)) + w₉ +
    (w₁₄.rotateRight 17 ^^^ w₁₄.rotateRight 19 ^^^ (w₁₄ >>> 10))

def rounds : List Word → List Word → State → State
  | k :: ks, [w₀, w₁, w₂, w₃, w₄, w₅, w₆, w₇, w₈, w₉, w₁₀, w₁₁, w₁₂, w₁₃, w₁₄, w₁₅], s =>
    rounds ks [w₁, w₂, w₃, w₄, w₅, w₆, w₇, w₈, w₉, w₁₀, w₁₁, w₁₂, w₁₃, w₁₄, w₁₅, nextWord w₀ w₁ w₉ w₁₄]
      (round s (k + w₀))
  | _, _, s => s

/-- Big-endian words. -/
def words : List UInt8 → List Word
  | a :: b :: c :: d :: bs =>
    BitVec.ofNat 32 (((a.toNat * 256 + b.toNat) * 256 + c.toNat) * 256 + d.toNat) :: words bs
  | _ => []

def blocks : Nat → List UInt8 → State → State
  | 0, _, s => s
  | n + 1, bs, s => blocks n (bs.drop 64) (s.add (rounds k (words (bs.take 64)) s))

/-- The last `n` bytes of `x`, the highest first. -/
def bigEndian : Nat → Nat → List UInt8
  | 0, _ => []
  | n + 1, x => bigEndian n (x / 256) ++ [(x % 256).toUInt8]

/-- The message, a one bit, zeros, and its length in bits, to whole blocks. -/
def pad (bs : List UInt8) : List UInt8 :=
  bs ++ 0x80 :: (List.replicate ((119 - bs.length % 64) % 64) 0 ++ bigEndian 8 (8 * bs.length))

def State.bytes (s : State) : List UInt8 :=
  [s.a, s.b, s.c, s.d, s.e, s.f, s.g, s.h].flatMap fun w => bigEndian 4 w.toNat

def digest (bs : List UInt8) : List UInt8 := (blocks ((pad bs).length / 64) (pad bs) initial).bytes

theorem bigEndian_length : ∀ n x, (bigEndian n x).length = n
  | 0, _ => rfl
  | n + 1, x => by rw [bigEndian, List.length_append, bigEndian_length n]; rfl

/-- A digest is thirty-two bytes. -/
theorem digest_length (bs : List UInt8) : (digest bs).length = 32 := by
  simp only [digest, State.bytes, List.flatMap_cons, List.flatMap_nil, List.length_append, bigEndian_length,
    List.length_nil]

example : (digest []).take 4 = [0xe3, 0xb0, 0xc4, 0x42] := by decide +kernel

/-! ## HMAC -/

/-- The key at the block length: hashed when longer, then filled with zeros. -/
def blockKey (key : List UInt8) : List UInt8 :=
  let k := if 64 < key.length then digest key else key
  k ++ List.replicate (64 - k.length) 0

def hmac (key msg : List UInt8) : List UInt8 :=
  let k := blockKey key
  digest (k.map (· ^^^ 0x5c) ++ digest (k.map (· ^^^ 0x36) ++ msg))

end Sha256
