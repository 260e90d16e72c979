import PeerServices.Bytes.Octets

/-!
# SHA-256

The 256-bit digest of the Secure Hash Standard, over 32-bit words. The message schedule is kept as
the window of its next sixteen words: each round uses the first and appends one.
-/

namespace PeerServices.Sha256

structure Digest where
  a : UInt32
  b : UInt32
  c : UInt32
  d : UInt32
  e : UInt32
  f : UInt32
  g : UInt32
  h : UInt32
deriving DecidableEq

/-- The fractional parts of the square roots of the first eight primes. -/
def initial : Digest :=
  ⟨0x6a09e667, 0xbb67ae85, 0x3c6ef372, 0xa54ff53a, 0x510e527f, 0x9b05688c, 0x1f83d9ab, 0x5be0cd19⟩

/-- The fractional parts of the cube roots of the first sixty-four primes. -/
def constants : List UInt32 := [
  0x428a2f98, 0x71374491, 0xb5c0fbcf, 0xe9b5dba5, 0x3956c25b, 0x59f111f1, 0x923f82a4, 0xab1c5ed5,
  0xd807aa98, 0x12835b01, 0x243185be, 0x550c7dc3, 0x72be5d74, 0x80deb1fe, 0x9bdc06a7, 0xc19bf174,
  0xe49b69c1, 0xefbe4786, 0x0fc19dc6, 0x240ca1cc, 0x2de92c6f, 0x4a7484aa, 0x5cb0a9dc, 0x76f988da,
  0x983e5152, 0xa831c66d, 0xb00327c8, 0xbf597fc7, 0xc6e00bf3, 0xd5a79147, 0x06ca6351, 0x14292967,
  0x27b70a85, 0x2e1b2138, 0x4d2c6dfc, 0x53380d13, 0x650a7354, 0x766a0abb, 0x81c2c92e, 0x92722c85,
  0xa2bfe8a1, 0xa81a664b, 0xc24b8b70, 0xc76c51a3, 0xd192e819, 0xd6990624, 0xf40e3585, 0x106aa070,
  0x19a4c116, 0x1e376c08, 0x2748774c, 0x34b0bcb5, 0x391c0cb3, 0x4ed8aa4a, 0x5b9cca4f, 0x682e6ff3,
  0x748f82ee, 0x78a5636f, 0x84c87814, 0x8cc70208, 0x90befffa, 0xa4506ceb, 0xbef9a3f7, 0xc67178f2]

def rotate (x : UInt32) (n : UInt32) : UInt32 := (x >>> n) ||| (x <<< (32 - n))

/-- One round with a round constant and a word of the schedule. -/
def Digest.round (s : Digest) (k w : UInt32) : Digest :=
  let t1 := s.h + (rotate s.e 6 ^^^ rotate s.e 11 ^^^ rotate s.e 25) +
    ((s.e &&& s.f) ^^^ (~~~s.e &&& s.g)) + k + w
  let t2 := (rotate s.a 2 ^^^ rotate s.a 13 ^^^ rotate s.a 22) +
    ((s.a &&& s.b) ^^^ (s.a &&& s.c) ^^^ (s.b &&& s.c))
  ⟨t1 + t2, s.a, s.b, s.c, s.d + t1, s.e, s.f, s.g⟩

def nextWord (window : List UInt32) : UInt32 :=
  let word (i : Nat) := window.getD i 0
  (rotate (word 14) 17 ^^^ rotate (word 14) 19 ^^^ (word 14 >>> 10)) + word 9 +
    (rotate (word 1) 7 ^^^ rotate (word 1) 18 ^^^ (word 1 >>> 3)) + word 0

/-- All rounds for the given constants, from a window of the schedule. -/
def rounds : List UInt32 → List UInt32 → Digest → Digest
  | k :: constants, w :: window, s =>
    rounds constants (window ++ [nextWord (w :: window)]) (s.round k w)
  | _, _, s => s

def words : (count : Nat) → Bytes → List UInt32
  | 0, _ => []
  | count + 1, bytes => UInt32.ofNat (BigEndian.toNat (bytes.take 4)) :: words count (bytes.drop 4)

def Digest.absorb (s : Digest) (block : Bytes) : Digest :=
  let t := rounds constants (words 16 block) s
  ⟨s.a + t.a, s.b + t.b, s.c + t.c, s.d + t.d, s.e + t.e, s.f + t.f, s.g + t.g, s.h + t.h⟩

def absorbBlocks : (count : Nat) → Bytes → Digest → Digest
  | 0, _, s => s
  | count + 1, bytes, s => absorbBlocks count (bytes.drop 64) (s.absorb (bytes.take 64))

/-- The message, a single bit, zeros to the last eight bytes of a block, and the length in bits. -/
def pad (message : Bytes) : Bytes :=
  message ++ 0x80 :: List.replicate ((119 - message.length % 64) % 64) 0 ++
    BigEndian.ofNat 8 (message.length * 8)

def Digest.toBytes (s : Digest) : Bytes :=
  [s.a, s.b, s.c, s.d, s.e, s.f, s.g, s.h].flatMap fun w => BigEndian.ofNat 4 w.toNat

def hash (message : Bytes) : Bytes :=
  let padded := pad message
  (absorbBlocks (padded.length / 64) padded initial).toBytes

end PeerServices.Sha256
