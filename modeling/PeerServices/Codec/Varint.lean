import PeerServices.Codec.Reader

/-!
# Variable-length integers

An unsigned 64-bit integer in groups of seven bits, the lowest group first; every byte but the last
has its high bit set. Each number has one form only: a last group of zero after another group, a
tenth group above one and an eleventh group are refused.

* `Varint.encode` writes at most ten groups.
* `Varint.read` accepts exactly the written forms.
-/

namespace PeerServices.Varint

/-- The most groups that a 64-bit integer needs. -/
def maxGroups : Nat := 10

/-- The groups of `n`, at most `limit` of them. -/
def groups : (limit : Nat) → Nat → Bytes
  | 0, _ => []
  | limit + 1, n =>
    if n < 128 then [UInt8.ofNat n] else UInt8.ofNat (n % 128 + 128) :: groups limit (n / 128)

def encode (n : UInt64) : Bytes := groups maxGroups n.toNat

/-- Reads the groups from number `index` on, when at most `limit` may follow and the groups before
them add up to `sum`. -/
def readGroups : (limit index sum : Nat) → Reader UInt64
  | 0, _, _ => throw .invalidVarint
  | limit + 1, index, sum => do
    let byte ← Reader.byte
    let bits := byte.toNat % 128
    if limit = 0 ∧ 1 < bits then throw .invalidVarint
    let sum := sum + bits * Nat.pow 128 index
    if byte.toNat < 128 then
      if 0 < index ∧ bits = 0 then throw .invalidVarint
      return UInt64.ofNat sum
    readGroups limit (index + 1) sum

def read : Reader UInt64 := readGroups maxGroups 0 0

end PeerServices.Varint
