/-!
# Byte strings and fixed-width integers

* `Octets n`: a byte string of exactly `n` bytes, ordered bytewise.
* `BigEndian.ofNat`, `BigEndian.toNat`: an integer as a given number of bytes, most significant
  byte first, and back.
-/

namespace PeerServices

abbrev Bytes := List UInt8

/-! ## Byte strings of a fixed length -/

/-- A byte string of exactly `n` bytes. -/
structure Octets (n : Nat) where
  toList : Bytes
  length_eq : toList.length = n
deriving DecidableEq

namespace Octets

/-- Reads a byte string as `n` bytes, if it has that length. -/
def ofList? (n : Nat) (bytes : Bytes) : Option (Octets n) :=
  if h : bytes.length = n then some ⟨bytes, h⟩ else none

def replicate (n : Nat) (b : UInt8) : Octets n := ⟨List.replicate n b, List.length_replicate⟩

/-- The first `n` bytes of `bytes`, filled up with zeros where it is shorter. -/
def ofPadded (n : Nat) (bytes : Bytes) : Octets n :=
  ⟨(bytes.take n) ++ List.replicate (n - (bytes.take n).length) 0, by
    simp only [List.length_append, List.length_replicate, List.length_take]; omega⟩

instance (n : Nat) : Inhabited (Octets n) := ⟨replicate n 0⟩

instance (n : Nat) : Ord (Octets n) := ⟨fun a b => compare a.toList b.toList⟩

theorem compare_def {n : Nat} (a b : Octets n) : compare a b = compare a.toList b.toList := rfl

instance (n : Nat) : Std.TransOrd (Octets n) where
  eq_swap {a b} := by
    simp only [compare_def]; exact Std.OrientedCmp.eq_swap
  isLE_trans {a b c} := by
    simp only [compare_def]; exact Std.TransCmp.isLE_trans

instance (n : Nat) : Std.LawfulEqOrd (Octets n) where
  eq_of_compare {a b} h := by
    cases a; cases b
    simp only [compare_def] at h
    have := Std.LawfulEqOrd.eq_of_compare h
    simp_all
  compare_self {a} := by
    simp only [compare_def]; exact Std.ReflCmp.compare_self

end Octets

/-! ## Integers in network order -/

namespace BigEndian

/-- The `width` low bytes of `n`, most significant first. -/
def ofNat : (width : Nat) → Nat → Bytes
  | 0, _ => []
  | width + 1, n => UInt8.ofNat (n / Nat.pow 256 width) :: ofNat width n

/-- The number whose bytes are `bytes`, most significant first. -/
def toNat (bytes : Bytes) : Nat := bytes.foldl (fun n b => n * 256 + b.toNat) 0

@[simp] theorem length_ofNat (width n : Nat) : (ofNat width n).length = width := by
  induction width with
  | zero => rfl
  | succ width ih => simp [ofNat, ih]

end BigEndian

end PeerServices
