import PeerServices.Bytes.Octets

/-!
# The twisted Edwards curve of Ed25519

Points of -x² + y² = 1 + d·x²·y² over the field of 2²⁵⁵ - 19 elements, in extended coordinates, and
their 32-byte form: y in little-endian order with the low bit of x on top.

Reading a point takes y modulo the field's order, so forms that are not reduced are read too, and
accepts either sign for x = 0. Coordinates are natural numbers below the order.
-/

namespace PeerServices.Edwards25519

/-! ## The field -/

def fieldOrder : Nat := Nat.pow 2 255 - 19

def groupOrder : Nat := Nat.pow 2 252 + 27742317777372353535851937790883648493

def sub (a b : Nat) : Nat := (a + (fieldOrder - b)) % fieldOrder

def mul (a b : Nat) : Nat := a * b % fieldOrder

/-- The lowest `count` bits of a number, lowest first. -/
def bits : (count : Nat) → Nat → List Bool
  | 0, _ => []
  | count + 1, n => (n % 2 = 1) :: bits count (n / 2)

/-- The power of `a` whose exponent has the given bits, lowest first. -/
def power (a : Nat) : List Bool → Nat
  | [] => 1
  | bit :: higher =>
    let root := power a higher
    let square := mul root root
    if bit then mul square a else square

/-- The inverse in the field; zero for zero. -/
def inverse (a : Nat) : Nat := power a (bits 255 (fieldOrder - 2))

def d : Nat := 37095705934669439343138083508754565189542113879843219016388785533085940283555

/-- A square root of -1. -/
def rootOfMinusOne : Nat :=
  19681161376707505956807079304988542015446066515923890162744021073123829784752

/-- The even one of the square roots of `u / v`, if there is one. -/
def rootOfRatio? (u v : Nat) : Option Nat :=
  let v3 := mul (mul v v) v
  let v7 := mul (mul v3 v3) v
  let r := mul (mul u v3) (power (mul u v7) (bits 253 ((fieldOrder - 5) / 8)))
  let check := mul v (mul r r)
  let root? :=
    if check = u then some r
    else if check = sub 0 u then some (mul r rootOfMinusOne)
    else none
  root?.map fun root => if root % 2 = 1 then sub 0 root else root

/-! ## Points -/

/-- A point (x / z, y / z) with t = x · y / z. -/
structure Point where
  x : Nat
  y : Nat
  z : Nat
  t : Nat
deriving DecidableEq

namespace Point

def zero : Point := ⟨0, 1, 1, 0⟩

/-- The base point: y = 4/5 and x even. -/
def base : Point where
  x := 15112221349535400772501151409588531511454012693041857206046113283949847762202
  y := 46316835694926478169428394003475163141307993866256225615783033603165251855960
  z := 1
  t := 46827403850823179245072216630277197565144205554125654976674165829533817101731

def neg (p : Point) : Point := ⟨sub 0 p.x, p.y, p.z, sub 0 p.t⟩

def add (p q : Point) : Point :=
  let a := mul (sub p.y p.x) (sub q.y q.x)
  let b := mul (p.y + p.x) (q.y + q.x)
  let c := mul (mul (2 * d) p.t) q.t
  let s := mul (2 * p.z) q.z
  let e := sub b a
  let f := sub s c
  let g := s + c
  let h := b + a
  ⟨mul e f, mul g h, mul f g, mul e h⟩

def double (p : Point) : Point :=
  let a := mul p.x p.x
  let b := mul p.y p.y
  let c := mul (2 * p.z) p.z
  let h := a + b
  let s := p.x + p.y
  let e := sub h (mul s s)
  let g := sub a b
  let f := c + g
  ⟨mul e f, mul g h, mul f g, mul e h⟩

/-- The multiple of a point whose factor has the given bits, lowest first. -/
def multiple (p : Point) : List Bool → Point
  | [] => zero
  | bit :: higher =>
    let twice := (multiple p higher).double
    if bit then twice.add p else twice

def scale (n : Nat) (p : Point) : Point := p.multiple (bits 256 n)

end Point

/-! ## The 32-byte form -/

/-- The number whose bytes are given, lowest first. -/
def littleEndianToNat (bytes : Bytes) : Nat := BigEndian.toNat bytes.reverse

def littleEndian (n : Nat) : Octets 32 := ⟨(BigEndian.ofNat 32 n).reverse, by simp⟩

def Point.compress (p : Point) : Octets 32 :=
  let zInv := inverse p.z
  let x := mul p.x zInv
  let y := mul p.y zInv
  littleEndian (y + x % 2 * Nat.pow 2 255)

def Point.decompress? (bytes : Octets 32) : Option Point := do
  let n := littleEndianToNat bytes.toList
  let negative := Nat.pow 2 255 ≤ n
  let y := n % Nat.pow 2 255 % fieldOrder
  let y2 := mul y y
  let root ← rootOfRatio? (sub y2 1) ((mul d y2 + 1) % fieldOrder)
  let x := if negative then sub 0 root else root
  return ⟨x, y, 1, mul x y⟩

end PeerServices.Edwards25519
