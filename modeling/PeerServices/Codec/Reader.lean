import PeerServices.Bytes.Octets

/-!
# Readers of bytes

A reader takes what it needs from the front of a byte string and leaves the rest. It never takes
more than is there: a short input is `Codec.Error.endOfBuffer`.

* `Codec.Error` with `Codec.Error.message`: the ways in which bytes are refused.
* `Reader`, `Reader.take`, `Reader.byte`, `Reader.bool` and the fixed-width integers.
-/

namespace PeerServices

namespace Codec

inductive Error
  | endOfBuffer
  | extraData (count : Nat)
  /-- A variable-length integer that is overlong or exceeds 64 bits. -/
  | invalidVarint
  /-- A truth value other than 0 and 1. -/
  | invalidBool (byte : UInt8)
  | invalidUtf8
  /-- A number that stands for no member of an enumeration. -/
  | invalidOrdinal (kind : String) (byte : UInt8)
  | lengthExceeded (length max : Nat)
  /-- Well-formed bytes whose value breaks a rule of its type. -/
  | invalidData (what text : String)
deriving DecidableEq, Repr

def Error.message : Error → String
  | .endOfBuffer => "unexpected end of buffer"
  | .extraData count => "extra data found: " ++ toString count ++ " bytes"
  | .invalidVarint => "invalid varint"
  | .invalidBool byte => "invalid bool: " ++ toString byte.toNat
  | .invalidUtf8 => "invalid utf-8 string"
  | .invalidOrdinal kind byte => "invalid " ++ kind ++ " ordinal: " ++ toString byte.toNat
  | .lengthExceeded length max => "length exceeded: " ++ toString length ++ " > " ++ toString max
  | .invalidData what text => "invalid data in " ++ what ++ ": " ++ text

end Codec

/-- A reader takes a value from the front of its input and leaves the rest. -/
abbrev Reader := StateT Bytes (Except Codec.Error)

namespace Reader

def take (n : Nat) : Reader Bytes := fun input =>
  let front := input.take n
  if front.length = n then .ok (front, input.drop n) else .error .endOfBuffer

/-- Takes exactly `n` bytes, as a byte string of that length. -/
def octets (n : Nat) : Reader (Octets n) := fun input =>
  let front := input.take n
  if h : front.length = n then .ok (⟨front, h⟩, input.drop n) else .error .endOfBuffer

def byte : Reader UInt8
  | [] => .error .endOfBuffer
  | b :: rest => .ok (b, rest)

def remaining : Reader Nat := fun input => .ok (input.length, input)

/-- Reads an unsigned integer of `width` bytes in network order. -/
def unsigned (width : Nat) : Reader Nat := do
  return BigEndian.toNat (← take width)

def int32 : Reader Int32 := do
  return (UInt32.ofNat (← unsigned 4)).toInt32

def int64 : Reader Int64 := do
  return (UInt64.ofNat (← unsigned 8)).toInt64

def bool : Reader Bool := do
  match ← byte with
  | 0 => return false
  | 1 => return true
  | other => throw (.invalidBool other)

/-- Reads `count` values one after another. -/
def many {α : Type} (item : Reader α) : (count : Nat) → Reader (List α)
  | 0 => return []
  | count + 1 => do
    let first ← item
    return first :: (← many item count)

end Reader

/-! ## Writers of the same forms -/

def int32Bytes (n : Int32) : Bytes := BigEndian.ofNat 4 n.toUInt32.toNat

def int64Bytes (n : Int64) : Bytes := BigEndian.ofNat 8 n.toUInt64.toNat

def boolBytes (b : Bool) : Bytes := [if b then 1 else 0]

end PeerServices
