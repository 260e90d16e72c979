import PeerServices.Codec.Varint
import PeerServices.Collection.SortedSet

/-!
# Values with a byte form

* `Serial`: a type with a written form and a reader of it.
* `Serial.decode`: reads a value that must fill its input.
* Length-prefixed blobs and texts, of at most `maxBlobLength` bytes, and counted sets. A set is
  written as a count and that many values; its reader sorts them and drops repetitions, and refuses
  a count above the number of bytes offered.
-/

namespace PeerServices

/-- A type whose values have a byte form. -/
class Serial (α : Type) where
  encode : α → Bytes
  read : Reader α

namespace Serial

/-- Reads a value that must fill the whole input. -/
def decode (α : Type) [Serial α] (input : Bytes) : Except Codec.Error α := do
  let (value, rest) ← (read : Reader α) input
  if rest.isEmpty then return value else throw (.extraData rest.length)

instance {n : Nat} : Serial (Octets n) where
  encode := Octets.toList
  read := Reader.octets n

end Serial

namespace Codec

/-- The longest blob or text that is read, in bytes. -/
def maxBlobLength : Nat := 16 * 1024 * 1024

def readLength (max : Nat) : Reader Nat := do
  let length := (← Varint.read).toNat
  if max < length then throw (.lengthExceeded length max)
  return length

def blob (bytes : Bytes) : Bytes := Varint.encode (UInt64.ofNat bytes.length) ++ bytes

def readBlob : Reader Bytes := do
  Reader.take (← readLength maxBlobLength)

def utf8 (s : String) : Bytes := s.toUTF8.data.toList

/-- The text whose UTF-8 bytes are given, if they are UTF-8. -/
def ofUtf8? (bytes : Bytes) : Option String := String.fromUTF8? ⟨bytes.toArray⟩

def text (s : String) : Bytes := blob (utf8 s)

def readText : Reader String := do
  match ofUtf8? (← readBlob) with
  | some s => return s
  | none => throw .invalidUtf8

/-- A count and that many values, as listed. -/
def sequence {α : Type} [Serial α] (items : List α) : Bytes :=
  Varint.encode (UInt64.ofNat items.length) ++ items.flatMap Serial.encode

/-- Reads a count, which the number of bytes offered bounds, and that many values as a set. -/
def readSet {α : Type} [Serial α] [Ord α] [Std.TransOrd α] : Reader (SortedSet α) := do
  let count ← readLength (← Reader.remaining)
  return SortedSet.ofList (← Reader.many Serial.read count)

end Codec

end PeerServices
