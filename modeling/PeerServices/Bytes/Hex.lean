import PeerServices.Bytes.Octets

/-!
# Hexadecimal text

Two digits a byte, the high half first. Writing uses lowercase digits, reading takes both cases.
A text that is no hexadecimal is refused for its length first and then for its first bad byte,
counted in bytes of its UTF-8 form.
-/

namespace PeerServices.Hex

inductive Error
  | oddLength
  /-- A byte that is no digit, and where it stands. -/
  | invalidDigit (byte : UInt8) (index : Nat)
deriving DecidableEq, Repr

def digit (n : Nat) : Char :=
  if n < 10 then Char.ofNat (48 + n) else Char.ofNat (87 + n)

def value? (b : UInt8) : Option Nat :=
  let n := b.toNat
  if 48 ≤ n ∧ n ≤ 57 then some (n - 48)
  else if 97 ≤ n ∧ n ≤ 102 then some (n - 87)
  else if 65 ≤ n ∧ n ≤ 70 then some (n - 55)
  else none

def encodeChars (bytes : Bytes) : List Char :=
  bytes.flatMap fun b => [digit (b.toNat / 16), digit (b.toNat % 16)]

def encode (bytes : Bytes) : String := String.ofList (encodeChars bytes)

/-- Reads digit pairs, the first of which stands at `index`. -/
def decodeFrom : Nat → Bytes → Except Error Bytes
  | _, [] => .ok []
  | _, [_] => .error .oddLength
  | index, high :: low :: rest =>
    match value? high, value? low with
    | none, _ => .error (.invalidDigit high index)
    | some _, none => .error (.invalidDigit low (index + 1))
    | some h, some l => (decodeFrom (index + 2) rest).map (UInt8.ofNat (h * 16 + l) :: ·)

def decodeBytes (text : Bytes) : Except Error Bytes :=
  if text.length % 2 = 1 then .error .oddLength else decodeFrom 0 text

def decode (text : String) : Except Error Bytes := decodeBytes text.toUTF8.data.toList

end PeerServices.Hex
