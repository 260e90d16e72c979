import PeerServices.Codec.Serial
import PeerServices.Crypto.Sha256
import PeerServices.Error.Value
import PeerServices.Text.Blank

/-!
# Peer addresses

A peer is known by the first 20 bytes of the SHA-256 digest of its public key. As text an address is
40 hexadecimal digits.
-/

namespace PeerServices

structure PeerAddress where
  octets : Octets 20
deriving DecidableEq

namespace PeerAddress

def null : PeerAddress := ⟨Octets.replicate 20 0⟩

instance : Inhabited PeerAddress := ⟨null⟩

def ofPublicKey (key : Octets 32) : PeerAddress :=
  ⟨Octets.ofPadded 20 (Sha256.hash key.toList)⟩

def isNull (a : PeerAddress) : Bool := a = null

instance : Ord PeerAddress := ⟨compareOn octets⟩

instance : Std.TransOrd PeerAddress := inferInstanceAs (Std.TransCmp (compareOn octets))

instance : Hashable PeerAddress := ⟨fun a => hash a.octets.toList⟩

instance : Serial PeerAddress where
  encode a := a.octets.toList
  read := return ⟨← Reader.octets 20⟩

def text (a : PeerAddress) : String := Hex.encode a.octets.toList

/-- Reads the text of an address, with white space around it. -/
def parse (s : String) : Except ValueError PeerAddress :=
  match Hex.decode (Text.trim s) with
  | .error _ => .error (.malformed "peer address" s)
  | .ok bytes =>
    match Octets.ofList? 20 bytes with
    | none => .error (.malformed "peer address" s)
    | some octets => .ok ⟨octets⟩

end PeerAddress

end PeerServices
