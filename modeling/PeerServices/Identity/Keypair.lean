import PeerServices.Crypto.Ed25519
import PeerServices.Identity.PeerAddress

/-!
# Keys and signed data

* `Keypair.ofSecretText`, `Keypair.sign`: a peer's own identity, read from its secret seed.
* `SignedData`: data with a signature and the key it is to be checked with, so a reader can both
  check it and tell the signer's address.
* `PublicKey.parse` reads the text of another peer's key.
-/

namespace PeerServices

abbrev PublicKey := Octets 32

def keyBytes (half : KeyHalf) (s : String) : Except KeyError (Octets 32) :=
  match Hex.decode (Text.trim s) with
  | .error cause => .error (.notHex half cause)
  | .ok bytes =>
    match Octets.ofList? 32 bytes with
    | none => .error (.wrongLength half)
    | some octets => .ok octets

/-- Reads the text of a public key, which has to be a point of the curve. -/
def PublicKey.parse (s : String) : Except ValueError PublicKey :=
  match keyBytes .publicKey s with
  | .error cause => .error (.invalidKey cause)
  | .ok key =>
    match Edwards25519.Point.decompress? key with
    | none => .error (.invalidKey .notOnCurve)
    | some _ => .ok key

/-! ## Signed data -/

structure SignedData where
  publicKey : PublicKey
  data : Bytes
  signature : Octets 64
deriving DecidableEq

namespace SignedData

def signer (s : SignedData) : PeerAddress := PeerAddress.ofPublicKey s.publicKey

def verify (s : SignedData) : Bool := Ed25519.verify s.publicKey s.data s.signature

instance : Serial SignedData where
  encode s := s.publicKey.toList ++ Codec.blob s.data ++ s.signature.toList
  read := do
    let publicKey ← Reader.octets 32
    let data ← Codec.readBlob
    let signature ← Reader.octets 64
    return { publicKey, data, signature }

end SignedData

/-! ## Key pairs -/

structure Keypair where
  key : Ed25519.SigningKey

namespace Keypair

def ofSeed (seed : Octets 32) : Keypair := ⟨Ed25519.SigningKey.ofSeed seed⟩

instance : Inhabited Keypair := ⟨ofSeed (.ofPadded 32 [])⟩

/-- Reads a key pair from the text of its seed. -/
def ofSecretText (s : String) : Except ValueError Keypair :=
  match keyBytes .secretKey s with
  | .error cause => .error (.invalidKey cause)
  | .ok seed => .ok (ofSeed seed)

def secretText (k : Keypair) : String := Hex.encode k.key.seed.toList

def publicKey (k : Keypair) : PublicKey := k.key.publicKey

def address (k : Keypair) : PeerAddress := PeerAddress.ofPublicKey k.publicKey

/-- What may be shown of a key pair: its address, never its secret. -/
def summary (k : Keypair) : String :=
  "Keypair \x7b address: PeerAddress(" ++ k.address.text ++ "), .. \x7d"

def sign (k : Keypair) (data : Bytes) : SignedData :=
  { publicKey := k.publicKey, data, signature := k.key.sign data }

end Keypair

end PeerServices
