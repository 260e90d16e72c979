import PeerServices.Crypto.Edwards25519
import PeerServices.Crypto.Sha512

/-!
# Ed25519 signatures

Deterministic signatures on the Edwards curve with SHA-512.

* `SigningKey.ofSeed`, `SigningKey.sign`: the signer's side.
* `verify`: recomputes R as S·B - k·A and compares it with the signature's bytes. A factor S that is
  not below the group order is refused; keys of small order are not.
-/

namespace PeerServices.Ed25519

open Edwards25519

structure SigningKey where
  seed : Octets 32
  /-- The secret factor. -/
  scalar : Nat
  /-- The secret bytes that go into each nonce. -/
  nonceKey : Bytes
  publicKey : Octets 32

def scalarOfDigest (digest : Bytes) : Nat := littleEndianToNat digest % groupOrder

/-- The key of a seed: the lower half of the seed's digest, with the low three bits cleared and the
two high bits set to 01, is the factor. -/
def SigningKey.ofSeed (seed : Octets 32) : SigningKey :=
  let digest := Sha512.hash seed.toList
  let scalar := littleEndianToNat (digest.take 32) % Nat.pow 2 254 / 8 * 8 + Nat.pow 2 254
  { seed, scalar, nonceKey := digest.drop 32, publicKey := (Point.base.scale scalar).compress }

/-- The signature of a message: the point R and the factor S. -/
def SigningKey.sign (key : SigningKey) (message : Bytes) : Octets 64 :=
  let r := scalarOfDigest (Sha512.hash (key.nonceKey ++ message))
  let bigR := (Point.base.scale r).compress
  let k := scalarOfDigest (Sha512.hash (bigR.toList ++ key.publicKey.toList ++ message))
  let s := littleEndian ((r + k * key.scalar) % groupOrder)
  ⟨bigR.toList ++ s.toList, by simp [bigR.length_eq, s.length_eq]⟩

/-- Does the signature hold for the message under the public key? -/
def verify (publicKey : Octets 32) (message : Bytes) (signature : Octets 64) : Bool :=
  match Point.decompress? publicKey with
  | none => false
  | some a =>
    let bigR := signature.toList.take 32
    let s := littleEndianToNat (signature.toList.drop 32)
    let k := scalarOfDigest (Sha512.hash (bigR ++ publicKey.toList ++ message))
    decide (s < groupOrder) &&
      ((Point.base.scale s).add (a.neg.scale k)).compress.toList == bigR

end PeerServices.Ed25519
