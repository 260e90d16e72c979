import PeerServices.Identity.Keypair

/-!
# Challenges

Sixteen random bytes that the other side has to sign. A proof holds if it signs exactly these bytes;
it tells the address of the signer.
-/

namespace PeerServices

structure Challenge where
  octets : Octets 16
deriving DecidableEq

namespace Challenge

instance : Inhabited Challenge := ⟨⟨Octets.replicate 16 0⟩⟩

instance : Serial Challenge where
  encode c := c.octets.toList
  read := return ⟨← Reader.octets 16⟩

def provenBy (c : Challenge) (proof : SignedData) : Bool :=
  proof.data == c.octets.toList && proof.verify

/-- The address of a proof's signer, if the proof signs this challenge. -/
def signer? (c : Challenge) (proof : SignedData) : Option PeerAddress :=
  if c.provenBy proof then some proof.signer else none

end Challenge

end PeerServices
