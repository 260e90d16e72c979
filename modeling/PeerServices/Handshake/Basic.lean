import PeerServices.Handshake.Dialogue

/-!
# Handshakes

Before anything else the accepting side proves who it is, by signing a challenge of the connecting
side. Some modes then reverse the roles.

| mode       | the accepting side proves    | the connecting side proves          |
|------------|------------------------------|-------------------------------------|
| anyone     | that it is the host          | nothing                             |
| restricted | that it is the host          | that it was granted the service     |
| system     | that it holds the system key | nothing                             |
| admin      | that it is the host          | that it holds the system key        |

* `Handshake.connecting` and `Handshake.accepting` are the two sides. A side that succeeds gives the
  record of the other one, where the mode settles who that is.
* `HandshakeError` tells why a side refused the other one.
-/

namespace PeerServices

/-- Which proofs a service asks for. -/
inductive Mode
  | anyone
  | restricted
  | system
  | admin
deriving DecidableEq, Repr

/-- The mode of a service that is described with a scope. -/
def Scope.mode : Scope → Mode
  | .anyone => .anyone
  | .restricted => .restricted

inductive HandshakeError
  | wire (cause : WireError)
  /-- The accepting side did not prove who it is. -/
  | serverProof
  /-- The connecting side did not prove who it is. -/
  | clientProof
  | unknownEntity (peer : PeerAddress)
  | notGranted (peer : PeerAddress) (service : ServiceId)
  | noSystemKey
deriving DecidableEq

def HandshakeError.message : HandshakeError → String
  | .wire cause => "Handshake I/O failed: " ++ cause.message
  | .serverProof => "Server proof rejected"
  | .clientProof => "Client proof rejected"
  | .unknownEntity peer => "No entity known for " ++ peer.text
  | .notGranted peer service => peer.text ++ " is not granted service " ++ service.text
  | .noSystemKey => "No system key configured"

/-- What a peer proves with and checks against. -/
structure Credentials where
  keypair : Keypair
  systemKey : Option PublicKey

namespace Credentials

/-- Is this the system key? Without one no key is. -/
def isSystemKey (c : Credentials) (key : PublicKey) : Bool := c.systemKey = some key

def address (c : Credentials) : PeerAddress := c.keypair.address

end Credentials

namespace Handshake

/-- How a side of a handshake ends. -/
abbrev Result := Except HandshakeError (Option PeerRecord)

abbrev Side := Dialogue.Attempt HandshakeError

def send (parcel : Parcel) : Side Unit :=
  .mk <| .send parcel fun sent => .stop <| sent.mapError .wire

def receive (α : Type) [Serial α] : Side α :=
  .mk <| .receive fun frame => .stop <| (Frame.decode α frame).mapError .wire

def look {α : Type} (f : Authorizer → α) : Side α :=
  .mk <| .look fun authorizer => .stop <| .ok <| f authorizer

def require {α : Type} (cause : HandshakeError) : Option α → Side α
  | some value => pure value
  | none => throw cause

def answer (own : Credentials) : Side Unit := do
  let challenge ← receive Challenge
  send (.proof (own.keypair.sign challenge.octets.toList))

/-- Has the other side sign a challenge: gives the proof and its signer. -/
def ask (issued : Challenge) (cause : HandshakeError) : Side (SignedData × PeerAddress) := do
  send (.challenge issued)
  let proof ← receive SignedData
  let signer ← require cause (issued.signer? proof)
  return (proof, signer)

/-- Is this the proof that a host has to give? -/
def acceptsHost (own : Credentials) (mode : Mode) (host : PeerAddress) (proof : SignedData)
    (signer : PeerAddress) : Bool :=
  match mode with
  | .system => own.isSystemKey proof.publicKey
  | _ => signer = host

/-- The side that connects to a service of `host` and issues the given challenge. -/
def connecting (own : Credentials) (mode : Mode) (host : PeerAddress) (issued : Challenge) :
    Side (Option PeerRecord) := do
  if mode = .system ∧ own.systemKey = none then throw .noSystemKey
  let (proof, signer) ← ask issued .serverProof
  unless acceptsHost own mode host proof signer do throw .serverProof
  match mode with
  | .anyone | .system => return none
  | .restricted =>
    let record ← require (.unknownEntity host) (← look fun authorizer => authorizer.known host)
    answer own
    return some record
  | .admin =>
    answer own
    return none

/-- The side that accepts a connection to `service` and issues the given challenge. -/
def accepting (own : Credentials) (mode : Mode) (service : ServiceId) (issued : Challenge) :
    Side (Option PeerRecord) := do
  answer own
  match mode with
  | .anyone | .system => return none
  | .restricted =>
    let (_, peer) ← ask issued .clientProof
    let record ← require (.notGranted peer service)
      (← look fun authorizer => authorizer.authorized peer service)
    return some record
  | .admin =>
    let (proof, _) ← ask issued .clientProof
    unless own.isSystemKey proof.publicKey do throw .clientProof
    return none

end Handshake

end PeerServices
