import PeerServices.Node.Step
import PeerServices.Settings

/-!
# Starting a node

A node starts from settings. It offers the exchange of grants from the beginning, and the peers that
the settings introduce are known to it before anybody can connect.
-/

namespace PeerServices

namespace Settings

/-- The key pair that the settings name; if they name none, the one that was drawn. -/
def keypair (s : Settings) (drawn : Keypair) : Except NodeError Keypair :=
  if s.secretKey.isEmpty then .ok drawn
  else (Keypair.ofSecretText s.secretKey).mapError .setting

/-- The key of the system authority, if the settings name one. -/
def systemKey (s : Settings) : Except NodeError (Option PublicKey) :=
  match s.systemPublicKey with
  | none => .ok none
  | some text => ((PublicKey.parse text).map some).mapError .setting

end Settings

namespace Node

/-- Starts a node. The keys are read before anything else is done; `bound` is the socket on which
the node listens, or why it cannot. -/
def start (s : Settings) (drawn : Keypair) (bound : Except String SocketAddress) :
    Except NodeError (Node × SocketAddress) := do
  let keypair ← s.keypair drawn
  let systemKey ← s.systemKey
  let socket ← bound.mapError fun why =>
    .bootFailed ("bind " ++ s.listenAddress.text ++ ": " ++ why)
  let n : Node :=
    { create ⟨keypair, systemKey⟩ with
      requestTimeout := s.requestTimeout
      exchangeTimeout := s.exchangeTimeout
      connectRetry := ⟨s.connectRetry⟩
      routes := s.routes.foldl (fun routes r => routes.insert r.address r.socket) .empty }
  let n := n.activate (.exchange n.address)
  return (s.introductions.foldl (fun n i => n.add (.create i.address i.name)) n, socket)

end Node

end PeerServices
