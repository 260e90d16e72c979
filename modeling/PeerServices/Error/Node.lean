import PeerServices.Error.Service
import PeerServices.Error.Value

/-!
# Failures of a node

Why a node did not start, or refused a change of what it knows.
-/

namespace PeerServices

inductive NodeError
  | setting (cause : ValueError)
  | bootFailed (text : String)
  | unknownEntity (peer : PeerAddress)

def NodeError.message : NodeError → String
  | .setting cause => cause.message
  | .bootFailed text => "Boot failed: " ++ text
  | .unknownEntity peer => "Unknown entity: " ++ peer.text

end PeerServices
