import PeerServices.Identity.PeerAddress
import PeerServices.Service.Address
import PeerServices.Text.Duration

/-!
# Failures of connections and requests

* `IoFailure`: a failure below the frames, or one that is told as such.
* `WireError`: why a frame, a connection or a handshake failed.
* `ServiceError`: the one failure type of a request. Every `WireError` and every decoding error has
  a form as `ServiceError`.
-/

namespace PeerServices

/-! ## Transport failures -/

inductive IoKind
  | unexpectedEof
  | invalidData
  | notConnected
  | connectionAborted
  | connectionRefused
  | brokenPipe
deriving DecidableEq, Repr

structure IoFailure where
  kind : IoKind
  text : String
deriving DecidableEq, Repr

namespace IoFailure

/-- The stream ended inside a frame body. -/
def earlyEnd : IoFailure := ⟨.unexpectedEof, "early eof"⟩

def brokenPipe : IoFailure := ⟨.brokenPipe, "broken pipe"⟩

def ofCodec (e : Codec.Error) : IoFailure :=
  ⟨if e = .endOfBuffer then .unexpectedEof else .invalidData, e.message⟩

end IoFailure

/-! ## Failures of connections -/

inductive WireError
  | io (cause : IoFailure)
  /-- A frame's body is not the form of what was expected. -/
  | codec (cause : Codec.Error)
  | handshakeFailed (text : String)
  | handshakeTimeout (limit : Duration)
  | unknownService (id : ServiceId)
  /-- The stream ended between two frames. -/
  | connectionClosed
  | notConnected
  | frameTooLarge (size max : Nat)
deriving DecidableEq

def WireError.message : WireError → String
  | .io cause => "IO error: " ++ cause.text
  | .codec cause => "Codec error: " ++ cause.message
  | .handshakeFailed text => "Handshake failed: " ++ text
  | .handshakeTimeout limit => "Handshake timed out after " ++ limit.text
  | .unknownService id => "Unknown service: " ++ id.text
  | .connectionClosed => "Connection closed"
  | .notConnected => "Not connected"
  | .frameTooLarge size max =>
    "Frame too large: " ++ toString size ++ " bytes (max " ++ toString max ++ ")"

/-! ## Failures of requests -/

inductive ServiceError
  /-- A handler failed, here or at the other side. -/
  | execution (text : String)
  /-- The waiting was cancelled. -/
  | interrupted (text : String)
  | unregistered (peer : PeerAddress)
  | io (cause : IoFailure)
  | timeout (limit : Duration)
deriving DecidableEq

namespace ServiceError

def message : ServiceError → String
  | .execution text => "Remote exception: " ++ text
  | .interrupted text => "Interrupted: " ++ text
  | .unregistered peer => "No route to peer " ++ peer.text
  | .io cause => "IO error: " ++ cause.text
  | .timeout limit => "Timed out after " ++ limit.text

def category : ServiceError → String
  | .execution _ => "execution"
  | .interrupted _ => "interrupted"
  | .unregistered _ => "unregistered"
  | .io _ => "io"
  | .timeout _ => "timeout"

def ofCodec (e : Codec.Error) : ServiceError := .io (.ofCodec e)

/-- A connection's failure as the failure of a request. -/
def ofWire : WireError → ServiceError
  | .io cause => .io cause
  | .codec cause => .io (.ofCodec cause)
  | .connectionClosed => .io ⟨.unexpectedEof, WireError.connectionClosed.message⟩
  | .notConnected => .io ⟨.notConnected, WireError.notConnected.message⟩
  | other => .io ⟨.connectionAborted, other.message⟩

end ServiceError

end PeerServices
