import PeerServices.Service.Address
import PeerServices.Wire.Challenge
import PeerServices.Wire.Frame
import PeerServices.Wire.Message

/-!
# Parcels

The values that peers send to each other, one in a frame. Which kind comes next is settled by the
state of the connection, so a parcel's body does not tell its kind.
-/

namespace PeerServices

/-- What one frame carries. -/
inductive Parcel
  | service (id : ServiceId)
  | challenge (c : Challenge)
  | proof (p : SignedData)
  | message (m : Message)
deriving DecidableEq

namespace Parcel

def body : Parcel → Bytes
  | .service id => Serial.encode id
  | .challenge c => Serial.encode c
  | .proof p => Serial.encode p
  | .message m => Serial.encode m

def frame (p : Parcel) : Except WireError Bytes := Frame.encode p.body

/-- What comes of sending a parcel to a side that is still there, or gone. -/
def sent (p : Parcel) (reachable : Bool) : Except WireError Unit :=
  match p.frame with
  | .error e => .error e
  | .ok _ => if reachable then .ok () else .error (.io .brokenPipe)

end Parcel

end PeerServices
