import PeerServices.Grant.PeerRecord
import PeerServices.Wire.Parcel

/-!
# Dialogues

One side of a conversation, written down as what it does next: send a parcel, wait for a frame, look
somebody up, or stop. A side that cannot send is told so, and so is one whose stream breaks, so a
dialogue says what it makes of either.

* `Dialogue` is a monad, so a side reads as straight code.
* `Authorizer`: what a peer knows about others at the moment it looks.
-/

namespace PeerServices

structure Authorizer where
  known : PeerAddress → Option PeerRecord
  /-- The record of a peer that may use a service. -/
  authorized : PeerAddress → ServiceId → Option PeerRecord

/-- What one side of a conversation does, until it stops with a result. -/
inductive Dialogue (α : Type)
  | stop (result : α)
  /-- Sends a parcel; goes on with whether that worked. -/
  | send (parcel : Parcel) (rest : Except WireError Unit → Dialogue α)
  | receive (rest : Received → Dialogue α)
  /-- Looks somebody up. -/
  | look (rest : Authorizer → Dialogue α)

namespace Dialogue

def bind {α β : Type} : Dialogue α → (α → Dialogue β) → Dialogue β
  | .stop result, next => next result
  | .send parcel rest, next => .send parcel fun sent => (rest sent).bind next
  | .receive rest, next => .receive fun frame => (rest frame).bind next
  | .look rest, next => .look fun authorizer => (rest authorizer).bind next

instance : Monad Dialogue where
  pure := .stop
  bind := bind

/-- Where a dialogue stands when it cannot go on by itself. -/
inductive Pause (α : Type)
  | over (result : α)
  | waiting (rest : Received → Dialogue α)

/-- Goes on as far as that takes no other frame. Gives the parcels that were sent. -/
def advance {α : Type} (authorizer : Authorizer) (reachable : Bool) :
    Dialogue α → List Parcel × Pause α
  | .stop result => ([], .over result)
  | .receive rest => ([], .waiting rest)
  | .look rest => (rest authorizer).advance authorizer reachable
  | .send parcel rest =>
    let outcome := parcel.sent reachable
    let (later, pause) := (rest outcome).advance authorizer reachable
    match outcome with
    | .ok () => (parcel :: later, pause)
    | .error _ => (later, pause)

abbrev Attempt (ε α : Type) := ExceptT ε Dialogue α

end Dialogue

end PeerServices
