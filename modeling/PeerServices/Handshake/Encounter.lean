import PeerServices.Handshake.Basic

/-!
# Encounters

Two dialogues with each other, over a pipe that loses nothing. Each side hangs up when it stops:
what it sent before can still be read, then the stream is over, and sending to it fails.

* `Encounter.step` lets one side do what it can do next.
* `Handshake.meet` runs the two sides of a handshake against each other.
-/

namespace PeerServices

/-- One side of an encounter. -/
structure Party (α : Type) where
  dialogue : Dialogue α
  /-- The frames that the other side sent and this side did not read yet. -/
  inbox : List Bytes
  authorizer : Authorizer

namespace Party

variable {α : Type}

def result? (p : Party α) : Option α :=
  match p.dialogue with
  | .stop result => some result
  | _ => none

def isOver (p : Party α) : Bool := p.result?.isSome

/-- What a side does next, with the frame that it sends; nothing if it has to wait for the other
side, or has stopped. -/
def step? (p : Party α) (otherIsOver : Bool) : Option (Party α × Option Bytes) :=
  match p.dialogue with
  | .stop _ => none
  | .look rest => some ({ p with dialogue := rest p.authorizer }, none)
  | .send parcel rest =>
    match parcel.sent !otherIsOver with
    | .error e => some ({ p with dialogue := rest (.error e) }, none)
    | .ok () => some ({ p with dialogue := rest (.ok ()) }, some parcel.body)
  | .receive rest =>
    match p.inbox with
    | body :: inbox => some ({ p with dialogue := rest (.ok body), inbox }, none)
    | [] =>
      if otherIsOver then some ({ p with dialogue := rest (.error .connectionClosed) }, none)
      else none

def hear (p : Party α) (sent : Option Bytes) : Party α :=
  { p with inbox := p.inbox ++ sent.toList }

end Party

structure Encounter (α β : Type) where
  left : Party α
  right : Party β

namespace Encounter

variable {α β : Type}

/-- The next thing that happens; the left side goes first if both can go on. -/
def step? (e : Encounter α β) : Option (Encounter α β) :=
  match e.left.step? e.right.isOver with
  | some (left, sent) => some { left, right := e.right.hear sent }
  | none =>
    match e.right.step? e.left.isOver with
    | some (right, sent) => some { left := e.left.hear sent, right }
    | none => none

def run : (limit : Nat) → Encounter α β → Encounter α β
  | 0, e => e
  | limit + 1, e =>
    match e.step? with
    | none => e
    | some e => run limit e

end Encounter

namespace Handshake

/-- More steps than the two sides of a handshake make together. -/
def turnLimit : Nat := 32

/-- The two sides of a handshake, run against each other. -/
def meet (connecting accepting : Side (Option PeerRecord)) (client server : Authorizer) :
    Encounter Result Result :=
  Encounter.run turnLimit
    { left := { dialogue := connecting.run, inbox := [], authorizer := client }
      right := { dialogue := accepting.run, inbox := [], authorizer := server } }

end Handshake

end PeerServices
