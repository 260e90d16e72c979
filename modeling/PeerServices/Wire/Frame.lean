import PeerServices.Error.Service

/-!
# Frames

A stream of bytes carries frames: a length of four bytes in network order and a body of that
length. A stream may end between two frames, which is a clean end, or inside one, which is not.

* `Frame.encode` writes a frame. A body above `Frame.maxSize` has no frame.
* `Inbound.next` takes the first frame of what has arrived, waits for more of it, or tells why none
  will come. A header above `Frame.maxSize` is refused before its body arrives.
-/

namespace PeerServices

/-- A frame's body, or why there is none. -/
abbrev Received := Except WireError Bytes

namespace Frame

def maxSize : Nat := 16 * 1024 * 1024

def headerSize : Nat := 4

def maxHeader : Nat := UInt32.size - 1

def encode (body : Bytes) : Except WireError Bytes :=
  if body.length ≤ maxSize then .ok (BigEndian.ofNat headerSize body.length ++ body)
  else .error (.frameTooLarge (min body.length maxHeader) maxSize)

/-- What a frame holds, as a value that must fill it. -/
def decode (α : Type) [Serial α] (frame : Received) : Except WireError α :=
  match frame with
  | .error e => .error e
  | .ok body =>
    match Serial.decode α body with
    | .ok value => .ok value
    | .error e => .error (.codec e)

end Frame

/-! ## Streams that arrive -/

/-- What has arrived of a stream and was not read yet. -/
structure Inbound where
  bytes : Bytes
  /-- Nothing follows these bytes. -/
  ended : Bool

namespace Inbound

def empty : Inbound := ⟨[], false⟩

instance : Inhabited Inbound := ⟨empty⟩

/-- More of the stream arrives. Nothing follows its end. -/
def append (s : Inbound) (bytes : Bytes) : Inbound :=
  if s.ended then s else { s with bytes := s.bytes ++ bytes }

def finish (s : Inbound) : Inbound := { s with ended := true }

inductive Next
  /-- The next frame is not there yet. -/
  | waiting
  /-- The next frame, and the stream behind it. -/
  | frame (body : Bytes) (rest : Inbound)
  /-- No frame follows. -/
  | broken (cause : WireError)

def next (s : Inbound) : Next :=
  let header := s.bytes.take Frame.headerSize
  if header.length < Frame.headerSize then
    if s.ended then .broken .connectionClosed else .waiting
  else
    let size := BigEndian.toNat header
    if Frame.maxSize < size then .broken (.frameTooLarge size Frame.maxSize)
    else
      let behind := s.bytes.drop Frame.headerSize
      let body := behind.take size
      if body.length < size then
        if s.ended then .broken (.io .earlyEnd) else .waiting
      else .frame body { s with bytes := behind.drop size }

theorem length_of_next {s rest : Inbound} {body : Bytes} (h : s.next = .frame body rest) :
    rest.bytes.length < s.bytes.length := by
  unfold next at h
  dsimp only at h
  split at h
  · split at h <;> cases h
  next hHeader =>
    split at h
    · cases h
    · split at h
      · split at h <;> cases h
      · cases h
        simp only [Frame.headerSize, List.length_take, List.length_drop] at hHeader ⊢
        omega

end Inbound

end PeerServices
