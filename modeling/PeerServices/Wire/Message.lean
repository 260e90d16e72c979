import PeerServices.Codec.Serial

/-!
# Messages

One request or response on a connection: its kind, the uid that a response shares with its request,
a status, a code, and a payload. A message that was read holds its payload in `unread`; a message
being built collects one in `written`. Only what is written goes out.

* `Message.request`, `Message.respond`, `Message.errorResponse` build messages.
* `Message.get` reads the next value of the payload.
-/

namespace PeerServices

inductive MessageKind
  | request
  | response
deriving DecidableEq, Repr

inductive MessageStatus
  | ok
  | error
deriving DecidableEq, Repr

structure Message where
  kind : MessageKind
  uid : Int64
  status : MessageStatus
  code : UInt8
  /-- The received payload that was not read yet. -/
  unread : Bytes
  /-- The payload to send. -/
  written : Bytes
deriving DecidableEq

namespace Message

def request (uid : Int64) (code : UInt8) : Message :=
  { kind := .request, uid, status := .ok, code, unread := [], written := [] }

instance : Inhabited Message := ⟨request 0 0⟩

def respond (m : Message) (code : UInt8) : Message :=
  { kind := .response, uid := m.uid, status := .ok, code, unread := [], written := [] }

def errorFor (uid : Int64) (text : String) : Message :=
  { kind := .response, uid, status := .error, code := 0, unread := []
    written := Codec.text text }

def errorResponse (m : Message) (text : String) : Message := errorFor m.uid text

def isRequest (m : Message) : Bool := m.kind = .request

def isError (m : Message) : Bool := m.status = .error

def errorText? (m : Message) : Option String :=
  if m.isError then
    match Codec.readText m.unread with
    | .ok (text, _) => some text
    | .error _ => none
  else none

def write (m : Message) (bytes : Bytes) : Message := { m with written := m.written ++ bytes }

def put {α : Type} [Serial α] (m : Message) (value : α) : Message :=
  m.write (Serial.encode value)

/-- Reads from the received payload. A reader that fails gives nothing back. -/
def readWith {α : Type} (m : Message) (reader : Reader α) : Except Codec.Error (α × Message) := do
  let (value, rest) ← reader m.unread
  return (value, { m with unread := rest })

def get (α : Type) [Serial α] (m : Message) : Except Codec.Error (α × Message) :=
  m.readWith Serial.read

def kindByte : MessageKind → UInt8
  | .request => 0
  | .response => 1

def statusByte : MessageStatus → UInt8
  | .ok => 0
  | .error => 1

def readKind : Reader MessageKind := do
  match ← Reader.byte with
  | 0 => return .request
  | 1 => return .response
  | other => throw (.invalidOrdinal "message kind" other)

def readStatus : Reader MessageStatus := do
  match ← Reader.byte with
  | 0 => return .ok
  | 1 => return .error
  | other => throw (.invalidOrdinal "message status" other)

instance : Serial Message where
  encode m :=
    kindByte m.kind :: int64Bytes m.uid ++ statusByte m.status :: m.code :: Codec.blob m.written
  read := do
    let kind ← readKind
    let uid ← Reader.int64
    let status ← readStatus
    let code ← Reader.byte
    let unread ← Codec.readBlob
    return { kind, uid, status, code, unread, written := [] }

end Message

end PeerServices
