import PeerServices.Service.Descriptor
import PeerServices.Grant.PeerRecord
import PeerServices.Wire.Message

/-!
# Request handlers

A handler answers the requests of one code. It sees who asks and the request, and decides whether to
answer, to fail, or to stay silent; it may also hang up.

* `Handler.find?`: of several handlers for a code the last one counts.
* Ready handlers: `echo`, `add`, `increment`, `parseId`, `group`, `who`, `close`, `refuse`, `silent`,
  `fail`.
-/

namespace PeerServices

namespace Handler

/-- Who asks, as far as the handshake settled it. -/
structure Caller where
  peer : Option PeerAddress
  record : Option PeerRecord

/-- What a handler decides. -/
structure Reaction where
  /-- Hang up before answering. -/
  closes : Bool
  /-- The response, if there is one, or the text of a failure. -/
  answer : Except String (Option Message)

end Handler

abbrev Handler := Handler.Caller → Message → Handler.Reaction

namespace Handler

/-- Handlers with the codes that they answer. -/
abbrev Table := List (UInt8 × Handler)

def find? (table : Table) (code : UInt8) : Option Handler :=
  (table.reverse.find? (·.1 = code)).map (·.2)

def answering (answer : Caller → Message → Except String (Option Message)) : Handler :=
  fun caller m => { closes := false, answer := answer caller m }

/-- Reads the payload and answers with what is written for it. -/
def reading {α : Type} (reader : Reader α) (reply : UInt8) (write : α → Except String Bytes) :
    Handler :=
  answering fun _ m =>
    match m.readWith reader with
    | .error e => .error e.message
    | .ok (value, _) => (write value).map fun bytes => some ((m.respond reply).write bytes)

def echo (reply : UInt8) : Handler :=
  answering fun _ m => .ok <| some <| (m.respond reply).write m.unread

def add (reply : UInt8) : Handler :=
  reading (do return (← Varint.read) + (← Varint.read)) reply fun sum => .ok (Varint.encode sum)

def increment (reply : UInt8) : Handler :=
  reading Reader.int32 reply fun n => .ok (int32Bytes (n + 1))

def parseId (reply : UInt8) : Handler :=
  reading Codec.readText reply fun text =>
    match ServiceId.parse text with
    | .ok id => .ok (Serial.encode id)
    | .error e => .error e.message

def group (reply : UInt8) : Handler :=
  reading (Serial.read (α := Descriptor)) reply fun d => .ok (Codec.text d.group)

def who (reply : UInt8) : Handler :=
  answering fun caller m =>
    let address := (caller.peer.map PeerAddress.text).getD "none"
    let name := (caller.record.map PeerRecord.name).getD "none"
    .ok <| some <| ((m.respond reply).write (Codec.text address)).write (Codec.text name)

def close (reply : UInt8) : Handler :=
  fun _ m => { closes := true, answer := .ok (some (m.respond reply)) }

def refuse (text : String) : Handler := answering fun _ m => .ok (some (m.errorResponse text))

def silent : Handler := answering fun _ _ => .ok none

def fail (text : String) : Handler := answering fun _ _ => .error text

end Handler

end PeerServices
