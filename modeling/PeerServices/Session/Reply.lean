import PeerServices.Error.Service
import PeerServices.Wire.Message

/-!
# Replies

What a request is answered with, and how it is read from a response. An error response is the
failure of the request; any other response is read in the form that the request expects.
-/

namespace PeerServices.Reply

inductive Value
  /-- Nothing but the fact that there is an answer. -/
  | done
  | message (m : Message)
  | varint (n : UInt64)
  | int32 (n : Int32)
  | text (s : String)
  | id (i : ServiceId)
deriving DecidableEq

/-- How the value of a request is read from a response. -/
inductive Form
  | done
  | message
  | varint
  | int32
  | text
  | id
  /-- No response is good enough. -/
  | rejected (why : String)
deriving DecidableEq

abbrev Result := Except ServiceError Value

def readWith {α : Type} (m : Message) (reader : Reader α) (value : α → Value) : Result :=
  match m.readWith reader with
  | .ok (a, _) => .ok (value a)
  | .error e => .error (.ofCodec e)

def Form.read (m : Message) : Form → Result
  | .done => .ok .done
  | .message => .ok (.message m)
  | .varint => readWith m Varint.read .varint
  | .int32 => readWith m Reader.int32 .int32
  | .text => readWith m Codec.readText .text
  | .id => readWith m Serial.read .id
  | .rejected why => .error (.execution why)

/-- The failure that an error response stands for, if it is one. -/
def failure? (m : Message) : Option ServiceError :=
  if m.isError then some (.execution (m.errorText?.getD "")) else none

def ofResponse (m : Message) (form : Form) : Result :=
  match failure? m with
  | some e => .error e
  | none => form.read m

/-- The connection was closed, or nobody is left who could answer. -/
def dropped : ServiceError := .io ⟨.connectionAborted, "Connection closed"⟩

end PeerServices.Reply
