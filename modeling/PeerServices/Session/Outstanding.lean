import PeerServices.Wire.Message

/-!
# Outstanding requests

The requests of a connection that were sent and not answered yet, each with the listeners for its
responses. A response takes the entry of its uid away and goes to at most one listener: an error to
the first one, any other response to the first one that waits for its code.
-/

namespace PeerServices

/-- Waits for responses with a code, and says where they go. -/
structure Listener (κ : Type) where
  code : UInt8
  target : κ
deriving DecidableEq

/-- Requests that wait for a response, with their listeners. -/
structure Outstanding (κ : Type) where
  entries : List (Int64 × List (Listener κ))

namespace Outstanding

variable {κ : Type}

def empty : Outstanding κ := ⟨[]⟩

instance : Inhabited (Outstanding κ) := ⟨empty⟩

def find? (t : Outstanding κ) (uid : Int64) : Option (List (Listener κ)) :=
  (t.entries.find? (·.1 = uid)).map (·.2)

def erase (t : Outstanding κ) (uid : Int64) : Outstanding κ :=
  ⟨t.entries.filter (·.1 ≠ uid)⟩

def insert (t : Outstanding κ) (uid : Int64) (listeners : List (Listener κ)) : Outstanding κ :=
  ⟨(t.erase uid).entries ++ [(uid, listeners)]⟩

def listeners (t : Outstanding κ) : List (Listener κ) := t.entries.flatMap (·.2)

/-- The listener that a response goes to. -/
def chosen? (m : Message) (listeners : List (Listener κ)) : Option (Listener κ) :=
  if m.isError then listeners.head? else listeners.find? (·.code = m.code)

end Outstanding

end PeerServices
