import PeerServices.Identity.PeerAddress
import PeerServices.Text.Numeral

/-!
# Service ids, addresses and scopes

* `ServiceId`: a signed 64-bit number. Text gives positive ids only; zero and negative ids are
  reserved.
* `ServiceAddress`: a service id at a host, written `host:id`. Addresses are ordered by id first.
* `Scope`: who may connect to a service.
-/

namespace PeerServices

/-! ## Ids -/

structure ServiceId where
  value : Int64
deriving DecidableEq

namespace ServiceId

def null : ServiceId := ⟨0⟩

/-- The built-in service by which peers exchange their grants. -/
def exchange : ServiceId := ⟨-1⟩

instance : Inhabited ServiceId := ⟨null⟩

instance : Ord ServiceId := ⟨compareOn value⟩

instance : Std.TransOrd ServiceId := inferInstanceAs (Std.TransCmp (compareOn value))

instance : Hashable ServiceId := ⟨fun id => hash id.value⟩

instance : Serial ServiceId where
  encode id := int64Bytes id.value
  read := return ⟨← Reader.int64⟩

/-- An id for use: ids below one are reserved. -/
def ofPositive (n : Int64) : Except ValueError ServiceId :=
  if n < 1 then .error (.nonPositiveServiceId n) else .ok ⟨n⟩

def text (id : ServiceId) : String := toString id.value.toInt

/-- Reads the text of an id, with white space around it. -/
def parse (s : String) : Except ValueError ServiceId :=
  match Text.readInt64? (Text.trimChars s.toList) with
  | none => .error (.malformed "service id" s)
  | some n => ofPositive n

end ServiceId

/-! ## Addresses -/

structure ServiceAddress where
  id : ServiceId
  host : PeerAddress
deriving DecidableEq

namespace ServiceAddress

def null : ServiceAddress := ⟨.null, .null⟩

instance : Inhabited ServiceAddress := ⟨null⟩

instance : Ord ServiceAddress := ⟨compareLex (compareOn id) (compareOn host)⟩

instance : Std.TransOrd ServiceAddress :=
  inferInstanceAs (Std.TransCmp (compareLex (compareOn id) (compareOn host)))

instance : Hashable ServiceAddress := ⟨fun a => mixHash (hash a.id) (hash a.host)⟩

instance : Serial ServiceAddress where
  encode a := Serial.encode a.id ++ Serial.encode a.host
  read := do
    let id ← Serial.read
    let host ← Serial.read
    return { id, host }

def text (a : ServiceAddress) : String := a.host.text ++ ":" ++ a.id.text

/-- What stands before and after the last colon. -/
def splitAtLastColon (cs : List Char) : Option (List Char × List Char) :=
  let reversed := cs.reverse
  match reversed.dropWhile (· ≠ ':') with
  | [] => none
  | _ :: before => some (before.reverse, (reversed.takeWhile (· ≠ ':')).reverse)

/-- Reads the text of an address. The address of no service is read too; any other id has to be
positive. -/
def parse (s : String) : Except ValueError ServiceAddress :=
  match splitAtLastColon s.toList with
  | none => .error (.malformed "service address" s)
  | some (hostText, idText) => do
    let host ← PeerAddress.parse (String.ofList hostText)
    if host = .null ∧ Text.trimChars idText = ['0'] then
      return null
    let id ← ServiceId.parse (String.ofList idText)
    return { id, host }

end ServiceAddress

/-! ## Scopes -/

inductive Scope
  | anyone
  /-- Peers that were granted the service. -/
  | restricted
deriving DecidableEq, Repr

namespace Scope

def ordinal : Scope → UInt8
  | .anyone => 0
  | .restricted => 1

instance : Inhabited Scope := ⟨.anyone⟩

instance : Ord Scope := ⟨compareOn ordinal⟩

instance : Std.TransOrd Scope := inferInstanceAs (Std.TransCmp (compareOn ordinal))

instance : Hashable Scope := ⟨fun s => hash s.ordinal⟩

instance : Serial Scope where
  encode s := [s.ordinal]
  read := do
    match ← Reader.byte with
    | 0 => return .anyone
    | 1 => return .restricted
    | other => throw (.invalidOrdinal "scope" other)

end Scope

end PeerServices
