import PeerServices.Grant.GrantSet

/-!
# Peer records

What a peer keeps about another one: its name, what either side grants the other, and whether a
change of the own grants still waits to be told.
-/

namespace PeerServices

structure PeerRecord where
  address : PeerAddress
  name : String
  /-- Own grants have changed since the last exchange. -/
  pending : Bool
  /-- What this side grants. -/
  exported : GrantSet
  /-- What the other side grants, as far as it was told. -/
  imported : GrantSet
  /-- Bytes of a later form of records, kept as they came. -/
  extension : Bytes
deriving DecidableEq

namespace PeerRecord

def version : UInt8 := 0

def create (address : PeerAddress) (name : String) : PeerRecord :=
  { address, name, pending := true, exported := .empty, imported := .empty, extension := [] }

instance : Inhabited PeerRecord := ⟨create .null ""⟩

def grant (r : PeerRecord) (ids : List ServiceId) (descriptors : List Descriptor) : PeerRecord :=
  { r with exported := .ofLists (r.exported.version + 1) ids descriptors, pending := true }

def granted (r : PeerRecord) (id : ServiceId) : Bool := r.exported.grants id

def available (r : PeerRecord) (id : ServiceId) : Bool := r.imported.grants id

/-- The descriptor under which the other side grants the service. -/
def availableDescriptor? (r : PeerRecord) (id : ServiceId) : Option Descriptor :=
  r.imported.descriptor? id

/-- Takes over what the other side exports; nothing is pending then. -/
def applyExchange (r : PeerRecord) (received : GrantSet) : PeerRecord :=
  { r with imported := received, pending := false }

/-- Drops the exported descriptors of an address and counts up the version, if there are any. -/
def removeExported? (r : PeerRecord) (address : ServiceAddress) : Option PeerRecord :=
  (r.exported.without? address).map fun s =>
    { r with exported := { s with version := s.version + 1 } }

/-- Drops the imported descriptors of an address, if there are any. -/
def removeImported? (r : PeerRecord) (address : ServiceAddress) : Option PeerRecord :=
  (r.imported.without? address).map fun s => { r with imported := s }

/-- Drops the descriptors of an address on both sides, if there are any. -/
def removeService? (r : PeerRecord) (address : ServiceAddress) : Option PeerRecord :=
  match r.removeExported? address with
  | none => r.removeImported? address
  | some r => some ((r.removeImported? address).getD r)

instance : Serial PeerRecord where
  encode r :=
    version :: Serial.encode r.address ++ Codec.text r.name ++ boolBytes r.pending ++
      Serial.encode r.exported ++ Serial.encode r.imported ++ Codec.blob r.extension
  read := do
    let form ← Reader.byte
    if form ≠ version then
      throw (.invalidData "entity" ("unsupported serial version " ++ toString form.toNat))
    let address ← Serial.read
    let name ← Codec.readText
    let pending ← Reader.bool
    let exported ← Serial.read
    let imported ← Serial.read
    let extension ← Codec.readBlob
    return { address, name, pending, exported, imported, extension }

end PeerRecord

end PeerServices
