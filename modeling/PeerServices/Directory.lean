import PeerServices.Collection.SortedMap
import PeerServices.Error.Node
import PeerServices.Grant.PeerRecord

/-!
# Directories

The records of all peers that a peer knows. Every change tells what happened as a list of events, in
order, so whoever follows the events knows the records.

* `Directory.add`, `update`, `delete`, `grant`, `deleteService`, `purge`: changes by the owner.
* `Directory.receiveExchange`, `exchanged`: what the two sides of an exchange of grants make of what
  the other side sent. The answering side tells its own grants only if they were pending.
* `Directory.authorize`: who may use which service. Everyone known may exchange grants.
-/

namespace PeerServices

inductive DirectoryEvent
  | added (record : PeerRecord)
  | updated (record : PeerRecord)
  | deleted (address : PeerAddress)
  /-- A record's grants now wait to be told, or wait no longer. -/
  | pendingChanged (address : PeerAddress) (pending : Bool)
  /-- An exchange is over and its result is stored. -/
  | exchanged (record : PeerRecord)
deriving DecidableEq

inductive GrantSide
  /-- What the other peer grants. -/
  | imported
  /-- What this peer grants. -/
  | exported
deriving DecidableEq, Repr

structure Directory where
  records : SortedMap PeerAddress PeerRecord

namespace Directory

def empty : Directory := ⟨.empty⟩

instance : Inhabited Directory := ⟨empty⟩

/-- A directory after a change, and what happened. -/
abbrev Change := Directory × List DirectoryEvent

/-! ## Look-ups -/

def find? (d : Directory) (address : PeerAddress) : Option PeerRecord := d.records.find? address

def size (d : Directory) : Nat := d.records.size

/-- Comes the first record before the second one, by name and then by address? -/
def isBefore (a b : PeerRecord) : Bool :=
  (compareLex (compareOn PeerRecord.name) (compareOn PeerRecord.address) a b).isLE

/-- All records, by name and then by address. -/
def entities (d : Directory) : List PeerRecord := d.records.values.mergeSort isBefore

/-- The record of a peer that may use a service: it was granted, or it is the exchange of grants. -/
def authorize (d : Directory) (address : PeerAddress) (service : ServiceId) : Option PeerRecord :=
  (d.find? address).filter fun r => service = .exchange || r.granted service

/-! ## Changes by the owner -/

def store (d : Directory) (r : PeerRecord) : Directory := ⟨d.records.insert r.address r⟩

/-- Adds a record, instead of any with the same address. -/
def add (d : Directory) (r : PeerRecord) : Change := (d.store r, [.added r])

def update (d : Directory) (r : PeerRecord) : Except NodeError Change :=
  match d.find? r.address with
  | none => .error (.unknownEntity r.address)
  | some _ => .ok (d.store r, [.updated r])

def delete (d : Directory) (address : PeerAddress) : Change :=
  match d.find? address with
  | none => (d, [])
  | some _ => (⟨d.records.erase address⟩, [.deleted address])

/-- Grants a peer exactly the given services from now on. -/
def grant (d : Directory) (address : PeerAddress) (ids : List ServiceId)
    (descriptors : List Descriptor) : Except NodeError Change :=
  match d.find? address with
  | none => .error (.unknownEntity address)
  | some r =>
    let granted := r.grant ids descriptors
    let flip := if r.pending then [] else [.pendingChanged address true]
    .ok (d.store granted, flip ++ [.updated granted])

/-- Changes the records for which the change gives something, in the order of addresses. -/
def changeAll (d : Directory) (change? : PeerRecord → Option PeerRecord) : Change :=
  (⟨d.records.mapValues fun _ r => (change? r).getD r⟩,
    (d.records.values.filterMap change?).map .updated)

/-- Drops a service from one side of every record. -/
def deleteService (d : Directory) (side : GrantSide) (service : ServiceAddress) : Change :=
  d.changeAll fun r =>
    match side with
    | .imported => r.removeImported? service
    | .exported => r.removeExported? service

def purge (d : Directory) (service : ServiceAddress) : Change :=
  d.changeAll fun r => r.removeService? service

/-! ## Exchanges -/

def finishExchange (d : Directory) (wasPending : Bool) (r : PeerRecord) : Change :=
  let flip := if wasPending then [.pendingChanged r.address false] else []
  (d.store r, flip ++ [.exchanged r])

/-- The answering side: takes over what the peer exports. Gives the own grants to answer with, if
they were pending. -/
def receiveExchange (d : Directory) (address : PeerAddress) (data : GrantSet) :
    Except NodeError (Option GrantSet × Change) :=
  match d.find? address with
  | none => .error (.unknownEntity address)
  | some r =>
    let reply := if r.pending then some r.exported else none
    .ok (reply, d.finishExchange r.pending (r.applyExchange data))

/-- The asking side: takes over what the peer answered with, if anything. -/
def exchanged (d : Directory) (address : PeerAddress) (data : Option GrantSet) : Change :=
  match d.find? address with
  | none => (d, [])
  | some r =>
    let applied :=
      match data with
      | some data => r.applyExchange data
      | none => { r with pending := false }
    d.finishExchange r.pending applied

end Directory

end PeerServices
