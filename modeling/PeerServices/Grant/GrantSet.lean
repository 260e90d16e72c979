import PeerServices.Service.Descriptor

/-!
# Grant sets

The services that one peer grants to another: ids, and descriptors, which grant the id of their
address. Every change of what is granted counts up the version.
-/

namespace PeerServices

structure GrantSet where
  version : Int64
  ids : SortedSet ServiceId
  descriptors : SortedSet Descriptor
deriving DecidableEq

namespace GrantSet

def empty : GrantSet := ⟨0, .empty, .empty⟩

instance : Inhabited GrantSet := ⟨empty⟩

def ofLists (version : Int64) (ids : List ServiceId) (descriptors : List Descriptor) : GrantSet :=
  ⟨version, .ofList ids, .ofList descriptors⟩

def isEmpty (s : GrantSet) : Bool := s.ids.isEmpty && s.descriptors.isEmpty

/-- The first descriptor of a service, in the order of descriptors. -/
def descriptor? (s : GrantSet) (id : ServiceId) : Option Descriptor :=
  s.descriptors.toList.find? (·.address.id = id)

/-- Is a service granted, by its id or by a descriptor? -/
def grants (s : GrantSet) (id : ServiceId) : Bool :=
  s.ids.toList.contains id || (s.descriptor? id).isSome

/-- The set without the descriptors of an address; nothing if there are none. -/
def without? (s : GrantSet) (address : ServiceAddress) : Option GrantSet :=
  if s.descriptors.toList.any (·.address = address) then
    some { s with descriptors := s.descriptors.filter (·.address ≠ address) }
  else none

instance : Serial GrantSet where
  encode s :=
    int64Bytes s.version ++ Codec.sequence s.ids.toList ++ Codec.sequence s.descriptors.toList
  read := do
    let version ← Reader.int64
    let ids ← Codec.readSet
    let descriptors ← Codec.readSet
    return { version, ids, descriptors }

end GrantSet

end PeerServices
