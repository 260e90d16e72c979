import PeerServices.Service.Address
import PeerServices.Service.Description

/-!
# Descriptors

What a peer publishes about one of its services. Equality and order look at every field, the hash at
the address only, so two revisions of one service hash alike.
-/

namespace PeerServices

structure Descriptor where
  address : ServiceAddress
  /-- A number whose meaning is the publisher's. -/
  kind : Int32
  scope : Scope
  group : String
  /-- The tags as published, in one text. -/
  rawTags : String
  description : Description
  /-- Bytes of a later form of descriptors, kept as they came. -/
  extension : Bytes
deriving DecidableEq

namespace Descriptor

def version : UInt8 := 0

def maxTags : Nat := 5

def create (address : ServiceAddress) (kind : Int32) (scope : Scope) (group rawTags : String)
    (description : Description) : Descriptor :=
  { address, kind, scope, group, rawTags, description, extension := [] }

def basic (address : ServiceAddress) (group : String) (kind : Int32) : Descriptor :=
  create address kind .anyone group "" .empty

def isPublic (d : Descriptor) : Bool := d.scope = .anyone

/-- The first tags of a descriptor, in lowercase. -/
def tags (d : Descriptor) : SortedSet String :=
  .ofList (((Text.words d.rawTags).take maxTags).map Text.lowercase)

instance : Ord Descriptor :=
  ⟨compareLex (compareOn address) <| compareLex (compareOn kind) <| compareLex (compareOn scope) <|
    compareLex (compareOn group) <| compareLex (compareOn rawTags) <|
    compareLex (compareOn description) (compareOn extension)⟩

instance : Std.TransOrd Descriptor :=
  inferInstanceAs (Std.TransCmp
    (compareLex (compareOn address) <| compareLex (compareOn kind) <|
      compareLex (compareOn scope) <| compareLex (compareOn group) <|
      compareLex (compareOn rawTags) <| compareLex (compareOn description) (compareOn extension)))

instance : Hashable Descriptor := ⟨fun d => hash d.address⟩

instance : Serial Descriptor where
  encode d :=
    version :: Serial.encode d.address ++ int32Bytes d.kind ++ Serial.encode d.scope ++
      Codec.text d.group ++ Codec.text d.rawTags ++ Serial.encode d.description ++
      Codec.blob d.extension
  read := do
    let form ← Reader.byte
    if form ≠ version then
      throw (.invalidData "descriptor" ("unsupported version " ++ toString form.toNat))
    let address ← Serial.read
    let kind ← Reader.int32
    let scope ← Serial.read
    let group ← Codec.readText
    let rawTags ← Codec.readText
    let description ← Serial.read
    let extension ← Codec.readBlob
    return { address, kind, scope, group, rawTags, description, extension }

end Descriptor

end PeerServices
