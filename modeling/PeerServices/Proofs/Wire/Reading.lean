import PeerServices.Proofs.Codec.Access
import PeerServices.Proofs.Wire.NormalForm

/-!
# Reading whatever arrives

All that arrives is read by readers that take no byte that is not there, whatever the bytes are.
They look at nothing behind what they take, so a value that is there stays there when more arrives,
and so does an error, unless it is about too few bytes. No text or blob that is read is longer than
allowed, and no set has more members than there are bytes.

* `X.careful`: every type is read carefully, by the accesses `X.access`.
* `WireKind.blobs_le`, `WireKind.counts_le`: the bounds of what is in a value that was read.
* `WireKind.reads_safely`: all of it, also for sets.
-/

namespace PeerServices

open Reader Codec

/-! ## Every type is read carefully -/

namespace ServiceId

def access : Access ServiceId := do return ⟨← Access.int64⟩

theorem careful : (Serial.read : Reader ServiceId).Careful access := careful_int64.map ServiceId.mk

end ServiceId

namespace PeerAddress

def access : Access PeerAddress := do return ⟨← Access.octets 20⟩

theorem careful : (Serial.read : Reader PeerAddress).Careful access :=
  (careful_octets 20).map PeerAddress.mk

end PeerAddress

namespace Challenge

def access : Access Challenge := do return ⟨← Access.octets 16⟩

theorem careful : (Serial.read : Reader Challenge).Careful access :=
  (careful_octets 16).map Challenge.mk

end Challenge

namespace ServiceAddress

def access : Access ServiceAddress := do
  let id ← ServiceId.access
  let host ← PeerAddress.access
  return { id, host }

theorem careful : (Serial.read : Reader ServiceAddress).Careful access :=
  ServiceId.careful.bind fun id => PeerAddress.careful.map (ServiceAddress.mk id)

end ServiceAddress

namespace Scope

def access : Access Scope := do
  match ← Access.byte with
  | 0 => return .anyone
  | 1 => return .restricted
  | other => Access.refuse (.invalidOrdinal "scope" other)

theorem careful : (Serial.read : Reader Scope).Careful access := careful_ordinal _ _ _

end Scope

namespace SignedData

def access : Access SignedData := do
  let publicKey ← Access.octets 32
  let data ← Access.blob
  let signature ← Access.octets 64
  return { publicKey, data, signature }

theorem careful : (Serial.read : Reader SignedData).Careful access :=
  (careful_octets 32).bind fun publicKey => careful_blob.bind fun data =>
    (careful_octets 64).map (SignedData.mk publicKey data)

end SignedData

namespace Description

def access : Access Description := do
  let title ← Access.text
  let blurb ← Access.text
  let image ← Access.blob
  match create title blurb image with
  | .ok d => return d
  | .error e => Access.refuse (.invalidData "description" e.message)

theorem careful : (Serial.read : Reader Description).Careful access := by
  refine careful_text.bind fun title => ?_
  refine careful_text.bind fun blurb => ?_
  refine careful_blob.bind fun image => ?_
  cases create title blurb image with
  | error e => exact careful_throw _
  | ok d => exact careful_pure d

end Description

namespace Descriptor

def access : Access Descriptor := do
  let form ← Access.byte
  if form ≠ version then
    Access.refuse (.invalidData "descriptor" ("unsupported version " ++ toString form.toNat))
  let address ← ServiceAddress.access
  let kind ← Access.int32
  let scope ← Scope.access
  let group ← Access.text
  let rawTags ← Access.text
  let description ← Description.access
  let extension ← Access.blob
  return { address, kind, scope, group, rawTags, description, extension }

theorem careful : (Serial.read : Reader Descriptor).Careful access := by
  refine careful_byte.bind fun form => Careful.guard ?_ _ _
  refine ServiceAddress.careful.bind fun address => ?_
  refine careful_int32.bind fun kind => ?_
  refine Scope.careful.bind fun scope => ?_
  refine careful_text.bind fun group => ?_
  refine careful_text.bind fun rawTags => ?_
  refine Description.careful.bind fun description => ?_
  exact careful_blob.bind fun extension => careful_pure _

end Descriptor

namespace GrantSet

def access : Access GrantSet := do
  let version ← Access.int64
  let ids ← Access.set ServiceId.access
  let descriptors ← Access.set Descriptor.access
  return { version, ids, descriptors }

theorem careful : (Serial.read : Reader GrantSet).Careful access :=
  careful_int64.bind fun version => ServiceId.careful.set.bind fun ids =>
    Descriptor.careful.set.map (GrantSet.mk version ids)

end GrantSet

namespace PeerRecord

def access : Access PeerRecord := do
  let form ← Access.byte
  if form ≠ version then
    Access.refuse (.invalidData "entity" ("unsupported serial version " ++ toString form.toNat))
  let address ← PeerAddress.access
  let name ← Access.text
  let pending ← Access.bool
  let exported ← GrantSet.access
  let imported ← GrantSet.access
  let extension ← Access.blob
  return { address, name, pending, exported, imported, extension }

theorem careful : (Serial.read : Reader PeerRecord).Careful access := by
  refine careful_byte.bind fun form => Careful.guard ?_ _ _
  refine PeerAddress.careful.bind fun address => ?_
  refine careful_text.bind fun name => ?_
  refine careful_bool.bind fun pending => ?_
  refine GrantSet.careful.bind fun exported => ?_
  refine GrantSet.careful.bind fun imported => ?_
  exact careful_blob.bind fun extension => careful_pure _

end PeerRecord

namespace Message

def kindAccess : Access MessageKind := do
  match ← Access.byte with
  | 0 => return .request
  | 1 => return .response
  | other => Access.refuse (.invalidOrdinal "message kind" other)

def statusAccess : Access MessageStatus := do
  match ← Access.byte with
  | 0 => return .ok
  | 1 => return .error
  | other => Access.refuse (.invalidOrdinal "message status" other)

def access : Access Message := do
  let kind ← kindAccess
  let uid ← Access.int64
  let status ← statusAccess
  let code ← Access.byte
  let unread ← Access.blob
  return { kind, uid, status, code, unread, written := [] }

theorem careful_kind : readKind.Careful kindAccess := careful_ordinal _ _ _

theorem careful_status : readStatus.Careful statusAccess := careful_ordinal _ _ _

theorem careful : (Serial.read : Reader Message).Careful access := by
  refine careful_kind.bind fun kind => ?_
  refine careful_int64.bind fun uid => ?_
  refine careful_status.bind fun status => ?_
  refine careful_byte.bind fun code => ?_
  exact careful_blob.bind fun unread => careful_pure _

end Message

/-! ## What is in a value that was read -/

namespace Description

/-- The texts and the image of a description, as bytes. -/
def blobs (d : Description) : List Bytes := [utf8 d.title, utf8 d.blurb, d.image]

theorem Admitted.blobs_le {d : Description} (h : d.Admitted) :
    ∀ bytes ∈ d.blobs, bytes.length ≤ maxBlobLength := by
  simp only [blobs, List.forall_mem_cons]
  exact ⟨h.title, h.blurb, h.image, List.forall_mem_nil _⟩

end Description

namespace Descriptor

def blobs (x : Descriptor) : List Bytes :=
  utf8 x.group :: utf8 x.rawTags :: x.extension :: x.description.blobs

theorem Admitted.blobs_le {x : Descriptor} (h : x.Admitted) :
    ∀ bytes ∈ x.blobs, bytes.length ≤ maxBlobLength := by
  simp only [blobs, List.forall_mem_cons]
  exact ⟨h.group, h.rawTags, h.extension, h.description.blobs_le⟩

end Descriptor

namespace GrantSet

def blobs (s : GrantSet) : List Bytes := s.descriptors.toList.flatMap Descriptor.blobs

theorem blobs_le {s : GrantSet} (h : s.listing.Admitted) :
    ∀ bytes ∈ s.blobs, bytes.length ≤ maxBlobLength := by
  intro bytes hMem
  obtain ⟨x, hx, hBytes⟩ := List.mem_flatMap.mp hMem
  exact (h.descriptor x hx).blobs_le bytes hBytes

theorem counts_le (s : GrantSet) : ∀ c ∈ s.counts, c.size ≤ (Serial.encode s).length := by
  have hIds := length_le_length_sequence fun id (_ : id ∈ s.ids.toList) => id.encode_ne_nil
  have hDescriptors :=
    length_le_length_sequence fun x (_ : x ∈ s.descriptors.toList) => x.encode_ne_nil
  have hLength : (Serial.encode s).length = (int64Bytes s.version).length +
      (sequence s.ids.toList).length + (sequence s.descriptors.toList).length := by
    simp only [Serial.encode, List.length_append]
  simp only [counts, SortedSet.size, List.forall_mem_cons]
  exact ⟨by omega, by omega, List.forall_mem_nil _⟩

end GrantSet

namespace PeerRecord

def blobs (r : PeerRecord) : List Bytes :=
  utf8 r.name :: r.extension :: (r.exported.blobs ++ r.imported.blobs)

theorem blobs_le {r : PeerRecord} (h : r.listing.Admitted) :
    ∀ bytes ∈ r.blobs, bytes.length ≤ maxBlobLength := by
  simp only [blobs, List.forall_mem_cons, List.forall_mem_append]
  exact ⟨h.name, h.extension, GrantSet.blobs_le h.exported, GrantSet.blobs_le h.imported⟩

theorem counts_le (r : PeerRecord) : ∀ c ∈ r.counts, c.size ≤ (Serial.encode r).length := by
  have hForm : Serial.encode r = r.preamble ++ Serial.encode r.exported ++
      Serial.encode r.imported ++ blob r.extension := rfl
  have hLength := congrArg List.length hForm
  simp only [List.length_append] at hLength
  intro c hMem
  rcases List.mem_append.mp hMem with hMem | hMem
  · obtain ⟨c, hCount, rfl⟩ := List.mem_map.mp hMem
    have hSize := r.exported.counts_le c hCount
    simp only [Count.shift]
    omega
  · obtain ⟨c, hCount, rfl⟩ := List.mem_map.mp hMem
    have hSize := r.imported.counts_le c hCount
    simp only [Count.shift]
    omega

end PeerRecord

/-! ## All kinds of values -/

namespace WireKind

def access : (k : WireKind) → Access k.Value
  | .serviceId => ServiceId.access
  | .peerAddress => PeerAddress.access
  | .serviceAddress => ServiceAddress.access
  | .scope => Scope.access
  | .description => Description.access
  | .descriptor => Descriptor.access
  | .grantSet => GrantSet.access
  | .peerRecord => PeerRecord.access
  | .signedData => SignedData.access
  | .challenge => Challenge.access
  | .message => Message.access

/-- The texts and blobs in a value, as bytes. -/
def blobs : (k : WireKind) → k.Value → List Bytes
  | .description, d => Description.blobs d
  | .descriptor, x => Descriptor.blobs x
  | .grantSet, s => GrantSet.blobs s
  | .peerRecord, r => PeerRecord.blobs r
  | .signedData, p => [SignedData.data p]
  | .message, m => [Message.unread m, Message.written m]
  | .serviceId, _ | .peerAddress, _ | .serviceAddress, _ | .scope, _ | .challenge, _ => []

theorem careful (k : WireKind) : (Serial.read : Reader k.Value).Careful k.access := by
  cases k with
  | serviceId => exact ServiceId.careful
  | peerAddress => exact PeerAddress.careful
  | serviceAddress => exact ServiceAddress.careful
  | scope => exact Scope.careful
  | description => exact Description.careful
  | descriptor => exact Descriptor.careful
  | grantSet => exact GrantSet.careful
  | peerRecord => exact PeerRecord.careful
  | signedData => exact SignedData.careful
  | challenge => exact Challenge.careful
  | message => exact Message.careful

variable {k : WireKind} {input rest : Bytes} {v : k.Value}

theorem blobs_le (h : (Serial.read : Reader k.Value) input = .ok (v, rest)) :
    ∀ bytes ∈ k.blobs v, bytes.length ≤ maxBlobLength := by
  obtain ⟨l, hAdmits, rfl, -⟩ := (k.follows.reads _ _ _).mp h
  -- The value's own listing is accepted too, so the parts of the value are short enough.
  cases k with
  | description => exact (Description.normal.admits_own l hAdmits).blobs_le
  | descriptor => exact (Descriptor.normal.admits_own l hAdmits).blobs_le
  | grantSet => exact GrantSet.blobs_le (GrantSet.normal.admits_own l hAdmits)
  | peerRecord => exact PeerRecord.blobs_le (PeerRecord.normal.admits_own l hAdmits)
  | signedData => exact List.forall_mem_singleton.mpr hAdmits
  | message =>
    obtain ⟨hUnread, hWritten⟩ := hAdmits
    have hNone : (Message.written l).length ≤ maxBlobLength := by
      rw [hWritten]
      exact Nat.zero_le _
    exact List.forall_mem_cons.mpr ⟨hUnread, List.forall_mem_singleton.mpr hNone⟩
  | serviceId | peerAddress | serviceAddress | scope | challenge => exact nofun

theorem counts_le (h : (Serial.read : Reader k.Value) input = .ok (v, rest)) :
    ∀ c ∈ k.counts v, c.size ≤ input.length := by
  obtain ⟨l, hAdmits, rfl, rfl⟩ := (k.follows.reads _ _ _).mp h
  -- What is written of a value is no longer than what it was read from.
  have hShort : k ≠ .message → (Serial.encode (k.form.value l)).length ≤
      (k.form.bytes l ++ rest).length := by
    intro hKind
    rw [← (normal hKind).bytes_own, List.length_append]
    exact Nat.le_add_right_of_le ((normal hKind).length_own_le l hAdmits)
  cases k with
  | grantSet => exact fun c hMem => Nat.le_trans (GrantSet.counts_le _ c hMem) (hShort nofun)
  | peerRecord => exact fun c hMem => Nat.le_trans (PeerRecord.counts_le _ c hMem) (hShort nofun)
  | serviceId | peerAddress | serviceAddress | scope | description | descriptor | signedData
  | challenge | message => exact nofun

/-- Whatever the bytes are, no reader takes one that is not there. On success it leaves a suffix of
its input, and it gives the same value, and leaves what follows, when more follows. An error that is
not about too few bytes or too great a length stays the same when more follows. All this holds for
every kind of value, for sets of them in any order, and for the readers that they are made of. What
is read holds no text or blob above the limit and no set with more members than there are bytes. -/
theorem reads_safely :
    (∀ k : WireKind, (Serial.read : Reader k.Value).Careful k.access ∧
      (∀ input, k.access input ≠ .error .overrun) ∧
      ∀ input v rest, (Serial.read : Reader k.Value) input = .ok (v, rest) →
        (∀ bytes ∈ k.blobs v, bytes.length ≤ maxBlobLength) ∧
          ∀ c ∈ k.counts v, c.size ≤ input.length) ∧
    (∀ (k : WireKind) (_ : Ord k.Value) (_ : Std.TransOrd k.Value),
      (readSet : Reader (SortedSet k.Value)).Careful (.set k.access) ∧
      (∀ input, Access.set k.access input ≠ .error .overrun) ∧
      ∀ input s rest, (readSet : Reader (SortedSet k.Value)) input = .ok (s, rest) →
        s.size ≤ input.length ∧ ∀ v ∈ s.toList,
          (∀ bytes ∈ k.blobs v, bytes.length ≤ maxBlobLength) ∧
            ∀ c ∈ k.counts v, c.size ≤ input.length) ∧
    (byte.Careful .byte ∧ int32.Careful .int32 ∧ int64.Careful .int64 ∧ bool.Careful .bool ∧
      (∀ n, (octets n).Careful (.octets n)) ∧ Varint.read.Careful .varint ∧
      readBlob.Careful .blob ∧ readText.Careful .text) ∧
    (∀ input bytes rest, readBlob input = .ok (bytes, rest) → bytes.length ≤ maxBlobLength) ∧
    ∀ input s rest, readText input = .ok (s, rest) → (utf8 s).length ≤ maxBlobLength := by
  refine ⟨fun k => ⟨k.careful, k.careful.not_overrun, fun input v rest h =>
    ⟨blobs_le h, counts_le h⟩⟩, ?_, ?_, ?_, ?_⟩
  · intro k _ _
    refine ⟨k.careful.set, k.careful.set.not_overrun, fun input s rest h => ?_⟩
    obtain ⟨hSize, hMembers⟩ := of_readSet k.careful h
    refine ⟨hSize, fun v hMem => ?_⟩
    obtain ⟨front, behind, hFront, hRead⟩ := hMembers v hMem
    exact ⟨blobs_le hRead, fun c hCount => Nat.le_trans (counts_le hRead c hCount) hFront.length_le⟩
  · exact ⟨careful_byte, careful_int32, careful_int64, careful_bool, careful_octets,
      careful_varint, careful_blob, careful_text⟩
  · exact fun input bytes rest h => ((exactOn_readBlob _ _ _).mp h).1
  · exact fun input s rest h => ((exactOn_readText _ _ _).mp h).1

/-- A grant set and a scope that is none, with more behind them. -/
theorem sample_reads_safely :
    let input := GrantSet.form.bytes unsortedListing
    let s := GrantSet.ofLists 1 [⟨7⟩, ⟨9⟩] []
    ((Serial.read : Reader GrantSet) input = .ok (s, []) ∧
      (∀ more, (Serial.read : Reader GrantSet) (input ++ more) = .ok (s, more)) ∧
      ∀ c ∈ s.counts, c.size ≤ input.length) ∧
    (Serial.read : Reader Scope) [2] = .error (.invalidOrdinal "scope" 2) ∧
      ∀ more, (Serial.read : Reader Scope) ([2] ++ more) = .error (.invalidOrdinal "scope" 2) := by
  intro input s
  have hRead : (Serial.read : Reader GrantSet) input = .ok (s, []) :=
    (GrantSet.follows.reads _ _ _).mpr
      ⟨unsortedListing, ⟨by decide, by decide, nofun⟩, by decide, (List.append_nil _).symm⟩
  have hError : (Serial.read : Reader Scope) [2] = .error (.invalidOrdinal "scope" 2) := rfl
  obtain ⟨hCareful, -, hBounds⟩ := reads_safely.1 .grantSet
  obtain ⟨hScope, -, -⟩ := reads_safely.1 .scope
  exact ⟨⟨hRead, hCareful.extend hRead, (hBounds input s [] hRead).2⟩, hError,
    hScope.final hError trivial⟩

end WireKind

end PeerServices
