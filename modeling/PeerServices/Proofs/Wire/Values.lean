import PeerServices.Grant.PeerRecord
import PeerServices.Proofs.Codec.RoundTrip
import PeerServices.Proofs.Service.Description
import PeerServices.Proofs.Service.Order
import PeerServices.Wire.Challenge
import PeerServices.Wire.Message

/-!
# Values of the wire format

Every value is undone by the reader of its type, if its texts and blobs are of an allowed length and
a machine can count its sets. Only grant sets, and records with them, hold counts.

* `X.Fits`: what the written form of a value needs in order to be read.
* `X.undoes`: the reader undoes it. Only a message comes back changed: what was written is left to
  be read.
-/

namespace PeerServices

open Reader

/-! ## Values and what is in them -/

theorem ServiceId.undoes (id : ServiceId) :
    (Serial.read : Reader ServiceId).Undoes (Serial.encode id) id [] :=
  (undoes_int64 id.value).map rfl

theorem ServiceId.encode_ne_nil (id : ServiceId) : Serial.encode id ≠ [] := by
  intro hNil
  have hLength : (int64Bytes id.value).length = 8 := BigEndian.length_ofNat 8 _
  rw [show int64Bytes id.value = [] from hNil] at hLength
  cases hLength

theorem PeerAddress.undoes (a : PeerAddress) :
    (Serial.read : Reader PeerAddress).Undoes (Serial.encode a) a [] :=
  (undoes_octets a.octets).map rfl

theorem ServiceAddress.undoes (a : ServiceAddress) :
    (Serial.read : Reader ServiceAddress).Undoes (Serial.encode a) a [] :=
  a.id.undoes.plain (a.host.undoes.map rfl)

theorem Scope.undoes (s : Scope) :
    (Serial.read : Reader Scope).Undoes (Serial.encode s) s [] := by
  cases s with
  | anyone => exact (undoes_byte 0).finish rfl
  | restricted => exact (undoes_byte 1).finish rfl

theorem Challenge.undoes (c : Challenge) :
    (Serial.read : Reader Challenge).Undoes (Serial.encode c) c [] :=
  (undoes_octets c.octets).map rfl

/-- A description can be had, and its parts are short enough to be read. -/
structure Description.Fits (d : Description) : Prop where
  created : d.Created
  title : (Codec.utf8 d.title).length ≤ Codec.maxBlobLength
  blurb : (Codec.utf8 d.blurb).length ≤ Codec.maxBlobLength
  image : d.image.length ≤ Codec.maxBlobLength

theorem Description.undoes {d : Description} (h : d.Fits) :
    (Serial.read : Reader Description).Undoes (Serial.encode d) d [] := by
  have hForm : Serial.encode d =
      Codec.text d.title ++ (Codec.text d.blurb ++ Codec.blob d.image) := List.append_assoc ..
  rw [hForm]
  refine (Codec.undoes_text h.title).plain ?_
  refine (Codec.undoes_text h.blurb).plain ?_
  apply (Codec.undoes_blob h.image).finish
  rw [create_of_created h.created]

structure Descriptor.Fits (x : Descriptor) : Prop where
  group : (Codec.utf8 x.group).length ≤ Codec.maxBlobLength
  rawTags : (Codec.utf8 x.rawTags).length ≤ Codec.maxBlobLength
  description : x.description.Fits
  extension : x.extension.length ≤ Codec.maxBlobLength

theorem Descriptor.undoes {x : Descriptor} (h : x.Fits) :
    (Serial.read : Reader Descriptor).Undoes (Serial.encode x) x [] := by
  have hForm : Serial.encode x = [version] ++ (Serial.encode x.address ++ (int32Bytes x.kind ++
      (Serial.encode x.scope ++ (Codec.text x.group ++ (Codec.text x.rawTags ++
        (Serial.encode x.description ++ Codec.blob x.extension)))))) := by
    simp [Serial.encode]
  rw [hForm]
  refine (undoes_byte version).plain ?_
  refine x.address.undoes.plain ?_
  refine (undoes_int32 x.kind).plain ?_
  refine x.scope.undoes.plain ?_
  refine (Codec.undoes_text h.group).plain ?_
  refine (Codec.undoes_text h.rawTags).plain ?_
  refine (Description.undoes h.description).plain ?_
  exact (Codec.undoes_blob h.extension).map rfl

theorem Descriptor.encode_ne_nil (x : Descriptor) : Serial.encode x ≠ [] := by
  simp [Serial.encode]

structure GrantSet.Fits (s : GrantSet) : Prop where
  ids : Codec.Countable s.ids.size
  descriptors : Codec.Countable s.descriptors.size
  descriptor : ∀ x ∈ s.descriptors.toList, x.Fits

/-- The counts in the written form of a grant set. -/
def GrantSet.counts (s : GrantSet) : List Codec.Count :=
  [⟨8, s.ids.size⟩, ⟨8 + (Codec.sequence s.ids.toList).length, s.descriptors.size⟩]

theorem GrantSet.undoes {s : GrantSet} (h : s.Fits) :
    (Serial.read : Reader GrantSet).Undoes (Serial.encode s) s s.counts := by
  have hForm : Serial.encode s = int64Bytes s.version ++
      (Codec.sequence s.ids.toList ++ Codec.sequence s.descriptors.toList) :=
    List.append_assoc ..
  have hCounts : s.counts = ([Codec.Count.mk 0 s.ids.size] ++
      [Codec.Count.mk 0 s.descriptors.size].map
        (Codec.Count.shift (Codec.sequence s.ids.toList).length)).map
          (Codec.Count.shift (int64Bytes s.version).length) := by
    simp [counts, Codec.Count.shift, int64Bytes]
  have hIds := Codec.undoes_sequence h.ids (fun id _ => id.undoes) fun id _ => id.encode_ne_nil
  have hDescriptors := Codec.undoes_sequence h.descriptors
    (fun x hx => Descriptor.undoes (h.descriptor x hx)) fun x _ => x.encode_ne_nil
  rw [hForm, hCounts]
  refine (undoes_int64 s.version).next ?_
  refine hIds.bind ?_
  exact hDescriptors.map rfl

structure PeerRecord.Fits (r : PeerRecord) : Prop where
  name : (Codec.utf8 r.name).length ≤ Codec.maxBlobLength
  exported : r.exported.Fits
  imported : r.imported.Fits
  extension : r.extension.length ≤ Codec.maxBlobLength

/-- The bytes of a record before its grants. -/
def PeerRecord.preamble (r : PeerRecord) : Bytes :=
  version :: Serial.encode r.address ++ Codec.text r.name ++ boolBytes r.pending

/-- The counts in the written form of a record. -/
def PeerRecord.counts (r : PeerRecord) : List Codec.Count :=
  r.exported.counts.map (.shift r.preamble.length) ++
    r.imported.counts.map (.shift (r.preamble ++ Serial.encode r.exported).length)

theorem Codec.Count.shift_shift (m n : Nat) :
    Codec.Count.shift m ∘ Codec.Count.shift n = Codec.Count.shift (m + n) := by
  funext c
  simp [Codec.Count.shift, Nat.add_assoc]

theorem PeerRecord.undoes {r : PeerRecord} (h : r.Fits) :
    (Serial.read : Reader PeerRecord).Undoes (Serial.encode r) r r.counts := by
  have hForm : Serial.encode r = [version] ++ (Serial.encode r.address ++ (Codec.text r.name ++
      (boolBytes r.pending ++ (Serial.encode r.exported ++ (Serial.encode r.imported ++
        Codec.blob r.extension))))) := by
    simp [Serial.encode]
  have hCounts : r.counts = ((((r.exported.counts ++ r.imported.counts.map
      (Codec.Count.shift (Serial.encode r.exported).length)).map
        (Codec.Count.shift (boolBytes r.pending).length)).map
          (Codec.Count.shift (Codec.text r.name).length)).map
            (Codec.Count.shift (Serial.encode r.address).length)).map
              (Codec.Count.shift [version].length) := by
    simp [counts, preamble, Codec.Count.shift_shift, Nat.add_assoc, Nat.add_comm,
      Nat.add_left_comm]
  rw [hForm, hCounts]
  refine (undoes_byte version).next ?_
  refine r.address.undoes.next ?_
  refine (Codec.undoes_text h.name).next ?_
  refine (undoes_bool r.pending).next ?_
  refine (GrantSet.undoes h.exported).bind ?_
  refine (GrantSet.undoes h.imported).plain ?_
  exact (Codec.undoes_blob h.extension).map rfl

def SignedData.Fits (p : SignedData) : Prop := p.data.length ≤ Codec.maxBlobLength

theorem SignedData.undoes {p : SignedData} (h : p.Fits) :
    (Serial.read : Reader SignedData).Undoes (Serial.encode p) p [] := by
  have hForm : Serial.encode p =
      p.publicKey.toList ++ (Codec.blob p.data ++ p.signature.toList) := List.append_assoc ..
  rw [hForm]
  refine (undoes_octets p.publicKey).plain ?_
  refine (Codec.undoes_blob h).plain ?_
  exact (undoes_octets p.signature).map rfl

def Message.Fits (m : Message) : Prop := m.written.length ≤ Codec.maxBlobLength

/-- A message as the other side has it: what was written is left to be read. -/
def Message.received (m : Message) : Message := { m with unread := m.written, written := [] }

theorem Message.undoes {m : Message} (h : m.Fits) :
    (Serial.read : Reader Message).Undoes (Serial.encode m) m.received [] := by
  have hForm : Serial.encode m = [kindByte m.kind] ++ (int64Bytes m.uid ++
      ([statusByte m.status] ++ ([m.code] ++ Codec.blob m.written))) := by
    simp [Serial.encode]
  have hKind : readKind.Undoes [kindByte m.kind] m.kind [] := by
    cases m.kind with
    | request => exact (undoes_byte 0).finish rfl
    | response => exact (undoes_byte 1).finish rfl
  have hStatus : readStatus.Undoes [statusByte m.status] m.status [] := by
    cases m.status with
    | ok => exact (undoes_byte 0).finish rfl
    | error => exact (undoes_byte 1).finish rfl
  rw [hForm]
  refine hKind.plain ?_
  refine (undoes_int64 m.uid).plain ?_
  refine hStatus.plain ?_
  refine (undoes_byte m.code).plain ?_
  exact (Codec.undoes_blob h).map rfl

end PeerServices
