import PeerServices.Proofs.Codec.Form
import PeerServices.Proofs.Wire.Values

/-!
# What is listed in the bytes of the wire

Ids, addresses, scopes, challenges and signed data are listed as they are. A description is listed
with its whole title and blurb and cut when it is read, and what is listed in a set may be out of
order and repeated. These are the only ways in which an accepted input differs from what is written.

* `X.exact_read`: the types with one form for each value.
* `Description.follows`, `Descriptor.follows`, `GrantSet.follows`, `PeerRecord.follows`: which bytes
  are accepted for the others, and what is made of them.
* `Description.normal` and so on: which listings are written.
-/

namespace PeerServices

open Reader Codec

/-! ## Types with one form for each value -/

theorem PeerAddress.exact_read : (Serial.read : Reader PeerAddress).Exact Serial.encode :=
  (exact_octets 20).map (f := PeerAddress.mk) (g := PeerAddress.octets) fun a b => by
    constructor
    · rintro rfl; rfl
    · rintro rfl; rfl

theorem ServiceAddress.exact_read : (Serial.read : Reader ServiceAddress).Exact Serial.encode := by
  have hRead : (Serial.read : Reader ServiceAddress) = (do
      let id ← Serial.read
      let host ← Serial.read
      return { id, host }) := rfl
  intro input a rest
  simp only [hRead, bind_eq_ok_iff, ServiceId.exact_read _ _ _, PeerAddress.exact_read _ _ _,
    pure_apply, Except.ok.injEq, Prod.mk.injEq]
  constructor
  · rintro ⟨id, _, rfl, host, _, rfl, rfl, rfl⟩
    exact (List.append_assoc ..).symm
  · rintro rfl
    exact ⟨_, _, List.append_assoc .., _, _, rfl, rfl, rfl⟩

theorem Scope.exact_read : (Serial.read : Reader Scope).Exact Serial.encode :=
  exact_ordinal rfl rfl fun s => by cases s <;> decide

theorem SignedData.exactOn_read :
    (Serial.read : Reader SignedData).ExactOn SignedData.Fits Serial.encode := by
  intro input p rest
  simp only [Serial.read, bind_eq_ok_iff, exact_octets _ _ _ _, exactOn_readBlob _ _ _, pure_apply,
    Except.ok.injEq, Prod.mk.injEq]
  constructor
  · rintro ⟨publicKey, _, rfl, data, _, ⟨hData, rfl⟩, signature, _, rfl, rfl, rfl⟩
    refine ⟨hData, ?_⟩
    simp only [Serial.encode, List.append_assoc]
  · rintro ⟨hData, rfl⟩
    refine ⟨p.publicKey, _, ?_, p.data, _, ⟨hData, rfl⟩, p.signature, _, rfl, rfl, rfl⟩
    simp only [Serial.encode, List.append_assoc]

/-! ## Descriptions -/

namespace Description

/-- A description with title and blurb cut to their limits. -/
def cut (d : Description) : Description :=
  { d with title := crop maxTitleLength d.title, blurb := crop maxBlurbLength d.blurb }

/-- A title and a blurb that are not cut. -/
structure Short (d : Description) : Prop where
  title : d.title.length ≤ maxTitleLength
  blurb : d.blurb.length ≤ maxBlurbLength

/-- A description that is accepted, as it is listed. -/
structure Admitted (d : Description) : Prop where
  title : (utf8 d.title).length ≤ maxBlobLength
  blurb : (utf8 d.blurb).length ≤ maxBlobLength
  image : d.image.length ≤ maxBlobLength
  free : ¬usesReservedKeyword d.title = true

/-- Descriptions, listed with nothing cut. -/
def form : Form Description Description where
  bytes := Serial.encode
  Admits := Admitted
  value := cut

theorem follows : (Serial.read : Reader Description).Follows form where
  reads input d rest := by
    simp only [Serial.read, bind_eq_ok_iff, exactOn_readText _ _ _, exactOn_readBlob _ _ _]
    constructor
    · rintro ⟨title, _, ⟨hTitle, rfl⟩, blurb, _, ⟨hBlurb, rfl⟩, image, _, ⟨hImage, rfl⟩, h⟩
      by_cases hReserved : usesReservedKeyword title = true
      · rw [create, if_pos hReserved] at h
        cases h
      · rw [create, if_neg hReserved] at h
        cases h
        refine ⟨⟨title, blurb, image⟩, ⟨hTitle, hBlurb, hImage, hReserved⟩, rfl, ?_⟩
        simp only [form, Serial.encode, List.append_assoc]
    · rintro ⟨l, hl, rfl, rfl⟩
      refine ⟨l.title, _, ⟨hl.title, ?_⟩, l.blurb, _, ⟨hl.blurb, rfl⟩, l.image, rest,
        ⟨hl.image, rfl⟩, ?_⟩
      · simp only [form, Serial.encode, List.append_assoc]
      · rw [create, if_neg hl.free]
        rfl
  unique {l l' rest rest'} hl hl' hSame := by
    simp only [form, Serial.encode, List.append_assoc] at hSame
    obtain ⟨hTitle, hSame⟩ := exactOn_readText.unique hl.title hl'.title hSame
    obtain ⟨hBlurb, hSame⟩ := exactOn_readText.unique hl.blurb hl'.blurb hSame
    obtain ⟨hImage, hRest⟩ := exactOn_readBlob.unique hl.image hl'.image hSame
    cases l
    cases l'
    simp_all only [and_self]

theorem length_utf8_crop_le (limit : Nat) (s : String) :
    (utf8 (crop limit s)).length ≤ (utf8 s).length := by
  have hSplit : crop limit s ++ String.ofList (s.toList.drop limit) = s := by
    rw [crop, ← String.ofList_append, List.take_append_drop, String.ofList_toList]
  have hSize : ∀ s : String, (utf8 s).length = s.utf8ByteSize := fun s => by simp [utf8]
  rw [hSize, hSize]
  calc (crop limit s).utf8ByteSize
      ≤ (crop limit s).utf8ByteSize + (String.ofList (s.toList.drop limit)).utf8ByteSize :=
        Nat.le_add_right _ _
    _ = s.utf8ByteSize := by rw [← String.utf8ByteSize_append, hSplit]

theorem crop_eq_iff {limit : Nat} {s : String} : crop limit s = s ↔ s.length ≤ limit := by
  constructor
  · intro h
    have hLength := congrArg String.length h
    rw [crop, String.length_ofList, List.length_take, String.length_toList] at hLength
    omega
  · intro h
    rw [crop, List.take_of_length_le (String.length_toList ▸ h), String.ofList_toList]

theorem cut_eq_iff {d : Description} : d.cut = d ↔ d.Short := by
  constructor
  · intro h
    exact ⟨crop_eq_iff.mp (congrArg title h), crop_eq_iff.mp (congrArg blurb h)⟩
  · rintro ⟨hTitle, hBlurb⟩
    rw [cut, crop_eq_iff.mpr hTitle, crop_eq_iff.mpr hBlurb]

theorem Admitted.cut {d : Description} (h : d.Admitted) : d.cut.Admitted where
  title := Nat.le_trans (length_utf8_crop_le _ _) h.title
  blurb := Nat.le_trans (length_utf8_crop_le _ _) h.blurb
  image := h.image
  free hReserved := h.free (usesReservedKeyword_crop hReserved)

/-- What is written is cut, and a cut description is not cut again. -/
theorem normal : form.Normal Serial.encode id Short where
  bytes_own _ := rfl
  admits_own _ h := h.cut
  value_own d _ := by
    simp only [form, Description.cut, id, crop_crop]
  length_own_le d h := by
    have hTitle := length_blob_mono (length_utf8_crop_le maxTitleLength d.title) h.title
    have hBlurb := length_blob_mono (length_utf8_crop_le maxBlurbLength d.blurb) h.blurb
    simp only [form, Serial.encode, Description.cut, id, text, List.length_append]
    omega
  own_eq_iff _ _ := cut_eq_iff

end Description

/-! ## Descriptors -/

namespace Descriptor

/-- A descriptor that is accepted, as it is listed. -/
structure Admitted (x : Descriptor) : Prop where
  group : (utf8 x.group).length ≤ maxBlobLength
  rawTags : (utf8 x.rawTags).length ≤ maxBlobLength
  description : x.description.Admitted
  extension : x.extension.length ≤ maxBlobLength

def cut (x : Descriptor) : Descriptor := { x with description := x.description.cut }

/-- Descriptors, listed with their whole descriptions. -/
def form : Form Descriptor Descriptor where
  bytes := Serial.encode
  Admits := Admitted
  value := cut

theorem encode_append (x : Descriptor) (rest : Bytes) : Serial.encode x ++ rest =
    version :: (Serial.encode x.address ++ (int32Bytes x.kind ++ (Serial.encode x.scope ++
      (text x.group ++ (text x.rawTags ++ (Serial.encode x.description ++
        (blob x.extension ++ rest))))))) := by
  simp only [Serial.encode, List.append_assoc, List.cons_append]

theorem follows : (Serial.read : Reader Descriptor).Follows form where
  reads input x rest := by
    have hRead : (Serial.read : Reader Descriptor) = (do
        let form ← Reader.byte
        if form ≠ version then
          throw (.invalidData "descriptor" ("unsupported version " ++ toString form.toNat))
        let address ← Serial.read
        let kind ← Reader.int32
        let scope ← Serial.read
        let group ← Codec.readText
        let rawTags ← Codec.readText
        let description ← Serial.read
        let extension ← Codec.readBlob
        return { address, kind, scope, group, rawTags, description, extension }) := rfl
    simp only [hRead, bind_eq_ok_iff, guard_eq_ok_iff, exact_byte _ _ _,
      ServiceAddress.exact_read _ _ _, exact_int32 _ _ _, Scope.exact_read _ _ _,
      exactOn_readText _ _ _, exactOn_readBlob _ _ _, Description.follows.reads, pure_apply,
      Except.ok.injEq, Prod.mk.injEq, Decidable.not_not]
    constructor
    · rintro ⟨_, _, rfl, rfl, address, _, rfl, kind, _, rfl, scope, _, rfl, group, _, ⟨hGroup, rfl⟩,
        rawTags, _, ⟨hTags, rfl⟩, _, _, ⟨description, hDescription, rfl, rfl⟩, extension, _,
        ⟨hExtension, rfl⟩, rfl, rfl⟩
      refine ⟨⟨address, kind, scope, group, rawTags, description, extension⟩,
        ⟨hGroup, hTags, hDescription, hExtension⟩, rfl, ?_⟩
      exact (encode_append ⟨address, kind, scope, group, rawTags, description, extension⟩ _).symm
    · rintro ⟨l, hl, rfl, rfl⟩
      exact ⟨_, _, encode_append l rest, rfl, _, _, rfl, _, _, rfl, _, _, rfl, _, _,
        ⟨hl.group, rfl⟩, _, _, ⟨hl.rawTags, rfl⟩, _, _, ⟨_, hl.description, rfl, rfl⟩, _, _,
        ⟨hl.extension, rfl⟩, rfl, rfl⟩
  unique {l l' rest rest'} hl hl' hSame := by
    simp only [form, encode_append, List.cons.injEq, true_and] at hSame
    obtain ⟨hAddress, hSame⟩ := ServiceAddress.exact_read.unique hSame
    obtain ⟨hKind, hSame⟩ := exact_int32.unique hSame
    obtain ⟨hScope, hSame⟩ := Scope.exact_read.unique hSame
    obtain ⟨hGroup, hSame⟩ := exactOn_readText.unique hl.group hl'.group hSame
    obtain ⟨hTags, hSame⟩ := exactOn_readText.unique hl.rawTags hl'.rawTags hSame
    obtain ⟨hDescription, hSame⟩ :=
      Description.follows.unique hl.description hl'.description hSame
    obtain ⟨hExtension, hRest⟩ := exactOn_readBlob.unique hl.extension hl'.extension hSame
    cases l
    cases l'
    simp_all only [and_self]

theorem cut_eq_iff {x : Descriptor} : x.cut = x ↔ x.description.Short := by
  rw [← Description.cut_eq_iff]
  constructor
  · exact fun h => congrArg description h
  · intro h
    rw [cut, h]

/-- What is written has its description cut. -/
theorem normal : form.Normal Serial.encode id fun x => x.description.Short where
  bytes_own _ := rfl
  admits_own x h := { h with description := h.description.cut }
  value_own x h := by
    have hCut := Description.normal.value_own x.description h.description
    simp only [form, cut, Description.form, id] at hCut ⊢
    rw [hCut]
  length_own_le x h := by
    have hCut := Description.normal.length_own_le x.description h.description
    have hWhole := congrArg List.length (encode_append x [])
    have hShort := congrArg List.length (encode_append x.cut [])
    simp only [form, cut, Description.form, id, List.append_nil, List.length_cons,
      List.length_append] at hCut hWhole hShort ⊢
    omega
  own_eq_iff _ _ := cut_eq_iff

theorem follows_set : (readSet : Reader (SortedSet Descriptor)).Follows form.set :=
  follows.set encode_ne_nil

end Descriptor

/-! ## Grant sets -/

/-- Ids are listed as they are. -/
def ServiceId.form : Form ServiceId ServiceId := .plain ServiceId fun _ => True

theorem ServiceId.follows : (Serial.read : Reader ServiceId).Follows form :=
  ServiceId.exact_read.exactOn.follows

theorem ServiceId.normal : form.Normal Serial.encode id fun _ => True := Form.normal_plain _

theorem ServiceId.follows_set : (readSet : Reader (SortedSet ServiceId)).Follows form.set :=
  ServiceId.follows.set ServiceId.encode_ne_nil

namespace GrantSet

/-- A grant set as it is listed, with members in any order and repeated. -/
structure Listing where
  version : Int64
  ids : List ServiceId
  descriptors : List Descriptor

namespace Listing

/-- A grant set that is accepted, as it is listed. -/
structure Admitted (l : Listing) : Prop where
  ids : Countable l.ids.length
  descriptors : Countable l.descriptors.length
  descriptor : ∀ x ∈ l.descriptors, x.Admitted

/-- Nothing is out of order, repeated or too long. -/
structure Tidy (l : Listing) : Prop where
  ids : l.ids.Pairwise (compare · · = .lt)
  descriptors : l.descriptors.Pairwise (compare · · = .lt)
  short : ∀ x ∈ l.descriptors, x.description.Short

end Listing

/-- Grant sets, with their members listed. -/
def form : Form Listing GrantSet where
  bytes l := int64Bytes l.version ++ sequence l.ids ++ sequence l.descriptors
  Admits := Listing.Admitted
  value l := .ofLists l.version l.ids (l.descriptors.map Descriptor.cut)

def listing (s : GrantSet) : Listing := ⟨s.version, s.ids.toList, s.descriptors.toList⟩

theorem bytes_append (l : Listing) (rest : Bytes) : form.bytes l ++ rest =
    int64Bytes l.version ++ (ServiceId.form.set.bytes l.ids ++
      (Descriptor.form.set.bytes l.descriptors ++ rest)) := by
  change int64Bytes l.version ++ sequence l.ids ++ sequence l.descriptors ++ rest = _
  rw [List.append_assoc, List.append_assoc]
  rfl

theorem value_eq (l : Listing) : form.value l =
    ⟨l.version, ServiceId.form.set.value l.ids, Descriptor.form.set.value l.descriptors⟩ := by
  change _ = GrantSet.mk l.version (SortedSet.ofList (l.ids.map id)) _
  rw [List.map_id]
  rfl

theorem admits_iff {l : Listing} : form.Admits l ↔
    ServiceId.form.set.Admits l.ids ∧ Descriptor.form.set.Admits l.descriptors := by
  constructor
  · intro h
    exact ⟨⟨h.ids, fun _ _ => trivial⟩, h.descriptors, h.descriptor⟩
  · rintro ⟨⟨hIds, -⟩, hDescriptors, hDescriptor⟩
    exact ⟨hIds, hDescriptors, hDescriptor⟩

theorem follows : (Serial.read : Reader GrantSet).Follows form where
  reads input s rest := by
    have hRead : (Serial.read : Reader GrantSet) = (do
        let version ← Reader.int64
        let ids ← Codec.readSet
        let descriptors ← Codec.readSet
        return { version, ids, descriptors }) := rfl
    simp only [hRead, bind_eq_ok_iff, exact_int64 _ _ _, ServiceId.follows_set.reads,
      Descriptor.follows_set.reads, pure_apply, Except.ok.injEq, Prod.mk.injEq]
    constructor
    · rintro ⟨version, _, rfl, _, _, ⟨ids, hIds, rfl, rfl⟩, _, _,
        ⟨descriptors, hDescriptors, rfl, rfl⟩, rfl, rfl⟩
      refine ⟨⟨version, ids, descriptors⟩, admits_iff.mpr ⟨hIds, hDescriptors⟩, value_eq _, ?_⟩
      exact (bytes_append ⟨version, ids, descriptors⟩ _).symm
    · rintro ⟨l, hl, rfl, rfl⟩
      obtain ⟨hIds, hDescriptors⟩ := admits_iff.mp hl
      exact ⟨_, _, bytes_append l rest, _, _, ⟨_, hIds, rfl, rfl⟩, _, _,
        ⟨_, hDescriptors, rfl, rfl⟩, (value_eq l).symm, rfl⟩
  unique {l l' rest rest'} hl hl' hSame := by
    obtain ⟨hIds, hDescriptors⟩ := admits_iff.mp hl
    obtain ⟨hIds', hDescriptors'⟩ := admits_iff.mp hl'
    rw [bytes_append, bytes_append] at hSame
    obtain ⟨hVersion, hSame⟩ := exact_int64.unique hSame
    obtain ⟨hIds, hSame⟩ := ServiceId.follows_set.unique hIds hIds' hSame
    obtain ⟨hDescriptors, hRest⟩ :=
      Descriptor.follows_set.unique hDescriptors hDescriptors' hSame
    cases l
    cases l'
    simp_all only [and_self]

theorem tidy_iff {l : Listing} : l.Tidy ↔
    ((∀ x ∈ l.ids, True) ∧ (l.ids.map ServiceId.form.value).Pairwise (compare · · = .lt)) ∧
      (∀ x ∈ l.descriptors, x.description.Short) ∧
        (l.descriptors.map Descriptor.form.value).Pairwise (compare · · = .lt) := by
  have hIds : l.ids.map ServiceId.form.value = l.ids := List.map_id l.ids
  have hDescriptors : (∀ x ∈ l.descriptors, x.description.Short) →
      l.descriptors.map Descriptor.form.value = l.descriptors := fun hShort =>
    (List.map_congr_left fun x hx => Descriptor.cut_eq_iff.mpr (hShort x hx)).trans (List.map_id _)
  rw [hIds]
  constructor
  · intro h
    refine ⟨⟨fun _ _ => trivial, h.ids⟩, h.short, ?_⟩
    rw [hDescriptors h.short]
    exact h.descriptors
  · rintro ⟨⟨-, hIds⟩, hShort, hSorted⟩
    rw [hDescriptors hShort] at hSorted
    exact ⟨hIds, hSorted, hShort⟩

theorem length_bytes (l : Listing) : (form.bytes l).length = 8 +
    (ServiceId.form.set.bytes l.ids).length + (Descriptor.form.set.bytes l.descriptors).length := by
  have hBytes := congrArg List.length (bytes_append l [])
  rw [List.append_nil, List.append_nil] at hBytes
  rw [hBytes, List.length_append, List.length_append, ← Nat.add_assoc, int64Bytes,
    BigEndian.length_ofNat]

/-- What is written has every member once and in order. -/
theorem normal : form.Normal Serial.encode listing Listing.Tidy := by
  have hIds := ServiceId.normal.set
  have hDescriptors := Descriptor.normal.set
  simp only [List.map_id] at hIds hDescriptors
  constructor
  case bytes_own => exact fun _ => rfl
  case admits_own =>
    intro l hl
    obtain ⟨hAdmits, hAdmits'⟩ := admits_iff.mp hl
    rw [value_eq]
    exact admits_iff.mpr ⟨hIds.admits_own _ hAdmits, hDescriptors.admits_own _ hAdmits'⟩
  case value_own =>
    intro l hl
    obtain ⟨hAdmits, hAdmits'⟩ := admits_iff.mp hl
    rw [value_eq l, value_eq, GrantSet.mk.injEq]
    exact ⟨rfl, hIds.value_own _ hAdmits, hDescriptors.value_own _ hAdmits'⟩
  case length_own_le =>
    intro l hl
    obtain ⟨hAdmits, hAdmits'⟩ := admits_iff.mp hl
    rw [value_eq, length_bytes, length_bytes]
    exact Nat.add_le_add (Nat.add_le_add_left (hIds.length_own_le _ hAdmits) 8)
      (hDescriptors.length_own_le _ hAdmits')
  case own_eq_iff =>
    intro l hl
    obtain ⟨hAdmits, hAdmits'⟩ := admits_iff.mp hl
    rw [tidy_iff, value_eq]
    refine Iff.trans ?_ (and_congr (hIds.own_eq_iff _ hAdmits) (hDescriptors.own_eq_iff _ hAdmits'))
    obtain ⟨version, ids, descriptors⟩ := l
    simp only [listing, Listing.mk.injEq, true_and]

end GrantSet

/-! ## Records -/

namespace PeerRecord

/-- A record as it is listed. -/
structure Listing where
  address : PeerAddress
  name : String
  pending : Bool
  exported : GrantSet.Listing
  imported : GrantSet.Listing
  extension : Bytes

/-- A record that is accepted, as it is listed. -/
structure Listing.Admitted (l : Listing) : Prop where
  name : (utf8 l.name).length ≤ maxBlobLength
  exported : l.exported.Admitted
  imported : l.imported.Admitted
  extension : l.extension.length ≤ maxBlobLength

/-- Records, with their grant sets listed. -/
def form : Form Listing PeerRecord where
  bytes l := version :: Serial.encode l.address ++ text l.name ++ boolBytes l.pending ++
    GrantSet.form.bytes l.exported ++ GrantSet.form.bytes l.imported ++ blob l.extension
  Admits := Listing.Admitted
  value l := { l with
    exported := GrantSet.form.value l.exported, imported := GrantSet.form.value l.imported }

def listing (r : PeerRecord) : Listing :=
  { r with exported := r.exported.listing, imported := r.imported.listing }

theorem bytes_append (l : Listing) (rest : Bytes) : form.bytes l ++ rest =
    version :: (Serial.encode l.address ++ (text l.name ++ (boolBytes l.pending ++
      (GrantSet.form.bytes l.exported ++ (GrantSet.form.bytes l.imported ++
        (blob l.extension ++ rest)))))) := by
  simp only [form, List.append_assoc, List.cons_append]

theorem follows : (Serial.read : Reader PeerRecord).Follows form where
  reads input r rest := by
    have hRead : (Serial.read : Reader PeerRecord) = (do
        let form ← Reader.byte
        if form ≠ version then
          throw (.invalidData "entity" ("unsupported serial version " ++ toString form.toNat))
        let address ← Serial.read
        let name ← Codec.readText
        let pending ← Reader.bool
        let exported ← Serial.read
        let imported ← Serial.read
        let extension ← Codec.readBlob
        return { address, name, pending, exported, imported, extension }) := rfl
    simp only [hRead, bind_eq_ok_iff, guard_eq_ok_iff, exact_byte _ _ _,
      PeerAddress.exact_read _ _ _, exact_bool _ _ _, exactOn_readText _ _ _,
      exactOn_readBlob _ _ _, GrantSet.follows.reads, pure_apply, Except.ok.injEq, Prod.mk.injEq,
      Decidable.not_not]
    constructor
    · rintro ⟨_, _, rfl, rfl, address, _, rfl, name, _, ⟨hName, rfl⟩, pending, _, rfl, _, _,
        ⟨exported, hExported, rfl, rfl⟩, _, _, ⟨imported, hImported, rfl, rfl⟩, extension, _,
        ⟨hExtension, rfl⟩, rfl, rfl⟩
      refine ⟨⟨address, name, pending, exported, imported, extension⟩,
        ⟨hName, hExported, hImported, hExtension⟩, rfl, ?_⟩
      exact (bytes_append ⟨address, name, pending, exported, imported, extension⟩ _).symm
    · rintro ⟨l, hl, rfl, rfl⟩
      exact ⟨_, _, bytes_append l rest, rfl, _, _, rfl, _, _, ⟨hl.name, rfl⟩, _, _, rfl, _, _,
        ⟨_, hl.exported, rfl, rfl⟩, _, _, ⟨_, hl.imported, rfl, rfl⟩, _, _, ⟨hl.extension, rfl⟩,
        rfl, rfl⟩
  unique {l l' rest rest'} hl hl' hSame := by
    simp only [bytes_append, List.cons.injEq, true_and] at hSame
    obtain ⟨hAddress, hSame⟩ := PeerAddress.exact_read.unique hSame
    obtain ⟨hName, hSame⟩ := exactOn_readText.unique hl.name hl'.name hSame
    obtain ⟨hPending, hSame⟩ := exact_bool.unique hSame
    obtain ⟨hExported, hSame⟩ := GrantSet.follows.unique hl.exported hl'.exported hSame
    obtain ⟨hImported, hSame⟩ := GrantSet.follows.unique hl.imported hl'.imported hSame
    obtain ⟨hExtension, hRest⟩ := exactOn_readBlob.unique hl.extension hl'.extension hSame
    cases l
    cases l'
    simp_all only [and_self]

/-- What is written has its grant sets written so. -/
theorem normal : form.Normal Serial.encode listing fun l => l.exported.Tidy ∧ l.imported.Tidy where
  bytes_own _ := rfl
  admits_own l h := { h with
    exported := GrantSet.normal.admits_own _ h.exported
    imported := GrantSet.normal.admits_own _ h.imported }
  value_own l h := by
    have hExported := GrantSet.normal.value_own _ h.exported
    have hImported := GrantSet.normal.value_own _ h.imported
    simp only [form, listing, hExported, hImported]
  length_own_le l h := by
    have hExported := GrantSet.normal.length_own_le _ h.exported
    have hImported := GrantSet.normal.length_own_le _ h.imported
    simp only [form, listing, List.length_append]
    omega
  own_eq_iff l h := by
    rw [← GrantSet.normal.own_eq_iff _ h.exported, ← GrantSet.normal.own_eq_iff _ h.imported]
    obtain ⟨address, name, pending, exported, imported, extension⟩ := l
    simp only [form, listing, Listing.mk.injEq, true_and, and_true]

end PeerRecord

end PeerServices
