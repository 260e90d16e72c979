import PeerServices.Proofs.Wire.NormalForm

/-!
# No description escapes the rules for titles

A description is made from a title, a blurb and an image, or it is read from bytes, alone or within
a descriptor, a grant set or a record. What is read was made in the same way from a title and a
blurb that stand in the bytes. So each description there is has a short title and blurb, cut from
what was given, and no reserved keyword in its title; and it can be made again from its own parts.

* `Description.create_eq_ok_iff`: when a description is made, and which one.
* `WireKind.descriptions`, `WireKind.made_of_read`: what is read was made from what was listed.
* `Description.read_eq_ok_iff`, `Description.read_of_reserved`: which descriptions are read and how
  a title is refused.
* `Description.obtainable_lawful`: all of it.
-/

namespace PeerServices

open Codec

/-! ## Descriptions that are made -/

namespace Description

variable {d : Description} {title blurb : String} {image : Bytes}

/-- The lowercase form of a title holds the reserved keyword somewhere. -/
def Reserved (title : String) : Prop :=
  "tether".toList <:+: (Text.lowercase title).toList

theorem usesReservedKeyword_iff : usesReservedKeyword title = true ↔ Reserved title := by
  have hLower : (Text.lowercase title).toList = Text.lowercaseFrom [] title.toList :=
    String.toList_ofList
  rw [usesReservedKeyword, Text.occursIn_iff, Reserved, hLower, reservedKeyword]

theorem create_of_reserved (h : Reserved title) (blurb : String) (image : Bytes) :
    create title blurb image = .error (.reservedKeyword "tether") :=
  if_pos (usesReservedKeyword_iff.mpr h)

theorem create_eq_ok_iff : create title blurb image = .ok d ↔ ¬Reserved title ∧
    d.title.toList = title.toList.take 15 ∧ d.blurb.toList = blurb.toList.take 140 ∧
      d.image = image := by
  rw [← usesReservedKeyword_iff, create]
  split
  next hReserved => simp [hReserved]
  next hFree =>
    have hCrop : ∀ (limit : Nat) (s s' : String),
        crop limit s = s' ↔ s'.toList = s.toList.take limit := fun limit s s' => by
      rw [crop, ← String.toList_inj, String.toList_ofList, eq_comm]
    obtain ⟨title', blurb', image'⟩ := d
    simp only [Except.ok.injEq, mk.injEq, hCrop, hFree, eq_comm (a := image)]
    simp [maxTitleLength, maxBlurbLength]

/-- The rules for descriptions. A description that obeys them is what is made of its own parts. -/
structure Lawful (d : Description) : Prop where
  title : d.title.length ≤ 15
  blurb : d.blurb.length ≤ 140
  free : ¬Reserved d.title
  again : create d.title d.blurb d.image = .ok d

theorem Created.lawful (h : d.Created) : d.Lawful := by
  have hAgain := create_of_created h
  obtain ⟨hFree, hTitle, hBlurb, -⟩ := create_eq_ok_iff.mp hAgain
  constructor
  case title =>
    have hLength := congrArg List.length hTitle
    rw [List.length_take, String.length_toList] at hLength
    omega
  case blurb =>
    have hLength := congrArg List.length hBlurb
    rw [List.length_take, String.length_toList] at hLength
    omega
  case free => exact hFree
  case again => exact hAgain

end Description

/-! ## Descriptions that are read -/

namespace WireKind

/-- The descriptions in a value. -/
def descriptions : (k : WireKind) → k.Value → List Description
  | .description, d => [d]
  | .descriptor, x => [Descriptor.description x]
  | .grantSet, s => (GrantSet.descriptors s).toList.map Descriptor.description
  | .peerRecord, r =>
    ((PeerRecord.exported r).descriptors.toList ++
      (PeerRecord.imported r).descriptors.toList).map Descriptor.description
  | .serviceId, _ | .peerAddress, _ | .serviceAddress, _ | .scope, _ | .signedData, _
  | .challenge, _ | .message, _ => []

end WireKind

namespace Description

variable {d : Description} {title blurb : String} {image : Bytes} {input : Bytes}

/-- A description was made from a title, a blurb and an image that stand in some bytes. -/
def MadeFrom (input : Bytes) (d : Description) : Prop :=
  ∃ title blurb image, Serial.encode (Description.mk title blurb image) <:+: input ∧
    create title blurb image = .ok d

theorem MadeFrom.mono {input' : Bytes} (h : d.MadeFrom input) (hPart : input <:+: input') :
    d.MadeFrom input' := by
  obtain ⟨title, blurb, image, hListed, hCreate⟩ := h
  exact ⟨title, blurb, image, hListed.trans hPart, hCreate⟩

theorem Admitted.madeFrom {given : Description} (h : given.Admitted) :
    given.cut.MadeFrom (Serial.encode given) :=
  ⟨given.title, given.blurb, given.image, List.infix_rfl, if_neg h.free⟩

end Description

theorem Descriptor.Admitted.madeFrom {x : Descriptor} (h : x.Admitted) :
    x.cut.description.MadeFrom (Serial.encode x) := by
  apply h.description.madeFrom.mono
  exact List.infix_append (version :: Serial.encode x.address ++ int32Bytes x.kind ++
    Serial.encode x.scope ++ text x.group ++ text x.rawTags) _ _

theorem infix_sequence {x : Descriptor} {l : List Descriptor} (h : x ∈ l) :
    Serial.encode x <:+: sequence l := by
  obtain ⟨before, after, rfl⟩ := List.append_of_mem h
  rw [Codec.sequence, List.flatMap_append, List.flatMap_cons]
  exact (List.infix_append' _ _ _).trans (List.suffix_append _ _).isInfix

theorem GrantSet.Listing.Admitted.madeFrom {l : Listing} (h : l.Admitted) {x : Descriptor}
    (hx : x ∈ (form.value l).descriptors.toList) : x.description.MadeFrom (form.bytes l) := by
  obtain ⟨y, hy, rfl⟩ := List.mem_map.mp (SortedSet.mem_of_mem_ofList hx)
  apply (h.descriptor y hy).madeFrom.mono
  exact (infix_sequence hy).trans (List.suffix_append _ _).isInfix

theorem PeerRecord.Listing.Admitted.madeFrom {l : Listing} (h : l.Admitted) {x : Descriptor}
    (hx : x ∈ (form.value l).exported.descriptors.toList ++
      (form.value l).imported.descriptors.toList) : x.description.MadeFrom (form.bytes l) := by
  have hExported : GrantSet.form.bytes l.exported <:+: form.bytes l :=
    List.infix_append_of_infix_left (List.infix_append (version :: Serial.encode l.address ++
      text l.name ++ boolBytes l.pending) _ _)
  have hImported : GrantSet.form.bytes l.imported <:+: form.bytes l :=
    List.infix_append (version :: Serial.encode l.address ++ text l.name ++ boolBytes l.pending ++
      GrantSet.form.bytes l.exported) _ _
  rcases List.mem_append.mp hx with hx | hx
  · exact (h.exported.madeFrom hx).mono hExported
  · exact (h.imported.madeFrom hx).mono hImported

/-- What is read was made from what stands in the bytes that were taken. -/
theorem WireKind.made_of_read {k : WireKind} {input rest : Bytes} {v : k.Value}
    (h : (Serial.read : Reader k.Value) input = .ok (v, rest)) :
    ∀ d ∈ k.descriptions v, d.MadeFrom input := by
  intro d hd
  obtain ⟨l, hl, rfl, rfl⟩ := (k.follows.reads input v rest).mp h
  suffices hTaken : d.MadeFrom (k.form.bytes l) from
    hTaken.mono (List.prefix_append _ _).isInfix
  cases k with
  | description =>
    obtain rfl := List.mem_singleton.mp hd
    exact Description.Admitted.madeFrom hl
  | descriptor =>
    obtain rfl := List.mem_singleton.mp hd
    exact Descriptor.Admitted.madeFrom hl
  | grantSet =>
    obtain ⟨x, hx, rfl⟩ := List.mem_map.mp hd
    exact GrantSet.Listing.Admitted.madeFrom hl hx
  | peerRecord =>
    obtain ⟨x, hx, rfl⟩ := List.mem_map.mp hd
    exact PeerRecord.Listing.Admitted.madeFrom hl hx
  | serviceId | peerAddress | serviceAddress | scope | signedData | challenge | message =>
    exact nomatch hd

namespace Description

variable {d : Description} {title blurb : String} {image : Bytes} {input rest : Bytes}

/-- The parts of a description are short enough to be read. -/
structure Legible (d : Description) : Prop where
  title : (utf8 d.title).length ≤ maxBlobLength
  blurb : (utf8 d.blurb).length ≤ maxBlobLength
  image : d.image.length ≤ maxBlobLength

/-- Reading the parts of a description comes down to making it. -/
theorem read_encode_append (h : Legible ⟨title, blurb, image⟩) (rest : Bytes) :
    (Serial.read : Reader Description) (Serial.encode (Description.mk title blurb image) ++ rest) =
      match create title blurb image with
      | .ok d => .ok (d, rest)
      | .error e => .error (.invalidData "description" e.message) := by
  have hForm : Serial.encode (Description.mk title blurb image) ++ rest =
      text title ++ (text blurb ++ (blob image ++ rest)) := by
    simp only [Serial.encode, List.append_assoc]
  rw [hForm]
  simp only [Serial.read, Reader.bind_apply, (undoes_text h.title).read,
    (undoes_text h.blurb).read, (undoes_blob h.image).read]
  cases create title blurb image <;> rfl

/-- A description is read exactly if its parts stand there, can be read, and make it. -/
theorem read_eq_ok_iff : (Serial.read : Reader Description) input = .ok (d, rest) ↔
    ∃ title blurb image, Legible ⟨title, blurb, image⟩ ∧
      input = Serial.encode (Description.mk title blurb image) ++ rest ∧
        create title blurb image = .ok d := by
  constructor
  · intro h
    obtain ⟨given, hGiven, rfl, rfl⟩ := (follows.reads input d rest).mp h
    exact ⟨given.title, given.blurb, given.image, ⟨hGiven.title, hGiven.blurb, hGiven.image⟩, rfl,
      if_neg hGiven.free⟩
  · rintro ⟨title, blurb, image, hLegible, rfl, hCreate⟩
    rw [read_encode_append hLegible, hCreate]

theorem read_of_reserved (h : Reserved title) (hLegible : Legible ⟨title, blurb, image⟩)
    (rest : Bytes) :
    (Serial.read : Reader Description) (Serial.encode (Description.mk title blurb image) ++ rest) =
      .error (.invalidData "description" "\"tether\" is a reserved keyword") := by
  rw [read_encode_append hLegible, create_of_reserved h]
  rfl

/-! ## All descriptions there are -/

/-- The ways to get a description: to make it, to take the empty one, or to read a value that holds
it, alone or in front of other bytes. -/
inductive Obtainable : Description → Prop
  | create {title blurb : String} {image : Bytes} {d : Description} :
    create title blurb image = .ok d → Obtainable d
  | titled {title : String} {d : Description} : titled title = .ok d → Obtainable d
  | empty : Obtainable .empty
  | read {k : WireKind} {input rest : Bytes} {v : k.Value} {d : Description} :
    (Serial.read : Reader k.Value) input = .ok (v, rest) → d ∈ k.descriptions v → Obtainable d

theorem Obtainable.created (h : Obtainable d) : d.Created := by
  cases h with
  | create h => exact ⟨_, _, _, h⟩
  | titled h => exact ⟨_, _, _, h⟩
  | empty => exact ⟨"", "", [], rfl⟩
  | read h hd =>
    obtain ⟨title, blurb, image, -, hCreate⟩ := WireKind.made_of_read h _ hd
    exact ⟨title, blurb, image, hCreate⟩

/-- Every description that can be had obeys the rules, and is made again of its own parts. What is
made has the first 15 and 140 characters of what was given, and nothing is made of a title whose
lowercase form holds the keyword anywhere. What is read was made in this way from parts that stand
in the bytes, and parts with such a title are refused where they are read as well. -/
theorem obtainable_lawful :
    (∀ d, Obtainable d → d.Lawful) ∧
    (∀ title blurb image d, create title blurb image = .ok d ↔ ¬Reserved title ∧
      d.title.toList = title.toList.take 15 ∧ d.blurb.toList = blurb.toList.take 140 ∧
        d.image = image) ∧
    (∀ title d, titled title = .ok d ↔ ¬Reserved title ∧
      d.title.toList = title.toList.take 15 ∧ d.blurb = "" ∧ d.image = []) ∧
    (∀ (k : WireKind) input v rest, (Serial.read : Reader k.Value) input = .ok (v, rest) →
      ∀ d ∈ k.descriptions v, d.MadeFrom input) ∧
    (∀ input d rest, (Serial.read : Reader Description) input = .ok (d, rest) ↔
      ∃ title blurb image, Legible ⟨title, blurb, image⟩ ∧
        input = Serial.encode (Description.mk title blurb image) ++ rest ∧
          create title blurb image = .ok d) ∧
    ∀ title, Reserved title →
      titled title = .error (.reservedKeyword "tether") ∧
      ∀ blurb image, create title blurb image = .error (.reservedKeyword "tether") ∧
        (Legible ⟨title, blurb, image⟩ → ∀ rest, (Serial.read : Reader Description)
          (Serial.encode (Description.mk title blurb image) ++ rest) =
            .error (.invalidData "description" "\"tether\" is a reserved keyword")) := by
  refine ⟨fun _ h => h.created.lawful, fun _ _ _ _ => create_eq_ok_iff, fun title d => ?_,
    fun k _ _ _ => WireKind.made_of_read, fun _ _ _ => read_eq_ok_iff, fun title hReserved => ?_⟩
  · have hEmpty : d.blurb.toList = "".toList.take 140 ↔ d.blurb = "" := by
      rw [← String.toList_inj]
      rfl
    rw [titled, create_eq_ok_iff, hEmpty]
  · refine ⟨create_of_reserved hReserved "" [], fun blurb image => ⟨?_, fun h rest => ?_⟩⟩
    · exact create_of_reserved hReserved blurb image
    · exact read_of_reserved hReserved h rest

instance (title : String) : Decidable (Reserved title) :=
  decidable_of_iff _ usesReservedKeyword_iff

/-- A cut description obeys the rules, where it was made and where it is read in a descriptor. A
title that holds the keyword behind what is kept of it is refused. -/
theorem sample_lawful :
    WireItem.sampleDescription.Lawful ∧
    WireItem.sampleDescription.MadeFrom (Serial.encode WireItem.sampleDescriptor) ∧
    let title := "Conveniently UnTethered"
    Reserved title ∧ ¬Reserved (crop maxTitleLength title) ∧
      titled title = .error (.reservedKeyword "tether") ∧
      (Serial.read : Reader Description) (Serial.encode (Description.mk title "" []) ++ [7]) =
        .error (.invalidData "description" "\"tether\" is a reserved keyword") := by
  obtain ⟨hLawful, -, -, hMade, -, hRefused⟩ := obtainable_lawful
  obtain ⟨title, blurb, image, hCreate⟩ := WireItem.sampleDescription_created
  have hRead := (Descriptor.undoes WireItem.sampleDescriptor_fits).read []
  rw [List.append_nil] at hRead
  have hReserved : Reserved "Conveniently UnTethered" := by decide +kernel
  have hLegible : Legible ⟨"Conveniently UnTethered", "", []⟩ :=
    ⟨by decide +kernel, by decide +kernel, Nat.zero_le _⟩
  obtain ⟨hTitled, hParts⟩ := hRefused _ hReserved
  refine ⟨hLawful _ (.create hCreate), ?_, hReserved, by decide +kernel, hTitled,
    (hParts "" []).2 hLegible [7]⟩
  exact hMade .descriptor _ _ _ hRead _ (List.mem_singleton.mpr rfl)

end Description

end PeerServices
