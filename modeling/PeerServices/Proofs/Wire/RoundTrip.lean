import PeerServices.Proofs.Wire.Values

/-!
# Decoding undoes encoding

Whatever is written to the wire is read back, alone or among other values. Nothing is taken for a
value that has bytes too many or too few, and different values have different bytes.

* `WireKind`, `WireItem`: the kinds of values that cross the wire, and a value with its kind.
* `WireItem.readAll_append`: values that were written one after another are read back in order.
* `WireItem.round_trip`: all of it, for every kind of value.
-/

namespace PeerServices

/-! ## All kinds of values -/

/-- The kinds of values that cross the wire. What is told in an exchange is a grant set. -/
inductive WireKind
  | serviceId
  | peerAddress
  | serviceAddress
  | scope
  | description
  | descriptor
  | grantSet
  | peerRecord
  | signedData
  | challenge
  | message
deriving DecidableEq

namespace WireKind

def Value : WireKind → Type
  | .serviceId => ServiceId
  | .peerAddress => PeerAddress
  | .serviceAddress => ServiceAddress
  | .scope => Scope
  | .description => Description
  | .descriptor => Descriptor
  | .grantSet => GrantSet
  | .peerRecord => PeerRecord
  | .signedData => SignedData
  | .challenge => Challenge
  | .message => Message

instance instSerialValue : (k : WireKind) → Serial k.Value
  | .serviceId => inferInstanceAs (Serial ServiceId)
  | .peerAddress => inferInstanceAs (Serial PeerAddress)
  | .serviceAddress => inferInstanceAs (Serial ServiceAddress)
  | .scope => inferInstanceAs (Serial Scope)
  | .description => inferInstanceAs (Serial Description)
  | .descriptor => inferInstanceAs (Serial Descriptor)
  | .grantSet => inferInstanceAs (Serial GrantSet)
  | .peerRecord => inferInstanceAs (Serial PeerRecord)
  | .signedData => inferInstanceAs (Serial SignedData)
  | .challenge => inferInstanceAs (Serial Challenge)
  | .message => inferInstanceAs (Serial Message)

/-- A value can be had, its sets can be counted by a machine, and its texts and blobs are of an
allowed length. -/
def Fits : (k : WireKind) → k.Value → Prop
  | .serviceId, _ | .peerAddress, _ | .serviceAddress, _ | .scope, _ | .challenge, _ => True
  | .description, d => Description.Fits d
  | .descriptor, x => Descriptor.Fits x
  | .grantSet, s => GrantSet.Fits s
  | .peerRecord, r => PeerRecord.Fits r
  | .signedData, p => SignedData.Fits p
  | .message, m => Message.Fits m

/-- A value as it is read back. -/
def received : (k : WireKind) → k.Value → k.Value
  | .message, m => Message.received m
  | .serviceId, v | .peerAddress, v | .serviceAddress, v | .scope, v | .description, v
  | .descriptor, v | .grantSet, v | .peerRecord, v | .signedData, v | .challenge, v => v

/-- The counts in the written form of a value. -/
def counts : (k : WireKind) → k.Value → List Codec.Count
  | .grantSet, s => GrantSet.counts s
  | .peerRecord, r => PeerRecord.counts r
  | .serviceId, _ | .peerAddress, _ | .serviceAddress, _ | .scope, _ | .description, _
  | .descriptor, _ | .signedData, _ | .challenge, _ | .message, _ => []

theorem undoes {k : WireKind} {v : k.Value} (h : k.Fits v) :
    (Serial.read : Reader k.Value).Undoes (Serial.encode v) (k.received v) (k.counts v) := by
  cases k with
  | serviceId => exact ServiceId.undoes v
  | peerAddress => exact PeerAddress.undoes v
  | serviceAddress => exact ServiceAddress.undoes v
  | scope => exact Scope.undoes v
  | description => exact Description.undoes h
  | descriptor => exact Descriptor.undoes h
  | grantSet => exact GrantSet.undoes h
  | peerRecord => exact PeerRecord.undoes h
  | signedData => exact SignedData.undoes h
  | challenge => exact Challenge.undoes v
  | message => exact Message.undoes h

end WireKind

/-! ## Whole inputs -/

namespace Reader.Undoes

variable {α : Type} [Serial α] {v w v' : α} {counts : List Codec.Count}

theorem decode (h : (Serial.read : Reader α).Undoes (Serial.encode v) w counts) :
    Serial.decode α (Serial.encode v) = .ok w := by
  rw [Serial.decode_eq_ok_iff_read, ← List.append_nil (Serial.encode v)]
  exact h.read []

theorem decode_append (h : (Serial.read : Reader α).Undoes (Serial.encode v) w counts)
    {extra : Bytes} (hExtra : extra ≠ []) :
    Serial.decode α (Serial.encode v ++ extra) = .error (.extraData extra.length) := by
  cases extra with
  | nil => exact absurd rfl hExtra
  | cons b extra =>
    rw [Serial.decode, h.read]
    rfl

theorem decode_take (h : (Serial.read : Reader α).Undoes (Serial.encode v) w counts) {cut : Nat}
    (hCut : cut < (Serial.encode v).length) :
    ∃ e, Serial.decode α ((Serial.encode v).take cut) = .error e ∧
      Reader.Refuses counts cut e := by
  obtain ⟨e, hError, hRefuses⟩ := h.short cut hCut
  refine ⟨e, ?_, hRefuses⟩
  rw [Serial.decode, hError]
  rfl

theorem eq_of_encode_eq (h : (Serial.read : Reader α).Undoes (Serial.encode v) w counts)
    {w' : α} {counts' : List Codec.Count}
    (h' : (Serial.read : Reader α).Undoes (Serial.encode v') w' counts')
    (hEq : Serial.encode v = Serial.encode v') : w = w' :=
  Except.ok.inj (h.decode.symm.trans (hEq ▸ h'.decode))

end Reader.Undoes

/-! ## Values one after another -/

/-- A value with its kind. -/
abbrev WireItem := (k : WireKind) × k.Value

namespace WireItem

def encode (item : WireItem) : Bytes := Serial.encode item.2

def received (item : WireItem) : WireItem := ⟨item.1, item.1.received item.2⟩

/-- Reads a value of each kind in turn. -/
def readAll : List WireKind → Reader (List WireItem)
  | [] => return []
  | k :: kinds => do
    let value : k.Value ← Serial.read
    return ⟨k, value⟩ :: (← readAll kinds)

theorem readAll_append (items : List WireItem) (h : ∀ item ∈ items, item.1.Fits item.2)
    (rest : Bytes) :
    readAll (items.map Sigma.fst) (items.flatMap encode ++ rest) =
      .ok (items.map received, rest) := by
  induction items with
  | nil => rfl
  | cons item items ih =>
    have hFirst := (WireKind.undoes (h item List.mem_cons_self)).read
      (items.flatMap encode ++ rest)
    have hRest := ih fun item' hMem => h item' (List.mem_cons_of_mem item hMem)
    rw [List.flatMap_cons, List.append_assoc, List.map_cons, readAll, Reader.bind_apply]
    rw [encode, hFirst]
    simp only
    rw [Reader.bind_apply, hRest]
    rfl

/-- A value is read back in front of anything and alone, is refused with bytes behind it and where
it breaks off, and differs in its bytes from all others; a list of values is read back in order. -/
theorem round_trip :
    (∀ (k : WireKind) (v : k.Value), k.Fits v →
      (∀ rest, (Serial.read : Reader k.Value) (Serial.encode v ++ rest) =
        .ok (k.received v, rest)) ∧
      Serial.decode k.Value (Serial.encode v) = .ok (k.received v) ∧
      (∀ extra ≠ [], Serial.decode k.Value (Serial.encode v ++ extra) =
        .error (.extraData extra.length)) ∧
      (∀ cut < (Serial.encode v).length, ∃ e,
        Serial.decode k.Value ((Serial.encode v).take cut) = .error e ∧
          Reader.Refuses (k.counts v) cut e) ∧
      ∀ w, k.Fits w → Serial.encode v = Serial.encode w → k.received v = k.received w) ∧
    ∀ items : List WireItem, (∀ item ∈ items, item.1.Fits item.2) → ∀ rest,
      readAll (items.map Sigma.fst) (items.flatMap encode ++ rest) =
        .ok (items.map received, rest) := by
  refine ⟨fun k v hFits => ?_, readAll_append⟩
  have hUndoes := WireKind.undoes hFits
  refine ⟨hUndoes.read, hUndoes.decode, fun _ hExtra => hUndoes.decode_append hExtra,
    fun _ hCut => hUndoes.decode_take hCut, fun w hFits' hEq => ?_⟩
  exact hUndoes.eq_of_encode_eq (WireKind.undoes hFits') hEq

/-- A description that was made, with its title cut. -/
def sampleDescription : Description where
  title := "Files of a hous"
  blurb := "Shared by all who live there"
  image := [137, 80]

def sampleDescriptor : Descriptor :=
  .create ⟨⟨9⟩, .null⟩ 3 .restricted "files" "house shared" sampleDescription

def sampleRecord : PeerRecord := (PeerRecord.create .null "carol").grant [⟨7⟩] [sampleDescriptor]

theorem sampleDescription_created : sampleDescription.Created := by
  have hFree : ¬Description.usesReservedKeyword "Files of a household" = true := by
    decide +kernel
  refine ⟨"Files of a household", "Shared by all who live there", [137, 80], ?_⟩
  exact (if_neg hFree).trans (congrArg Except.ok (by decide +kernel))

theorem sampleDescriptor_fits : sampleDescriptor.Fits where
  group := by decide +kernel
  rawTags := by decide +kernel
  description := ⟨sampleDescription_created, by decide +kernel, by decide +kernel, by decide⟩
  extension := Nat.zero_le _

theorem sampleRecord_fits : sampleRecord.Fits where
  name := by decide +kernel
  exported := by
    refine ⟨by decide, by decide, fun x hx => ?_⟩
    rw [List.mem_singleton.mp (SortedSet.mem_ofList.mp hx)]
    exact sampleDescriptor_fits
  imported := ⟨by decide, by decide, fun _ hx => nomatch hx⟩
  extension := Nat.zero_le _

theorem sample_round_trip :
    WireKind.peerRecord.Fits sampleRecord ∧
      Serial.decode PeerRecord (Serial.encode sampleRecord) = .ok sampleRecord ∧
      readAll [.peerRecord, .scope] (Serial.encode sampleRecord ++ Serial.encode Scope.anyone) =
        .ok ([⟨.peerRecord, sampleRecord⟩, ⟨.scope, Scope.anyone⟩], []) := by
  have hItems : ∀ item ∈ ([⟨.peerRecord, sampleRecord⟩, ⟨.scope, Scope.anyone⟩] : List WireItem),
      item.1.Fits item.2 := by
    intro item hMem
    rcases List.mem_cons.mp hMem with rfl | hMem
    · exact sampleRecord_fits
    · rw [List.mem_singleton.mp hMem]
      trivial
  have hAll := round_trip.2 _ hItems []
  rw [List.append_nil] at hAll
  exact ⟨sampleRecord_fits, (round_trip.1 .peerRecord sampleRecord sampleRecord_fits).2.1, hAll⟩

end WireItem

end PeerServices
