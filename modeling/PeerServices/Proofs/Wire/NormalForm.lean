import PeerServices.Proofs.Wire.Listing
import PeerServices.Proofs.Wire.RoundTrip

/-!
# One normal form for every accepted input

An input that is decoded need not be what is written of its value. It lists the same things, and
differs at most in titles and blurbs that are too long, and in sets that are out of order or hold
something twice. What is written of the value is decoded to the same value again, and is never
longer.

* `WireKind.form`, `WireKind.follows`: what is listed in the bytes of every kind of value.
* `WireKind.Tidy`, `WireKind.normal`: which listings are written.
* `WireKind.decode_normal_form`: all of it.
-/

namespace PeerServices

open Reader Codec

/-! ## Messages -/

namespace Message

theorem exact_readKind : readKind.Exact fun k => [kindByte k] :=
  exact_ordinal rfl rfl fun k => by cases k <;> decide

theorem exact_readStatus : readStatus.Exact fun s => [statusByte s] :=
  exact_ordinal rfl rfl fun s => by cases s <;> decide

/-- Messages, listed with the payload that is left to be read. -/
def form : Form Message Message where
  bytes m := Serial.encode { m with written := m.unread }
  Admits m := m.unread.length ≤ maxBlobLength ∧ m.written = []
  value := id

theorem bytes_append (m : Message) (rest : Bytes) : form.bytes m ++ rest =
    kindByte m.kind :: (int64Bytes m.uid ++ (statusByte m.status :: (m.code ::
      (blob m.unread ++ rest)))) := by
  simp only [form, Serial.encode, List.append_assoc, List.cons_append]

theorem follows : (Serial.read : Reader Message).Follows form where
  reads input m rest := by
    simp only [Serial.read, bind_eq_ok_iff, exact_readKind _ _ _, exact_int64 _ _ _,
      exact_readStatus _ _ _, exact_byte _ _ _, exactOn_readBlob _ _ _, pure_apply,
      Except.ok.injEq, Prod.mk.injEq]
    constructor
    · rintro ⟨kind, _, rfl, uid, _, rfl, status, _, rfl, code, _, rfl, unread, _, ⟨hUnread, rfl⟩,
        rfl, rfl⟩
      refine ⟨⟨kind, uid, status, code, unread, []⟩, ⟨hUnread, rfl⟩, rfl, ?_⟩
      exact (bytes_append ⟨kind, uid, status, code, unread, []⟩ _).symm
    · rintro ⟨l, ⟨hUnread, hWritten⟩, rfl, rfl⟩
      refine ⟨_, _, bytes_append l rest, _, _, rfl, _, _, rfl, _, _, rfl, _, _, ⟨hUnread, rfl⟩, ?_,
        rfl⟩
      rw [← hWritten]
      rfl
  unique {l l' rest rest'} hl hl' hSame := by
    rw [bytes_append, bytes_append] at hSame
    obtain ⟨hKind, hSame⟩ := exact_readKind.unique hSame
    obtain ⟨hUid, hSame⟩ := exact_int64.unique hSame
    obtain ⟨hStatus, hSame⟩ := exact_readStatus.unique hSame
    obtain ⟨hCode, hSame⟩ := exact_byte.unique hSame
    obtain ⟨hUnread, hRest⟩ := exactOn_readBlob.unique hl.1 hl'.1 hSame
    have hWritten : l.written = l'.written := hl.2.trans hl'.2.symm
    cases l
    cases l'
    simp_all only [and_self]

end Message

/-! ## All kinds of values -/

namespace WireKind

/-- What is listed in the bytes of a value. -/
def Listing : WireKind → Type
  | .grantSet => GrantSet.Listing
  | .peerRecord => PeerRecord.Listing
  | .serviceId => ServiceId
  | .peerAddress => PeerAddress
  | .serviceAddress => ServiceAddress
  | .scope => Scope
  | .description => Description
  | .descriptor => Descriptor
  | .signedData => SignedData
  | .challenge => Challenge
  | .message => Message

def form : (k : WireKind) → Form k.Listing k.Value
  | .serviceId => ServiceId.form
  | .peerAddress => .plain PeerAddress fun _ => True
  | .serviceAddress => .plain ServiceAddress fun _ => True
  | .scope => .plain Scope fun _ => True
  | .description => Description.form
  | .descriptor => Descriptor.form
  | .grantSet => GrantSet.form
  | .peerRecord => PeerRecord.form
  | .signedData => .plain SignedData SignedData.Fits
  | .challenge => .plain Challenge fun _ => True
  | .message => Message.form

/-- What is listed when a value is written. -/
def listing : (k : WireKind) → k.Value → k.Listing
  | .grantSet, s => GrantSet.listing s
  | .peerRecord, r => PeerRecord.listing r
  | .serviceId, v | .peerAddress, v | .serviceAddress, v | .scope, v | .description, v
  | .descriptor, v | .signedData, v | .challenge, v | .message, v => v

/-- No title or blurb is too long, and every set has its members once and in order. -/
def Tidy : (k : WireKind) → k.Listing → Prop
  | .description, d => Description.Short d
  | .descriptor, x => Description.Short (Descriptor.description x)
  | .grantSet, l => GrantSet.Listing.Tidy l
  | .peerRecord, l =>
    GrantSet.Listing.Tidy (PeerRecord.Listing.exported l) ∧
      GrantSet.Listing.Tidy (PeerRecord.Listing.imported l)
  | .serviceId, _ | .peerAddress, _ | .serviceAddress, _ | .scope, _ | .signedData, _
  | .challenge, _ | .message, _ => True

theorem follows (k : WireKind) : (Serial.read : Reader k.Value).Follows k.form := by
  cases k with
  | serviceId => exact ServiceId.follows
  | peerAddress => exact PeerAddress.exact_read.exactOn.follows
  | serviceAddress => exact ServiceAddress.exact_read.exactOn.follows
  | scope => exact Scope.exact_read.exactOn.follows
  | description => exact Description.follows
  | descriptor => exact Descriptor.follows
  | grantSet => exact GrantSet.follows
  | peerRecord => exact PeerRecord.follows
  | signedData => exact SignedData.exactOn_read.follows
  | challenge => exact Challenge.exact_read.exactOn.follows
  | message => exact Message.follows

/-- Every value but a message is written from its own listing. Of a message only the payload that
is to be sent is written. -/
theorem normal {k : WireKind} (h : k ≠ .message) :
    k.form.Normal Serial.encode k.listing k.Tidy := by
  cases k with
  | serviceId => exact ServiceId.normal
  | peerAddress => exact Form.normal_plain _
  | serviceAddress => exact Form.normal_plain _
  | scope => exact Form.normal_plain _
  | description => exact Description.normal
  | descriptor => exact Descriptor.normal
  | grantSet => exact GrantSet.normal
  | peerRecord => exact PeerRecord.normal
  | signedData => exact Form.normal_plain _
  | challenge => exact Form.normal_plain _
  | message => exact absurd rfl h

end WireKind

/-- The same members in any order and with any repetitions make grant sets with the same bytes. -/
theorem GrantSet.ofLists_congr (version : Int64) {ids ids' : List ServiceId}
    {descriptors descriptors' : List Descriptor} (hIds : ∀ x, x ∈ ids ↔ x ∈ ids')
    (hDescriptors : ∀ x, x ∈ descriptors ↔ x ∈ descriptors') :
    ofLists version ids descriptors = ofLists version ids' descriptors' := by
  rw [ofLists, ofLists, SortedSet.ofList_congr hIds, SortedSet.ofList_congr hDescriptors]

namespace WireKind

/-- An input is decoded exactly if it lists something that makes a value, and it does so in one way
only. What is written of the value is decoded to the same value, is no longer, and is the input
exactly if no title or blurb in it is too long and every set is listed in strictly increasing order.
So for a kind without such parts it always is the input. There is one form only for each number of
variable length, truth value, scope, message kind and message status, and one version of descriptors
and records; and the members of a grant set are written in one way only. -/
theorem decode_normal_form :
    (∀ k : WireKind, k ≠ .message → ∀ (input : Bytes) (v : k.Value),
      Serial.decode k.Value input = .ok v ↔ ∃ l : k.Listing,
        k.form.Admits l ∧ k.form.value l = v ∧ k.form.bytes l = input ∧
        (∀ l', k.form.Admits l' → k.form.bytes l' = input → l' = l) ∧
        Serial.decode k.Value (Serial.encode v) = .ok v ∧
        (Serial.encode v).length ≤ input.length ∧
        (Serial.encode v = input ↔ k.Tidy l)) ∧
    (∀ k ∈ [serviceId, peerAddress, serviceAddress, scope, signedData, challenge],
      ∀ (input : Bytes) (v : k.Value),
        Serial.decode k.Value input = .ok v → Serial.encode v = input) ∧
    Varint.read.Exact Varint.encode ∧ bool.Exact boolBytes ∧
    (Serial.read : Reader Scope).Exact (fun s => [s.ordinal]) ∧
    Message.readKind.Exact (fun k => [Message.kindByte k]) ∧
    Message.readStatus.Exact (fun s => [Message.statusByte s]) ∧
    (∀ input x, Serial.decode Descriptor input = .ok x → input.head? = some Descriptor.version) ∧
    (∀ input r, Serial.decode PeerRecord input = .ok r → input.head? = some PeerRecord.version) ∧
    ∀ version ids ids' descriptors descriptors', (∀ x, x ∈ ids ↔ x ∈ ids') →
      (∀ x, x ∈ descriptors ↔ x ∈ descriptors') →
        Serial.encode (GrantSet.ofLists version ids descriptors) =
          Serial.encode (GrantSet.ofLists version ids' descriptors') := by
  have hForms : ∀ k : WireKind, k ≠ .message → ∀ (input : Bytes) (v : k.Value),
      Serial.decode k.Value input = .ok v ↔ ∃ l : k.Listing,
        k.form.Admits l ∧ k.form.value l = v ∧ k.form.bytes l = input ∧
        (∀ l', k.form.Admits l' → k.form.bytes l' = input → l' = l) ∧
        Serial.decode k.Value (Serial.encode v) = .ok v ∧
        (Serial.encode v).length ≤ input.length ∧
        (Serial.encode v = input ↔ k.Tidy l) :=
    fun k hk input v => normal_form k.follows (normal hk)
  refine ⟨hForms, ?_, Varint.exact_read, exact_bool, Scope.exact_read, Message.exact_readKind,
    Message.exact_readStatus, ?_, ?_, ?_⟩
  · intro k hMem input v hDecode
    have hKind : k ≠ .message := by
      rintro rfl
      simp at hMem
    have hTidy : ∀ l : k.Listing, k.Tidy l := by
      cases k <;> first | exact fun _ => trivial | simp at hMem
    obtain ⟨l, -, -, -, -, -, -, hSame⟩ := (hForms k hKind input v).mp hDecode
    exact hSame.mpr (hTidy l)
  · intro input x hDecode
    obtain ⟨l, -, -, rfl, -⟩ := (hForms .descriptor nofun input x).mp hDecode
    rfl
  · intro input r hDecode
    obtain ⟨l, -, -, rfl, -⟩ := (hForms .peerRecord nofun input r).mp hDecode
    rfl
  · intro version ids ids' descriptors descriptors' hIds hDescriptors
    rw [GrantSet.ofLists_congr version hIds hDescriptors]

/-- Three ids out of order, one of them twice. -/
def unsortedListing : GrantSet.Listing := ⟨1, [⟨9⟩, ⟨7⟩, ⟨7⟩], []⟩

theorem unsorted_normal_form :
    let input := GrantSet.form.bytes unsortedListing
    let s := GrantSet.ofLists 1 [⟨7⟩, ⟨9⟩] []
    Serial.decode GrantSet input = .ok s ∧ Serial.decode GrantSet (Serial.encode s) = .ok s ∧
      (Serial.encode s).length ≤ input.length ∧ Serial.encode s ≠ input := by
  intro input s
  have hAdmitted : unsortedListing.Admitted := ⟨by decide, by decide, nofun⟩
  have hDecode : Serial.decode GrantSet input = .ok s :=
    Serial.decode_eq_ok_iff_read.mpr ((GrantSet.follows.reads _ _ _).mpr
      ⟨unsortedListing, hAdmitted, by decide, (List.append_nil _).symm⟩)
  obtain ⟨l, -, -, -, hUnique, hAgain, hLength, hSame⟩ :=
    (decode_normal_form.1 .grantSet (by decide) input s).mp hDecode
  refine ⟨hDecode, hAgain, hLength, fun hEqual => ?_⟩
  have hListed : unsortedListing = l := hUnique unsortedListing hAdmitted rfl
  have hSorted : unsortedListing.ids.Pairwise (compare · · = .lt) :=
    (hListed ▸ hSame.mp hEqual : unsortedListing.Tidy).ids
  exact absurd hSorted (by decide)

end WireKind

end PeerServices
