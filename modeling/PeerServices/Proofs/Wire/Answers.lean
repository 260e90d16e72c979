import PeerServices.Proofs.Wire.Titles

/-!
# What messages carry

A message takes values to the other side and nothing else. The values that were put into a request
are got from it there in order, and then nothing is left. A response has the uid of its request and
none of its payload, however often it was responded to and sent in between.

* `WireKind.fits_of_length`: values that go into a payload can be read from it.
* `Message.getAll_of_unread`, `Message.Allowed.holds`: values that are got from a payload in order.
* `Message.errorText?_eq_some_iff`: when a message tells an error.
* `Message.Answer.ToldBy`, `Message.transmit_answer`: an answer, and what arrives of it.
* `Message.travel_of_fits`, `Message.travel_answer`: chains of answers on their way.
* `Message.payloads_arrive`: all of it.
-/

namespace PeerServices

open Codec

/-! ## Values that are short enough -/

/-- The descriptions in a value can be had. -/
def WireKind.Sound (k : WireKind) (v : k.Value) : Prop :=
  ∀ d ∈ k.descriptions v, d.Obtainable

theorem Codec.length_le_length_text (s : String) : (utf8 s).length ≤ (text s).length := by
  rw [text, blob, List.length_append]
  omega

theorem Codec.length_le_length_blob (bytes : Bytes) : bytes.length ≤ (blob bytes).length := by
  rw [blob, List.length_append]
  omega

theorem Description.fits_of_length {d : Description} (h : d.Obtainable)
    (hLength : (Serial.encode d).length ≤ maxBlobLength) : d.Fits := by
  have hForm : Serial.encode d = text d.title ++ text d.blurb ++ blob d.image := rfl
  have hTitle := length_le_length_text d.title
  have hBlurb := length_le_length_text d.blurb
  have hImage := length_le_length_blob d.image
  rw [hForm, List.length_append, List.length_append] at hLength
  exact ⟨h.created, by omega, by omega, by omega⟩

theorem Descriptor.fits_of_length {x : Descriptor} (h : x.description.Obtainable)
    (hLength : (Serial.encode x).length ≤ maxBlobLength) : x.Fits := by
  have hForm := congrArg List.length (encode_append x [])
  have hGroup := length_le_length_text x.group
  have hTags := length_le_length_text x.rawTags
  have hExtension := length_le_length_blob x.extension
  simp only [List.append_nil, List.length_cons, List.length_append] at hForm
  exact ⟨by omega, by omega, Description.fits_of_length h (by omega), by omega⟩

theorem GrantSet.fits_of_length {s : GrantSet}
    (h : ∀ x ∈ s.descriptors.toList, x.description.Obtainable)
    (hLength : (Serial.encode s).length ≤ maxBlobLength) : s.Fits := by
  have hForm : Serial.encode s =
      int64Bytes s.version ++ sequence s.ids.toList ++ sequence s.descriptors.toList := rfl
  rw [hForm, List.length_append, List.length_append] at hLength
  have hIds := length_le_length_sequence fun id (_ : id ∈ s.ids.toList) => id.encode_ne_nil
  have hDescriptors :=
    length_le_length_sequence fun x (_ : x ∈ s.descriptors.toList) => x.encode_ne_nil
  refine ⟨countable_of_le ?_, countable_of_le ?_, fun x hx => ?_⟩
  · rw [SortedSet.size]
    omega
  · rw [SortedSet.size]
    omega
  · have hPart := (infix_sequence hx).length_le
    exact Descriptor.fits_of_length (h x hx) (by omega)

theorem PeerRecord.fits_of_length {r : PeerRecord}
    (h : ∀ x ∈ r.exported.descriptors.toList ++ r.imported.descriptors.toList,
      x.description.Obtainable)
    (hLength : (Serial.encode r).length ≤ maxBlobLength) : r.Fits := by
  have hForm : Serial.encode r = version :: Serial.encode r.address ++ text r.name ++
    boolBytes r.pending ++ Serial.encode r.exported ++ Serial.encode r.imported ++
      blob r.extension := rfl
  have hName := length_le_length_text r.name
  have hExtension := length_le_length_blob r.extension
  simp only [hForm, List.length_cons, List.length_append] at hLength
  constructor
  case name => omega
  case exported =>
    exact GrantSet.fits_of_length (fun x hx => h x (List.mem_append_left _ hx)) (by omega)
  case imported =>
    exact GrantSet.fits_of_length (fun x hx => h x (List.mem_append_right _ hx)) (by omega)
  case extension => omega

theorem SignedData.fits_of_length {p : SignedData}
    (hLength : (Serial.encode p).length ≤ maxBlobLength) : p.Fits := by
  have hForm : Serial.encode p = p.publicKey.toList ++ blob p.data ++ p.signature.toList := rfl
  have hData := length_le_length_blob p.data
  simp only [hForm, List.length_append] at hLength
  exact Nat.le_trans hData (by omega)

theorem Message.fits_of_length {m : Message}
    (hLength : (Serial.encode m).length ≤ maxBlobLength) : m.Fits := by
  have hForm : Serial.encode m = kindByte m.kind :: int64Bytes m.uid ++
    statusByte m.status :: m.code :: blob m.written := rfl
  have hWritten := length_le_length_blob m.written
  simp only [hForm, List.length_cons, List.length_append] at hLength
  exact Nat.le_trans hWritten (by omega)

/-- A value that goes into a payload is no longer than one, so neither are its parts. -/
theorem WireKind.fits_of_length {k : WireKind} {v : k.Value} (h : k.Sound v)
    (hLength : (Serial.encode v).length ≤ maxBlobLength) : k.Fits v := by
  cases k with
  | description => exact Description.fits_of_length (h v List.mem_cons_self) hLength
  | descriptor =>
    exact Descriptor.fits_of_length (h (Descriptor.description v) List.mem_cons_self) hLength
  | grantSet =>
    exact GrantSet.fits_of_length (fun x hx => h _ (List.mem_map_of_mem hx)) hLength
  | peerRecord =>
    exact PeerRecord.fits_of_length (fun x hx => h _ (List.mem_map_of_mem hx)) hLength
  | signedData => exact SignedData.fits_of_length hLength
  | message => exact Message.fits_of_length hLength
  | serviceId | peerAddress | serviceAddress | scope | challenge => trivial

/-! ## Values in a payload -/

namespace Message

variable {m : Message} {items : List WireItem} {kinds : List WireKind}

/-- Puts values one after another. -/
def putAll (m : Message) (items : List WireItem) : Message :=
  items.foldl (fun m item => m.put item.2) m

/-- Gets a value of each kind in turn. -/
def getAll (m : Message) : List WireKind → Except Codec.Error (List WireItem × Message)
  | [] => .ok ([], m)
  | k :: kinds => do
    let (v, m) ← m.get k.Value
    let (items, m) ← m.getAll kinds
    return (⟨k, v⟩ :: items, m)

theorem putAll_eq (m : Message) (items : List WireItem) :
    m.putAll items = { m with written := m.written ++ items.flatMap WireItem.encode } := by
  unfold putAll
  induction items generalizing m with
  | nil => rw [List.flatMap_nil, List.append_nil]; rfl
  | cons item items ih =>
    rw [List.foldl_cons, ih, List.flatMap_cons, ← List.append_assoc]
    rfl

theorem getAll_of_unread {rest : Bytes} (h : ∀ item ∈ items, item.1.Fits item.2)
    (hUnread : m.unread = items.flatMap WireItem.encode ++ rest) :
    m.getAll (items.map Sigma.fst) =
      .ok (items.map WireItem.received, { m with unread := rest }) := by
  induction items generalizing m with
  | nil =>
    rw [List.flatMap_nil, List.nil_append] at hUnread
    rw [← hUnread]
    rfl
  | cons item items ih =>
    rw [List.flatMap_cons, List.append_assoc] at hUnread
    have hFirst := (WireKind.undoes (h item List.mem_cons_self)).read
      (items.flatMap WireItem.encode ++ rest)
    have hRest := ih (m := { m with unread := items.flatMap WireItem.encode ++ rest })
      (fun item' hMem => h item' (List.mem_cons_of_mem item hMem)) rfl
    have hGet : m.get item.1.Value = .ok (item.1.received item.2,
        { m with unread := items.flatMap WireItem.encode ++ rest }) := by
      rw [get, readWith, hUnread, WireItem.encode, hFirst]
      rfl
    rw [List.map_cons, getAll, hGet]
    simp only [bind, Except.bind, hRest]
    rfl

/-- Nothing is got from an empty payload. -/
theorem get_of_unread_nil (h : m.unread = []) (k : WireKind) :
    m.get k.Value = .error .endOfBuffer := by
  have hRead : (Serial.read : Reader k.Value) [] = .error .endOfBuffer := by
    cases k <;> rfl
  rw [get, readWith, h, hRead]
  rfl

/-- The payload of a message is exactly some values: they are got from it in order, as they are read
back, and then nothing is left to be got. -/
def Holds (m : Message) (items : List WireItem) : Prop :=
  ∃ rest, m.getAll (items.map Sigma.fst) = .ok (items.map WireItem.received, rest) ∧
    rest.unread = [] ∧ ∀ k : WireKind, rest.get k.Value = .error .endOfBuffer

/-- Values that can be had, with a payload that can be read. -/
structure Allowed (items : List WireItem) : Prop where
  sound : ∀ item ∈ items, item.1.Sound item.2
  length : (items.flatMap WireItem.encode).length ≤ maxBlobLength

theorem Allowed.fits (h : Allowed items) : ∀ item ∈ items, item.1.Fits item.2 := by
  intro item hMem
  apply WireKind.fits_of_length (h.sound item hMem)
  obtain ⟨before, after, rfl⟩ := List.append_of_mem hMem
  have hLength := h.length
  simp only [List.flatMap_append, List.flatMap_cons, List.length_append] at hLength
  have hItem : (Serial.encode item.2).length = item.encode.length := rfl
  omega

theorem Allowed.holds (h : Allowed items) (hUnread : m.unread = items.flatMap WireItem.encode) :
    m.Holds items := by
  rw [← List.append_nil (items.flatMap WireItem.encode)] at hUnread
  exact ⟨{ m with unread := [] }, getAll_of_unread h.fits hUnread, rfl, get_of_unread_nil rfl⟩

/-! ## Answers on their way -/

/-- Sends a message to the other side. -/
def transmit (m : Message) : Except Codec.Error Message := Serial.decode Message (Serial.encode m)

theorem transmit_of_fits (h : m.Fits) : m.transmit = .ok m.received := (undoes h).decode

theorem written_of_decode {input : Bytes} (h : Serial.decode Message input = .ok m) :
    m.written = [] := by
  obtain ⟨l, hl, rfl, -⟩ := (follows.reads input m []).mp (Serial.decode_eq_ok_iff_read.mp h)
  exact hl.2

theorem errorText?_eq_some_iff {text : String} : m.errorText? = some text ↔
    m.status = .error ∧ ∃ rest, (utf8 text).length ≤ maxBlobLength ∧
      m.unread = Codec.text text ++ rest := by
  have hRead (rest : Bytes) := exactOn_readText m.unread text rest
  simp only [← hRead, errorText?, isError, decide_eq_true_eq]
  cases m.status with
  | ok => simp
  | error => cases readText m.unread <;> simp [Prod.ext_iff]

/-- What a request is answered with. -/
inductive Answer
  | values (code : UInt8) (items : List WireItem)
  | error (text : String)

namespace Answer

def payload : Answer → Bytes
  | values _ items => items.flatMap WireItem.encode
  | error text => Codec.text text

/-- The payload of an answer can be read, and its values can be had. -/
structure Allowed (a : Answer) : Prop where
  sound : ∀ code items, a = values code items → ∀ item ∈ items, item.1.Sound item.2
  length : a.payload.length ≤ maxBlobLength

/-- A message is the response with a uid that tells an answer and nothing else. -/
structure ToldBy (a : Answer) (uid : Int64) (m : Message) : Prop where
  kind : m.kind = .response
  uid : m.uid = uid
  unread : m.unread = a.payload
  written : m.written = []
  content : match a with
    | values code items =>
      m.status = .ok ∧ m.code = code ∧ m.Holds items ∧ m.errorText? = none
    | error text => m.status = .error ∧ m.code = 0 ∧ m.errorText? = some text

end Answer

def answer (m : Message) : Answer → Message
  | .values code items => (m.respond code).putAll items
  | .error text => m.errorResponse text

theorem uid_answer (m : Message) (a : Answer) : (m.answer a).uid = m.uid := by
  cases a with
  | values code items => rw [answer, putAll_eq]; rfl
  | error text => rfl

theorem written_answer (m : Message) (a : Answer) : (m.answer a).written = a.payload := by
  cases a with
  | values code items => rw [answer, putAll_eq]; exact List.nil_append _
  | error text => rfl

theorem fits_answer {a : Answer} (h : a.payload.length ≤ maxBlobLength) (m : Message) :
    (m.answer a).Fits := by
  rw [Fits, written_answer]
  exact h

/-- An answer that was sent is told by what arrives. -/
theorem transmit_answer {a : Answer} (h : a.Allowed) (m : Message) :
    ∃ m', (m.answer a).transmit = .ok m' ∧ a.ToldBy m.uid m' := by
  have hFits : (m.answer a).Fits := fits_answer h.length m
  refine ⟨_, transmit_of_fits hFits, ?_⟩
  have hUnread : (m.answer a).received.unread = a.payload := written_answer m a
  cases a with
  | values code items =>
    have hItems : Allowed items := ⟨h.sound code items rfl, h.length⟩
    have hHolds := hItems.holds hUnread
    rw [answer, putAll_eq] at hHolds ⊢
    exact ⟨rfl, rfl, List.nil_append _, rfl, rfl, rfl, hHolds, rfl⟩
  | error text =>
    refine ⟨rfl, rfl, rfl, rfl, rfl, rfl, ?_⟩
    have hText : (utf8 text).length ≤ maxBlobLength :=
      Nat.le_trans (length_le_length_text text) h.length
    exact errorText?_eq_some_iff.mpr ⟨rfl, [], hText, (List.append_nil _).symm⟩

/-- What is done with a message on its way: it is turned into an answer, or sent. -/
inductive Leg
  | answer (a : Answer)
  | transmit

def go (m : Message) : Leg → Except Codec.Error Message
  | .answer a => .ok (m.answer a)
  | .transmit => m.transmit

def travel (m : Message) (legs : List Leg) : Except Codec.Error Message := legs.foldlM go m

/-- The payload that is put in on a leg can be read. -/
def Leg.Fits : Leg → Prop
  | .answer a => a.payload.length ≤ maxBlobLength
  | .transmit => True

/-- A leg keeps the uid. -/
theorem go_of_fits {leg : Leg} (h : m.Fits) (hLeg : leg.Fits) :
    ∃ m', m.go leg = .ok m' ∧ m'.Fits ∧ m'.uid = m.uid := by
  cases leg with
  | answer a => exact ⟨m.answer a, rfl, fits_answer hLeg m, uid_answer m a⟩
  | transmit => exact ⟨m.received, transmit_of_fits h, Nat.zero_le _, rfl⟩

theorem travel_of_fits {legs : List Leg} (h : m.Fits) (hLegs : ∀ leg ∈ legs, leg.Fits) :
    ∃ m', m.travel legs = .ok m' ∧ m'.Fits ∧ m'.uid = m.uid := by
  induction legs generalizing m with
  | nil => exact ⟨m, rfl, h, rfl⟩
  | cons leg legs ih =>
    obtain ⟨m₁, hGo, hFits, hUid⟩ := go_of_fits h (hLegs leg List.mem_cons_self)
    obtain ⟨m₂, hTravel, hFits', hUid'⟩ :=
      ih hFits fun leg' hMem => hLegs leg' (List.mem_cons_of_mem leg hMem)
    refine ⟨m₂, ?_, hFits', hUid'.trans hUid⟩
    rw [travel, List.foldlM_cons, hGo]
    exact hTravel

/-- Only the last answer of a chain arrives, with the uid that the chain began with. -/
theorem travel_answer {legs : List Leg} {a : Answer} (h : m.Fits) (hLegs : ∀ leg ∈ legs, leg.Fits)
    (hAllowed : a.Allowed) :
    ∃ m', m.travel (legs ++ [.answer a, .transmit]) = .ok m' ∧ a.ToldBy m.uid m' := by
  obtain ⟨m₁, hTravel, -, hUid⟩ := travel_of_fits h hLegs
  obtain ⟨m₂, hTransmit, hTold⟩ := transmit_answer hAllowed m₁
  refine ⟨m₂, ?_, hUid ▸ hTold⟩
  rw [travel] at hTravel ⊢
  rw [List.foldlM_append, hTravel]
  simp only [bind, Except.bind, List.foldlM_cons, go, hTransmit]
  rfl

/-- What is put into a request is got from it on the other side. A message that was read, and that
any chain of answers was made from, arrives as the response with its uid that holds the last of
them. Only messages that tell an error have an error text, and its place in the payload is kept. -/
theorem payloads_arrive :
    (∀ uid code items, Allowed items →
      ∃ m', ((request uid code).putAll items).transmit = .ok m' ∧
        m'.kind = .request ∧ m'.uid = uid ∧ m'.status = .ok ∧ m'.code = code ∧ m'.Holds items) ∧
    (∀ input m, Serial.decode Message input = .ok m →
      ∀ legs, (∀ leg ∈ legs, Leg.Fits leg) → ∀ a, Answer.Allowed a →
        ∃ m', m.travel (legs ++ [.answer a, .transmit]) = .ok m' ∧ a.ToldBy m.uid m') ∧
    (∀ m : Message, m.status = .ok → m.errorText? = none) ∧
    ∀ (m : Message) text, m.errorText? = some text →
      ∃ m', m.readWith readText = .ok (text, m') := by
  refine ⟨fun uid code items h => ?_, fun input m h legs hLegs a hAllowed => ?_, fun m h => ?_,
    fun m text h => ?_⟩
  · have hPut := putAll_eq (request uid code) items
    have hUnread : ((request uid code).putAll items).written = items.flatMap WireItem.encode :=
      (congrArg written hPut).trans (List.nil_append _)
    have hFits : ((request uid code).putAll items).Fits := by
      rw [Fits, hUnread]
      exact h.length
    refine ⟨_, transmit_of_fits hFits, ?_, ?_, ?_, ?_, h.holds hUnread⟩ <;> rw [hPut] <;> rfl
  · have hFits : m.Fits := by
      rw [Fits, written_of_decode h]
      exact Nat.zero_le _
    exact travel_answer hFits hLegs hAllowed
  · rw [errorText?, isError, h]
    rfl
  · obtain ⟨-, rest, hText, hUnread⟩ := errorText?_eq_some_iff.mp h
    refine ⟨{ m with unread := rest }, ?_⟩
    rw [readWith, (exactOn_readText m.unread text rest).mpr ⟨hText, hUnread⟩]
    rfl

theorem sound_sampleRecord : WireKind.peerRecord.Sound WireItem.sampleRecord := by
  intro d hd
  obtain ⟨x, hx, rfl⟩ := List.mem_map.mp hd
  obtain ⟨title, blurb, image, hCreate⟩ := WireItem.sampleDescription_created
  rcases List.mem_append.mp hx with hx | hx
  · rw [List.mem_singleton.mp (SortedSet.mem_ofList.mp hx)]
    exact .create hCreate
  · exact nomatch hx

/-- A request with a record and a scope in it arrives. It is answered with the scope, and on its way
this answer is turned into an error. -/
theorem busy_arrives :
    let items : List WireItem :=
      [⟨.peerRecord, WireItem.sampleRecord⟩, ⟨.scope, Scope.anyone⟩]
    let answers : List Leg :=
      [.answer (.values 2 (items.drop 1)), .transmit, .answer (.error "Busy"), .transmit]
    ∃ m, ((request 41 3).putAll items).transmit = .ok m ∧ m.Holds items ∧
      ∃ m', m.travel answers = .ok m' ∧ m'.uid = 41 ∧ m'.errorText? = some "Busy" ∧
        ∃ m'', m'.readWith readText = .ok ("Busy", m'') := by
  intro items answers
  obtain ⟨hRequest, hChain, -, hText⟩ := payloads_arrive
  have hItems : Allowed items := by
    refine ⟨fun item hMem d hd => ?_, by decide +kernel⟩
    rcases List.mem_cons.mp hMem with rfl | hMem
    · exact sound_sampleRecord d hd
    · obtain rfl := List.mem_singleton.mp hMem
      exact nomatch hd
  have hBusy : (Answer.error "Busy").Allowed := ⟨fun _ _ => nofun, by decide +kernel⟩
  obtain ⟨m, hTransmit, -, hUid, -, -, hHolds⟩ := hRequest 41 3 items hItems
  have hLegs : ∀ leg ∈ answers.take 2, leg.Fits := by
    intro leg hMem
    rcases List.mem_cons.mp hMem with rfl | hMem
    · have : (Serial.encode Scope.anyone).length ≤ maxBlobLength := by decide +kernel
      exact this
    · rw [List.mem_singleton.mp hMem]
      trivial
  obtain ⟨m', hTravel, hTold⟩ := hChain _ m hTransmit _ hLegs _ hBusy
  have hSays : m'.errorText? = some "Busy" := hTold.content.2.2
  exact ⟨m, hTransmit, hHolds, m', hTravel, hTold.uid.trans hUid, hSays, hText m' _ hSays⟩

end Message

end PeerServices
