import PeerServices.Proofs.Wire.Stream
import PeerServices.Proofs.Wire.Values

/-!
# What arrives of the frames that were written

Frames are written to a stream one after another, also behind one that was refused. All that were
not refused are read in order, and then the stream has ended. If the stream is cut, the frames
before the cut are read as before.

* `Frame.writeAll_eq`: what is answered to a list of writes, and what they add to the stream.
* `Inbound.contents_take`: what is read of a stream that is cut.
* `Message.sizeWith_le_iff`: the longest payload for which a message has a frame.
* `Frame.writes_arrive`: all of it.
-/

namespace PeerServices

open Inbound (framed contents)

/-! ## Streams that are written -/

namespace Frame

/-- What comes of writing a body to a stream, and the stream then. -/
def write (stream body : Bytes) : Except WireError Unit × Bytes :=
  match encode body with
  | .ok frame => (.ok (), stream ++ frame)
  | .error e => (.error e, stream)

/-- Writes bodies one after another, also behind one that was refused. -/
def writeAll (stream : Bytes) : List Bytes → List (Except WireError Unit) × Bytes
  | [] => ([], stream)
  | body :: bodies =>
    let (answer, stream) := write stream body
    let (answers, stream) := writeAll stream bodies
    (answer :: answers, stream)

/-- A body for which there is a frame. -/
def Allowed (body : Bytes) : Prop := body.length ≤ maxSize

instance (body : Bytes) : Decidable (Allowed body) :=
  inferInstanceAs (Decidable (body.length ≤ maxSize))

theorem write_of_allowed {body : Bytes} (h : Allowed body) (stream : Bytes) :
    write stream body = (.ok (), stream ++ framed body) := by
  unfold Allowed at h
  simp [write, encode, h, framed]

theorem write_of_not_allowed {body : Bytes} (h : ¬Allowed body) (stream : Bytes) :
    write stream body =
      (.error (.frameTooLarge (min body.length maxHeader) maxSize), stream) := by
  unfold Allowed at h
  simp [write, encode, h]

theorem write_ok_iff {stream body : Bytes} : (write stream body).1 = .ok () ↔ Allowed body := by
  by_cases h : Allowed body
  · simp [write_of_allowed h, h]
  · simp [write_of_not_allowed h, h]

/-- An answer does not depend on what was written before. -/
theorem writeAll_eq (stream : Bytes) (bodies : List Bytes) :
    writeAll stream bodies = (bodies.map fun body => (write [] body).1,
      stream ++ (bodies.filter Allowed).flatMap framed) := by
  induction bodies generalizing stream with
  | nil => simp [writeAll]
  | cons body bodies ih =>
    by_cases h : Allowed body
    · simp [writeAll, ih, write_of_allowed h, h]
    · simp [writeAll, ih, write_of_not_allowed h, h]

theorem forall_allowed (bodies : List Bytes) :
    ∀ body ∈ bodies.filter Allowed, body.length ≤ maxSize := fun _ hMem =>
  of_decide_eq_true (List.mem_filter.mp hMem).2

end Frame

/-! ## Streams that are cut -/

namespace Inbound

@[simp] theorem length_framed (body : Bytes) :
    (framed body).length = Frame.headerSize + body.length := by
  simp [framed]

theorem next_of_short {bytes : Bytes} (h : bytes.length < Frame.headerSize) :
    next ⟨bytes, true⟩ = .broken .connectionClosed :=
  next_eq_broken.mpr (.inr (.inl ⟨rfl, h, rfl⟩))

/-- A frame that breaks off: its header does, or its body. -/
theorem next_take_framed {body : Bytes} (hBody : body.length ≤ Frame.maxSize) {cut : Nat}
    (hCut : cut < Frame.headerSize + body.length) :
    next ⟨(framed body).take cut, true⟩ =
      .broken (if cut < Frame.headerSize then .connectionClosed else .io .earlyEnd) := by
  have hLength : ((framed body).take cut).length = cut := by
    rw [List.length_take, length_framed]
    omega
  by_cases hHeader : cut < Frame.headerSize
  · rw [if_pos hHeader]
    exact next_of_short (hLength.symm ▸ hHeader)
  · have hTake : ((framed body).take cut).take Frame.headerSize =
        BigEndian.ofNat Frame.headerSize body.length := by
      rw [List.take_take, Nat.min_eq_left (Nat.le_of_not_lt hHeader), framed]
      exact List.take_left' (BigEndian.length_ofNat _ _)
    have hSize : BigEndian.toNat (((framed body).take cut).take Frame.headerSize) =
        body.length := by rw [hTake, toNat_header hBody]
    rw [if_neg hHeader]
    refine next_eq_broken.mpr (.inr (.inr ⟨rfl, ?_, ?_, ?_, rfl⟩))
    · rw [hLength]
      exact Nat.le_of_not_lt hHeader
    · rw [hSize]
      exact hBody
    · rw [hLength, hSize]
      exact hCut

/-- Of a stream of frames that is cut, the frames before the cut are read. Then the stream has ended
between two frames or within a header, or within a body. -/
theorem contents_take {bodies : List Bytes} (hBodies : ∀ body ∈ bodies, body.length ≤ Frame.maxSize)
    {cut : Nat} (hCut : cut ≤ (bodies.flatMap framed).length) :
    ∃ before after, bodies = before ++ after ∧ (before.flatMap framed).length ≤ cut ∧
      (∀ body ∈ after.head?, cut < (before.flatMap framed).length + (framed body).length) ∧
      contents ⟨(bodies.flatMap framed).take cut, true⟩ =
        (before, some (if cut - (before.flatMap framed).length < Frame.headerSize
          then .connectionClosed else .io .earlyEnd)) := by
  induction bodies generalizing cut with
  | nil =>
    obtain rfl : cut = 0 := Nat.le_zero.mp hCut
    exact ⟨[], [], rfl, Nat.le_refl 0, nofun, contents_of_broken (next_of_short (by decide))⟩
  | cons body bodies ih =>
    have hBody := hBodies body List.mem_cons_self
    rw [List.flatMap_cons, List.length_append] at hCut
    by_cases hFirst : cut < (framed body).length
    · refine ⟨[], body :: bodies, rfl, Nat.zero_le cut, ?_, ?_⟩
      · rintro _ ⟨⟩
        rw [List.flatMap_nil, List.length_nil, Nat.zero_add]
        exact hFirst
      · rw [List.flatMap_cons, List.take_append_of_le_length (Nat.le_of_lt hFirst)]
        rw [length_framed] at hFirst
        exact contents_of_broken (next_take_framed hBody hFirst)
    · obtain ⟨cut', rfl⟩ := Nat.exists_eq_add_of_le (Nat.not_lt.mp hFirst)
      have hCut' : cut' ≤ (bodies.flatMap framed).length := by omega
      obtain ⟨before, after, rfl, hBefore, hAfter, hContents⟩ :=
        ih (fun b hMem => hBodies b (List.mem_cons_of_mem body hMem)) hCut'
      have hLeft : (framed body).length + cut' - ((body :: before).flatMap framed).length =
          cut' - (before.flatMap framed).length := by
        rw [List.flatMap_cons, List.length_append]
        omega
      refine ⟨body :: before, after, rfl, ?_, fun b hHead => ?_, ?_⟩
      · rw [List.flatMap_cons, List.length_append]
        omega
      · have := hAfter b hHead
        rw [List.flatMap_cons, List.length_append]
        omega
      · have hNext := next_framed hBody ⟨((before ++ after).flatMap framed).take cut', true⟩
        rw [List.flatMap_cons, List.take_length_add_append, contents_of_frame hNext, hContents,
          hLeft]

/-- A header above the limit is refused behind any frames, whatever follows it. -/
theorem contents_of_large_header {bodies : List Bytes}
    (hBodies : ∀ body ∈ bodies, body.length ≤ Frame.maxSize) {header : Bytes}
    (hHeader : header.length = Frame.headerSize)
    (hLarge : Frame.maxSize < BigEndian.toNat header) (behind : Bytes) (ended : Bool) :
    contents ⟨bodies.flatMap framed ++ (header ++ behind), ended⟩ =
      (bodies, some (.frameTooLarge (BigEndian.toNat header) Frame.maxSize)) := by
  have hTake : (header ++ behind).take Frame.headerSize = header := List.take_left' hHeader
  have hNext : next ⟨header ++ behind, ended⟩ =
      .broken (.frameTooLarge (BigEndian.toNat header) Frame.maxSize) := by
    refine next_eq_broken.mpr (.inl ⟨?_, ?_, ?_⟩)
    · rw [List.length_append]
      omega
    · rw [hTake]
      exact hLarge
    · rw [hTake]
  rw [contents_append hBodies ⟨header ++ behind, ended⟩, contents_of_broken hNext,
    List.append_nil]

end Inbound

/-! ## Messages -/

namespace Message

/-- The size of a message with a payload of so many bytes. -/
def sizeWith (payload : Nat) : Nat :=
  11 + (Varint.encode (UInt64.ofNat payload)).length + payload

theorem length_encode (m : Message) : (Serial.encode m).length = sizeWith m.written.length := by
  simp only [Serial.encode, Codec.blob, int64Bytes, sizeWith, List.length_append, List.length_cons,
    BigEndian.length_ofNat]
  omega

/-- The longest payload for which there is a frame. Its length takes four bytes. -/
def maxPayload : Nat := Frame.maxSize - 15

theorem sizeWith_le_iff (payload : Nat) :
    sizeWith payload ≤ Frame.maxSize ↔ payload ≤ maxPayload := by
  have hMax : Frame.maxSize = 16777216 := rfl
  unfold sizeWith maxPayload
  rw [hMax]
  by_cases hCountable : Codec.Countable payload
  · have hThree := Varint.length_groups_le_iff (n := payload)
      (show 0 < 3 by decide) (show 3 < Varint.maxGroups by decide)
    have hFour := Varint.length_groups_le_iff (n := payload)
      (show 0 < 4 by decide) (show 4 < Varint.maxGroups by decide)
    rw [Varint.encode, Codec.toNat_ofNat_of_countable hCountable]
    simp only [Nat.pow_eq, Nat.reducePow] at hThree hFour
    omega
  · simp only [Codec.Countable, UInt64.size] at hCountable
    omega

theorem allowed_iff (m : Message) :
    Frame.Allowed (Serial.encode m) ↔ sizeWith m.written.length ≤ Frame.maxSize := by
  rw [Frame.Allowed, length_encode]

/-- The payload of a message that has a frame is short enough to be read. -/
theorem fits_of_allowed {m : Message} (h : Frame.Allowed (Serial.encode m)) : m.Fits := by
  have hMax : maxPayload ≤ Codec.maxBlobLength := by decide
  exact Nat.le_trans ((sizeWith_le_iff _).mp ((allowed_iff m).mp h)) hMax

theorem decode_encode {m : Message} (h : m.Fits) :
    Frame.decode Message (.ok (Serial.encode m)) = .ok m.received := by
  have hRead := (undoes h).read []
  rw [List.append_nil] at hRead
  exact Frame.decode_eq_ok_iff.mpr ⟨_, rfl, Serial.decode_eq_ok_iff_read.mpr hRead⟩

/-- The bodies of messages that have a frame are read as these messages. -/
theorem decode_filter_encode (messages : List Message) :
    ((messages.map Serial.encode).filter Frame.Allowed).map
        (fun body => Frame.decode Message (.ok body)) =
      (messages.filter fun m => sizeWith m.written.length ≤ Frame.maxSize).map
        fun m => .ok m.received := by
  have hSame : (fun m : Message => decide (Frame.Allowed (Serial.encode m))) =
      fun m => decide (sizeWith m.written.length ≤ Frame.maxSize) :=
    funext fun m => decide_eq_decide.mpr (allowed_iff m)
  rw [List.filter_map, List.map_map, ← hSame]
  refine List.map_congr_left fun m hMem => ?_
  have hAllowed : Frame.Allowed (Serial.encode m) := of_decide_eq_true (List.mem_filter.mp hMem).2
  exact decode_encode (fits_of_allowed hAllowed)

end Message

/-! ## All of it -/

namespace Frame

/-- A body of an allowed size is written completely, and a larger one is refused without a byte.
All bodies that were not refused are read in order, whatever was refused between them, and then the
stream has ended. If it is cut, exactly the bodies before the cut are read; then it has ended within
a header or before one, or within a body. A header above the limit is refused. A message has a frame
exactly if its kind, uid, status and code, the length of its payload and the payload fit in one, and
then it arrives with all of them. -/
theorem writes_arrive :
    (∀ stream body, (body.length ≤ maxSize → write stream body = (.ok (), stream ++ framed body)) ∧
      (maxSize < body.length → write stream body =
        (.error (.frameTooLarge (min body.length maxHeader) maxSize), stream))) ∧
    (∀ bodies,
      let accepted := bodies.filter Allowed
      let stream := (writeAll [] bodies).2
      (writeAll [] bodies).1 = bodies.map (fun body => (write [] body).1) ∧
      contents ⟨stream, true⟩ = (accepted, some .connectionClosed) ∧
      (∀ cut ≤ stream.length, ∃ before after, accepted = before ++ after ∧
        (before.flatMap framed).length ≤ cut ∧
        (∀ body ∈ after.head?, cut < (before.flatMap framed).length + (framed body).length) ∧
        contents ⟨stream.take cut, true⟩ =
          (before, some (if cut - (before.flatMap framed).length < headerSize
            then .connectionClosed else .io .earlyEnd))) ∧
      ∀ header behind ended, header.length = headerSize → maxSize < BigEndian.toNat header →
        contents ⟨stream ++ (header ++ behind), ended⟩ =
          (accepted, some (.frameTooLarge (BigEndian.toNat header) maxSize))) ∧
    (∀ stream (m : Message), (write stream (Serial.encode m)).1 = .ok () ↔
      Message.sizeWith m.written.length ≤ maxSize) ∧
    ∀ messages : List Message,
      let deliverable := messages.filter fun m => Message.sizeWith m.written.length ≤ maxSize
      (contents ⟨(writeAll [] (messages.map Serial.encode)).2, true⟩).1.map
          (fun body => decode Message (.ok body)) =
        deliverable.map fun m => .ok { m with unread := m.written, written := [] } := by
  have hStream : ∀ bodies, (writeAll [] bodies).2 = (bodies.filter Allowed).flatMap framed :=
    fun bodies => by rw [writeAll_eq, List.nil_append]
  have hContents : ∀ bodies, contents ⟨(writeAll [] bodies).2, true⟩ =
      (bodies.filter Allowed, some .connectionClosed) := by
    intro bodies
    have hNext : Inbound.next ⟨[], true⟩ = .broken .connectionClosed :=
      Inbound.next_of_short (by decide)
    have hAll := Inbound.contents_append (forall_allowed bodies) ⟨[], true⟩
    rw [Inbound.contents_of_broken hNext, List.append_nil, List.append_nil] at hAll
    rw [hStream]
    exact hAll
  refine ⟨fun stream body => ⟨fun h => write_of_allowed h stream, fun h => ?_⟩, ?_, ?_, ?_⟩
  · exact write_of_not_allowed (Nat.not_le_of_lt h) stream
  · intro bodies accepted stream
    refine ⟨by rw [writeAll_eq], hContents bodies, fun cut hCut => ?_, ?_⟩
    · rw [show stream = _ from hStream bodies] at hCut ⊢
      exact Inbound.contents_take (forall_allowed bodies) hCut
    · intro header behind ended hHeader hLarge
      rw [show stream = _ from hStream bodies]
      exact Inbound.contents_of_large_header (forall_allowed bodies) hHeader hLarge behind ended
  · intro stream m
    rw [write_ok_iff, Message.allowed_iff]
  · intro messages deliverable
    rw [hContents]
    exact Message.decode_filter_encode messages

/-- A stream of two frames, cut within the header of the second one or behind it. -/
theorem two_writes_arrive :
    let stream := (writeAll [] [[7], [8, 9]]).2
    8 ≤ stream.length ∧ contents ⟨stream.take 8, true⟩ = ([[7]], some .connectionClosed) ∧
      9 ≤ stream.length ∧ contents ⟨stream.take 9, true⟩ = ([[7]], some (.io .earlyEnd)) ∧
      maxSize < BigEndian.toNat [1, 0, 0, 1] ∧
      contents ⟨stream ++ [1, 0, 0, 1], false⟩ =
        ([[7], [8, 9]], some (.frameTooLarge 16777217 maxSize)) := by
  intro stream
  obtain ⟨-, -, hCut, hLarge⟩ := writes_arrive.2.1 [[7], [8, 9]]
  have hBefore : ∀ before after : List Bytes, [[7], [8, 9]] = before ++ after →
      (before.flatMap framed).length ≤ 9 →
      (∀ body ∈ after.head?, 8 < (before.flatMap framed).length + (framed body).length) →
      before = [[7]] := by
    intro before after hSplit hLow hHigh
    match before, after, hSplit with
    | [], _, rfl => exact absurd (hHigh [7] rfl) (by decide)
    | [_], _, rfl => rfl
    | [_, _], _, rfl => exact absurd hLow (by decide)
  refine ⟨by decide, ?_, by decide, ?_, by decide, ?_⟩
  · obtain ⟨before, after, hSplit, hLow, hHigh, hContents⟩ := hCut 8 (by decide)
    obtain rfl := hBefore before after hSplit (by omega) hHigh
    exact hContents
  · obtain ⟨before, after, hSplit, hLow, hHigh, hContents⟩ := hCut 9 (by decide)
    obtain rfl := hBefore before after hSplit hLow fun body hHead =>
      Nat.lt_of_succ_lt (hHigh body hHead)
    exact hContents
  · exact hLarge [1, 0, 0, 1] [] false rfl (by decide)

end Frame

end PeerServices
