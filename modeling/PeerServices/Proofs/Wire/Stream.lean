import PeerServices.Proofs.Codec.Exact
import PeerServices.Wire.Frame

/-!
# Frames in a stream

A stream is read frame by frame, and how much of it has arrived at a time makes no difference: a
frame that is there stays there when more arrives or the stream ends, and so does a header that is
refused.

* `Inbound.next_eq_frame`, `Inbound.next_eq_broken`: when a frame is there, and when none will come.
* `Inbound.contents`: all frames that can be read, and why no more will come, if that is settled.
* `Inbound.contents_append`: the frames of a stream that is made of frames and a rest.
  `Inbound.holds_contents`: every stream is made so.
* `Inbound.Grows`: more arrives, or the stream ends.
-/

namespace PeerServices

/-- A frame that has arrived fails only for what it holds. -/
theorem Frame.codec_of_decode {α : Type} [Serial α] {body : Bytes} {e : WireError}
    (h : Frame.decode α (.ok body) = .error e) : ∃ cause, e = .codec cause := by
  rw [Frame.decode] at h
  split at h
  · cases h
  · cases h
    exact ⟨_, rfl⟩

namespace Inbound

variable {s rest : Inbound} {body : Bytes} {cause : WireError}

/-- A body with its header. -/
def framed (body : Bytes) : Bytes := BigEndian.ofNat Frame.headerSize body.length ++ body

/-! ## The next frame -/

theorem next_eq_frame : s.next = .frame body rest ↔
    ∃ header : Bytes, header.length = Frame.headerSize ∧ BigEndian.toNat header = body.length ∧
      body.length ≤ Frame.maxSize ∧ s.bytes = header ++ (body ++ rest.bytes) ∧
      rest.ended = s.ended := by
  constructor
  · intro h
    unfold next at h
    dsimp only at h
    split at h
    · split at h <;> cases h
    next hHeader =>
      split at h
      · cases h
      next hSize =>
        split at h
        · split at h <;> cases h
        next hBody =>
          cases h
          have hLong : (s.bytes.take Frame.headerSize).length = Frame.headerSize := by
            simp only [List.length_take] at hHeader ⊢
            omega
          have hSame : ((s.bytes.drop Frame.headerSize).take
              (BigEndian.toNat (s.bytes.take Frame.headerSize))).length =
              BigEndian.toNat (s.bytes.take Frame.headerSize) := by
            simp only [List.length_take] at hBody ⊢
            omega
          refine ⟨s.bytes.take Frame.headerSize, hLong, hSame.symm, ?_, ?_, rfl⟩
          · rw [hSame]
            exact Nat.le_of_not_lt hSize
          · rw [List.take_append_drop, List.take_append_drop]
  · rintro ⟨header, hHeader, hSize, hMax, hBytes, hEnded⟩
    have hTake : s.bytes.take Frame.headerSize = header := by
      rw [hBytes, ← hHeader, List.take_left']
      rfl
    have hDrop : s.bytes.drop Frame.headerSize = body ++ rest.bytes := by
      rw [hBytes, ← hHeader, List.drop_left']
      rfl
    have hBody : (body ++ rest.bytes).take body.length = body := List.take_left' rfl
    have hRest : (body ++ rest.bytes).drop body.length = rest.bytes := List.drop_left' rfl
    unfold next
    simp only [hTake, hDrop, hHeader, hSize, hBody, hRest, Nat.lt_irrefl, if_false,
      Nat.not_lt_of_le hMax, ← hEnded]

/-- No frame will come if a header is refused, or the stream has ended before the next frame was
whole. -/
theorem next_eq_broken : s.next = .broken cause ↔
    (Frame.headerSize ≤ s.bytes.length ∧
      Frame.maxSize < BigEndian.toNat (s.bytes.take Frame.headerSize) ∧
      cause = .frameTooLarge (BigEndian.toNat (s.bytes.take Frame.headerSize)) Frame.maxSize) ∨
    (s.ended = true ∧ s.bytes.length < Frame.headerSize ∧ cause = .connectionClosed) ∨
    (s.ended = true ∧ Frame.headerSize ≤ s.bytes.length ∧
      BigEndian.toNat (s.bytes.take Frame.headerSize) ≤ Frame.maxSize ∧
      s.bytes.length < Frame.headerSize + BigEndian.toNat (s.bytes.take Frame.headerSize) ∧
      cause = .io .earlyEnd) := by
  unfold next
  dsimp only
  generalize hSize : BigEndian.toNat (s.bytes.take Frame.headerSize) = size
  simp only [List.length_take, List.length_drop]
  by_cases hHeader : s.bytes.length < Frame.headerSize
  · have hShort : min Frame.headerSize s.bytes.length < Frame.headerSize := by omega
    have hNot : ¬Frame.headerSize ≤ s.bytes.length := by omega
    cases hEnded : s.ended <;> simp [hShort, hNot, hHeader, eq_comm]
  · have hLong : ¬min Frame.headerSize s.bytes.length < Frame.headerSize := by omega
    have hLe : Frame.headerSize ≤ s.bytes.length := by omega
    by_cases hMax : Frame.maxSize < size
    · have hNot : ¬size ≤ Frame.maxSize := by omega
      rw [if_neg hLong, if_pos hMax, Next.broken.injEq]
      constructor
      · intro h
        exact .inl ⟨hLe, hMax, h.symm⟩
      · rintro (⟨-, -, h⟩ | ⟨-, h, -⟩ | ⟨-, -, h, -⟩)
        · exact h.symm
        · exact absurd h hHeader
        · exact absurd h hNot
    · have hFits : size ≤ Frame.maxSize := by omega
      by_cases hBody : s.bytes.length < Frame.headerSize + size
      · have hShort : min size (s.bytes.length - Frame.headerSize) < size := by omega
        cases hEnded : s.ended <;> simp [hLe, hHeader, hMax, hFits, hBody, hShort, eq_comm]
      · have hWhole : ¬min size (s.bytes.length - Frame.headerSize) < size := by omega
        simp [hLong, hHeader, hMax, hBody, hWhole]

/-! ## All frames -/

/-- The bodies of all frames that can be read, in order, and why no frame follows, if that is
settled. -/
def contents (s : Inbound) : List Bytes × Option WireError :=
  match _ : s.next with
  | .waiting => ([], none)
  | .frame body rest =>
    let (bodies, cause) := rest.contents
    (body :: bodies, cause)
  | .broken cause => ([], some cause)
termination_by s.bytes.length
decreasing_by exact length_of_next ‹_›

theorem contents_of_waiting (h : s.next = .waiting) : s.contents = ([], none) := by
  rw [contents]
  split <;> simp_all

theorem contents_of_broken (h : s.next = .broken cause) : s.contents = ([], some cause) := by
  rw [contents]
  split <;> simp_all

theorem contents_of_frame (h : s.next = .frame body rest) :
    s.contents = (body :: rest.contents.1, rest.contents.2) := by
  rw [contents]
  split <;> simp_all

/-- What no frame follows for is never a body that cannot be read. -/
theorem cause_ne_codec (h : s.contents.2 = some cause) (e : Codec.Error) : cause ≠ .codec e := by
  induction hLength : s.bytes.length using Nat.strongRecOn generalizing s with
  | ind length ih =>
    cases hNext : s.next with
    | waiting =>
      rw [contents_of_waiting hNext] at h
      cases h
    | frame body rest =>
      rw [contents_of_frame hNext] at h
      exact ih _ (hLength ▸ length_of_next hNext) h rfl
    | broken cause' =>
      rw [contents_of_broken hNext] at h
      obtain rfl := Option.some.inj h
      rcases next_eq_broken.mp hNext with ⟨-, -, rfl⟩ | ⟨-, -, rfl⟩ | ⟨-, -, -, -, rfl⟩ <;> nofun

/-- The header of a frame holds every length that is allowed. -/
theorem toNat_header (hBody : body.length ≤ Frame.maxSize) :
    BigEndian.toNat (BigEndian.ofNat Frame.headerSize body.length) = body.length := by
  have hSmall : Frame.maxSize < Nat.pow 256 Frame.headerSize := by decide
  rw [BigEndian.toNat_ofNat, Nat.mod_eq_of_lt (Nat.lt_of_le_of_lt hBody hSmall)]

theorem next_framed (hBody : body.length ≤ Frame.maxSize) (rest : Inbound) :
    next { rest with bytes := framed body ++ rest.bytes } = .frame body rest :=
  next_eq_frame.mpr ⟨_, BigEndian.length_ofNat _ _, toNat_header hBody, hBody,
    List.append_assoc _ _ _, rfl⟩

/-- Frames are read one after another, and then what is behind them. -/
theorem contents_append {bodies : List Bytes} (hBodies : ∀ body ∈ bodies, body.length ≤ Frame.maxSize)
    (rest : Inbound) : contents { rest with bytes := bodies.flatMap framed ++ rest.bytes } =
      (bodies ++ rest.contents.1, rest.contents.2) := by
  induction bodies with
  | nil => rfl
  | cons body bodies ih =>
    have hRest := ih fun b hMem => hBodies b (List.mem_cons_of_mem body hMem)
    have hNext := next_framed (hBodies body List.mem_cons_self)
      { rest with bytes := bodies.flatMap framed ++ rest.bytes }
    rw [List.flatMap_cons, List.append_assoc, contents_of_frame hNext, hRest]
    rfl

/-- A stream is made of frames with these bodies, and of a rest: either more of the next frame may
arrive, or no frame will come any more for this reason. -/
def Holds (s : Inbound) (bodies : List Bytes) (cause? : Option WireError) : Prop :=
  ∃ rest : Inbound, rest.ended = s.ended ∧ s.bytes = bodies.flatMap framed ++ rest.bytes ∧
    (∀ body ∈ bodies, body.length ≤ Frame.maxSize) ∧
    match cause? with
    | none => rest.next = .waiting
    | some cause => rest.next = .broken cause

theorem holds_contents (s : Inbound) : s.Holds s.contents.1 s.contents.2 := by
  induction hLength : s.bytes.length using Nat.strongRecOn generalizing s with
  | ind length ih =>
    cases hNext : s.next with
    | waiting =>
      rw [contents_of_waiting hNext]
      exact ⟨s, rfl, rfl, nofun, hNext⟩
    | broken cause =>
      rw [contents_of_broken hNext]
      exact ⟨s, rfl, rfl, nofun, hNext⟩
    | frame body behind =>
      obtain ⟨rest, hEnded, hBytes, hBodies, hRest⟩ :=
        ih _ (hLength ▸ length_of_next hNext) behind rfl
      obtain ⟨header, hHeader, hSize, hMax, hSplit, hSame⟩ := next_eq_frame.mp hNext
      have hFramed : framed body = header ++ body := by
        unfold framed
        rw [← hSize, ← hHeader, BigEndian.ofNat_toNat]
      rw [contents_of_frame hNext]
      refine ⟨rest, hEnded.trans hSame, ?_, fun b hMem => ?_, hRest⟩
      · rw [hSplit, hBytes, List.flatMap_cons, hFramed]
        simp only [List.append_assoc]
      · rcases List.mem_cons.mp hMem with rfl | hMem
        · exact hMax
        · exact hBodies b hMem

/-! ## A stream that grows -/

/-- More of a stream arrives, or it ends: what could be read before is still read. -/
structure Grows (f : Inbound → Inbound) : Prop where
  frame : ∀ {s rest body}, s.next = .frame body rest → (f s).next = .frame body (f rest)
  broken : ∀ {s cause}, s.next = .broken cause → (f s).next = .broken cause

theorem grows_append (bytes : Bytes) : Grows (·.append bytes) where
  frame {s rest body} h := by
    obtain ⟨header, hHeader, hSize, hMax, hBytes, hEnded⟩ := next_eq_frame.mp h
    unfold append
    rw [hEnded]
    split
    · exact h
    · refine next_eq_frame.mpr ⟨header, hHeader, hSize, hMax, ?_, rfl⟩
      simp only [hBytes, List.append_assoc]
  broken {s cause} h := by
    unfold append
    split
    · exact h
    next hOpen =>
      -- As long as the stream has not ended, only a header that is refused breaks it.
      rcases next_eq_broken.mp h with ⟨hHeader, hSize, hCause⟩ | ⟨hEnded, -⟩ | ⟨hEnded, -⟩
      · have hTake : (s.bytes ++ bytes).take Frame.headerSize = s.bytes.take Frame.headerSize :=
          List.take_append_of_le_length hHeader
        refine next_eq_broken.mpr (.inl ⟨?_, ?_, ?_⟩)
        · rw [List.length_append]
          omega
        · rw [hTake]
          exact hSize
        · rw [hTake]
          exact hCause
      · exact absurd hEnded hOpen
      · exact absurd hEnded hOpen

theorem grows_finish : Grows finish where
  frame {s rest body} h := by
    obtain ⟨header, hHeader, hSize, hMax, hBytes, -⟩ := next_eq_frame.mp h
    exact next_eq_frame.mpr ⟨header, hHeader, hSize, hMax, hBytes, rfl⟩
  broken {s cause} h := by
    rcases next_eq_broken.mp h with hRefused | ⟨-, hShort⟩ | ⟨-, hShort⟩
    · exact next_eq_broken.mpr (.inl hRefused)
    · exact next_eq_broken.mpr (.inr (.inl ⟨rfl, hShort⟩))
    · exact next_eq_broken.mpr (.inr (.inr ⟨rfl, hShort⟩))

end Inbound

end PeerServices
