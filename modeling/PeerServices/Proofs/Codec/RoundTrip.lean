import PeerServices.Proofs.Codec.Varint
import PeerServices.Proofs.Collection.SortedSet

/-!
# Readers that undo what was written, at every length

A reader undoes a written form if it reads the value back in front of anything, and refuses the form
wherever it breaks off. Forms that follow one another are undone by readers that follow one another,
so nothing more has to be said about composite values.

* `Reader.Undoes`: what is read back, and how a form that breaks off is refused.
* `Reader.Undoes.bind`, `Reader.Undoes.map`: composite readers.
* `Varint.undoes_encode`, `Codec.undoes_blob`, `Codec.undoes_text`, `Codec.undoes_sequence`: the
  forms of variable length.
-/

namespace PeerServices

/-- The place of a count in a written form, and what is counted there. -/
structure Codec.Count where
  /-- The bytes before the count. -/
  start : Nat
  size : Nat

def Codec.Count.shift (n : Nat) (c : Codec.Count) : Codec.Count := { c with start := n + c.start }

namespace Reader

/-- How a form that breaks off after some bytes is refused: it ends too early, or a count in it is
above the number of bytes that are left where the count begins. -/
def Refuses (counts : List Codec.Count) (cut : Nat) (e : Codec.Error) : Prop :=
  e = .endOfBuffer ∨ ∃ c ∈ counts, c.start ≤ cut ∧ cut - c.start < c.size ∧
    e = .lengthExceeded c.size (cut - c.start)

/-- A reader gives back the value of a written form and leaves what follows. It refuses the form if
it breaks off. -/
structure Undoes {α : Type} (r : Reader α) (form : Bytes) (v : α)
    (counts : List Codec.Count) : Prop where
  read : ∀ rest, r (form ++ rest) = .ok (v, rest)
  short : ∀ cut < form.length, ∃ e, r (form.take cut) = .error e ∧ Refuses counts cut e

variable {α β : Type} {r : Reader α} {form form' : Bytes} {v : α} {w : β}
  {counts counts' : List Codec.Count}

/-! ## Composite readers -/

theorem Refuses.mono {cut : Nat} {e : Codec.Error} (h : Refuses counts cut e)
    (hCounts : ∀ c ∈ counts, c ∈ counts') : Refuses counts' cut e := by
  rcases h with h | ⟨c, hMem, h⟩
  · exact .inl h
  · exact .inr ⟨c, hCounts c hMem, h⟩

theorem Refuses.shift {cut : Nat} {e : Codec.Error} (n : Nat) (h : Refuses counts cut e) :
    Refuses (counts.map (.shift n)) (n + cut) e := by
  rcases h with h | ⟨c, hMem, hStart, hLeft, hError⟩
  · exact .inl h
  · have hSame : n + cut - (n + c.start) = cut - c.start := by omega
    refine .inr ⟨c.shift n, List.mem_map_of_mem hMem, ?_, ?_, ?_⟩
    · exact Nat.add_le_add_left hStart n
    · exact hSame ▸ hLeft
    · exact hSame ▸ hError

theorem undoes_pure (v : α) : Undoes (pure v) [] v [] where
  read _ := rfl
  short _ h := absurd h (Nat.not_lt_zero _)

/-- A form breaks off in its first part, or in its second one behind the whole first part. -/
theorem Undoes.bind {f : α → Reader β} (h : r.Undoes form v counts)
    (h' : (f v).Undoes form' w counts') :
    (r >>= f).Undoes (form ++ form') w (counts ++ counts'.map (.shift form.length)) := by
  constructor
  case read =>
    intro rest
    rw [bind_apply, List.append_assoc, h.read]
    exact h'.read rest
  case short =>
    intro cut hCut
    rw [List.length_append] at hCut
    rw [bind_apply]
    by_cases hFirst : cut < form.length
    · obtain ⟨e, hError, hRefuses⟩ := h.short cut hFirst
      rw [List.take_append_of_le_length (Nat.le_of_lt hFirst), hError]
      exact ⟨e, rfl, hRefuses.mono fun c hMem => List.mem_append_left _ hMem⟩
    · obtain ⟨cut', rfl⟩ := Nat.exists_eq_add_of_le (Nat.not_lt.mp hFirst)
      obtain ⟨e, hError, hRefuses⟩ := h'.short cut' (by omega)
      rw [List.take_length_add_append, h.read]
      exact ⟨e, hError, (hRefuses.shift form.length).mono fun c hMem =>
        List.mem_append_right _ hMem⟩

theorem Undoes.finish {f : α → Reader β} (h : r.Undoes form v counts) (hv : f v = pure w) :
    (r >>= f).Undoes form w counts := by
  have hBind := h.bind (hv ▸ undoes_pure w : (f v).Undoes [] w [])
  rw [List.append_nil, List.map_nil, List.append_nil] at hBind
  exact hBind

theorem Undoes.map {f : α → β} (h : r.Undoes form v counts) (hv : f v = w) :
    Undoes (do return f (← r)) form w counts :=
  h.finish (congrArg pure hv)

/-- One reader after another, when no count is in the first form. -/
theorem Undoes.next {f : α → Reader β} (h : r.Undoes form v [])
    (h' : (f v).Undoes form' w counts) :
    (r >>= f).Undoes (form ++ form') w (counts.map (.shift form.length)) :=
  h.bind h'

/-- One reader after another, when no count is in the second form. -/
theorem Undoes.plain {f : α → Reader β} (h : r.Undoes form v counts)
    (h' : (f v).Undoes form' w []) : (r >>= f).Undoes (form ++ form') w counts := by
  have hBind := h.bind h'
  rw [List.map_nil, List.append_nil] at hBind
  exact hBind

/-! ## Values of a fixed length -/

theorem undoes_byte (b : UInt8) : byte.Undoes [b] b [] where
  read _ := rfl
  short cut hCut := by
    obtain rfl : cut = 0 := Nat.lt_one_iff.mp hCut
    exact ⟨_, rfl, .inl rfl⟩

theorem undoes_take (bytes : Bytes) : (take bytes.length).Undoes bytes bytes [] where
  read rest := by
    have hFront : (bytes ++ rest).take bytes.length = bytes := List.take_left' rfl
    have hRest : (bytes ++ rest).drop bytes.length = rest := List.drop_left' rfl
    simp only [take, hFront, hRest, if_true]
  short cut hCut := by
    have hFront : ¬((bytes.take cut).take bytes.length).length = bytes.length := by
      rw [List.length_take, List.length_take]
      omega
    exact ⟨.endOfBuffer, if_neg hFront, .inl rfl⟩

theorem undoes_octets {n : Nat} (o : Octets n) : (octets n).Undoes o.toList o [] where
  read := octets_append o
  short cut hCut := by
    have hFront : ¬((o.toList.take cut).take n).length = n := by
      have hLength := o.length_eq
      rw [List.length_take, List.length_take]
      omega
    exact ⟨.endOfBuffer, dif_neg hFront, .inl rfl⟩

theorem undoes_unsigned (width n : Nat) :
    (unsigned width).Undoes (BigEndian.ofNat width n) (n % Nat.pow 256 width) [] := by
  have hTake := undoes_take (BigEndian.ofNat width n)
  rw [BigEndian.length_ofNat] at hTake
  exact hTake.map (BigEndian.toNat_ofNat width n)

theorem undoes_int64 (n : Int64) : int64.Undoes (int64Bytes n) n [] := by
  apply (undoes_unsigned 8 n.toUInt64.toNat).map
  have hSmall : n.toUInt64.toNat < Nat.pow 256 8 := n.toUInt64.toNat_lt
  rw [Nat.mod_eq_of_lt hSmall, UInt64.ofNat_toNat, Int64.toInt64_toUInt64]

theorem undoes_int32 (n : Int32) : int32.Undoes (int32Bytes n) n [] := by
  apply (undoes_unsigned 4 n.toUInt32.toNat).map
  have hSmall : n.toUInt32.toNat < Nat.pow 256 4 := n.toUInt32.toNat_lt
  rw [Nat.mod_eq_of_lt hSmall, UInt32.ofNat_toNat, Int32.toInt32_toUInt32]

theorem undoes_bool (b : Bool) : bool.Undoes (boolBytes b) b [] := by
  cases b with
  | false => exact (undoes_byte 0).finish rfl
  | true => exact (undoes_byte 1).finish rfl

theorem undoes_many {item : Reader α} {encode : α → Bytes} {items : List α}
    (h : ∀ a ∈ items, item.Undoes (encode a) a []) :
    (many item items.length).Undoes (items.flatMap encode) items [] := by
  induction items with
  | nil => exact undoes_pure []
  | cons a items ih =>
    have hRest := ih fun b hb => h b (List.mem_cons_of_mem a hb)
    exact (h a List.mem_cons_self).plain (hRest.map rfl)

end Reader

/-! ## Lengths -/

namespace Varint

/-- All groups but the last say that others follow. -/
theorem continues_of_mem_take {limit n cut : Nat} (hCut : cut < (groups limit n).length) :
    ∀ group ∈ (groups limit n).take cut, Continues group := by
  induction limit generalizing n cut with
  | zero => exact absurd hCut (Nat.not_lt_zero cut)
  | succ limit ih =>
    cases cut with
    | zero => nofun
    | succ cut =>
      by_cases hSmall : n < 128
      · simp [groups, hSmall] at hCut
      · simp only [groups, if_neg hSmall, List.length_cons, Nat.add_lt_add_iff_right] at hCut
        simp only [groups, if_neg hSmall, List.take_succ_cons]
        refine List.forall_mem_cons.mpr ⟨continues_iff.mpr ?_, ih hCut⟩
        rw [UInt8.toNat_ofNat']
        omega

theorem undoes_encode (n : UInt64) : read.Undoes (encode n) n [] where
  read := read_encode n
  short cut hCut := by
    have hLength : ((encode n).take cut).length < maxGroups := by
      rw [List.length_take_of_le (Nat.le_of_lt hCut)]
      exact Nat.lt_of_lt_of_le hCut (length_encode_le n)
    exact ⟨_, read_of_unfinished ⟨hLength, continues_of_mem_take hCut⟩, .inl rfl⟩

end Varint

namespace Codec

/-- A number of things that a machine counts. -/
def Countable (n : Nat) : Prop := n < UInt64.size

instance (n : Nat) : Decidable (Countable n) := inferInstanceAs (Decidable (n < UInt64.size))

theorem toNat_ofNat_of_countable {n : Nat} (h : Countable n) : (UInt64.ofNat n).toNat = n := by
  rw [UInt64.toNat_ofNat']
  exact Nat.mod_eq_of_lt h

theorem readLength_of_le {n max : Nat} (h : Countable n) (hMax : n ≤ max) (rest : Bytes) :
    readLength max (Varint.encode (UInt64.ofNat n) ++ rest) = .ok (n, rest) := by
  simp only [readLength, Reader.bind_apply, Varint.read_encode, toNat_ofNat_of_countable h,
    if_neg (Nat.not_lt.mpr hMax), Reader.pure_apply]

theorem readLength_of_lt {n max : Nat} (h : Countable n) (hMax : max < n) (rest : Bytes) :
    readLength max (Varint.encode (UInt64.ofNat n) ++ rest) = .error (.lengthExceeded n max) := by
  simp only [readLength, Reader.bind_apply, Varint.read_encode, toNat_ofNat_of_countable h,
    if_pos hMax]
  rfl

/-- A length that breaks off is refused before it is compared with what is allowed. -/
theorem readLength_short {cut : Nat} {n : UInt64} (h : cut < (Varint.encode n).length)
    (max : Nat) : ∃ e, readLength max ((Varint.encode n).take cut) = .error e ∧
      Reader.Refuses [] cut e := by
  obtain ⟨e, hError, hRefuses⟩ := (Varint.undoes_encode n).short cut h
  refine ⟨e, ?_, hRefuses⟩
  rw [readLength, Reader.bind_apply, hError]

theorem undoes_readLength {n max : Nat} (h : Countable n) (hMax : n ≤ max) :
    (readLength max).Undoes (Varint.encode (UInt64.ofNat n)) n [] where
  read := readLength_of_le h hMax
  short _ hCut := readLength_short hCut max

/-! ## Blobs and texts -/

theorem countable_of_le {n : Nat} (h : n ≤ maxBlobLength) : Countable n :=
  Nat.lt_of_le_of_lt h (by decide)

theorem undoes_blob {bytes : Bytes} (h : bytes.length ≤ maxBlobLength) :
    readBlob.Undoes (blob bytes) bytes [] :=
  (undoes_readLength (countable_of_le h) h).plain (Reader.undoes_take bytes)

theorem ofUtf8?_utf8 (s : String) : ofUtf8? (utf8 s) = some s := by
  have hBytes : (⟨(utf8 s).toArray⟩ : ByteArray) = s.toByteArray := by simp [utf8]
  rw [ofUtf8?, hBytes]
  exact dif_pos s.isValidUTF8

theorem undoes_text {s : String} (h : (utf8 s).length ≤ maxBlobLength) :
    readText.Undoes (text s) s [] := by
  apply (undoes_blob h).finish
  rw [ofUtf8?_utf8]

/-! ## Sets -/

section Sets

variable {α : Type} [Serial α] [Ord α] [Std.TransOrd α] {s : SortedSet α}

omit [Serial α] [Ord α] [Std.TransOrd α] in
theorem length_le_of_ne_nil {bytes : α → Bytes} {items : List α} (h : ∀ a ∈ items, bytes a ≠ []) :
    items.length ≤ (items.flatMap bytes).length := by
  induction items with
  | nil => exact Nat.le_refl 0
  | cons a items ih =>
    have hFirst : 0 < (bytes a).length := List.length_pos_iff.mpr (h a List.mem_cons_self)
    have hRest := ih fun b hb => h b (List.mem_cons_of_mem a hb)
    rw [List.flatMap_cons, List.length_append, List.length_cons]
    omega

omit [Ord α] [Std.TransOrd α] in
theorem length_le_length_sequence {items : List α} (h : ∀ a ∈ items, Serial.encode a ≠ []) :
    items.length ≤ (sequence items).length := by
  rw [sequence, List.length_append]
  exact Nat.le_add_left_of_le (length_le_of_ne_nil h)

/-- The count of a set is at most what is left where it begins. -/
theorem readSet_apply (input : Bytes) : (readSet : Reader (SortedSet α)) input =
    (readLength input.length >>= fun count => do
      return SortedSet.ofList (← Reader.many Serial.read count)) input := rfl

/-- A set is read back from its members. Since each member takes a byte at least, the count never
exceeds what is left in a whole form; in one that breaks off it may. -/
theorem undoes_sequence (hSize : Countable s.size)
    (hItems : ∀ a ∈ s.toList, (Serial.read : Reader α).Undoes (Serial.encode a) a [])
    (hNonempty : ∀ a ∈ s.toList, Serial.encode a ≠ []) :
    (readSet : Reader (SortedSet α)).Undoes (sequence s.toList) s [⟨0, s.size⟩] := by
  have hLength := length_le_of_ne_nil hNonempty
  have hMembers : Reader.Undoes (do return SortedSet.ofList (← Reader.many Serial.read s.size))
      (s.toList.flatMap Serial.encode) s [] :=
    (Reader.undoes_many hItems).map (SortedSet.ofList_toList s)
  have hForm : sequence s.toList =
      Varint.encode (UInt64.ofNat s.size) ++ s.toList.flatMap Serial.encode := rfl
  constructor
  case read =>
    intro rest
    have hMax : s.size ≤ (sequence s.toList ++ rest).length := by
      rw [hForm, List.length_append, List.length_append, SortedSet.size]
      omega
    rw [hForm, List.append_assoc] at hMax ⊢
    rw [readSet_apply, Reader.bind_apply, readLength_of_le hSize hMax]
    exact hMembers.read rest
  case short =>
    intro cut hCut
    rw [readSet_apply, List.length_take_of_le (Nat.le_of_lt hCut), Reader.bind_apply, hForm]
    rw [hForm, List.length_append] at hCut
    -- The form breaks off within the count or behind it. Behind it, the count is compared with what
    -- is left before any member is read.
    by_cases hFirst : cut < (Varint.encode (UInt64.ofNat s.size)).length
    · obtain ⟨e, hError, hRefuses⟩ := readLength_short hFirst cut
      rw [List.take_append_of_le_length (Nat.le_of_lt hFirst), hError]
      exact ⟨e, rfl, hRefuses.mono fun _ hMem => nomatch hMem⟩
    · obtain ⟨cut', hCut'⟩ := Nat.exists_eq_add_of_le (Nat.not_lt.mp hFirst)
      have hTake : (Varint.encode (UInt64.ofNat s.size) ++
          s.toList.flatMap Serial.encode).take cut =
          Varint.encode (UInt64.ofNat s.size) ++ (s.toList.flatMap Serial.encode).take cut' := by
        rw [hCut', List.take_length_add_append]
      rw [hTake]
      by_cases hLess : cut < s.size
      · rw [readLength_of_lt hSize hLess]
        exact ⟨_, rfl, .inr ⟨⟨0, s.size⟩, List.mem_singleton.mpr rfl, Nat.zero_le _, hLess, rfl⟩⟩
      · obtain ⟨e, hError, hRefuses⟩ := hMembers.short cut' (by omega)
        rw [readLength_of_le hSize (Nat.not_lt.mp hLess)]
        refine ⟨e, hError, ?_⟩
        rcases hRefuses with hEnd | ⟨c, hMem, -⟩
        · exact .inl hEnd
        · cases hMem

end Sets

end Codec

end PeerServices
