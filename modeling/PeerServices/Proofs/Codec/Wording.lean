import Mathlib.Data.Nat.Digits.Defs
import PeerServices.Grant.GrantSet
import PeerServices.Proofs.Codec.Access

/-!
# How long a refusal is

What is told of an input that cannot be read names a place, a byte or two numbers, and nothing of the
input besides. So it is short, however long the input is.

* `Codec.Error.IsTerse` with `Codec.Error.IsTerse.length_message_le`: what is told is short.
* `Reader.Terse` with `Reader.Terse.bind`: readers that tell nothing else.
* `GrantSet.terse_read`: the reader of grants is one of them.
-/

namespace PeerServices

namespace Codec

/-- What is told of an input with so much room is short: its texts are those of the program. -/
def Error.IsTerse (room : Nat) : Error → Prop
  | .endOfBuffer | .invalidVarint | .invalidUtf8 | .invalidBool _ => True
  | .extraData _ => False
  | .invalidOrdinal kind _ => kind.length ≤ 16
  | .lengthExceeded length max => length < UInt64.size ∧ max ≤ Max.max maxBlobLength room
  | .invalidData what text => what.length + text.length ≤ 64

/-- No text is longer, in bytes, than four times its characters. -/
theorem length_utf8_le (s : String) : (utf8 s).length ≤ 4 * s.length := by
  have hSize : (utf8 s).length = s.utf8ByteSize := by simp [utf8]
  rw [hSize, ← s.ofList_toList]
  generalize s.toList = cs
  induction cs with
  | nil => simp
  | cons c cs ih =>
    rw [String.length_ofList] at ih ⊢
    have hHead := c.utf8Size_le_four
    rw [String.ofList_cons, String.utf8ByteSize_append, String.utf8ByteSize_singleton,
      List.length_cons]
    omega

/-- A number has no more digits than a larger power of ten has zeros. -/
theorem length_toString_le {n digits : Nat} (hPos : 0 < digits) (h : n < 10 ^ digits) :
    (toString n).length ≤ digits := Nat.repr_length n digits hPos h

theorem length_toString_byte (b : UInt8) : (toString b.toNat).length ≤ 3 := by
  have hByte := b.toNat_lt
  exact length_toString_le (by omega) (by omega)

theorem Error.IsTerse.length_message_le {e : Error} {room : Nat} (h : e.IsTerse room)
    (hRoom : room ≤ maxBlobLength) : e.message.length ≤ 100 := by
  cases e with
  | extraData count => exact h.elim
  | invalidBool byte =>
    have hByte := length_toString_byte byte
    have hText : "invalid bool: ".length = 14 := by decide
    change ("invalid bool: " ++ toString byte.toNat).length ≤ 100
    rw [String.length_append, hText]
    omega
  | invalidOrdinal kind byte =>
    have hKind : kind.length ≤ 16 := h
    have hByte := length_toString_byte byte
    have hTexts : "invalid ".length = 8 ∧ " ordinal: ".length = 10 := by decide
    change ("invalid " ++ kind ++ " ordinal: " ++ toString byte.toNat).length ≤ 100
    simp only [String.length_append, hTexts]
    omega
  | lengthExceeded length max =>
    obtain ⟨hLength, hMax⟩ := h
    have hLengthText : (toString length).length ≤ 20 :=
      length_toString_le (by omega) (Nat.lt_trans hLength (by decide))
    have hMaxText : (toString max).length ≤ 8 := by
      apply length_toString_le (by omega)
      have hBlob : maxBlobLength < 10 ^ 8 := by decide
      rw [Nat.max_eq_left hRoom] at hMax
      omega
    have hTexts : "length exceeded: ".length = 17 ∧ " > ".length = 3 := by decide
    change ("length exceeded: " ++ toString length ++ " > " ++ toString max).length ≤ 100
    simp only [String.length_append, hTexts]
    omega
  | invalidData what text =>
    have hBoth : what.length + text.length ≤ 64 := h
    have hTexts : "invalid data in ".length = 16 ∧ ": ".length = 2 := by decide
    change ("invalid data in " ++ what ++ ": " ++ text).length ≤ 100
    simp only [String.length_append, hTexts]
    omega
  | _ => decide

end Codec

/-! ## Terse readers -/

namespace Reader

open Codec

variable {α β : Type} {r : Reader α}

/-- A reader that tells only terse errors, and leaves no more than it was given. -/
structure Terse (r : Reader α) : Prop where
  error : ∀ {room input e}, input.length ≤ room → r input = .error e → e.IsTerse room
  rest : ∀ {room input v rest}, input.length ≤ room → r input = .ok (v, rest) → rest.length ≤ room

theorem terse_pure (v : α) : (pure v : Reader α).Terse where
  error _ h := nomatch h
  rest hRoom h := by
    cases h
    exact hRoom

theorem terse_throw {e : Error} (h : ∀ room, e.IsTerse room) : (throw e : Reader α).Terse where
  error _ hError := by
    cases hError
    exact h _
  rest _ h := nomatch h

theorem Terse.bind {f : α → Reader β} (h : r.Terse) (h' : ∀ v, (f v).Terse) :
    (r >>= f).Terse where
  error hRoom hError := by
    rcases bind_eq_error_iff.mp hError with hFirst | ⟨v, between, hFirst, hSecond⟩
    · exact h.error hRoom hFirst
    · exact (h' v).error (h.rest hRoom hFirst) hSecond
  rest hRoom hRead := by
    obtain ⟨v, between, hFirst, hSecond⟩ := bind_eq_ok_iff.mp hRead
    exact (h' v).rest (h.rest hRoom hFirst) hSecond

theorem Terse.ite {r' : Reader α} (c : Prop) [Decidable c] (h : r.Terse) (h' : r'.Terse) :
    (if c then r else r').Terse := by
  split
  · exact h
  · exact h'

theorem terse_octets (n : Nat) : (octets n).Terse where
  error {room input e} _ h := by
    unfold octets at h
    dsimp only at h
    split at h <;> cases h
    trivial
  rest hRoom h := Nat.le_trans ((careful_octets n).suffix h).length_le hRoom

theorem terse_take (n : Nat) : (take n).Terse :=
  take_eq n ▸ (terse_octets n).bind fun _ => terse_pure _

theorem terse_unsigned (width : Nat) : (unsigned width).Terse :=
  (terse_take width).bind fun _ => terse_pure _

theorem terse_int32 : int32.Terse := (terse_unsigned 4).bind fun _ => terse_pure _

theorem terse_int64 : int64.Terse := (terse_unsigned 8).bind fun _ => terse_pure _

theorem terse_byte : byte.Terse := byte_eq ▸ (terse_unsigned 1).bind fun _ => terse_pure _

/-- A check, and then the rest of a reader. -/
theorem Terse.guard (h : r.Terse) (c : Prop) [Decidable c] {e : Error}
    (hError : ∀ room, e.IsTerse room) : (if c then (do throw e; r) else r).Terse :=
  .ite c ((terse_throw hError).bind fun _ => h) h

theorem terse_varintGroups (limit index sum : Nat) : (Varint.readGroups limit index sum).Terse := by
  have hInvalid : ∀ room, Error.invalidVarint.IsTerse room := fun _ => trivial
  induction limit generalizing index sum with
  | zero => exact terse_throw hInvalid
  | succ limit ih =>
    refine terse_byte.bind fun b => ?_
    refine Terse.guard ?_ _ hInvalid
    exact .ite _ ((terse_pure _).guard _ hInvalid) (ih _ _)

theorem terse_varint : Varint.read.Terse := terse_varintGroups _ _ _

/-- A length that is too large is told with its limit, which is that of texts or the room itself. -/
theorem terse_length {input : Bytes} {max room : Nat} {e : Error} (hRoom : input.length ≤ room)
    (hMax : max ≤ Max.max maxBlobLength room) (h : readLength max input = .error e) :
    e.IsTerse room := by
  rcases bind_eq_error_iff.mp h with hNumber | ⟨v, between, -, hGuard⟩
  · exact terse_varint.error hRoom hNumber
  · by_cases hLarge : max < v.toNat
    · simp only [if_pos hLarge] at hGuard
      cases hGuard
      exact ⟨v.toNat_lt, hMax⟩
    · simp only [if_neg hLarge] at hGuard
      cases hGuard

theorem terse_blobLength : (readLength maxBlobLength).Terse where
  error hRoom h := terse_length hRoom (Nat.le_max_left _ _) h
  rest hRoom h := Nat.le_trans ((careful_length _).suffix h).length_le hRoom

theorem terse_blob : readBlob.Terse := terse_blobLength.bind terse_take

theorem terse_text : readText.Terse := by
  refine terse_blob.bind fun bytes => ?_
  cases ofUtf8? bytes with
  | none => exact terse_throw fun _ => trivial
  | some s => exact terse_pure s

theorem Terse.many (h : r.Terse) (count : Nat) : (many r count).Terse := by
  induction count with
  | zero => exact terse_pure []
  | succ count ih => exact h.bind fun first => ih.bind fun _ => terse_pure _

theorem Terse.set [Serial α] [Ord α] [Std.TransOrd α] (h : (Serial.read : Reader α).Terse) :
    (readSet : Reader (SortedSet α)).Terse where
  error hRoom hError := by
    rw [readSet_apply] at hError
    rcases bind_eq_error_iff.mp hError with hCount | ⟨count, between, hCount, hRest⟩
    · exact terse_length hRoom (Nat.le_trans hRoom (Nat.le_max_right _ _)) hCount
    · have hBetween := ((careful_length _).suffix hCount).length_le
      exact ((h.many count).bind fun _ => terse_pure _).error (hBetween.trans hRoom) hRest
  rest hRoom hRead := by
    rw [readSet_apply] at hRead
    obtain ⟨count, between, hCount, hRest⟩ := bind_eq_ok_iff.mp hRead
    have hBetween := ((careful_length _).suffix hCount).length_le
    exact ((h.many count).bind fun _ => terse_pure _).rest (hBetween.trans hRoom) hRest

end Reader

/-! ## Grants -/

theorem ServiceId.terse_read : (Serial.read : Reader ServiceId).Terse :=
  Reader.terse_int64.bind fun _ => Reader.terse_pure _

theorem PeerAddress.terse_read : (Serial.read : Reader PeerAddress).Terse :=
  (Reader.terse_octets 20).bind fun _ => Reader.terse_pure _

theorem ServiceAddress.terse_read : (Serial.read : Reader ServiceAddress).Terse :=
  ServiceId.terse_read.bind fun _ => PeerAddress.terse_read.bind fun _ => Reader.terse_pure _

theorem Scope.terse_read : (Serial.read : Reader Scope).Terse := by
  refine Reader.terse_byte.bind fun b => ?_
  split
  · exact Reader.terse_pure _
  · exact Reader.terse_pure _
  · have hKind : "scope".length ≤ 16 := by decide
    exact Reader.terse_throw fun _ => hKind

theorem Description.terse_read : (Serial.read : Reader Description).Terse := by
  refine Reader.terse_text.bind fun title => Reader.terse_text.bind fun blurb => ?_
  refine Reader.terse_blob.bind fun image => ?_
  unfold Description.create
  split
  next h =>
    split at h <;> cases h
    exact Reader.terse_pure _
  next h =>
    split at h <;> cases h
    have hTexts : "description".length +
        (ValueError.reservedKeyword reservedKeyword).message.length ≤ 64 := by decide
    exact Reader.terse_throw fun _ => hTexts

/-- A version that is not supported is told by its number. -/
theorem Descriptor.terse_read : (Serial.read : Reader Descriptor).Terse := by
  refine Reader.terse_byte.bind fun form => ?_
  have hVersion : ∀ room, (Codec.Error.invalidData "descriptor"
      ("unsupported version " ++ toString form.toNat)).IsTerse room := by
    intro room
    have hByte := Codec.length_toString_byte form
    have hTexts : "descriptor".length = 10 ∧ "unsupported version ".length = 20 := by decide
    change "descriptor".length + ("unsupported version " ++ toString form.toNat).length ≤ 64
    simp only [String.length_append, hTexts]
    omega
  refine Reader.Terse.guard ?_ _ hVersion
  refine ServiceAddress.terse_read.bind fun _ => Reader.terse_int32.bind fun _ => ?_
  refine Scope.terse_read.bind fun _ => Reader.terse_text.bind fun _ => ?_
  refine Reader.terse_text.bind fun _ => Description.terse_read.bind fun _ => ?_
  exact Reader.terse_blob.bind fun _ => Reader.terse_pure _

theorem GrantSet.terse_read : (Serial.read : Reader GrantSet).Terse :=
  Reader.terse_int64.bind fun _ => ServiceId.terse_read.set.bind fun _ =>
    Descriptor.terse_read.set.bind fun _ => Reader.terse_pure _

end PeerServices
