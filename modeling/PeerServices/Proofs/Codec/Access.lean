import PeerServices.Proofs.Codec.Form

/-!
# Readers by single accesses

A reader takes bytes off its input by accesses that must not ask for more than is there, so each of
them stands behind a check of what is left. A reader is careful if it is so for every input, and
besides looks at nothing behind what it takes: what it reads, and why it refuses an input for what
stands in it, does not change when more follows.

* `Access`: readers that say which bytes they take, with `Access.advance` for a single access.
* `Reader.Careful` with `Reader.Careful.bind`: careful readers one after another are careful.
* `Reader.careful_varint`, `Reader.careful_blob`, `Reader.careful_text`, `Reader.Careful.set`: the
  readers of what has a length. The limit of a set depends on how many bytes are there.
* `Reader.of_readSet`: no set has more members than there are bytes.
-/

namespace PeerServices

namespace Codec

/-- How a reader ends without a value. -/
inductive Fault
  | refused (e : Error)
  /-- More bytes were taken than were there. -/
  | overrun

/-- An input is refused for what stands in it, and not for where it ends. -/
def Error.IsFinal : Error → Prop
  | .endOfBuffer | .lengthExceeded _ _ => False
  | .extraData _ | .invalidVarint | .invalidBool _ | .invalidUtf8 | .invalidOrdinal _ _
  | .invalidData _ _ => True

end Codec

/-- A reader that takes bytes by single accesses. -/
abbrev Access := StateT Bytes (Except Codec.Fault)

namespace Access

open Codec

variable {α : Type}

/-! ## Accesses -/

/-- Takes so many bytes, which have to be there. -/
def advance (n : Nat) : Access (Octets n) := fun input =>
  let front := input.take n
  if h : front.length = n then .ok (⟨front, h⟩, input.drop n) else .error .overrun

def remaining : Access Nat := fun input => .ok (input.length, input)

def refuse (e : Error) : Access α := fun _ => .error (.refused e)

/-- Checks that so many bytes are there. -/
def ensure (n : Nat) : Access Unit := do
  if (← remaining) < n then refuse .endOfBuffer

/-! ## The readers of the wire -/

def octets (n : Nat) : Access (Octets n) := do
  ensure n
  advance n

def take (n : Nat) : Access Bytes := do
  return (← octets n).toList

def unsigned (width : Nat) : Access Nat := do
  return BigEndian.toNat (← take width)

def byte : Access UInt8 := do
  return UInt8.ofNat (← unsigned 1)

def int32 : Access Int32 := do
  return (UInt32.ofNat (← unsigned 4)).toInt32

def int64 : Access Int64 := do
  return (UInt64.ofNat (← unsigned 8)).toInt64

def bool : Access Bool := do
  match ← byte with
  | 0 => return false
  | 1 => return true
  | other => refuse (.invalidBool other)

def varintGroups : (limit index sum : Nat) → Access UInt64
  | 0, _, _ => refuse .invalidVarint
  | limit + 1, index, sum => do
    let byte ← Access.byte
    let bits := byte.toNat % 128
    if limit = 0 ∧ 1 < bits then refuse .invalidVarint
    let sum := sum + bits * Nat.pow 128 index
    if byte.toNat < 128 then
      if 0 < index ∧ bits = 0 then refuse .invalidVarint
      return UInt64.ofNat sum
    varintGroups limit (index + 1) sum

def varint : Access UInt64 := varintGroups Varint.maxGroups 0 0

def length (max : Nat) : Access Nat := do
  let length := (← varint).toNat
  if max < length then refuse (.lengthExceeded length max)
  return length

def blob : Access Bytes := do
  take (← length maxBlobLength)

def text : Access String := do
  match ofUtf8? (← blob) with
  | some s => return s
  | none => refuse .invalidUtf8

def many (item : Access α) : (count : Nat) → Access (List α)
  | 0 => return []
  | count + 1 => do
    let first ← item
    return first :: (← many item count)

def set [Ord α] [Std.TransOrd α] (item : Access α) : Access (SortedSet α) := do
  let count ← length (← remaining)
  return SortedSet.ofList (← many item count)

theorem bind_apply {β : Type} (a : Access α) (f : α → Access β) (input : Bytes) :
    (a >>= f) input =
      match a input with
      | .ok (v, rest) => f v rest
      | .error e => .error e := by
  change StateT.bind a f input = _
  simp only [StateT.bind, bind, Except.bind]
  cases a input <;> rfl

theorem ensure_of_lt {n : Nat} {input : Bytes} (h : input.length < n) :
    ensure n input = .error (.refused .endOfBuffer) := by
  rw [ensure, bind_apply, remaining]
  exact congrFun (if_pos h) input

theorem ensure_of_le {n : Nat} {input : Bytes} (h : n ≤ input.length) :
    ensure n input = .ok ((), input) := by
  rw [ensure, bind_apply, remaining]
  exact congrFun (if_neg (Nat.not_lt.mpr h)) input

end Access

/-! ## Careful readers -/

namespace Reader

open Codec

variable {α β : Type} {r : Reader α} {a : Access α}

/-- A reader that takes no byte that is not there, leaves a suffix of its input, and looks at
nothing behind what it takes. -/
structure Careful (r : Reader α) (a : Access α) : Prop where
  access : ∀ input, a input = (r input).mapError .refused
  suffix : ∀ {input v rest}, r input = .ok (v, rest) → rest <:+ input
  extend : ∀ {input v rest}, r input = .ok (v, rest) → ∀ more,
    r (input ++ more) = .ok (v, rest ++ more)
  final : ∀ {input e}, r input = .error e → e.IsFinal → ∀ more, r (input ++ more) = .error e

theorem Careful.not_overrun (h : r.Careful a) (input : Bytes) : a input ≠ .error .overrun := by
  rw [h.access]
  cases r input with
  | error e => exact nofun
  | ok p => exact nofun

theorem careful_pure (v : α) : (pure v : Reader α).Careful (pure v) where
  access _ := rfl
  suffix h := by
    cases h
    exact List.suffix_refl _
  extend h _ := by
    cases h
    rfl
  final h := nomatch h

theorem careful_throw (e : Error) : (throw e : Reader α).Careful (Access.refuse e) where
  access _ := rfl
  suffix h := nomatch h
  extend h := nomatch h
  final h _ _ := h

theorem Careful.bind {f : α → Reader β} {g : α → Access β} (h : r.Careful a)
    (h' : ∀ v, (f v).Careful (g v)) : (r >>= f).Careful (a >>= g) where
  access input := by
    rw [bind_apply, Access.bind_apply, h.access]
    cases r input with
    | error e => rfl
    | ok p => exact (h' p.1).access p.2
  suffix hRead := by
    obtain ⟨v, between, hFirst, hSecond⟩ := bind_eq_ok_iff.mp hRead
    exact ((h' v).suffix hSecond).trans (h.suffix hFirst)
  extend hRead more := by
    obtain ⟨v, between, hFirst, hSecond⟩ := bind_eq_ok_iff.mp hRead
    exact bind_eq_ok_iff.mpr ⟨v, _, h.extend hFirst more, (h' v).extend hSecond more⟩
  final hError hFinal more := by
    rcases bind_eq_error_iff.mp hError with hFirst | ⟨v, between, hFirst, hSecond⟩
    · exact bind_eq_error_iff.mpr (.inl (h.final hFirst hFinal more))
    · exact bind_eq_error_iff.mpr (.inr ⟨v, _, h.extend hFirst more,
        (h' v).final hSecond hFinal more⟩)

theorem Careful.map (h : r.Careful a) (f : α → β) :
    Careful (do return f (← r)) (do return f (← a)) :=
  h.bind fun v => careful_pure (f v)

theorem Careful.ite {r' : Reader α} {a' : Access α} (c : Prop) [Decidable c] (h : r.Careful a)
    (h' : r'.Careful a') : (if c then r else r').Careful (if c then a else a') := by
  split
  · exact h
  · exact h'

/-- A check, and then the rest of a reader. -/
theorem Careful.guard (h : r.Careful a) (c : Prop) [Decidable c] (e : Error) :
    Careful (if c then (do throw e; r) else r) (if c then (do Access.refuse e; a) else a) :=
  .ite c ((careful_throw e).bind fun _ => h) h

/-! ## Values of a fixed length -/

theorem careful_octets (n : Nat) : (octets n).Careful (Access.octets n) where
  access input := by
    rw [Access.octets, Access.bind_apply]
    by_cases hLeft : input.length < n
    · have hShort : ¬(input.take n).length = n := by
        rw [List.length_take]
        omega
      rw [Access.ensure_of_lt hLeft, octets, dif_neg hShort]
      rfl
    · have hFront : (input.take n).length = n := List.length_take_of_le (Nat.le_of_not_lt hLeft)
      rw [Access.ensure_of_le (Nat.le_of_not_lt hLeft), octets, dif_pos hFront]
      exact dif_pos hFront
  suffix {input v rest} h := by
    rw [(exact_octets n input v rest).mp h]
    exact List.suffix_append _ _
  extend {input v rest} h more := by
    rw [(exact_octets n input v rest).mp h, List.append_assoc]
    exact octets_append v _
  final {input e} h hFinal := by
    unfold octets at h
    dsimp only at h
    split at h
    · cases h
    · cases h
      exact hFinal.elim

theorem take_eq (n : Nat) : take n = (do return (← octets n).toList) := by
  funext input
  unfold take
  rw [bind_apply, octets]
  by_cases h : (input.take n).length = n
  · simp only [h, if_true, dif_pos, pure_apply]
  · simp only [h, if_false, dif_neg, not_false_eq_true]

theorem careful_take (n : Nat) : (take n).Careful (Access.take n) :=
  take_eq n ▸ (careful_octets n).map Octets.toList

theorem careful_unsigned (width : Nat) : (unsigned width).Careful (Access.unsigned width) :=
  (careful_take width).map BigEndian.toNat

theorem careful_int32 : int32.Careful Access.int32 :=
  (careful_unsigned 4).map fun n => (UInt32.ofNat n).toInt32

theorem careful_int64 : int64.Careful Access.int64 :=
  (careful_unsigned 8).map fun n => (UInt64.ofNat n).toInt64

/-- A byte is an integer of one byte. -/
theorem byte_eq : byte = (do return UInt8.ofNat (← unsigned 1)) := by
  funext input
  cases input with
  | nil => rfl
  | cons b rest =>
    simp only [byte, unsigned, take, bind_apply, pure_apply, BigEndian.toNat, List.take_succ_cons,
      List.take_zero, List.length_singleton, if_true, List.drop_succ_cons, List.drop_zero,
      List.foldl_cons, List.foldl_nil, Nat.zero_mul, Nat.zero_add, UInt8.ofNat_toNat]

theorem careful_byte : byte.Careful Access.byte := byte_eq ▸ (careful_unsigned 1).map UInt8.ofNat

/-- One of two values, told by a byte. -/
theorem careful_ordinal (x y : α) (e : UInt8 → Error) :
    Careful (do
      match ← byte with
      | 0 => return x
      | 1 => return y
      | other => throw (e other)) (do
      match ← Access.byte with
      | 0 => return x
      | 1 => return y
      | other => Access.refuse (e other)) := by
  refine careful_byte.bind fun b => ?_
  split
  · exact careful_pure x
  · exact careful_pure y
  · exact careful_throw _

theorem careful_bool : bool.Careful Access.bool := careful_ordinal _ _ _

/-! ## Lengths, blobs and texts -/

theorem careful_varintGroups (limit index sum : Nat) :
    (Varint.readGroups limit index sum).Careful (Access.varintGroups limit index sum) := by
  induction limit generalizing index sum with
  | zero => exact careful_throw _
  | succ limit ih =>
    refine careful_byte.bind fun b => ?_
    refine Careful.guard ?_ _ _
    refine .ite _ ?_ (ih _ _)
    exact (careful_pure _).guard _ _

theorem careful_varint : Varint.read.Careful Access.varint := careful_varintGroups _ _ _

theorem careful_length (max : Nat) : (readLength max).Careful (Access.length max) :=
  careful_varint.bind fun _ => (careful_pure _).guard _ _

theorem careful_blob : readBlob.Careful Access.blob :=
  (careful_length maxBlobLength).bind careful_take

theorem careful_text : readText.Careful Access.text := by
  refine careful_blob.bind fun bytes => ?_
  cases ofUtf8? bytes with
  | none => exact careful_throw _
  | some s => exact careful_pure s

/-! ## Sets -/

theorem Careful.many {item : Reader α} {access : Access α} (h : item.Careful access)
    (count : Nat) : (many item count).Careful (access.many count) := by
  induction count with
  | zero => exact careful_pure []
  | succ count ih => exact h.bind fun first => ih.map (first :: ·)

/-- A length is refused for what stands in it only if its number is. -/
theorem final_readLength {max : Nat} {input : Bytes} {e : Error}
    (h : readLength max input = .error e) (hFinal : e.IsFinal) (max' : Nat) (more : Bytes) :
    readLength max' (input ++ more) = .error e := by
  rcases bind_eq_error_iff.mp h with hNumber | ⟨v, between, -, hGuard⟩
  · exact bind_eq_error_iff.mpr (.inl (careful_varint.final hNumber hFinal more))
  · by_cases hMax : max < v.toNat
    · simp only [if_pos hMax] at hGuard
      cases hGuard
      exact hFinal.elim
    · simp only [if_neg hMax] at hGuard
      cases hGuard

/-- A count that is allowed stays so when more bytes are there. -/
theorem extend_readLength {input rest : Bytes} {count : Nat}
    (h : readLength input.length input = .ok (count, rest)) (more : Bytes) :
    readLength (input ++ more).length (input ++ more) = .ok (count, rest ++ more) := by
  obtain ⟨hCountable, hMax, hInput⟩ := readLength_eq_ok_iff.mp h
  refine readLength_eq_ok_iff.mpr ⟨hCountable, ?_, ?_⟩
  · rw [List.length_append]
    exact Nat.le_add_right_of_le hMax
  · rw [← List.append_assoc, ← hInput]

theorem Careful.set [Serial α] [Ord α] [Std.TransOrd α]
    (h : (Serial.read : Reader α).Careful a) :
    (readSet : Reader (SortedSet α)).Careful (Access.set a) := by
  have hMembers : ∀ count, Careful (do return SortedSet.ofList (← Reader.many Serial.read count))
      (do return SortedSet.ofList (← a.many count)) := fun count =>
    (h.many count).map SortedSet.ofList
  constructor
  case access =>
    exact fun input => ((careful_length input.length).bind hMembers).access input
  case suffix =>
    intro input v rest hRead
    exact ((careful_length input.length).bind hMembers).suffix hRead
  case extend =>
    intro input v rest hRead more
    rw [readSet_apply] at hRead ⊢
    obtain ⟨count, between, hCount, hRest⟩ := bind_eq_ok_iff.mp hRead
    exact bind_eq_ok_iff.mpr
      ⟨count, _, extend_readLength hCount more, (hMembers count).extend hRest more⟩
  case final =>
    intro input e hError hFinal more
    rw [readSet_apply] at hError ⊢
    rcases bind_eq_error_iff.mp hError with hCount | ⟨count, between, hCount, hRest⟩
    · exact bind_eq_error_iff.mpr (.inl (final_readLength hCount hFinal _ more))
    · exact bind_eq_error_iff.mpr (.inr ⟨count, _, extend_readLength hCount more,
        (hMembers count).final hRest hFinal more⟩)

/-- Each of the values that are read one after another is read from the end of the input. -/
theorem of_mem_many {item : Reader α} {access : Access α} (h : item.Careful access) {count : Nat}
    {input rest : Bytes} {vs : List α} (hRead : Reader.many item count input = .ok (vs, rest)) :
    vs.length = count ∧
      ∀ v ∈ vs, ∃ front behind, front <:+ input ∧ item front = .ok (v, behind) := by
  induction count generalizing input vs with
  | zero =>
    cases hRead
    exact ⟨rfl, nofun⟩
  | succ count ih =>
    obtain ⟨first, between, hFirst, hRead⟩ := bind_eq_ok_iff.mp hRead
    obtain ⟨others, _, hOthers, hRead⟩ := bind_eq_ok_iff.mp hRead
    cases hRead
    obtain ⟨hLength, hMem⟩ := ih hOthers
    refine ⟨congrArg (· + 1) hLength, fun v hv => ?_⟩
    rcases List.mem_cons.mp hv with rfl | hv
    · exact ⟨input, between, List.suffix_refl input, hFirst⟩
    · obtain ⟨front, behind, hFront, hItem⟩ := hMem v hv
      exact ⟨front, behind, hFront.trans (h.suffix hFirst), hItem⟩

/-- A set has at most as many members as there are bytes, and each is read from the end of the
input. -/
theorem of_readSet [Serial α] [Ord α] [Std.TransOrd α] (h : (Serial.read : Reader α).Careful a)
    {input rest : Bytes} {s : SortedSet α} (hRead : readSet input = .ok (s, rest)) :
    s.size ≤ input.length ∧
      ∀ v ∈ s.toList, ∃ front behind, front <:+ input ∧ Serial.read front = .ok (v, behind) := by
  rw [readSet_apply] at hRead
  obtain ⟨count, between, hCount, hRead⟩ := bind_eq_ok_iff.mp hRead
  obtain ⟨vs, _, hMany, hRead⟩ := bind_eq_ok_iff.mp hRead
  cases hRead
  have hMax := (readLength_eq_ok_iff.mp hCount).2.1
  obtain ⟨hLength, hMem⟩ := of_mem_many h hMany
  refine ⟨Nat.le_trans (SortedSet.size_ofList_le vs) (hLength ▸ hMax), fun v hv => ?_⟩
  obtain ⟨front, behind, hFront, hItem⟩ := hMem v (SortedSet.mem_of_mem_ofList hv)
  exact ⟨front, behind, hFront.trans ((careful_length _).suffix hCount), hItem⟩

end Reader

end PeerServices
