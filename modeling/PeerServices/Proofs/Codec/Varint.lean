import PeerServices.Identity.Keypair
import PeerServices.Proofs.Codec.Exact

/-!
# Reading what was written, for lengths and signed data

An input that does not start with the form of a variable-length integer is unfinished, overlong or
oversized, and these are the refusals.

* `Varint.read_encode`: a variable-length integer is read back and nothing behind it is touched.
* `Varint.exact_read`: it has one form only.
* `Varint.length_encode_le`, `Varint.length_groups_le_iff`: how many groups a number has.
* `Varint.written_or_refused`, `Varint.read_eq_error_iff`: what is refused, and with which error.
* `Codec.readBlob_blob`: a byte string of an allowed length is read back.
* `SignedData.decode_encode`: signed data over so few bytes fills its own form.
-/

namespace PeerServices

namespace Varint

/-- Only one bit is left for the tenth group. -/
theorem tenth_group {limit index sum n : Nat} (hlimit : limit + 1 + index = maxGroups)
    (hsize : sum + n * Nat.pow 128 index < UInt64.size) (h : limit = 0) : n < 2 := by
  obtain rfl : index = 9 := by
    simp only [maxGroups] at hlimit
    omega
  simp only [Nat.pow_eq, UInt64.size] at hsize
  omega

/-- The group with the low bits and the groups behind it add up to the number. -/
theorem sum_groups (sum n index : Nat) :
    sum + n % 128 * Nat.pow 128 index + n / 128 * Nat.pow 128 (index + 1) =
      sum + n * Nat.pow 128 index := by
  have hnext : n / 128 * Nat.pow 128 (index + 1) = n / 128 * 128 * Nat.pow 128 index := by
    change n / 128 * (Nat.pow 128 index * 128) = _
    grind
  rw [hnext, Nat.add_assoc, ← Nat.add_mul]
  congr 2
  omega

theorem readGroups_last {limit index n : Nat} (hsmall : n < 128) (htenth : limit = 0 → n < 2)
    (hzero : 0 < index → 0 < n) (sum : Nat) (rest : Bytes) :
    readGroups (limit + 1) index sum (UInt8.ofNat n :: rest) =
      .ok (UInt64.ofNat (sum + n * Nat.pow 128 index), rest) := by
  have hbyte : (UInt8.ofNat n).toNat = n := by
    rw [UInt8.toNat_ofNat']; omega
  have hmod : n % 128 = n := Nat.mod_eq_of_lt hsmall
  have hlast : ¬(limit = 0 ∧ 1 < n) := by
    rintro ⟨h0, h1⟩
    have := htenth h0
    omega
  have hlong : ¬(0 < index ∧ n = 0) := by
    rintro ⟨h0, h1⟩
    have := hzero h0
    omega
  simp only [readGroups, Reader.bind_apply, Reader.byte, hbyte, hmod, if_neg hlast, if_pos hsmall,
    if_neg hlong, Reader.pure_apply]

theorem readGroups_more {limit n : Nat} (htenth : limit = 0 → n < 2) (hlarge : ¬n < 128)
    (index sum : Nat) (rest : Bytes) :
    readGroups (limit + 1) index sum (UInt8.ofNat (n % 128 + 128) :: rest) =
      readGroups limit (index + 1) (sum + n % 128 * Nat.pow 128 index) rest := by
  have hbyte : (UInt8.ofNat (n % 128 + 128)).toNat = n % 128 + 128 := by
    rw [UInt8.toNat_ofNat']; omega
  have hbits : (n % 128 + 128) % 128 = n % 128 := by omega
  have hlast : ¬(limit = 0 ∧ 1 < n % 128) := by
    rintro ⟨h0, -⟩
    have := htenth h0
    omega
  have hmore : ¬(n % 128 + 128 < 128) := by omega
  simp only [readGroups, Reader.bind_apply, Reader.byte, hbyte, hbits, if_neg hlast, if_neg hmore]

/-- The groups of a number are read back at any index. Behind another group the number is not zero,
so its form is not overlong, and the bound on the sum keeps the last group within 64 bits. -/
theorem readGroups_groups (limit index sum n : Nat) (rest : Bytes)
    (hlimit : limit + index = maxGroups) (hsize : sum + n * Nat.pow 128 index < UInt64.size)
    (hzero : 0 < index → 0 < n) (hfits : n < Nat.pow 128 limit) :
    readGroups limit index sum (groups limit n ++ rest) =
      .ok (UInt64.ofNat (sum + n * Nat.pow 128 index), rest) := by
  induction limit generalizing index sum n with
  | zero =>
    have hindex : index = 10 := by simpa [maxGroups] using hlimit
    have hn : n = 0 := by simpa using hfits
    have := hzero (by omega)
    omega
  | succ limit ih =>
    have htenth := tenth_group hlimit hsize
    by_cases hsmall : n < 128
    · simp only [groups, if_pos hsmall, List.cons_append, List.nil_append]
      exact readGroups_last hsmall htenth hzero sum rest
    · have hrest : n / 128 < Nat.pow 128 limit := by
        apply Nat.div_lt_of_lt_mul
        rw [Nat.mul_comm]
        exact hfits
      simp only [groups, if_neg hsmall, List.cons_append]
      rw [readGroups_more htenth hsmall, ih (index + 1) _ (n / 128) (by omega)
        (by rw [sum_groups]; exact hsize) (fun _ => by omega) hrest, sum_groups]

theorem read_encode (n : UInt64) (rest : Bytes) : read (encode n ++ rest) = .ok (n, rest) := by
  have hn : n.toNat < UInt64.size := n.toNat_lt
  have hsum : 0 + n.toNat * Nat.pow 128 0 = n.toNat := by
    rw [Nat.zero_add]
    exact Nat.mul_one n.toNat
  have h := readGroups_groups maxGroups 0 0 n.toNat rest rfl (by rw [hsum]; exact hn) (by omega)
    (Nat.lt_of_lt_of_le hn (by decide))
  rw [hsum, UInt64.ofNat_toNat] at h
  exact h

/-- One group is read: it is the last one, or others follow it. -/
theorem readGroups_eq_ok_iff {limit index sum : Nat} {input rest : Bytes} {v : UInt64} :
    readGroups (limit + 1) index sum input = .ok (v, rest) ↔ ∃ byte behind,
      input = byte :: behind ∧ ¬(limit = 0 ∧ 1 < byte.toNat % 128) ∧
      if byte.toNat < 128 then
        ¬(0 < index ∧ byte.toNat % 128 = 0) ∧
          UInt64.ofNat (sum + byte.toNat % 128 * Nat.pow 128 index) = v ∧ behind = rest
      else readGroups limit (index + 1)
          (sum + byte.toNat % 128 * Nat.pow 128 index) behind = .ok (v, rest) := by
  simp only [readGroups, Reader.bind_eq_ok_iff, Reader.exact_byte _ _ _, Reader.guard_eq_ok_iff,
    List.singleton_append]
  refine exists_congr fun byte => exists_congr fun behind => ?_
  refine and_congr_right fun _ => and_congr_right fun _ => ?_
  split
  · rw [Reader.guard_eq_ok_iff, Reader.pure_apply, Except.ok.injEq, Prod.mk.injEq]
  · rfl

/-- What is read is the groups of a number, at most as many as may follow. -/
theorem groups_of_readGroups {limit index sum : Nat} {input rest : Bytes} {v : UInt64}
    (h : readGroups (limit + 1) index sum input = .ok (v, rest)) :
    ∃ n < 2 * Nat.pow 128 limit, (0 < index → 0 < n) ∧
      v = UInt64.ofNat (sum + n * Nat.pow 128 index) ∧ input = groups (limit + 1) n ++ rest := by
  induction limit generalizing index sum input with
  | zero =>
    obtain ⟨byte, behind, rfl, hTenth, h⟩ := readGroups_eq_ok_iff.mp h
    split at h
    next hLast =>
      obtain ⟨hZero, rfl, rfl⟩ := h
      have hBits : byte.toNat % 128 = byte.toNat := Nat.mod_eq_of_lt hLast
      refine ⟨byte.toNat, ?_, ?_, by rw [hBits], ?_⟩
      · simp only [Nat.pow_eq, Nat.pow_zero]
        omega
      · omega
      · simp [groups, hLast]
    next => cases h
  | succ limit ih =>
    obtain ⟨byte, behind, rfl, -, h⟩ := readGroups_eq_ok_iff.mp h
    have hPow : Nat.pow 128 (limit + 1) = Nat.pow 128 limit * 128 := rfl
    have hPos : 0 < Nat.pow 128 limit := Nat.pow_pos (by decide)
    have hByte : byte.toNat < 256 := byte.toNat_lt
    split at h
    next hLast =>
      obtain ⟨hZero, rfl, rfl⟩ := h
      have hBits : byte.toNat % 128 = byte.toNat := Nat.mod_eq_of_lt hLast
      refine ⟨byte.toNat, by omega, by omega, by rw [hBits], ?_⟩
      simp [groups, hLast]
    next hMore =>
      obtain ⟨n, hn, hPositive, rfl, rfl⟩ := ih h
      have hLow : (byte.toNat % 128 + 128 * n) % 128 = byte.toNat % 128 := by omega
      have hHigh : (byte.toNat % 128 + 128 * n) / 128 = n := by omega
      have hGroup : UInt8.ofNat (byte.toNat % 128 + 128) = byte := by
        rw [show byte.toNat % 128 + 128 = byte.toNat by omega, UInt8.ofNat_toNat]
      refine ⟨byte.toNat % 128 + 128 * n, by omega, by omega, ?_, ?_⟩
      · have hSum := sum_groups sum (byte.toNat % 128 + 128 * n) index
        rw [hLow, hHigh] at hSum
        rw [hSum]
      · have hLarge : ¬byte.toNat % 128 + 128 * n < 128 := by omega
        have hGroups : groups (limit + 1 + 1) (byte.toNat % 128 + 128 * n) =
            byte :: groups (limit + 1) n := by
          rw [groups, if_neg hLarge, hLow, hHigh, hGroup]
        rw [hGroups, List.cons_append]

/-- Each number has one form only. -/
theorem exact_read : Reader.Exact read encode := by
  intro input v rest
  constructor
  · intro h
    obtain ⟨n, hn, -, rfl, rfl⟩ := groups_of_readGroups h
    have hSize : n < 2 ^ 64 := hn
    have hSum : 0 + n * Nat.pow 128 0 = n := by
      rw [Nat.zero_add]
      exact Nat.mul_one n
    rw [hSum, encode, UInt64.toNat_ofNat', Nat.mod_eq_of_lt hSize]
    rfl
  · rintro rfl
    exact read_encode v rest

/-! ## How many groups a number has -/

theorem length_groups_le (limit n : Nat) : (groups limit n).length ≤ limit := by
  induction limit generalizing n with
  | zero => exact Nat.le_refl 0
  | succ limit ih =>
    unfold groups
    split
    · exact Nat.succ_le_succ (Nat.zero_le limit)
    · exact Nat.succ_le_succ (ih (n / 128))

theorem length_encode_le (n : UInt64) : (encode n).length ≤ maxGroups := length_groups_le _ _

theorem length_groups_mono {limit m n : Nat} (h : m ≤ n) :
    (groups limit m).length ≤ (groups limit n).length := by
  induction limit generalizing m n with
  | zero => exact Nat.le_refl 0
  | succ limit ih =>
    have hRest := ih (Nat.div_le_div_right (c := 128) h)
    unfold groups
    split <;> split <;> simp only [List.length_cons, List.length_nil] <;> omega

theorem length_groups_pos {limit : Nat} (h : 0 < limit) (n : Nat) :
    0 < (groups limit n).length := by
  cases limit with
  | zero => exact absurd h (Nat.lt_irrefl 0)
  | succ limit =>
    unfold groups
    split <;> exact Nat.succ_pos _

/-- A number has at most so many groups if it has at most so many digits to the base 128. -/
theorem length_groups_le_iff {limit count n : Nat} (hCount : 0 < count) (hLimit : count < limit) :
    (groups limit n).length ≤ count ↔ n < Nat.pow 128 count := by
  induction limit generalizing count n with
  | zero => exact absurd hLimit (Nat.not_lt_zero count)
  | succ limit ih =>
    obtain ⟨count, rfl⟩ := Nat.exists_eq_succ_of_ne_zero (Nat.ne_of_gt hCount)
    have hPow : Nat.pow 128 (count + 1) = Nat.pow 128 count * 128 := rfl
    have hPos : 0 < Nat.pow 128 count := Nat.pow_pos (by decide)
    by_cases hSmall : n < 128
    · simp only [groups, if_pos hSmall, List.length_singleton, hPow]
      omega
    · simp only [groups, if_neg hSmall, List.length_cons, hPow]
      cases count with
      | zero =>
        have := length_groups_pos (Nat.lt_of_succ_lt_succ hLimit) (n / 128)
        simp only [Nat.pow_eq, Nat.pow_zero]
        omega
      | succ count =>
        have hRest := ih (n := n / 128) (Nat.succ_pos count) (Nat.lt_of_succ_lt_succ hLimit)
        rw [Nat.div_lt_iff_lt_mul (by decide)] at hRest
        rw [← hRest]
        exact Nat.succ_le_succ_iff

/-! ## Inputs that are refused -/

/-- The high bit of a group says that another one follows. -/
def Continues (group : UInt8) : Prop := group &&& 0x80 ≠ 0

/-- The input ends where another group should follow. -/
def Unfinished (input : Bytes) : Prop :=
  input.length < maxGroups ∧ ∀ group ∈ input, Continues group

/-- The last group is zero and not the only one. -/
def Overlong (input : Bytes) : Prop :=
  ∃ front rest, input = front ++ 0 :: rest ∧ 0 < front.length ∧ front.length < maxGroups ∧
    ∀ group ∈ front, Continues group

/-- The tenth group says that another one follows, or has more than the one bit that is left. -/
def Oversized (input : Bytes) : Prop :=
  ∃ front last rest, input = front ++ last :: rest ∧ front.length + 1 = maxGroups ∧
    (∀ group ∈ front, Continues group) ∧ (Continues last ∨ 1 < last.toNat)

theorem highBit_eq_zero_iff {group : UInt8} : group &&& 0x80 = 0 ↔ group.toNat < 128 := by
  have hBit : ∀ n < 256, n &&& 128 = 0 ↔ n < 128 := by decide +kernel
  rw [← UInt8.toNat_inj, UInt8.toNat_and]
  exact hBit group.toNat group.toNat_lt

theorem continues_iff {group : UInt8} : Continues group ↔ ¬group.toNat < 128 :=
  not_congr highBit_eq_zero_iff

/-- Groups that say that others follow are passed. -/
theorem readGroups_front {front : Bytes} (h : ∀ group ∈ front, Continues group)
    (limit index sum : Nat) (rest : Bytes) :
    ∃ sum', readGroups (front.length + limit + 1) index sum (front ++ rest) =
      readGroups (limit + 1) (index + front.length) sum' rest := by
  induction front generalizing index sum with
  | nil => exact ⟨sum, by rw [List.length_nil, Nat.zero_add, List.nil_append]; rfl⟩
  | cons group front ih =>
    obtain ⟨hGroup, hFront⟩ := List.forall_mem_cons.mp h
    have hLarge := continues_iff.mp hGroup
    have hByte : UInt8.ofNat (group.toNat % 128 + 128) = group := by
      have := group.toNat_lt
      rw [show group.toNat % 128 + 128 = group.toNat by omega, UInt8.ofNat_toNat]
    obtain ⟨sum', hRest⟩ := ih hFront (index + 1) (sum + group.toNat % 128 * Nat.pow 128 index)
    have hStep : readGroups (front.length + limit + 1 + 1) index sum (group :: (front ++ rest)) =
        readGroups (limit + 1) (index + 1 + front.length) sum' rest := by
      rw [← hRest, ← readGroups_more (by omega) hLarge, hByte]
    refine ⟨sum', ?_⟩
    rw [List.length_cons, List.cons_append, Nat.add_right_comm front.length 1 limit, hStep,
      Nat.add_assoc, Nat.add_comm 1]

theorem read_front {front : Bytes} (h : ∀ group ∈ front, Continues group) (limit : Nat)
    (hLimit : front.length + limit + 1 = maxGroups) (rest : Bytes) :
    ∃ sum, read (front ++ rest) = readGroups (limit + 1) front.length sum rest := by
  obtain ⟨sum, hRead⟩ := readGroups_front h limit 0 0 rest
  rw [hLimit, Nat.zero_add] at hRead
  exact ⟨sum, hRead⟩

theorem read_of_unfinished {input : Bytes} (h : Unfinished input) :
    read input = .error .endOfBuffer := by
  obtain ⟨hLength, hFront⟩ := h
  obtain ⟨limit, hLimit⟩ := Nat.exists_eq_add_of_lt hLength
  obtain ⟨sum, hRead⟩ := read_front hFront limit hLimit.symm []
  rw [List.append_nil] at hRead
  exact hRead

theorem read_of_overlong {input : Bytes} (h : Overlong input) :
    read input = .error .invalidVarint := by
  obtain ⟨front, rest, rfl, hPos, hLength, hFront⟩ := h
  obtain ⟨limit, hLimit⟩ := Nat.exists_eq_add_of_lt hLength
  obtain ⟨sum, hRead⟩ := read_front hFront limit hLimit.symm (0 :: rest)
  rw [hRead]
  have hLow : ¬(limit = 0 ∧ 1 < (0 : UInt8).toNat % 128) := by
    rintro ⟨-, hBits⟩
    exact absurd hBits (by decide)
  have hZero : 0 < front.length ∧ (0 : UInt8).toNat % 128 = 0 := ⟨hPos, rfl⟩
  have hLast : (0 : UInt8).toNat < 128 := by decide
  simp only [readGroups, Reader.bind_apply, Reader.byte, if_neg hLow, if_pos hLast, if_pos hZero]
  rfl

theorem read_of_oversized {input : Bytes} (h : Oversized input) :
    read input = .error .invalidVarint := by
  obtain ⟨front, last, rest, rfl, hLength, hFront, hLast⟩ := h
  obtain ⟨sum, hRead⟩ := read_front hFront 0 hLength (last :: rest)
  rw [hRead]
  by_cases hBits : 1 < last.toNat % 128
  · simp only [readGroups, Reader.bind_apply, Reader.byte, if_pos hBits, true_and]
    rfl
  · have hMore : ¬last.toNat < 128 := by
      rcases hLast with hContinues | hLarge
      · exact continues_iff.mp hContinues
      · omega
    simp only [readGroups, Reader.bind_apply, Reader.byte, if_neg hBits, if_neg hMore, true_and]
    rfl

/-- The groups of an input up to the first one, at most, that does not say that others follow. -/
theorem exists_front (limit : Nat) (input : Bytes) : ∃ front rest, input = front ++ rest ∧
    (∀ group ∈ front, Continues group) ∧ front.length ≤ limit ∧
    ∀ group ∈ rest.head?, Continues group → front.length = limit := by
  induction limit generalizing input with
  | zero => exact ⟨[], input, rfl, nofun, Nat.le_refl 0, fun _ _ _ => rfl⟩
  | succ limit ih =>
    cases input with
    | nil => exact ⟨[], [], rfl, nofun, Nat.zero_le _, nofun⟩
    | cons group input =>
      by_cases hGroup : Continues group
      · obtain ⟨front, rest, rfl, hFront, hLength, hRest⟩ := ih input
        refine ⟨group :: front, rest, rfl, List.forall_mem_cons.mpr ⟨hGroup, hFront⟩,
          Nat.succ_le_succ hLength, fun next hNext hContinues => ?_⟩
        exact congrArg (· + 1) (hRest next hNext hContinues)
      · refine ⟨[], group :: input, rfl, nofun, Nat.zero_le _, fun next hNext hContinues => ?_⟩
        obtain rfl := Option.mem_some_iff.mp hNext
        exact absurd hContinues hGroup

/-- An input starts with a written form or is refused in one of three ways. -/
theorem written_or_refused (input : Bytes) : (∃ n rest, input = encode n ++ rest) ∨
    Unfinished input ∨ Overlong input ∨ Oversized input := by
  obtain ⟨front, rest, rfl, hFront, hLength, hHead⟩ := exists_front 9 input
  cases rest with
  | nil =>
    rw [List.append_nil]
    exact .inr (.inl ⟨Nat.lt_succ_of_le hLength, hFront⟩)
  | cons last rest =>
    by_cases hContinues : Continues last
    · have hNine := hHead last rfl hContinues
      exact .inr (.inr (.inr ⟨front, last, rest, rfl, by rw [hNine]; rfl, hFront, .inl hContinues⟩))
    by_cases hLarge : front.length = 9 ∧ 1 < last.toNat
    · exact .inr (.inr (.inr ⟨front, last, rest, rfl, by rw [hLarge.1]; rfl, hFront,
        .inr hLarge.2⟩))
    by_cases hZero : 0 < front.length ∧ last.toNat = 0
    · obtain rfl : last = 0 := UInt8.toNat_inj.mp hZero.2
      exact .inr (.inr (.inl ⟨front, rest, rfl, hZero.1, Nat.lt_succ_of_le hLength, hFront⟩))
    -- What is left is a last group that is neither zero behind another one nor too large.
    left
    obtain ⟨limit, hLimit⟩ := Nat.exists_eq_add_of_le hLength
    have hMax : front.length + limit + 1 = maxGroups := congrArg (· + 1) hLimit.symm
    obtain ⟨sum, hRead⟩ := read_front hFront limit hMax (last :: rest)
    have hSmall : last.toNat < 128 := Decidable.not_not.mp fun h => hContinues (continues_iff.mpr h)
    have hTenth : limit = 0 → last.toNat < 2 := by omega
    have hPositive : 0 < front.length → 0 < last.toNat := by omega
    have hLast := readGroups_last hSmall hTenth hPositive sum rest
    rw [UInt8.ofNat_toNat, ← hRead] at hLast
    exact ⟨_, rest, (exact_read _ _ _).mp hLast⟩

/-- An input that breaks off is refused for its end, an overlong or oversized one for its groups. -/
theorem read_eq_error_iff {input : Bytes} {e : Codec.Error} : read input = .error e ↔
    e = .endOfBuffer ∧ Unfinished input ∨
      e = .invalidVarint ∧ (Overlong input ∨ Oversized input) := by
  constructor
  · intro h
    rcases written_or_refused input with ⟨n, rest, rfl⟩ | hUnfinished | hOverlong | hOversized
    · rw [read_encode] at h
      cases h
    · rw [read_of_unfinished hUnfinished] at h
      cases h
      exact .inl ⟨rfl, hUnfinished⟩
    · rw [read_of_overlong hOverlong] at h
      cases h
      exact .inr ⟨rfl, .inl hOverlong⟩
    · rw [read_of_oversized hOversized] at h
      cases h
      exact .inr ⟨rfl, .inr hOversized⟩
  · rintro (⟨rfl, hUnfinished⟩ | ⟨rfl, hOverlong | hOversized⟩)
    · exact read_of_unfinished hUnfinished
    · exact read_of_overlong hOverlong
    · exact read_of_oversized hOversized

end Varint

namespace Codec

theorem readBlob_blob {bytes : Bytes} (h : bytes.length ≤ maxBlobLength) (rest : Bytes) :
    readBlob (blob bytes ++ rest) = .ok (bytes, rest) := by
  have hlen : (UInt64.ofNat bytes.length).toNat = bytes.length := by
    rw [UInt64.toNat_ofNat']
    apply Nat.mod_eq_of_lt
    simp only [maxBlobLength] at h
    omega
  have htake : (bytes ++ rest).take bytes.length = bytes := List.take_left' rfl
  have hdrop : (bytes ++ rest).drop bytes.length = rest := List.drop_left' rfl
  have hmax : ¬maxBlobLength < bytes.length := by omega
  simp only [readBlob, readLength, blob, List.append_assoc, Reader.bind_apply, Varint.read_encode,
    hlen, if_neg hmax, Reader.pure_apply, Reader.take, htake, hdrop, if_true]

end Codec

namespace Reader

theorem octets_append {n : Nat} (o : Octets n) (rest : Bytes) :
    octets n (o.toList ++ rest) = .ok (o, rest) :=
  (exact_octets n _ o rest).mpr rfl

end Reader

theorem SignedData.decode_encode (p : SignedData) (h : p.data.length ≤ Codec.maxBlobLength) :
    Serial.decode SignedData (Serial.encode p) = .ok p := by
  rw [Serial.decode_eq_ok_iff_read]
  simp only [Serial.read, Serial.encode, List.append_assoc, Reader.bind_apply,
    Reader.octets_append, Codec.readBlob_blob h]
  rw [← List.append_nil p.signature.toList, Reader.octets_append]
  rfl

end PeerServices
