import PeerServices.Proofs.Codec.Varint

/-!
# Variable-length integers in words of 64 bits

In words of 64 bits a number is written and read by masks and shifts. A shift to the right drops the
seven bits that have just been written, and a shift to the left drops nothing: the tenth group, which
would not fit, is refused before it is shifted.

* `Varint.wordForm_eq`: masks and shifts write the form of a number, and each bit that a shift drops
  is in the form.
* `Varint.wordRead_eq`: they read the same as sums of groups do, and no shift loses a bit.
* `Varint.bijection`: numbers and their forms correspond one to one, with all refusals, also in words.
-/

namespace PeerServices.Varint

/-! ## Words -/

theorem toNat_bits (group : UInt8) : (group &&& 0x7f).toUInt64.toNat = group.toNat % 128 := by
  rw [UInt8.toNat_toUInt64, UInt8.toNat_and]
  exact Nat.and_two_pow_sub_one_eq_mod group.toNat 7

theorem one_lt_bits_iff {group : UInt8} :
    1 < (group &&& 0x7f).toUInt64 ↔ 1 < group.toNat % 128 := by
  rw [← toNat_bits]
  exact UInt64.lt_iff_toNat_lt

theorem bits_eq_zero_iff {group : UInt8} :
    (group &&& 0x7f).toUInt64 = 0 ↔ group.toNat % 128 = 0 := by
  rw [← toNat_bits]
  exact UInt64.toNat_inj.symm

theorem toNat_shiftRight_seven (word : UInt64) : (word >>> 7).toNat = word.toNat / 128 := by
  rw [UInt64.toNat_shiftRight]
  exact Nat.shiftRight_eq_div_pow word.toNat 7

/-- The low bits of a word with the high bit set. -/
theorem toUInt8_or (word : UInt64) :
    word.toUInt8 ||| 0x80 = UInt8.ofNat (word.toNat % 128 + 128) := by
  have hBit : ∀ n < 256, n ||| 128 = n % 128 + 128 := by decide +kernel
  have hByte := hBit (word.toNat % 256) (Nat.mod_lt _ (by decide))
  apply UInt8.toNat_inj.mp
  rw [UInt8.toNat_or, UInt64.toNat_toUInt8, UInt8.toNat_ofNat']
  change word.toNat % 256 ||| 128 = _
  omega

theorem toNat_shiftLeft {word : UInt64} {amount : Nat} (hAmount : amount < 64)
    (h : word.toNat * Nat.pow 2 amount < UInt64.size) :
    (word <<< UInt64.ofNat amount).toNat = word.toNat * Nat.pow 2 amount := by
  have hShift : (UInt64.ofNat amount).toNat % 64 = amount := by
    rw [UInt64.toNat_ofNat']
    omega
  rw [UInt64.toNat_shiftLeft, hShift, Nat.shiftLeft_eq]
  exact Nat.mod_eq_of_lt h

/-! ## Writing by shifts -/

/-- The written form of a word, which is shifted to the right by seven bits after each group. There
is none if a bit would be dropped that is not in the group. -/
def wordForm (word : UInt64) : Option Bytes :=
  if 0x80 ≤ word then
    let group := word.toUInt8 ||| 0x80
    let next := word >>> 7
    if next <<< 7 ||| (group &&& 0x7f).toUInt64 = word then (wordForm next).map (group :: ·)
    else none
  else some [word.toUInt8]
termination_by word.toNat
decreasing_by
  have hLarge : 128 ≤ word.toNat := UInt64.le_iff_toNat_le.mp ‹0x80 ≤ word›
  rw [toNat_shiftRight_seven]
  omega

/-- What a shift to the right drops is in the group. -/
theorem shiftRight_keeps (word : UInt64) :
    (word >>> 7) <<< 7 ||| ((word.toUInt8 ||| 0x80) &&& 0x7f).toUInt64 = word := by
  have hBits : (UInt8.ofNat (word.toNat % 128 + 128)).toNat % 128 = word.toNat % 128 := by
    rw [UInt8.toNat_ofNat']
    omega
  have hMoved : ((word >>> 7) <<< 7).toNat = word.toNat / 128 * 128 := by
    rw [← toNat_shiftRight_seven]
    refine toNat_shiftLeft (by decide) ?_
    rw [toNat_shiftRight_seven]
    exact Nat.lt_of_le_of_lt (Nat.div_mul_le_self word.toNat 128) word.toNat_lt
  have hOr : 128 * (word.toNat / 128) + word.toNat % 128 =
      128 * (word.toNat / 128) ||| word.toNat % 128 :=
    Nat.two_pow_add_eq_or_of_lt (Nat.mod_lt word.toNat (Nat.two_pow_pos 7)) _
  apply UInt64.toNat_inj.mp
  rw [UInt64.toNat_or, toNat_bits, toUInt8_or, hBits, hMoved, Nat.mul_comm, ← hOr]
  omega

theorem wordForm_of_small {word : UInt64} (h : word.toNat < 128) :
    wordForm word = some [UInt8.ofNat word.toNat] := by
  have hSmall : ¬0x80 ≤ word := fun hLarge => Nat.not_le_of_lt h (UInt64.le_iff_toNat_le.mp hLarge)
  rw [wordForm, if_neg hSmall, UInt8.ofNat_uInt64ToNat]

theorem wordForm_of_large {word : UInt64} (h : ¬word.toNat < 128) :
    wordForm word =
      (wordForm (word >>> 7)).map (UInt8.ofNat (word.toNat % 128 + 128) :: ·) := by
  have hLarge : 0x80 ≤ word := UInt64.le_iff_toNat_le.mpr (Nat.le_of_not_lt h)
  rw [wordForm, if_pos hLarge, ← toUInt8_or]
  exact if_pos (shiftRight_keeps word)

theorem wordForm_eq_groups (limit : Nat) {word : UInt64}
    (h : word.toNat < Nat.pow 128 (limit + 1)) :
    wordForm word = some (groups (limit + 1) word.toNat) := by
  induction limit generalizing word with
  | zero => rw [wordForm_of_small h, groups, if_pos h]
  | succ limit ih =>
    rw [groups]
    by_cases hSmall : word.toNat < 128
    · rw [wordForm_of_small hSmall, if_pos hSmall]
    · have hRest : (word >>> 7).toNat < Nat.pow 128 (limit + 1) := by
        rw [toNat_shiftRight_seven]
        exact Nat.div_lt_of_lt_mul (Nat.mul_comm _ _ ▸ h)
      rw [wordForm_of_large hSmall, ih hRest, if_neg hSmall, toNat_shiftRight_seven]
      rfl

theorem wordForm_eq (n : UInt64) : wordForm n = some (encode n) :=
  wordForm_eq_groups 9 (Nat.lt_of_lt_of_le n.toNat_lt (by decide))

/-! ## Reading by shifts -/

/-- The word moved to the left, if each of its bits is still there. -/
def shiftLeft? (word : UInt64) (amount : Nat) : Option UInt64 :=
  let moved := word <<< UInt64.ofNat amount
  if amount < 64 ∧ moved >>> UInt64.ofNat amount = word then some moved else none

/-- Reads the groups from number `index` on, when at most `limit` may follow and `result` has the
bits of those before them. There is no outcome if a shift loses a bit. -/
def readWords : (limit index : Nat) → (result : UInt64) → Bytes →
    Option (Except Codec.Error (UInt64 × Bytes))
  | 0, _, _, _ => some (.error .invalidVarint)
  | _ + 1, _, _, [] => some (.error .endOfBuffer)
  | limit + 1, index, result, group :: rest =>
    let bits := (group &&& 0x7f).toUInt64
    if index + 1 = maxGroups ∧ 1 < bits then some (.error .invalidVarint)
    else do
      let result := result ||| (← shiftLeft? bits (7 * index))
      if group &&& 0x80 = 0 then
        if 0 < index ∧ bits = 0 then some (.error .invalidVarint) else some (.ok (result, rest))
      else readWords limit (index + 1) result rest

def wordRead : Bytes → Option (Except Codec.Error (UInt64 × Bytes)) := readWords maxGroups 0 0

theorem shiftLeft?_of_lt {word : UInt64} {amount : Nat} (hAmount : amount < 64)
    (h : word.toNat * Nat.pow 2 amount < UInt64.size) :
    shiftLeft? word amount = some (word <<< UInt64.ofNat amount) := by
  have hShift : (UInt64.ofNat amount).toNat % 64 = amount := by
    rw [UInt64.toNat_ofNat']
    omega
  refine if_pos ⟨hAmount, UInt64.toNat_inj.mp ?_⟩
  rw [UInt64.toNat_shiftRight, toNat_shiftLeft hAmount h, hShift, Nat.shiftRight_eq_div_pow]
  exact Nat.mul_div_cancel _ (Nat.two_pow_pos amount)

/-- A group has room in the word, since the tenth one has a single bit. -/
theorem group_fits {index bits : Nat} (hIndex : index < maxGroups) (hBits : bits < 128)
    (hTenth : ¬(index + 1 = maxGroups ∧ 1 < bits)) :
    bits * Nat.pow 2 (7 * index) < UInt64.size := by
  simp only [maxGroups] at hIndex hTenth
  by_cases hLast : index = 9
  · have hBit : bits ≤ 1 := by omega
    calc bits * Nat.pow 2 (7 * index) ≤ 1 * Nat.pow 2 (7 * index) := Nat.mul_le_mul_right _ hBit
      _ < UInt64.size := by subst hLast; decide
  · have hPow : Nat.pow 2 (7 * index) ≤ Nat.pow 2 56 :=
      Nat.pow_le_pow_right (by decide) (by omega)
    calc bits * Nat.pow 2 (7 * index) ≤ 128 * Nat.pow 2 56 :=
          Nat.mul_le_mul (Nat.le_of_lt hBits) hPow
      _ < UInt64.size := by decide

/-- A group is put above those before it. -/
theorem toNat_or_shiftLeft {result bits : UInt64} {amount : Nat} (hAmount : amount < 64)
    (hFits : bits.toNat * Nat.pow 2 amount < UInt64.size)
    (hResult : result.toNat < Nat.pow 2 amount) :
    (result ||| bits <<< UInt64.ofNat amount).toNat =
      result.toNat + bits.toNat * Nat.pow 2 amount := by
  have hOr : Nat.pow 2 amount * bits.toNat + result.toNat =
      Nat.pow 2 amount * bits.toNat ||| result.toNat :=
    Nat.two_pow_add_eq_or_of_lt hResult bits.toNat
  rw [UInt64.toNat_or, toNat_shiftLeft hAmount hFits, Nat.or_comm, Nat.mul_comm, ← hOr,
    Nat.add_comm]

theorem sum_lt {amount result bits : Nat} (hResult : result < Nat.pow 2 amount)
    (hBits : bits < 128) : result + bits * Nat.pow 2 amount < Nat.pow 2 (amount + 7) := by
  have hBelow : bits * Nat.pow 2 amount ≤ 127 * Nat.pow 2 amount :=
    Nat.mul_le_mul_right _ (Nat.le_of_lt_succ hBits)
  have hPow : Nat.pow 2 (amount + 7) = Nat.pow 2 amount * 128 := Nat.pow_add 2 amount 7
  omega

/-- The bits of the groups before number `index` stay below those of the next group, so that putting
them together is a sum. -/
theorem readWords_eq {limit index : Nat} {result : UInt64} (hLimit : limit + index = maxGroups)
    (hResult : result.toNat < Nat.pow 2 (7 * index)) (input : Bytes) :
    readWords limit index result input = some (readGroups limit index result.toNat input) := by
  induction limit generalizing index result input with
  | zero => rfl
  | succ limit ih =>
    cases input with
    | nil => rfl
    | cons group rest =>
      have hMax : maxGroups = 10 := rfl
      have hTenth : index + 1 = maxGroups ↔ limit = 0 := by omega
      have hLess : group.toNat % 128 < 128 := Nat.mod_lt _ (by decide)
      simp only [readWords, readGroups, Reader.bind_apply, Reader.byte, hTenth, one_lt_bits_iff,
        bits_eq_zero_iff, highBit_eq_zero_iff]
      by_cases hRefused : limit = 0 ∧ 1 < group.toNat % 128
      · rw [if_pos hRefused, if_pos hRefused]
        rfl
      have hIndex : index < maxGroups := by omega
      have hFits := group_fits hIndex hLess (by rwa [hTenth])
      rw [← toNat_bits] at hFits
      have hSum := toNat_or_shiftLeft (by omega) hFits hResult
      have hPow : Nat.pow 128 index = Nat.pow 2 (7 * index) := (Nat.pow_mul 2 7 index).symm
      rw [if_neg hRefused, if_neg hRefused, shiftLeft?_of_lt (by omega) hFits,
        Option.bind_eq_bind, Option.bind_some]
      generalize result ||| (group &&& 0x7f).toUInt64 <<< UInt64.ofNat (7 * index) = next at hSum ⊢
      -- From here on only the number in the word matters, and it is the sum so far.
      rw [toNat_bits] at hSum
      rw [hPow, ← hSum]
      by_cases hLast : group.toNat < 128
      · rw [if_pos hLast, if_pos hLast, UInt64.ofNat_toNat]
        split <;> rfl
      · rw [if_neg hLast, if_neg hLast]
        exact ih (by omega) (hSum ▸ sum_lt hResult hLess) rest

theorem wordRead_eq (input : Bytes) : wordRead input = some (read input) := by
  have hZero : (0 : UInt64).toNat < Nat.pow 2 (7 * 0) := by decide
  exact readWords_eq rfl hZero input

/-- A number is read back from its form, which has at most ten groups, and nothing else is read as
it. Every other input is refused: for its end if it breaks off before a tenth group and all its
groups say that others follow, and for its groups if the last one is zero behind another one or the
tenth one does not fit. The same is written and read in words, where no shift loses a bit. -/
theorem bijection :
    (∀ input n rest, read input = .ok (n, rest) ↔ input = encode n ++ rest) ∧
    (∀ n, (encode n).length ≤ 10) ∧
    (∀ input e, read input = .error e ↔ e = .endOfBuffer ∧ Unfinished input ∨
      e = .invalidVarint ∧ (Overlong input ∨ Oversized input)) ∧
    (∀ n, wordForm n = some (encode n)) ∧ ∀ input, wordRead input = some (read input) :=
  ⟨exact_read, length_encode_le, fun _ _ => read_eq_error_iff, wordForm_eq, wordRead_eq⟩

end PeerServices.Varint
