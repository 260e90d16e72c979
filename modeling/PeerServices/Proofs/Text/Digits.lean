import PeerServices.Bytes.Hex
import PeerServices.Text.Blank
import PeerServices.Text.Numeral

/-!
# Texts of numbers and bytes

What is read from white space, decimal digits and hexadecimal digits, said without the readers.

* `Text.trimChars_eq_iff`: a text without the white space around it.
* `Text.Numeral`, `Text.readInt64?_eq_some_iff`: the numerals of a number.
* `Hex.Spells`, `Hex.decode_eq_ok_iff`: the digits of bytes, in either case.
-/

namespace PeerServices

/-! ## White space -/

namespace Text

variable {cs core before after : List Char}

/-- No white space stands at the ends. -/
structure Trimmed (cs : List Char) : Prop where
  head : ∀ c ∈ cs.head?, isBlank c = false
  last : ∀ c ∈ cs.getLast?, isBlank c = false

theorem dropWhile_blank (hBefore : ∀ c ∈ before, isBlank c = true)
    (hHead : ∀ c ∈ cs.head?, isBlank c = false) : (before ++ cs).dropWhile isBlank = cs := by
  rw [List.dropWhile_append_of_pos hBefore]
  cases cs with
  | nil => rfl
  | cons c cs => exact List.dropWhile_cons_of_neg (Bool.not_eq_true _ ▸ hHead c rfl)

theorem exists_blank_append (cs : List Char) : ∃ before, (∀ c ∈ before, isBlank c = true) ∧
    cs = before ++ cs.dropWhile isBlank ∧
      ∀ c ∈ (cs.dropWhile isBlank).head?, isBlank c = false := by
  refine ⟨cs.takeWhile isBlank, List.all_eq_true.mp List.all_takeWhile,
    List.takeWhile_append_dropWhile.symm, fun c hc => ?_⟩
  have hHead := List.head?_dropWhile_not isBlank cs
  rw [hc] at hHead
  exact hHead

/-- Trimming takes the white space at both ends away and nothing else. -/
theorem trimChars_eq_iff : trimChars cs = core ↔ Trimmed core ∧ ∃ before after,
    cs = before ++ core ++ after ∧ ∀ c ∈ before ++ after, isBlank c = true := by
  constructor
  · rintro rfl
    obtain ⟨before, hBefore, hFront, hHead⟩ := exists_blank_append cs
    obtain ⟨after, hAfter, hBack, hLast⟩ := exists_blank_append (cs.dropWhile isBlank).reverse
    have hCore : cs.dropWhile isBlank = trimChars cs ++ after.reverse := by
      rw [trimChars, ← List.reverse_append, ← hBack, List.reverse_reverse]
    refine ⟨⟨fun c hc => hHead c ?_, fun c hc => hLast c ?_⟩, before, after.reverse, ?_, ?_⟩
    · rw [hCore, List.head?_append, hc]
      rfl
    · rwa [trimChars, List.getLast?_reverse] at hc
    · rw [List.append_assoc, ← hCore]
      exact hFront
    · intro c hc
      rcases List.mem_append.mp hc with hc | hc
      · exact hBefore c hc
      · exact hAfter c (List.mem_reverse.mp hc)
  · rintro ⟨hCore, before, after, rfl, hBlank⟩
    cases core with
    | nil =>
      rw [List.append_nil, trimChars, ← List.append_nil (before ++ after),
        dropWhile_blank hBlank hCore.head]
      rfl
    | cons c core =>
      have hFront : (before ++ (c :: core ++ after)).dropWhile isBlank = c :: core ++ after :=
        dropWhile_blank (fun c hc => hBlank c (List.mem_append_left _ hc)) hCore.head
      rw [trimChars, List.append_assoc, hFront, List.reverse_append, dropWhile_blank,
        List.reverse_reverse]
      · exact fun c hc => hBlank c (List.mem_append_right _ (List.mem_reverse.mp hc))
      · rw [List.head?_reverse]
        exact hCore.last

theorem trimChars_of_forall (h : ∀ c ∈ cs, isBlank c = false) : trimChars cs = cs := by
  refine trimChars_eq_iff.mpr ⟨⟨fun c hc => h c (List.mem_of_mem_head? hc),
    fun c hc => h c (List.mem_of_mem_getLast? hc)⟩, [], [], ?_, nofun⟩
  rw [List.nil_append, List.append_nil]

theorem isBlank_of_printable {c : Char} (h : 33 ≤ c.toNat ∧ c.toNat ≤ 126) :
    isBlank c = false := by
  simp only [isBlank]
  grind

/-! ## Decimal numerals -/

variable {digits : List Char} {n : Int}

/-- One or more decimal digits, with any zeros in front, write a number. -/
structure Decimal (digits : List Char) (n : Nat) : Prop where
  nonempty : digits ≠ []
  isDigit : ∀ c ∈ digits, c.isDigit = true
  value : Nat.ofDigitChars 10 digits 0 = n

/-- The ways to write a number: its digits, and a sign that only negative numbers need. -/
inductive Numeral : List Char → Int → Prop
  | plain {digits : List Char} {n : Nat} : Decimal digits n → Numeral digits n
  | plus {digits : List Char} {n : Nat} : Decimal digits n → Numeral ('+' :: digits) n
  | minus {digits : List Char} {n : Nat} : Decimal digits n → Numeral ('-' :: digits) (-n)

theorem digitValue?_eq (c : Char) :
    digitValue? c = if c.isDigit = true then some (c.toNat - '0'.toNat) else none := by
  simp only [digitValue?, Char.isDigit, Bool.and_eq_true, decide_eq_true_eq]
  rfl

theorem readDigits_eq_some_iff {sum n : Nat} : readDigits sum digits = some n ↔
    (∀ c ∈ digits, c.isDigit = true) ∧ Nat.ofDigitChars 10 digits sum = n := by
  induction digits generalizing sum with
  | nil => simp [readDigits]
  | cons c digits ih =>
    rw [readDigits, digitValue?_eq, Nat.ofDigitChars_cons, List.forall_mem_cons]
    by_cases hDigit : c.isDigit = true
    · simp [hDigit, ih, Nat.mul_comm]
    · simp [hDigit]

theorem readNat?_eq_some_iff {n : Nat} : readNat? digits = some n ↔ Decimal digits n := by
  cases digits with
  | nil => exact ⟨nofun, fun h => absurd rfl h.nonempty⟩
  | cons c digits =>
    rw [readNat?, readDigits_eq_some_iff]
    · exact ⟨fun h => ⟨List.cons_ne_nil _ _, h.1, h.2⟩, fun h => ⟨h.isDigit, h.value⟩⟩
    · exact List.cons_ne_nil c digits

theorem readInt?_minus (digits : List Char) :
    readInt? ('-' :: digits) = (readNat? digits).map fun n => -Int.ofNat n := by
  rw [readInt?]
  cases readNat? digits <;> rfl

theorem readInt?_eq_some_iff : readInt? digits = some n ↔ Numeral digits n := by
  constructor
  · intro h
    unfold readInt? at h
    split at h
    next =>
      obtain ⟨m, hm, rfl⟩ := Option.map_eq_some_iff.mp h
      exact .plus (readNat?_eq_some_iff.mp hm)
    next digits =>
      obtain ⟨m, hm, rfl⟩ := Option.map_eq_some_iff.mp ((readInt?_minus digits).symm.trans h)
      exact .minus (readNat?_eq_some_iff.mp hm)
    next =>
      obtain ⟨m, hm, rfl⟩ := Option.map_eq_some_iff.mp h
      exact .plain (readNat?_eq_some_iff.mp hm)
  · intro h
    cases h with
    | plain h =>
      unfold readInt?
      split
      · exact absurd (h.isDigit '+' List.mem_cons_self) (by decide)
      · exact absurd (h.isDigit '-' List.mem_cons_self) (by decide)
      · rw [readNat?_eq_some_iff.mpr h]
        rfl
    | plus h => rw [readInt?, readNat?_eq_some_iff.mpr h]; rfl
    | minus h => rw [readInt?_minus, readNat?_eq_some_iff.mpr h]; rfl

/-- A 64-bit number is read from exactly its numerals. -/
theorem readInt64?_eq_some_iff {n : Int64} :
    readInt64? digits = some n ↔ Numeral digits n.toInt := by
  rw [← readInt?_eq_some_iff, readInt64?, Option.bind_eq_bind, Option.bind_eq_some_iff]
  constructor
  · rintro ⟨m, hm, h⟩
    split at h
    next hRange =>
      obtain rfl := Option.some.inj h
      rw [hm, Int64.toInt_ofInt_of_le hRange.1 (Int.lt_add_one_of_le hRange.2)]
    next => cases h
  · intro h
    refine ⟨n.toInt, h, ?_⟩
    rw [if_pos ⟨n.minValue_le_toInt, n.toInt_le⟩, Int64.ofInt_toInt]

theorem Numeral.unique {m : Int} (h : Numeral digits m) (h' : Numeral digits n) : m = n :=
  Option.some.inj ((readInt?_eq_some_iff.mpr h).symm.trans (readInt?_eq_some_iff.mpr h'))

theorem decimal_toDigits (n : Nat) : Decimal (Nat.toDigits 10 n) n where
  nonempty := Nat.toDigits_ne_nil
  isDigit _ := Nat.isDigit_of_mem_toDigits (by decide) (by decide)
  value := Nat.ofDigitChars_ten_toDigits

theorem numeral_toString (n : Int) : Numeral (toString n).toList n := by
  rw [Int.toString_eq_repr, Int.repr_eq_if]
  split
  next h =>
    have hDigits := Numeral.plain (decimal_toDigits n.toNat)
    rwa [Int.toNat_of_nonneg h, ← Nat.toList_repr] at hDigits
  next h =>
    have hDigits := Numeral.minus (decimal_toDigits (-n).toNat)
    rw [Int.toNat_of_nonneg (by omega), Int.neg_neg] at hDigits
    rw [String.toList_append, Nat.toList_repr]
    exact hDigits

theorem Numeral.chars (h : Numeral digits n) :
    ∀ c ∈ digits, c.isDigit = true ∨ c = '+' ∨ c = '-' := by
  intro c hc
  cases h with
  | plain h => exact .inl (h.isDigit c hc)
  | plus h =>
    rcases List.mem_cons.mp hc with rfl | hc
    · exact .inr (.inl rfl)
    · exact .inl (h.isDigit c hc)
  | minus h =>
    rcases List.mem_cons.mp hc with rfl | hc
    · exact .inr (.inr rfl)
    · exact .inl (h.isDigit c hc)

theorem Numeral.not_blank (h : Numeral digits n) : ∀ c ∈ digits, Text.isBlank c = false := by
  intro c hc
  apply isBlank_of_printable
  rcases h.chars c hc with hDigit | rfl | rfl
  · simp only [Char.isDigit, Bool.and_eq_true, decide_eq_true_eq] at hDigit
    exact ⟨Nat.le_trans (by decide) hDigit.1, Nat.le_trans hDigit.2 (by decide)⟩
  · decide
  · decide

theorem Numeral.colon_not_mem (h : Numeral digits n) : ':' ∉ digits := by
  intro hc
  rcases h.chars ':' hc with hDigit | hPlus | hMinus
  · exact absurd hDigit (by decide)
  · exact absurd hPlus (by decide)
  · exact absurd hMinus (by decide)

end Text

/-! ## Hexadecimal digits -/

namespace Hex

variable {cs : List Char} {bytes text : Bytes}

/-- The number that a hexadecimal digit of either case stands for. -/
def digitValue? (c : Char) : Option Nat :=
  if '0' ≤ c ∧ c ≤ '9' then some (c.toNat - '0'.toNat)
  else if 'a' ≤ c ∧ c ≤ 'f' then some (c.toNat - 'a'.toNat + 10)
  else if 'A' ≤ c ∧ c ≤ 'F' then some (c.toNat - 'A'.toNat + 10)
  else none

/-- The halves of bytes, the high one of each first. -/
def halves (bytes : Bytes) : List Nat := bytes.flatMap fun b => [b.toNat / 16, b.toNat % 16]

/-- Two digits, of either case, stand for each byte. -/
def Spells (cs : List Char) (bytes : Bytes) : Prop :=
  cs.map digitValue? = (halves bytes).map some

instance (cs : List Char) (bytes : Bytes) : Decidable (Spells cs bytes) :=
  inferInstanceAs (Decidable (_ = _))

theorem halves_nil : halves [] = [] := rfl

theorem halves_cons (b : UInt8) (bytes : Bytes) :
    halves (b :: bytes) = b.toNat / 16 :: b.toNat % 16 :: halves bytes := rfl

theorem length_halves (bytes : Bytes) : (halves bytes).length = 2 * bytes.length := by
  induction bytes with
  | nil => rfl
  | cons b bytes ih => rw [halves_cons, List.length_cons, List.length_cons, ih]; rfl

theorem value?_lt {b : UInt8} {n : Nat} (h : value? b = some n) : n < 16 := by
  unfold value? at h
  grind

theorem value?_of_ge {b : UInt8} (h : 128 ≤ b.toNat) : value? b = none := by
  unfold value?
  grind

/-- The digits are ASCII characters, and mean what the byte of that number means. -/
theorem digitValue?_eq (c : Char) :
    digitValue? c = if c.toNat < 128 then value? (UInt8.ofNat c.toNat) else none := by
  have hLe (c d : Char) : c ≤ d ↔ c.toNat ≤ d.toNat := Iff.rfl
  have hFirst : '0'.toNat = 48 ∧ 'a'.toNat = 97 ∧ 'A'.toNat = 65 := ⟨rfl, rfl, rfl⟩
  have hLast : '9'.toNat = 57 ∧ 'f'.toNat = 102 ∧ 'F'.toNat = 70 := ⟨rfl, rfl, rfl⟩
  have hByte : (UInt8.ofNat c.toNat).toNat = c.toNat % 256 := UInt8.toNat_ofNat'
  simp only [digitValue?, value?, hLe, hByte]
  grind

theorem digitValue?_lt {c : Char} {n : Nat} (h : digitValue? c = some n) : n < 16 := by
  rw [digitValue?_eq] at h
  split at h
  next => exact value?_lt h
  next => cases h

theorem printable_of_digitValue? {c : Char} {n : Nat} (h : digitValue? c = some n) :
    33 ≤ c.toNat ∧ c.toNat ≤ 126 := by
  have hByte : (UInt8.ofNat c.toNat).toNat = c.toNat % 256 := UInt8.toNat_ofNat'
  simp only [digitValue?_eq, value?, hByte] at h
  grind

theorem utf8EncodeChar_of_lt {c : Char} (h : c.toNat < 128) :
    String.utf8EncodeChar c = [UInt8.ofNat c.toNat] := if_pos (Nat.le_of_lt_succ h)

theorem utf8EncodeChar_of_ge {c : Char} (h : 128 ≤ c.toNat) :
    ∃ b bs, String.utf8EncodeChar c = b :: bs ∧ 128 ≤ b.toNat := by
  have hLarge : ¬c.val.toNat ≤ 127 := Nat.not_le_of_lt h
  simp only [String.utf8EncodeChar, if_neg hLarge]
  split
  next => exact ⟨_, _, rfl, by rw [UInt8.toNat_ofNat']; omega⟩
  next =>
    split
    all_goals exact ⟨_, _, rfl, by rw [UInt8.toNat_ofNat']; omega⟩

/-- Digits are read from characters as from their bytes, for no byte of another alphabet is one. -/
theorem map_value?_eq_iff {ns : List Nat} :
    (cs.flatMap String.utf8EncodeChar).map value? = ns.map some ↔
      cs.map digitValue? = ns.map some := by
  induction cs generalizing ns with
  | nil => exact Iff.rfl
  | cons c cs ih =>
    rw [List.flatMap_cons, List.map_append, List.map_cons, digitValue?_eq]
    by_cases h : c.toNat < 128
    · rw [utf8EncodeChar_of_lt h, List.map_cons, if_pos h]
      cases ns with
      | nil => simp
      | cons n ns => simp [ih]
    · obtain ⟨b, bs, hForm, hb⟩ := utf8EncodeChar_of_ge (Nat.le_of_not_lt h)
      rw [hForm, List.map_cons, value?_of_ge hb, if_neg h]
      cases ns <;> simp

theorem toUTF8_toList (s : String) :
    s.toUTF8.data.toList = s.toList.flatMap String.utf8EncodeChar := by
  have hForm := String.toByteArray_ofList (l := s.toList)
  rw [s.ofList_toList] at hForm
  rw [String.toUTF8_eq_toByteArray, hForm, List.utf8Encode, List.data_toByteArray]

/-- A byte is put together from its halves. -/
theorem ofNat_eq_iff {b : UInt8} {high low : Nat} (hHigh : high < 16) (hLow : low < 16) :
    UInt8.ofNat (high * 16 + low) = b ↔ b.toNat / 16 = high ∧ b.toNat % 16 = low := by
  rw [← UInt8.toNat_inj, UInt8.toNat_ofNat']
  omega

theorem map_eq_ok_iff {e : Except Error Bytes} {f : Bytes → Bytes} :
    e.map f = .ok bytes ↔ ∃ tail, e = .ok tail ∧ f tail = bytes := by
  cases e <;> simp [Except.map]

theorem decodeFrom_eq_ok_iff {index : Nat} :
    decodeFrom index text = .ok bytes ↔ text.map value? = (halves bytes).map some := by
  fun_induction decodeFrom index text generalizing bytes with
  | case1 index => cases bytes <;> simp [halves_nil, halves_cons]
  | case2 index b => cases bytes <;> simp [halves_nil, halves_cons]
  | case3 index high low rest hHigh => cases bytes <;> simp [halves_nil, halves_cons, hHigh]
  | case4 index high low rest n hLow hHigh =>
    cases bytes <;> simp [halves_nil, halves_cons, hLow]
  | case5 index high low rest m n hLow hHigh ih =>
    have hByte (b : UInt8) := ofNat_eq_iff (b := b) (value?_lt hHigh) (value?_lt hLow)
    rw [map_eq_ok_iff, List.map_cons, List.map_cons, hHigh, hLow]
    simp only [ih]
    cases bytes with
    | nil => simp [halves_nil]
    | cons b bytes =>
      simp only [halves_cons, List.map_cons, List.cons.injEq, Option.some.injEq, hByte]
      constructor
      · rintro ⟨tail, hTail, ⟨hDiv, hMod⟩, rfl⟩
        exact ⟨hDiv.symm, hMod.symm, hTail⟩
      · rintro ⟨hDiv, hMod, hTail⟩
        exact ⟨bytes, hTail, ⟨hDiv.symm, hMod.symm⟩, rfl⟩

/-- Bytes are decoded from exactly the digits that spell them. -/
theorem decode_eq_ok_iff {s : String} : decode s = .ok bytes ↔ Spells s.toList bytes := by
  have hFrom : decodeFrom 0 s.toUTF8.data.toList = .ok bytes ↔
      s.toUTF8.data.toList.map value? = (halves bytes).map some := decodeFrom_eq_ok_iff
  rw [Spells, ← map_value?_eq_iff, ← toUTF8_toList, ← hFrom, decode, decodeBytes]
  split
  next hOdd =>
    refine ⟨nofun, fun h => ?_⟩
    have hLength := congrArg List.length (hFrom.mp h)
    rw [List.length_map, List.length_map, length_halves] at hLength
    omega
  next => exact Iff.rfl

theorem Spells.length (h : Spells cs bytes) : cs.length = 2 * bytes.length := by
  have hLength := congrArg List.length h
  rwa [List.length_map, List.length_map, length_halves] at hLength

theorem Spells.isDigit (h : Spells cs bytes) : ∀ c ∈ cs, (digitValue? c).isSome = true := by
  intro c hc
  have hMem := List.mem_map_of_mem (f := digitValue?) hc
  rw [h] at hMem
  obtain ⟨n, -, hn⟩ := List.mem_map.mp hMem
  rw [← hn]
  rfl

theorem Spells.not_blank (h : Spells cs bytes) : ∀ c ∈ cs, Text.isBlank c = false := by
  intro c hc
  obtain ⟨n, hn⟩ := Option.isSome_iff_exists.mp (h.isDigit c hc)
  exact Text.isBlank_of_printable (printable_of_digitValue? hn)

/-- An even number of digits spells some bytes. -/
theorem exists_spells (count : Nat) (hLength : cs.length = 2 * count)
    (h : ∀ c ∈ cs, (digitValue? c).isSome = true) :
    ∃ bytes, bytes.length = count ∧ Spells cs bytes := by
  induction count generalizing cs with
  | zero =>
    obtain rfl := List.length_eq_zero_iff.mp hLength
    exact ⟨[], rfl, rfl⟩
  | succ count ih =>
    match cs, hLength with
    | c :: d :: cs, hLength =>
      rw [List.forall_mem_cons, List.forall_mem_cons] at h
      obtain ⟨hFirst, hSecond, hRest⟩ := h
      obtain ⟨high, hHigh⟩ := Option.isSome_iff_exists.mp hFirst
      obtain ⟨low, hLow⟩ := Option.isSome_iff_exists.mp hSecond
      simp only [List.length_cons] at hLength
      obtain ⟨bytes, rfl, hSpells⟩ := ih (by omega) hRest
      obtain ⟨hDiv, hMod⟩ := (ofNat_eq_iff (digitValue?_lt hHigh) (digitValue?_lt hLow)).mp rfl
      refine ⟨UInt8.ofNat (high * 16 + low) :: bytes, rfl, ?_⟩
      rw [Spells, halves_cons, hDiv, hMod, List.map_cons, List.map_cons, hHigh, hLow, hSpells]
      rfl

theorem digitValue?_digit : ∀ n < 16, digitValue? (digit n) = some n := by decide

theorem spells_encodeChars (bytes : Bytes) : Spells (encodeChars bytes) bytes := by
  induction bytes with
  | nil => rfl
  | cons b bytes ih =>
    have hByte := b.toNat_lt
    have hForm : encodeChars (b :: bytes) =
        digit (b.toNat / 16) :: digit (b.toNat % 16) :: encodeChars bytes := rfl
    rw [Spells, hForm, List.map_cons, List.map_cons, ih, digitValue?_digit _ (by omega),
      digitValue?_digit _ (by omega)]
    rfl

end Hex

end PeerServices
