import PeerServices.Proofs.Text.Digits
import PeerServices.Service.Address

/-!
# Texts of addresses

The address of a peer is read from exactly 40 hexadecimal digits, and the address of a service from
the digits of its host, a colon and a numeral, with white space around each. The text of an address
is read back, unless its id is reserved and it is not the null address. A reserved id is never read
in any other way.

* `PeerAddress.parse_eq_ok_iff`, `PeerAddress.accepted_iff`: the texts of a peer address.
* `ServiceId.parse_of_numeral`, `ServiceId.parse_eq_ok_iff`: the texts of an id.
* `ServiceAddress.splitAtLastColon_eq_some_iff`: where the text of an address is split.
* `ServiceAddress.parse_eq_ok_iff`, `ServiceAddress.parse_text`: the texts of a service address.
* `ServiceAddress.text_forms`: all of it.
-/

namespace PeerServices

open Text

/-! ## Peer addresses -/

namespace PeerAddress

variable {a : PeerAddress} {s : String}

theorem ofList?_eq_some_iff {n : Nat} {bytes : Bytes} {octets : Octets n} :
    Octets.ofList? n bytes = some octets ↔ bytes = octets.toList := by
  obtain ⟨listed, hLength⟩ := octets
  unfold Octets.ofList?
  split
  next => simp
  next h => exact ⟨nofun, fun hEq => absurd (hEq ▸ hLength) h⟩

/-- An address is read from the digits that spell it, in either case and with white space around
them. -/
theorem parse_eq_ok_iff :
    parse s = .ok a ↔ Hex.Spells (trimChars s.toList) a.octets.toList := by
  have hDecode : Hex.decode (String.ofList (trimChars s.toList)) = .ok a.octets.toList ↔
      Hex.Spells (trimChars s.toList) a.octets.toList := by
    rw [Hex.decode_eq_ok_iff, String.toList_ofList]
  rw [← hDecode, parse, trim]
  cases Hex.decode (String.ofList (trimChars s.toList)) with
  | error e => exact ⟨nofun, nofun⟩
  | ok bytes =>
    rw [Except.ok.injEq, ← ofList?_eq_some_iff]
    obtain ⟨octets⟩ := a
    dsimp only
    split
    next hNone => simp [hNone]
    next hSome => simp [hSome]

theorem spells_trim_text (a : PeerAddress) :
    Hex.Spells (trimChars a.text.toList) a.octets.toList := by
  have hSpells := Hex.spells_encodeChars a.octets.toList
  rwa [text, Hex.encode, String.toList_ofList, trimChars_of_forall hSpells.not_blank]

/-- The text of an address is read back. -/
theorem parse_text (a : PeerAddress) : parse a.text = .ok a :=
  parse_eq_ok_iff.mpr a.spells_trim_text

theorem accepted_iff : (∃ a, parse s = .ok a) ↔
    (trimChars s.toList).length = 40 ∧
      ∀ c ∈ trimChars s.toList, (Hex.digitValue? c).isSome = true := by
  simp only [parse_eq_ok_iff]
  constructor
  · rintro ⟨a, h⟩
    exact ⟨h.length.trans (congrArg (2 * ·) a.octets.length_eq), h.isDigit⟩
  · rintro ⟨hLength, hDigits⟩
    obtain ⟨bytes, hBytes, hSpells⟩ := Hex.exists_spells 20 hLength hDigits
    exact ⟨⟨⟨bytes, hBytes⟩⟩, hSpells⟩

end PeerAddress

/-! ## Ids -/

namespace ServiceId

variable {id : ServiceId} {s : String} {n : Int64}

theorem ofPositive_of_pos (h : 0 < n) : ofPositive n = .ok ⟨n⟩ := by
  rw [ofPositive, if_neg]
  rw [Int64.lt_iff_toInt_lt] at h ⊢
  exact Int.not_lt.mpr h

theorem ofPositive_of_not_pos (h : ¬0 < n) : ofPositive n = .error (.nonPositiveServiceId n) := by
  rw [ofPositive, if_pos]
  rw [Int64.lt_iff_toInt_lt] at h ⊢
  exact Int.lt_add_one_of_le (Int.not_lt.mp h)

/-- A numeral gives an id if its number is positive. -/
theorem parse_of_numeral (h : Numeral (trimChars s.toList) n.toInt) : parse s = ofPositive n := by
  rw [parse, readInt64?_eq_some_iff.mpr h]

theorem parse_eq_ok_iff :
    parse s = .ok id ↔ Numeral (trimChars s.toList) id.value.toInt ∧ 0 < id.value := by
  constructor
  · intro h
    cases hRead : readInt64? (trimChars s.toList) with
    | none =>
      rw [parse, hRead] at h
      cases h
    | some n =>
      have hNumeral := readInt64?_eq_some_iff.mp hRead
      rw [parse_of_numeral hNumeral] at h
      by_cases hPos : 0 < n
      · rw [ofPositive_of_pos hPos] at h
        obtain rfl := Except.ok.inj h
        exact ⟨hNumeral, hPos⟩
      · rw [ofPositive_of_not_pos hPos] at h
        cases h
  · rintro ⟨hNumeral, hPos⟩
    rw [parse_of_numeral hNumeral, ofPositive_of_pos hPos]

theorem numeral_text (id : ServiceId) : Numeral id.text.toList id.value.toInt :=
  numeral_toString id.value.toInt

end ServiceId

/-! ## Service addresses -/

namespace ServiceAddress

variable {a : ServiceAddress} {s : String} {cs hostText idText : List Char}

/-- A text is split at its last colon. -/
theorem splitAtLastColon_eq_some_iff : splitAtLastColon cs = some (hostText, idText) ↔
    cs = hostText ++ ':' :: idText ∧ ':' ∉ idText := by
  simp only [splitAtLastColon]
  constructor
  · intro h
    let p (c : Char) := decide (c ≠ ':')
    have hFront : cs.reverse.takeWhile p ++ cs.reverse.dropWhile p = cs.reverse :=
      List.takeWhile_append_dropWhile
    have hOther : ∀ c ∈ cs.reverse.takeWhile p, p c = true := List.all_eq_true.mp List.all_takeWhile
    have hColon := List.head?_dropWhile_not p cs.reverse
    split at h
    next => cases h
    next c front hDrop =>
      cases h
      rw [hDrop] at hFront hColon
      obtain rfl : c = ':' := Decidable.not_not.mp (of_decide_eq_false hColon)
      constructor
      · have hBack := congrArg List.reverse hFront
        rw [List.reverse_append, List.reverse_cons, List.append_assoc,
          List.reverse_reverse] at hBack
        exact hBack.symm
      · intro hMem
        exact absurd (hOther ':' (List.mem_reverse.mp hMem)) (by decide)
  · rintro ⟨rfl, hColon⟩
    have hOther : ∀ c ∈ idText.reverse, decide (c ≠ ':') = true := fun c hc =>
      decide_eq_true fun hEq => hColon (hEq ▸ List.mem_reverse.mp hc)
    rw [List.reverse_append, List.reverse_cons, List.append_assoc,
      List.dropWhile_append_of_pos hOther, List.takeWhile_append_of_pos hOther]
    simp

/-- A text that an address is read from: the digits of the host, the last colon and a numeral of the
id, with white space around each. Only the null address has a reserved id. -/
def WrittenAs (a : ServiceAddress) (s : String) : Prop :=
  ∃ hostText idText, s.toList = hostText ++ ':' :: idText ∧ ':' ∉ idText ∧
    Hex.Spells (trimChars hostText) a.host.octets.toList ∧
      Numeral (trimChars idText) a.id.value.toInt ∧
        (0 < a.id.value ∨ a = null ∧ trimChars idText = ['0'])

theorem eq_null_iff (hId : Numeral (trimChars idText) a.id.value.toInt) :
    a.host = .null ∧ trimChars idText = ['0'] ↔ a = null ∧ trimChars idText = ['0'] := by
  constructor
  · rintro ⟨hHost, hZero⟩
    obtain ⟨⟨n⟩, host⟩ := a
    rw [hZero] at hId
    obtain rfl : n = 0 := Int64.toInt_inj.mp (hId.unique ServiceId.null.numeral_text)
    exact ⟨congrArg (mk _) hHost, hZero⟩
  · rintro ⟨rfl, hZero⟩
    exact ⟨rfl, hZero⟩

/-- What comes of a text with the digits of a host and the numeral of an id. -/
theorem parse_of_parts (hSplit : s.toList = hostText ++ ':' :: idText) (hColon : ':' ∉ idText)
    (hHost : Hex.Spells (trimChars hostText) a.host.octets.toList)
    (hId : Numeral (trimChars idText) a.id.value.toInt) : parse s =
      if 0 < a.id.value ∨ a = null ∧ trimChars idText = ['0'] then .ok a
      else .error (.nonPositiveServiceId a.id.value) := by
  have hHostParse : PeerAddress.parse (String.ofList hostText) = .ok a.host := by
    rwa [PeerAddress.parse_eq_ok_iff, String.toList_ofList]
  have hIdParse : ServiceId.parse (String.ofList idText) = ServiceId.ofPositive a.id.value :=
    ServiceId.parse_of_numeral (by rwa [String.toList_ofList])
  rw [parse, splitAtLastColon_eq_some_iff.mpr ⟨hSplit, hColon⟩]
  simp only [hHostParse, hIdParse, bind, Except.bind, eq_null_iff hId]
  by_cases hNull : a = null ∧ trimChars idText = ['0']
  · rw [if_pos hNull, if_pos (.inr hNull), hNull.1]
    rfl
  · rw [if_neg hNull]
    by_cases hPos : 0 < a.id.value
    · rw [ServiceId.ofPositive_of_pos hPos, if_pos (.inl hPos)]
      rfl
    · rw [ServiceId.ofPositive_of_not_pos hPos, if_neg (not_or.mpr ⟨hPos, hNull⟩)]

theorem parse_eq_ok_iff : parse s = .ok a ↔ a.WrittenAs s := by
  constructor
  · intro h
    cases hSplit : splitAtLastColon s.toList with
    | none =>
      rw [parse, hSplit] at h
      cases h
    | some parts =>
      obtain ⟨hostText, idText⟩ := parts
      obtain ⟨hText, hColon⟩ := splitAtLastColon_eq_some_iff.mp hSplit
      refine ⟨hostText, idText, hText, hColon, ?_⟩
      rw [parse, hSplit] at h
      cases hHost : PeerAddress.parse (String.ofList hostText) with
      | error e =>
        simp only [hHost] at h
        cases h
      | ok host =>
        have hSpells := PeerAddress.parse_eq_ok_iff.mp hHost
        rw [String.toList_ofList] at hSpells
        simp only [hHost, bind, Except.bind] at h
        split at h
        next hNull =>
          obtain ⟨rfl, hZero⟩ := hNull
          cases h
          exact ⟨hSpells, hZero ▸ ServiceId.null.numeral_text, .inr ⟨rfl, hZero⟩⟩
        next =>
          cases hId : ServiceId.parse (String.ofList idText) with
          | error e =>
            simp only [hId] at h
            cases h
          | ok id =>
            simp only [hId] at h
            cases h
            obtain ⟨hNumeral, hPos⟩ := ServiceId.parse_eq_ok_iff.mp hId
            rw [String.toList_ofList] at hNumeral
            exact ⟨hSpells, hNumeral, .inl hPos⟩
  · rintro ⟨hostText, idText, hText, hColon, hHost, hId, hAllowed⟩
    rw [parse_of_parts hText hColon hHost hId, if_pos hAllowed]

/-- The text of an address with a positive id and of the null address is read back, and no other. -/
theorem parse_text (a : ServiceAddress) : parse a.text =
    if 0 < a.id.value ∨ a = null then .ok a else .error (.nonPositiveServiceId a.id.value) := by
  have hId := a.id.numeral_text
  have hText : a.text.toList = a.host.text.toList ++ ':' :: a.id.text.toList := by
    simp [text]
  have hTrim := trimChars_of_forall hId.not_blank
  have hNull : a = null ∧ a.id.text.toList = ['0'] ↔ a = null :=
    ⟨And.left, fun h => ⟨h, by rw [h]; decide +kernel⟩⟩
  rw [parse_of_parts hText hId.colon_not_mem a.host.spells_trim_text (hTrim.symm ▸ hId), hTrim]
  simp only [hNull]

theorem WrittenAs.allowed (h : a.WrittenAs s) : 0 < a.id.value ∨ a = null := by
  obtain ⟨_, _, -, -, -, -, hPos | ⟨hNull, -⟩⟩ := h
  · exact .inl hPos
  · exact .inr hNull

/-- The text of an address is read back exactly if its id is positive or it is the null address, and
is refused for its id otherwise. What is read of a text is what is written there, so no other id
comes of it, and its own text is read as well. A peer address is always read back, and is read from
exactly 40 digits of either case with white space around them. -/
theorem text_forms :
    (∀ a : ServiceAddress, (parse a.text = .ok a ↔ 0 < a.id.value ∨ a = null) ∧
      (¬(0 < a.id.value ∨ a = null) →
        parse a.text = .error (.nonPositiveServiceId a.id.value))) ∧
    (∀ s a, parse s = .ok a ↔ a.WrittenAs s) ∧
    (∀ s a, parse s = .ok a → (0 < a.id.value ∨ a = null) ∧ parse a.text = .ok a) ∧
    (∀ p : PeerAddress, PeerAddress.parse p.text = .ok p) ∧
    (∀ s p, PeerAddress.parse s = .ok p ↔
      Hex.Spells (trimChars s.toList) p.octets.toList) ∧
    ∀ s, (∃ p, PeerAddress.parse s = .ok p) ↔ (trimChars s.toList).length = 40 ∧
      ∀ c ∈ trimChars s.toList, (Hex.digitValue? c).isSome = true := by
  have hBack (a : ServiceAddress) (h : 0 < a.id.value ∨ a = null) : parse a.text = .ok a := by
    rw [parse_text, if_pos h]
  refine ⟨fun a => ⟨⟨fun h => ?_, hBack a⟩, fun h => ?_⟩, fun _ _ => parse_eq_ok_iff,
    fun s a h => ?_, PeerAddress.parse_text, fun _ _ => PeerAddress.parse_eq_ok_iff,
    fun _ => PeerAddress.accepted_iff⟩
  · exact (parse_eq_ok_iff.mp h).allowed
  · rw [parse_text, if_neg h]
  · have hAllowed := (parse_eq_ok_iff.mp h).allowed
    exact ⟨hAllowed, hBack a hAllowed⟩

/-- The host whose bytes are the numbers from 1 to 20. -/
def sampleHost : PeerAddress :=
  ⟨⟨[1, 2, 3, 4, 5, 6, 7, 8, 9, 10, 11, 12, 13, 14, 15, 16, 17, 18, 19, 20], rfl⟩⟩

/-- White space, both cases, a sign and zeros do not matter. The id of the exchange is refused. -/
theorem sample_text_forms :
    parse "\t0102030405060708090A0b0C0d0E0f1011121314 : +007\n" = .ok ⟨⟨7⟩, sampleHost⟩ ∧
    parse (text ⟨⟨7⟩, sampleHost⟩) = .ok ⟨⟨7⟩, sampleHost⟩ ∧
    parse (text ⟨.exchange, sampleHost⟩) = .error (.nonPositiveServiceId (-1)) ∧
    parse (text null) = .ok null := by
  obtain ⟨hText, hRead, hAgain, -⟩ := text_forms
  have hDigits : Decimal ['0', '0', '7'] 7 := ⟨nofun, List.all_eq_true.mp rfl, rfl⟩
  have hNumeral : Numeral ['+', '0', '0', '7'] 7 := .plus hDigits
  have hSample : parse "\t0102030405060708090A0b0C0d0E0f1011121314 : +007\n" =
      .ok ⟨⟨7⟩, sampleHost⟩ := by
    refine (hRead _ _).mpr ⟨"\t0102030405060708090A0b0C0d0E0f1011121314 ".toList,
      " +007\n".toList, by decide, by decide, by decide +kernel, ?_, .inl (by decide)⟩
    exact hNumeral
  exact ⟨hSample, (hAgain _ _ hSample).2, (hText _).2 (by decide), (hText null).1.mpr (.inr rfl)⟩

end ServiceAddress

end PeerServices
