import PeerServices.Proofs.Codec.RoundTrip

/-!
# Written forms with slack

A reader may accept more bytes than are ever written: it cuts what is too long and sorts what is out
of order. What stands in the bytes is then a listing, from which the value is made. A form says
which listings there are, and a value's own listing is the one that is written.

* `Codec.Form`, `Reader.Follows`: a reader accepts the bytes of listings and nothing else, and no
  bytes are those of two listings.
* `Codec.exactOn_readBlob`, `Codec.exactOn_readText`, `Reader.Follows.set`: the forms of variable
  length.
* `Codec.Form.Normal` with `Codec.Form.Normal.set`: what has to hold of the own listings.
* `Codec.normal_form`: each input that is decoded has one listing, is no shorter than what is
  written of its value, and equals that exactly if it is tidy.
-/

namespace PeerServices

/-- What may be listed in bytes, and the value that is made of it. -/
structure Codec.Form (ℓ α : Type) where
  bytes : ℓ → Bytes
  /-- A listing that is accepted. -/
  Admits : ℓ → Prop
  value : ℓ → α

/-- Values that are listed as they are. -/
def Codec.Form.plain (α : Type) [Serial α] (P : α → Prop) : Codec.Form α α where
  bytes := Serial.encode
  Admits := P
  value := id

namespace Reader

variable {α ℓ : Type} {r : Reader α} {g : Codec.Form ℓ α}

/-- A reader accepts the bytes of listings, makes their values and leaves what follows. No input
starts with the bytes of two listings. -/
structure Follows (r : Reader α) (g : Codec.Form ℓ α) : Prop where
  reads : ∀ input v rest, r input = .ok (v, rest) ↔
    ∃ l, g.Admits l ∧ g.value l = v ∧ input = g.bytes l ++ rest
  unique : ∀ {l l' : ℓ} {rest rest' : Bytes}, g.Admits l → g.Admits l' →
    g.bytes l ++ rest = g.bytes l' ++ rest' → l = l' ∧ rest = rest'

/-! ## Values that are listed as they are -/

/-- A reader accepts the written forms of some values. -/
def ExactOn (r : Reader α) (P : α → Prop) (form : α → Bytes) : Prop :=
  ∀ input v rest, r input = .ok (v, rest) ↔ P v ∧ input = form v ++ rest

variable {P : α → Prop} {form : α → Bytes}

theorem Exact.exactOn (h : r.Exact form) : r.ExactOn (fun _ => True) form := fun input v rest => by
  rw [h input v rest, true_and]

theorem ExactOn.unique (h : r.ExactOn P form) {v w : α} {rest rest' : Bytes} (hv : P v) (hw : P w)
    (hSame : form v ++ rest = form w ++ rest') : v = w ∧ rest = rest' := by
  have hRead := (h _ v rest).mpr ⟨hv, rfl⟩
  rw [(h _ w rest').mpr ⟨hw, hSame⟩] at hRead
  cases hRead
  exact ⟨rfl, rfl⟩

theorem ExactOn.follows [Serial α] (h : (Serial.read : Reader α).ExactOn P Serial.encode) :
    (Serial.read : Reader α).Follows (.plain α P) where
  reads input v rest := by
    rw [h input v rest]
    exact ⟨fun ⟨hv, hInput⟩ => ⟨v, hv, rfl, hInput⟩, fun ⟨_, hv, rfl, hInput⟩ => ⟨hv, hInput⟩⟩
  unique := h.unique

/-- One of two values, told by a byte. -/
theorem exact_ordinal {x y : α} {e : UInt8 → Codec.Error} (hx : form x = [0]) (hy : form y = [1])
    (h : ∀ v, v = x ∨ v = y) :
    Exact (do
      match ← byte with
      | 0 => return x
      | 1 => return y
      | other => throw (e other)) form := by
  intro input v rest
  simp only [bind_eq_ok_iff, exact_byte _ _ _]
  constructor
  · rintro ⟨b, _, rfl, hRead⟩
    split at hRead
    · cases hRead
      rw [hx]
    · cases hRead
      rw [hy]
    · cases hRead
  · rintro rfl
    rcases h v with rfl | rfl
    · exact ⟨0, rest, by rw [hx], rfl⟩
    · exact ⟨1, rest, by rw [hy], rfl⟩

theorem exact_bool : Exact bool boolBytes := exact_ordinal rfl rfl (by decide)

end Reader

/-! ## Lengths, blobs and texts -/

namespace Codec

open Reader

theorem readLength_eq_ok_iff {max n : Nat} {input rest : Bytes} :
    readLength max input = .ok (n, rest) ↔
      Countable n ∧ n ≤ max ∧ input = Varint.encode (UInt64.ofNat n) ++ rest := by
  simp only [readLength, bind_eq_ok_iff, Varint.exact_read _ _ _, guard_eq_ok_iff, pure_apply,
    Except.ok.injEq, Prod.mk.injEq]
  constructor
  · rintro ⟨v, _, rfl, hMax, rfl, rfl⟩
    exact ⟨v.toNat_lt, Nat.le_of_not_lt hMax, by rw [UInt64.ofNat_toNat]⟩
  · rintro ⟨hCountable, hMax, rfl⟩
    have hNumber := toNat_ofNat_of_countable hCountable
    exact ⟨_, rest, rfl, by rw [hNumber]; exact Nat.not_lt.mpr hMax, hNumber, rfl⟩

/-- A smaller length has no more bytes. -/
theorem length_encode_mono {m n : Nat} (h : m ≤ n) (hCountable : Countable n) :
    (Varint.encode (UInt64.ofNat m)).length ≤ (Varint.encode (UInt64.ofNat n)).length := by
  apply Varint.length_groups_mono
  rwa [toNat_ofNat_of_countable hCountable,
    toNat_ofNat_of_countable (Nat.lt_of_le_of_lt h hCountable)]

theorem exactOn_readBlob : readBlob.ExactOn (·.length ≤ maxBlobLength) blob := by
  intro input bytes rest
  simp only [readBlob, bind_eq_ok_iff, readLength_eq_ok_iff, take_eq_ok_iff]
  constructor
  · rintro ⟨n, _, ⟨-, hMax, rfl⟩, rfl, rfl⟩
    exact ⟨hMax, (List.append_assoc ..).symm⟩
  · rintro ⟨hMax, rfl⟩
    exact ⟨_, _, ⟨countable_of_le hMax, hMax, List.append_assoc ..⟩, rfl, rfl⟩

theorem length_blob_mono {bytes bytes' : Bytes} (h : bytes.length ≤ bytes'.length)
    (hMax : bytes'.length ≤ maxBlobLength) : (blob bytes).length ≤ (blob bytes').length := by
  simp only [blob, List.length_append]
  exact Nat.add_le_add (length_encode_mono h (countable_of_le hMax)) h

theorem ofUtf8?_eq_some_iff {bytes : Bytes} {s : String} :
    ofUtf8? bytes = some s ↔ utf8 s = bytes := by
  constructor
  · intro h
    unfold ofUtf8? String.fromUTF8? at h
    split at h
    · cases h
      rfl
    · cases h
  · rintro rfl
    exact ofUtf8?_utf8 s

theorem exactOn_readText : readText.ExactOn (fun s => (utf8 s).length ≤ maxBlobLength) text := by
  intro input s rest
  simp only [readText, bind_eq_ok_iff, exactOn_readBlob _ _ _]
  constructor
  · rintro ⟨bytes, _, ⟨hMax, rfl⟩, h⟩
    cases hText : ofUtf8? bytes with
    | none =>
      rw [hText] at h
      cases h
    | some s' =>
      rw [hText] at h
      cases h
      obtain rfl := ofUtf8?_eq_some_iff.mp hText
      exact ⟨hMax, rfl⟩
  · rintro ⟨hMax, rfl⟩
    refine ⟨utf8 s, rest, ⟨hMax, rfl⟩, ?_⟩
    rw [ofUtf8?_utf8]
    rfl

end Codec

/-! ## Sets -/

namespace Codec

variable {α ℓ : Type}

/-- So many listings one after another. -/
def Form.many (g : Form ℓ α) (count : Nat) : Form (List ℓ) (List α) where
  bytes ls := ls.flatMap g.bytes
  Admits ls := ls.length = count ∧ ∀ l ∈ ls, g.Admits l
  value ls := ls.map g.value

theorem Form.bytes_many_cons (g : Form ℓ α) (count : Nat) (l : ℓ) (ls : List ℓ) (rest : Bytes) :
    (g.many (count + 1)).bytes (l :: ls) ++ rest =
      g.bytes l ++ ((g.many count).bytes ls ++ rest) := List.append_assoc ..

/-- A count and that many listings, of which a set is made. -/
def Form.set [Ord α] [Std.TransOrd α] (g : Form ℓ α) : Form (List ℓ) (SortedSet α) where
  bytes ls := Varint.encode (UInt64.ofNat ls.length) ++ ls.flatMap g.bytes
  Admits ls := Countable ls.length ∧ ∀ l ∈ ls, g.Admits l
  value ls := SortedSet.ofList (ls.map g.value)

end Codec

namespace Reader

variable {α ℓ : Type} {g : Codec.Form ℓ α}

theorem Follows.many {item : Reader α} (h : item.Follows g) (count : Nat) :
    (Reader.many item count).Follows (g.many count) := by
  induction count with
  | zero =>
    constructor
    case reads =>
      intro input vs rest
      constructor
      · intro hRead
        cases hRead
        exact ⟨[], ⟨rfl, nofun⟩, rfl, rfl⟩
      · rintro ⟨ls, ⟨hLength, -⟩, rfl, rfl⟩
        obtain rfl := List.length_eq_zero_iff.mp hLength
        rfl
    case unique =>
      rintro ls ls' rest rest' ⟨hLength, -⟩ ⟨hLength', -⟩ hSame
      obtain rfl := List.length_eq_zero_iff.mp hLength
      obtain rfl := List.length_eq_zero_iff.mp hLength'
      exact ⟨rfl, hSame⟩
  | succ count ih =>
    constructor
    case reads =>
      intro input vs rest
      simp only [Reader.many, bind_eq_ok_iff, h.reads, ih.reads, pure_apply, Except.ok.injEq,
        Prod.mk.injEq]
      constructor
      · rintro ⟨_, _, ⟨l, hl, rfl, rfl⟩, _, _, ⟨ls, ⟨hLength, hls⟩, rfl, rfl⟩, rfl, rfl⟩
        exact ⟨l :: ls, ⟨congrArg (· + 1) hLength, List.forall_mem_cons.mpr ⟨hl, hls⟩⟩, rfl,
          (g.bytes_many_cons count l ls _).symm⟩
      · rintro ⟨ls, ⟨hLength, hls⟩, rfl, rfl⟩
        cases ls with
        | nil => cases hLength
        | cons l ls =>
          obtain ⟨hl, hls⟩ := List.forall_mem_cons.mp hls
          exact ⟨_, _, ⟨l, hl, rfl, g.bytes_many_cons count l ls rest⟩, _, _,
            ⟨ls, ⟨Nat.succ.inj hLength, hls⟩, rfl, rfl⟩, rfl, rfl⟩
    case unique =>
      rintro ls ls' rest rest' ⟨hLength, hls⟩ ⟨hLength', hls'⟩ hSame
      cases ls with
      | nil => cases hLength
      | cons l ls =>
        cases ls' with
        | nil => cases hLength'
        | cons l' ls' =>
          obtain ⟨hl, hBehind⟩ := List.forall_mem_cons.mp hls
          obtain ⟨hl', hBehind'⟩ := List.forall_mem_cons.mp hls'
          rw [g.bytes_many_cons, g.bytes_many_cons] at hSame
          obtain ⟨rfl, hRest⟩ := h.unique hl hl' hSame
          have hBehinds := ih.unique ⟨Nat.succ.inj hLength, hBehind⟩
            ⟨Nat.succ.inj hLength', hBehind'⟩ hRest
          exact ⟨congrArg (l :: ·) hBehinds.1, hBehinds.2⟩

/-- A set is read from any list of its members. The count is never above what is left, since each
member takes a byte at least. -/
theorem Follows.set [Serial α] [Ord α] [Std.TransOrd α] (h : (Serial.read : Reader α).Follows g)
    (hNonempty : ∀ l, g.bytes l ≠ []) : (Codec.readSet : Reader (SortedSet α)).Follows g.set where
  reads input s rest := by
    simp only [Codec.readSet_apply, bind_eq_ok_iff, Codec.readLength_eq_ok_iff, (h.many _).reads,
      pure_apply, Except.ok.injEq, Prod.mk.injEq]
    constructor
    · rintro ⟨_, _, ⟨hCountable, -, rfl⟩, _, _, ⟨ls, ⟨rfl, hls⟩, rfl, rfl⟩, rfl, rfl⟩
      exact ⟨ls, ⟨hCountable, hls⟩, rfl, (List.append_assoc ..).symm⟩
    · rintro ⟨ls, ⟨hCountable, hls⟩, rfl, rfl⟩
      refine ⟨_, _, ⟨hCountable, ?_, List.append_assoc ..⟩, _, _, ⟨ls, ⟨rfl, hls⟩, rfl, rfl⟩,
        rfl, rfl⟩
      have hLength := Codec.length_le_of_ne_nil fun l (_ : l ∈ ls) => hNonempty l
      simp only [Codec.Form.set, List.length_append]
      omega
  unique := by
    rintro ls ls' rest rest' ⟨hCountable, hls⟩ ⟨hCountable', hls'⟩ hSame
    simp only [Codec.Form.set, List.append_assoc] at hSame
    obtain ⟨hNumber, hRest⟩ := Varint.exact_read.unique hSame
    have hLength : ls.length = ls'.length := by
      have hNat := congrArg UInt64.toNat hNumber
      rwa [Codec.toNat_ofNat_of_countable hCountable,
        Codec.toNat_ofNat_of_countable hCountable'] at hNat
    exact (h.many ls'.length).unique ⟨hLength, hls⟩ ⟨rfl, hls'⟩ hRest

end Reader

/-! ## Own listings -/

namespace Codec

variable {α ℓ : Type}

/-- Each value has a listing of its own. What is accepted stands for the same value as the value's
own listing, takes no fewer bytes, and is that listing exactly if it is tidy. -/
structure Form.Normal (g : Form ℓ α) (encode : α → Bytes) (own : α → ℓ) (Tidy : ℓ → Prop) :
    Prop where
  bytes_own : ∀ v, g.bytes (own v) = encode v
  admits_own : ∀ l, g.Admits l → g.Admits (own (g.value l))
  value_own : ∀ l, g.Admits l → g.value (own (g.value l)) = g.value l
  length_own_le : ∀ l, g.Admits l → (g.bytes (own (g.value l))).length ≤ (g.bytes l).length
  own_eq_iff : ∀ l, g.Admits l → (own (g.value l) = l ↔ Tidy l)

theorem length_flatMap_mono {ℓ' : Type} {l : List ℓ'} {f f' : ℓ' → Bytes}
    (h : ∀ a ∈ l, (f a).length ≤ (f' a).length) :
    (l.flatMap f).length ≤ (l.flatMap f').length := by
  induction l with
  | nil => exact Nat.le_refl 0
  | cons a l ih =>
    obtain ⟨ha, hl⟩ := List.forall_mem_cons.mp h
    simp only [List.flatMap_cons, List.length_append]
    exact Nat.add_le_add ha (ih hl)

section Set

variable [Ord α] [Std.TransOrd α] {g : Form ℓ α} {ls : List ℓ} {v : α}

theorem Form.of_mem_value_set (h : v ∈ (g.set.value ls).toList) : ∃ l ∈ ls, g.value l = v :=
  List.mem_map.mp (SortedSet.mem_of_mem_ofList h)

theorem Form.length_value_set_le (g : Form ℓ α) (ls : List ℓ) :
    (g.set.value ls).toList.length ≤ ls.length := by
  have hLe := SortedSet.size_ofList_le (ls.map g.value)
  rwa [List.length_map] at hLe

variable [Serial α] {own : α → ℓ} {Tidy : ℓ → Prop}

theorem Form.Normal.map_own_set (h : g.Normal Serial.encode own Tidy) (hls : g.set.Admits ls) :
    ((g.set.value ls).toList.map own).map g.value = (g.set.value ls).toList := by
  rw [List.map_map]
  refine (List.map_congr_left fun v hv => ?_).trans (List.map_id _)
  obtain ⟨l, hl, rfl⟩ := of_mem_value_set hv
  exact h.value_own l (hls.2 l hl)

theorem Form.Normal.length_own_set_le (h : g.Normal Serial.encode own Tidy)
    (hls : g.set.Admits ls) :
    (g.set.bytes ((g.set.value ls).toList.map own)).length ≤ (g.set.bytes ls).length := by
  have hLength : ((g.set.value ls).toList.map own).length ≤ ls.length := by
    rw [List.length_map]
    exact g.length_value_set_le ls
  have hCount := length_encode_mono hLength hls.1
  have hMembers : (((g.set.value ls).toList.map own).flatMap g.bytes).length ≤
      (ls.flatMap g.bytes).length := by
    calc (((g.set.value ls).toList.map own).flatMap g.bytes).length
        = ((g.set.value ls).toList.flatMap fun v => g.bytes (own v)).length := by
          rw [List.flatMap_map]
      _ ≤ ((ls.map g.value).flatMap fun v => g.bytes (own v)).length :=
          SortedSet.length_flatMap_ofList_le _ _
      _ = (ls.flatMap fun l => g.bytes (own (g.value l))).length := by rw [List.flatMap_map]
      _ ≤ (ls.flatMap g.bytes).length :=
          length_flatMap_mono fun l hl => h.length_own_le l (hls.2 l hl)
  simp only [Form.set, List.length_append] at hCount hMembers ⊢
  exact Nat.add_le_add hCount hMembers

theorem Form.Normal.own_set_eq_iff (h : g.Normal Serial.encode own Tidy) (hls : g.set.Admits ls) :
    (g.set.value ls).toList.map own = ls ↔
      (∀ l ∈ ls, Tidy l) ∧ (ls.map g.value).Pairwise (compare · · = .lt) := by
  constructor
  · intro hOwn
    refine ⟨fun l hl => (h.own_eq_iff l (hls.2 l hl)).mp ?_, ?_⟩
    · -- Each listing is the own one of a member, so it is that of its value.
      obtain ⟨v, hv, rfl⟩ := List.mem_map.mp (hOwn ▸ hl)
      obtain ⟨l', hl', rfl⟩ := of_mem_value_set hv
      rw [h.value_own l' (hls.2 l' hl')]
    · have hSame := h.map_own_set hls
      rw [hOwn] at hSame
      rw [hSame]
      exact (g.set.value ls).sorted
  · rintro ⟨hTidy, hSorted⟩
    change (SortedSet.ofList (ls.map g.value)).toList.map own = ls
    rw [SortedSet.toList_ofList_of_sorted hSorted, List.map_map]
    refine (List.map_congr_left fun l hl => ?_).trans (List.map_id ls)
    exact (h.own_eq_iff l (hls.2 l hl)).mpr (hTidy l hl)

/-- The own listings of the members, in order, are the own listing of a set. -/
theorem Form.Normal.set (h : g.Normal Serial.encode own Tidy) :
    g.set.Normal (fun s => sequence s.toList) (fun s => s.toList.map own)
      (fun ls => (∀ l ∈ ls, Tidy l) ∧ (ls.map g.value).Pairwise (compare · · = .lt)) where
  bytes_own s := by
    simp only [Form.set, sequence, List.length_map, List.flatMap_map, h.bytes_own]
  admits_own ls hls := by
    refine ⟨?_, fun l' hl' => ?_⟩
    · rw [List.length_map]
      exact Nat.lt_of_le_of_lt (g.length_value_set_le ls) hls.1
    · obtain ⟨v, hv, rfl⟩ := List.mem_map.mp hl'
      obtain ⟨l, hl, rfl⟩ := of_mem_value_set hv
      exact h.admits_own l (hls.2 l hl)
  value_own ls hls := by
    change SortedSet.ofList (((g.set.value ls).toList.map own).map g.value) = _
    rw [h.map_own_set hls, SortedSet.ofList_toList]
  length_own_le _ hls := h.length_own_set_le hls
  own_eq_iff _ hls := h.own_set_eq_iff hls

end Set

theorem Form.normal_plain [Serial α] (P : α → Prop) :
    (Form.plain α P).Normal Serial.encode id fun _ => True where
  bytes_own _ := rfl
  admits_own _ h := h
  value_own _ _ := rfl
  length_own_le _ _ := Nat.le_refl _
  own_eq_iff _ _ := ⟨fun _ => trivial, fun _ => rfl⟩

/-! ## Normal forms -/

section Normal

variable [Serial α] {g : Form ℓ α} {own : α → ℓ} {Tidy : ℓ → Prop}

/-- An input that is decoded is the bytes of one listing. What is written of its value is decoded to
the same value, has no more bytes, and is the input exactly if the listing is tidy. -/
theorem normal_form (h : (Serial.read : Reader α).Follows g)
    (hNormal : g.Normal Serial.encode own Tidy) {input : Bytes} {v : α} :
    Serial.decode α input = .ok v ↔ ∃ l, g.Admits l ∧ g.value l = v ∧ g.bytes l = input ∧
      (∀ l', g.Admits l' → g.bytes l' = input → l' = l) ∧
      Serial.decode α (Serial.encode v) = .ok v ∧
      (Serial.encode v).length ≤ input.length ∧
      (Serial.encode v = input ↔ Tidy l) := by
  have hDecode : ∀ {input v}, Serial.decode α input = .ok v ↔
      ∃ l, g.Admits l ∧ g.value l = v ∧ input = g.bytes l := by
    intro input v
    rw [Serial.decode_eq_ok_iff_read, h.reads]
    simp only [List.append_nil]
  have hUnique : ∀ {l l'}, g.Admits l → g.Admits l' → g.bytes l' = g.bytes l → l' = l := by
    intro l l' hl hl' hSame
    have hRest : g.bytes l' ++ [] = g.bytes l ++ [] := by rw [hSame]
    exact (h.unique hl' hl hRest).1
  constructor
  · intro hInput
    obtain ⟨l, hl, rfl, rfl⟩ := hDecode.mp hInput
    have hBytes := hNormal.bytes_own (g.value l)
    have hOwn := hNormal.admits_own l hl
    refine ⟨l, hl, rfl, rfl, fun l' hl' => hUnique hl hl', ?_, ?_, ?_⟩
    · exact hDecode.mpr ⟨_, hOwn, hNormal.value_own l hl, hBytes.symm⟩
    · exact hBytes ▸ hNormal.length_own_le l hl
    · rw [← hBytes, ← hNormal.own_eq_iff l hl]
      exact ⟨hUnique hl hOwn, congrArg g.bytes⟩
  · rintro ⟨l, hl, rfl, rfl, -⟩
    exact hDecode.mpr ⟨l, hl, rfl, rfl⟩

end Normal

end Codec

end PeerServices
