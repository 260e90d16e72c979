import PeerServices.Service.Address
import PeerServices.Wire.Challenge
import PeerServices.Wire.Frame

/-!
# Readers that accept written forms only

* `Reader.Exact`: a reader gives a value if and only if its input starts with the written form of
  that value, and leaves what follows.
* `Reader.exact_octets`, `Reader.exact_int32`, `Reader.exact_int64`: byte strings of a fixed length
  and integers.
* `ServiceId.decode_eq_ok_iff`, `Challenge.decode_eq_ok_iff`: a frame is a service id or a challenge
  if and only if it is exactly the written form of one.
-/

namespace PeerServices

/-! ## Integers in network order -/

namespace BigEndian

theorem pow_length_cons (b : UInt8) (rest : Bytes) :
    Nat.pow 256 (b :: rest).length = Nat.pow 256 rest.length * 256 := rfl

theorem foldl_bytes (bytes : Bytes) (n : Nat) :
    bytes.foldl (fun n b => n * 256 + b.toNat) n =
      n * Nat.pow 256 bytes.length + toNat bytes := by
  unfold toNat
  induction bytes generalizing n with
  | nil => simp
  | cons b rest ih =>
    rw [List.foldl_cons, List.foldl_cons, ih, ih (0 * 256 + b.toNat), pow_length_cons]
    grind

theorem toNat_cons (b : UInt8) (rest : Bytes) :
    toNat (b :: rest) = b.toNat * Nat.pow 256 rest.length + toNat rest := by
  have h := foldl_bytes rest (0 * 256 + b.toNat)
  simpa [toNat] using h

theorem toNat_lt (bytes : Bytes) : toNat bytes < Nat.pow 256 bytes.length := by
  induction bytes with
  | nil => exact Nat.one_pos
  | cons b rest ih =>
    have hb : b.toNat < 256 := b.toNat_lt
    rw [toNat_cons, pow_length_cons]
    have : b.toNat * Nat.pow 256 rest.length ≤ 255 * Nat.pow 256 rest.length :=
      Nat.mul_le_mul_right _ (by omega)
    omega

theorem toNat_ofNat (width n : Nat) : toNat (ofNat width n) = n % Nat.pow 256 width := by
  induction width with
  | zero => exact (Nat.mod_one n).symm
  | succ width ih =>
    have hmod : n % Nat.pow 256 (width + 1) =
        n % Nat.pow 256 width + Nat.pow 256 width * (n / Nat.pow 256 width % 256) :=
      Nat.mod_mul
    rw [ofNat, toNat_cons, length_ofNat, ih, UInt8.toNat_ofNat', hmod, Nat.mul_comm, Nat.add_comm]

theorem ofNat_toNat (bytes : Bytes) : ofNat bytes.length (toNat bytes) = bytes := by
  -- The high bytes of a larger number do not matter, so the tail can be read on its own.
  suffices h : ∀ k, ofNat bytes.length (k * Nat.pow 256 bytes.length + toNat bytes) = bytes by
    have h0 := h 0
    rw [Nat.zero_mul, Nat.zero_add] at h0
    exact h0
  induction bytes with
  | nil => intro k; rfl
  | cons b rest ih =>
    intro k
    have hpos : 0 < Nat.pow 256 rest.length := Nat.pow_pos (by omega)
    have hsum : k * Nat.pow 256 (b :: rest).length +
        (b.toNat * Nat.pow 256 rest.length + toNat rest) =
        (k * 256 + b.toNat) * Nat.pow 256 rest.length + toNat rest := by
      rw [pow_length_cons]
      grind
    rw [toNat_cons, hsum, List.length_cons, ofNat, ih]
    congr 1
    rw [Nat.mul_comm, Nat.mul_add_div hpos, Nat.div_eq_of_lt (toNat_lt rest)]
    apply UInt8.toNat_inj.mp
    rw [UInt8.toNat_ofNat']
    have := b.toNat_lt
    omega

end BigEndian

/-! ## Exact readers -/

namespace Reader

variable {α β : Type}

theorem bind_apply (r : Reader α) (f : α → Reader β) (input : Bytes) :
    (r >>= f) input =
      match r input with
      | .ok (a, rest) => f a rest
      | .error e => .error e := by
  change StateT.bind r f input = _
  simp only [StateT.bind, bind, Except.bind]
  cases r input <;> rfl

@[simp] theorem pure_apply (a : α) (input : Bytes) : (pure a : Reader α) input = .ok (a, input) :=
  rfl

theorem bind_eq_ok_iff {r : Reader α} {f : α → Reader β} {input rest : Bytes} {w : β} :
    (r >>= f) input = .ok (w, rest) ↔ ∃ v between, r input = .ok (v, between) ∧
      f v between = .ok (w, rest) := by
  rw [bind_apply]
  cases r input with
  | error e => simp
  | ok p => simp [Prod.ext_iff, and_assoc]

theorem bind_eq_error_iff {r : Reader α} {f : α → Reader β} {input : Bytes} {e : Codec.Error} :
    (r >>= f) input = .error e ↔ r input = .error e ∨
      ∃ v between, r input = .ok (v, between) ∧ f v between = .error e := by
  rw [bind_apply]
  cases r input with
  | error e' => simp
  | ok p => simp [Prod.ext_iff, and_assoc]

/-- A check, and then the rest of a reader. -/
theorem guard_eq_ok_iff {c : Prop} [Decidable c] {e : Codec.Error} {r : Reader α} {input : Bytes}
    {p : α × Bytes} :
    (if c then (do throw e; r) else r) input = .ok p ↔ ¬c ∧ r input = .ok p := by
  by_cases h : c
  · simp only [h, if_true, not_true, false_and, iff_false]
    nofun
  · simp only [h, if_false, not_false_iff, true_and]

/-- The reader gives a value if and only if its input starts with the written form of the value, and
leaves what follows. -/
def Exact (r : Reader α) (form : α → Bytes) : Prop :=
  ∀ input v rest, r input = .ok (v, rest) ↔ input = form v ++ rest

theorem exact_octets (n : Nat) : Exact (octets n) Octets.toList := by
  intro input v rest
  unfold octets
  constructor
  · intro h
    by_cases hlen : (input.take n).length = n
    · simp only [dif_pos hlen] at h
      cases h
      exact (List.take_append_drop n input).symm
    · simp only [dif_neg hlen] at h
      cases h
  · rintro rfl
    have htake : (v.toList ++ rest).take n = v.toList := List.take_left' v.length_eq
    have hdrop : (v.toList ++ rest).drop n = rest := List.drop_left' v.length_eq
    simp only [htake, hdrop, v.length_eq, dif_pos]

/-- A reader stays exact when each value is renamed without loss. -/
theorem Exact.map {r : Reader α} {form : α → Bytes} (h : Exact r form) {f : α → β} {g : β → α}
    (hfg : ∀ a b, f a = b ↔ a = g b) :
    Exact (do return f (← r)) (fun b => form (g b)) := by
  intro input v rest
  simp only [bind_eq_ok_iff, h _ _ _, pure_apply, Except.ok.injEq, Prod.mk.injEq, hfg]
  constructor
  · rintro ⟨_, _, rfl, rfl, rfl⟩
    rfl
  · rintro rfl
    exact ⟨g v, rest, rfl, rfl, rfl⟩

theorem exact_byte : Exact byte fun b => [b] := by
  intro input b rest
  cases input with
  | nil => simp [byte]
  | cons b' rest' => simp [byte]

theorem take_eq_ok_iff {n : Nat} {input front rest : Bytes} :
    take n input = .ok (front, rest) ↔ front.length = n ∧ input = front ++ rest := by
  unfold take
  by_cases h : (input.take n).length = n
  · simp only [if_pos h, Except.ok.injEq, Prod.mk.injEq]
    constructor
    · rintro ⟨rfl, rfl⟩
      exact ⟨h, (List.take_append_drop n input).symm⟩
    · rintro ⟨rfl, rfl⟩
      exact ⟨List.take_left' rfl, List.drop_left' rfl⟩
  · simp only [if_neg h, reduceCtorEq, false_iff]
    rintro ⟨rfl, rfl⟩
    exact h (by simp)

theorem unsigned_eq_ok_iff {width n : Nat} {input rest : Bytes} :
    unsigned width input = .ok (n, rest) ↔
      n < Nat.pow 256 width ∧ input = BigEndian.ofNat width n ++ rest := by
  simp only [unsigned, bind_eq_ok_iff, take_eq_ok_iff, pure_apply, Except.ok.injEq, Prod.mk.injEq]
  constructor
  · rintro ⟨front, _, ⟨rfl, rfl⟩, rfl, rfl⟩
    exact ⟨BigEndian.toNat_lt front, by rw [BigEndian.ofNat_toNat]⟩
  · rintro ⟨hn, rfl⟩
    refine ⟨_, _, ⟨BigEndian.length_ofNat width n, rfl⟩, ?_, rfl⟩
    rw [BigEndian.toNat_ofNat, Nat.mod_eq_of_lt hn]

/-- An integer of a type whose values are the numbers of `width` bytes is read exactly. -/
theorem exact_of_unsigned {width : Nat} (ofNat : Nat → α) (toNat : α → Nat)
    (hLt : ∀ v, toNat v < Nat.pow 256 width) (hOf : ∀ v, ofNat (toNat v) = v)
    (hTo : ∀ n < Nat.pow 256 width, toNat (ofNat n) = n) :
    Exact (do return ofNat (← unsigned width)) fun v => BigEndian.ofNat width (toNat v) := by
  intro input v rest
  simp only [bind_eq_ok_iff, unsigned_eq_ok_iff, pure_apply, Except.ok.injEq, Prod.mk.injEq]
  constructor
  · rintro ⟨n, _, ⟨hn, rfl⟩, rfl, rfl⟩
    rw [hTo n hn]
  · rintro rfl
    exact ⟨toNat v, rest, ⟨hLt v, rfl⟩, hOf v, rfl⟩

theorem exact_int32 : Exact int32 int32Bytes :=
  exact_of_unsigned (fun n => (UInt32.ofNat n).toInt32) (fun v => v.toUInt32.toNat)
    (fun v => v.toUInt32.toNat_lt)
    (fun v => by rw [UInt32.ofNat_toNat, Int32.toInt32_toUInt32])
    fun n hn => by rw [UInt32.toUInt32_toInt32, UInt32.toNat_ofNat', Nat.mod_eq_of_lt hn]

theorem exact_int64 : Exact int64 int64Bytes :=
  exact_of_unsigned (fun n => (UInt64.ofNat n).toInt64) (fun v => v.toUInt64.toNat)
    (fun v => v.toUInt64.toNat_lt)
    (fun v => by rw [UInt64.ofNat_toNat, Int64.toInt64_toUInt64])
    fun n hn => by rw [UInt64.toUInt64_toInt64, UInt64.toNat_ofNat', Nat.mod_eq_of_lt hn]

/-- What starts with the forms of two values starts with one form. -/
theorem Exact.unique {r : Reader α} {form : α → Bytes} (h : Exact r form) {v w : α}
    {rest rest' : Bytes} (hSame : form v ++ rest = form w ++ rest') : v = w ∧ rest = rest' := by
  have hRead := (h _ v rest).mpr rfl
  rw [(h _ w rest').mpr hSame] at hRead
  cases hRead
  exact ⟨rfl, rfl⟩

end Reader

/-! ## Values that fill their input -/

namespace Serial

variable {α : Type} [Serial α]

theorem decode_eq_ok_iff_read {input : Bytes} {v : α} :
    decode α input = .ok v ↔ (read : Reader α) input = .ok (v, []) := by
  unfold decode
  cases h : (read : Reader α) input with
  | error e => simp [bind, Except.bind]
  | ok p =>
    obtain ⟨a, rest⟩ := p
    cases rest with
    | nil => simp [bind, Except.bind, pure, Except.pure]
    | cons b rest => simp [bind, Except.bind, throw, throwThe, MonadExceptOf.throw]

/-- A type with an exact reader is decoded from the written forms of its values only. -/
theorem decode_eq_ok_iff (h : Reader.Exact (read : Reader α) encode) {input : Bytes} {v : α} :
    decode α input = .ok v ↔ input = encode v := by
  rw [decode_eq_ok_iff_read, h, List.append_nil]

end Serial

theorem ServiceId.exact_read : Reader.Exact (Serial.read : Reader ServiceId) Serial.encode :=
  Reader.exact_int64.map (f := ServiceId.mk) (g := ServiceId.value) fun a b => by
    constructor
    · rintro rfl; rfl
    · rintro rfl; rfl

/-- Different ids have different bytes. -/
theorem ServiceId.encode_inj {a b : ServiceId} (h : Serial.encode a = Serial.encode b) : a = b := by
  have hA : Serial.decode ServiceId (Serial.encode b) = .ok a :=
    (Serial.decode_eq_ok_iff ServiceId.exact_read).mpr h.symm
  have hB : Serial.decode ServiceId (Serial.encode b) = .ok b :=
    (Serial.decode_eq_ok_iff ServiceId.exact_read).mpr rfl
  exact Except.ok.inj (hA.symm.trans hB)

theorem Challenge.exact_read : Reader.Exact (Serial.read : Reader Challenge) Serial.encode :=
  (Reader.exact_octets 16).map (f := Challenge.mk) (g := Challenge.octets) fun a b => by
    constructor
    · rintro rfl; rfl
    · rintro rfl; rfl

namespace Frame

theorem decode_eq_ok_iff {α : Type} [Serial α] {frame : Received} {v : α} :
    decode α frame = .ok v ↔ ∃ body, frame = .ok body ∧ Serial.decode α body = .ok v := by
  unfold decode
  cases frame with
  | error e => simp
  | ok body => cases h : Serial.decode α body <;> simp [h]

/-- A frame is a service id if and only if it is exactly the eight bytes of one. -/
theorem decode_serviceId_eq_ok_iff {frame : Received} {id : ServiceId} :
    decode ServiceId frame = .ok id ↔ frame = .ok (Serial.encode id) := by
  simp [decode_eq_ok_iff, Serial.decode_eq_ok_iff ServiceId.exact_read]

/-- A frame is a challenge if and only if it is exactly the sixteen bytes of one. -/
theorem decode_challenge_eq_ok_iff {frame : Received} {c : Challenge} :
    decode Challenge frame = .ok c ↔ frame = .ok (Serial.encode c) := by
  simp [decode_eq_ok_iff, Serial.decode_eq_ok_iff Challenge.exact_read]

end Frame

end PeerServices
