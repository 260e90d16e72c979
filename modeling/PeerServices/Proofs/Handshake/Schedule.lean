import PeerServices.Handshake.Encounter

/-!
# Encounters under every schedule

The sides of an encounter go on in any order, each whenever it can.

* `Encounter.turn?`: what happens when a side has its turn; `Encounter.play`: turns in some order.
* `Encounter.length_le_of_play`: dialogues that stop after so many moves have no more turns than
  moves between them.
* `Encounter.exists_play_run`: letting the left side go first is one such order.
-/

namespace PeerServices

/-! ## Dialogues that stop -/

/-- A dialogue makes at most so many moves, whatever it hears. -/
inductive Dialogue.Within {α : Type} : Nat → Dialogue α → Prop
  | stop {n : Nat} (result : α) : Within n (.stop result)
  | send {n : Nat} {parcel : Parcel} {rest : Except WireError Unit → Dialogue α}
      (h : ∀ sent, Within n (rest sent)) : Within (n + 1) (.send parcel rest)
  | receive {n : Nat} {rest : Received → Dialogue α}
      (h : ∀ frame, Within n (rest frame)) : Within (n + 1) (.receive rest)
  | look {n : Nat} {rest : Authorizer → Dialogue α}
      (h : ∀ authorizer, Within n (rest authorizer)) : Within (n + 1) (.look rest)

theorem Dialogue.Within.succ {α : Type} {n : Nat} {d : Dialogue α} (h : d.Within n) :
    d.Within (n + 1) := by
  induction h with
  | stop result => exact .stop result
  | send _ ih => exact .send ih
  | receive _ ih => exact .receive ih
  | look _ ih => exact .look ih

namespace Party

variable {α : Type} {p p' : Party α} {otherIsOver : Bool} {sent : Option Bytes} {n : Nat}

theorem within_of_step? (h : p.step? otherIsOver = some (p', sent))
    (hWithin : p.dialogue.Within n) : ∃ m, n = m + 1 ∧ p'.dialogue.Within m := by
  obtain ⟨d, inbox, authorizer⟩ := p
  cases hWithin with
  | stop result => cases h
  | look hRest =>
    cases h
    exact ⟨_, rfl, hRest authorizer⟩
  | @send m parcel rest hRest =>
    simp only [step?] at h
    split at h
    · cases h
      exact ⟨m, rfl, hRest _⟩
    · cases h
      exact ⟨m, rfl, hRest _⟩
  | @receive m rest hRest =>
    cases inbox with
    | cons body inbox =>
      cases h
      exact ⟨m, rfl, hRest _⟩
    | nil =>
      simp only [step?] at h
      split at h
      · cases h
        exact ⟨m, rfl, hRest _⟩
      · cases h

theorem isOver_iff : p.isOver = true ↔ ∃ result, p.dialogue = .stop result := by
  unfold isOver result?
  split
  next result h => exact iff_of_true rfl ⟨result, h⟩
  next h => exact iff_of_false Bool.false_ne_true fun ⟨result, hStop⟩ => h result hStop

end Party

namespace Encounter

variable {α β : Type} {e e' : Encounter α β}

/-! ## Turns -/

inductive Turn
  | left
  | right
deriving DecidableEq

/-- What a side makes of its turn; nothing if it has to wait for the other side, or has stopped. -/
def turn? (e : Encounter α β) : Turn → Option (Encounter α β)
  | .left => (e.left.step? e.right.isOver).map fun (left, sent) =>
      { left, right := e.right.hear sent }
  | .right => (e.right.step? e.left.isOver).map fun (right, sent) =>
      { left := e.left.hear sent, right }

/-- Turns one after another, each of a side that can go on. -/
def play (e : Encounter α β) : List Turn → Option (Encounter α β)
  | [] => some e
  | turn :: turns => (e.turn? turn).bind fun e => e.play turns

/-- Neither side can go on. -/
def IsStuck (e : Encounter α β) : Prop := ∀ turn, e.turn? turn = none

/-- Neither dialogue makes more moves than so many together. -/
def Within (n : Nat) (e : Encounter α β) : Prop :=
  ∃ l r, l + r ≤ n ∧ e.left.dialogue.Within l ∧ e.right.dialogue.Within r

theorem within_of_turn? {turn : Turn} {n : Nat} (h : e.turn? turn = some e') (hWithin : e.Within n) :
    ∃ m, n = m + 1 ∧ e'.Within m := by
  obtain ⟨l, r, hSum, hLeft, hRight⟩ := hWithin
  cases turn with
  | left =>
    obtain ⟨⟨left, sent⟩, hStep, rfl⟩ := Option.map_eq_some_iff.mp h
    obtain ⟨l', rfl, hLeft'⟩ := Party.within_of_step? hStep hLeft
    exact ⟨n - 1, by omega, l', r, by omega, hLeft', hRight⟩
  | right =>
    obtain ⟨⟨right, sent⟩, hStep, rfl⟩ := Option.map_eq_some_iff.mp h
    obtain ⟨r', rfl, hRight'⟩ := Party.within_of_step? hStep hRight
    exact ⟨n - 1, by omega, l, r', by omega, hLeft, hRight'⟩

theorem length_le_of_play {turns : List Turn} {n : Nat} (h : e.play turns = some e')
    (hWithin : e.Within n) : turns.length ≤ n := by
  induction turns generalizing e n with
  | nil => exact Nat.zero_le n
  | cons turn turns ih =>
    obtain ⟨next, hTurn, hPlay⟩ := Option.bind_eq_some_iff.mp h
    obtain ⟨m, rfl, hNext⟩ := within_of_turn? hTurn hWithin
    exact Nat.succ_le_succ (ih hPlay hNext)

/-- What every turn keeps holds after all turns. -/
theorem invariant_of_play {P : Encounter α β → Prop} {turns : List Turn}
    (hTurn : ∀ e turn e', P e → e.turn? turn = some e' → P e') (h : e.play turns = some e')
    (hStart : P e) : P e' := by
  induction turns generalizing e with
  | nil => exact Option.some.inj h ▸ hStart
  | cons turn turns ih =>
    obtain ⟨next, hNext, hPlay⟩ := Option.bind_eq_some_iff.mp h
    exact ih hPlay (hTurn e turn next hStart hNext)

/-! ## The left side first -/

theorem step?_eq : e.step? = (e.turn? .left).or (e.turn? .right) := by
  unfold step? turn?
  cases e.left.step? e.right.isOver with
  | some next => rfl
  | none => cases e.right.step? e.left.isOver <;> rfl

theorem exists_turn_of_step? (h : e.step? = some e') : ∃ turn, e.turn? turn = some e' := by
  rw [step?_eq, Option.or_eq_some_iff] at h
  rcases h with hLeft | ⟨-, hRight⟩
  · exact ⟨.left, hLeft⟩
  · exact ⟨.right, hRight⟩

theorem isStuck_of_step? (h : e.step? = none) : e.IsStuck := by
  rw [step?_eq, Option.or_eq_none_iff] at h
  intro turn
  cases turn with
  | left => exact h.1
  | right => exact h.2

/-- A run that lets the left side go first is a play, and ends only where both sides are stuck or
at its limit. -/
theorem exists_play_run (limit : Nat) (e : Encounter α β) :
    ∃ turns, e.play turns = some (e.run limit) ∧
      (turns.length = limit ∨ (e.run limit).IsStuck) := by
  induction limit generalizing e with
  | zero => exact ⟨[], rfl, .inl rfl⟩
  | succ limit ih =>
    cases hStep : e.step? with
    | none =>
      have hRun : e.run (limit + 1) = e := by rw [run, hStep]
      rw [hRun]
      exact ⟨[], rfl, .inr (isStuck_of_step? hStep)⟩
    | some next =>
      have hRun : e.run (limit + 1) = next.run limit := by rw [run, hStep]
      obtain ⟨turn, hTurn⟩ := exists_turn_of_step? hStep
      obtain ⟨turns, hPlay, hEnd⟩ := ih next
      rw [hRun]
      refine ⟨turn :: turns, ?_, hEnd.imp_left (congrArg (· + 1))⟩
      rw [play, hTurn]
      exact hPlay

end Encounter

end PeerServices
