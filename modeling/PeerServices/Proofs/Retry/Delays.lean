import Mathlib.Data.Seq.Basic
import PeerServices.Retry.Policy

/-!
# The delays of a policy

A policy gives the delays of its stages one after another. A stage without a count goes on for ever,
so the stages behind it give nothing.

* `Policy.sequence`: all delays, as a sequence that may be infinite.
* `Policy.get?_sequence`: the delay after an attempt is looked up in it.
* `Policy.maxAttempts?_eq_none`, `Policy.maxAttempts?_eq_some`: how many attempts there can be.
* `Policy.length_sequence`: how many delays there are.
-/

namespace PeerServices.Retry

open Stream'

/-- The delays of one stage. -/
def Stage.delays (s : Stage) : Seq Duration :=
  match s.count with
  | none => Seq.ofStream (const s.delay)
  | some count => Seq.ofList (List.replicate count.toNat s.delay)

namespace Policy

/-- The delays of stages, one stage after another. -/
def sequenceOf (stages : List Stage) : Seq Duration :=
  stages.foldr (fun s rest => s.delays.append rest) .nil

def sequence (p : Policy) : Seq Duration := sequenceOf p.stages

/-! ## Looking up a delay -/

theorem get?_replicate_append (count : Nat) (delay : Duration) (rest : Seq Duration)
    (index : Nat) :
    ((Seq.ofList (List.replicate count delay)).append rest).get? index =
      if index < count then some delay else rest.get? (index - count) := by
  induction count generalizing index with
  | zero => simp
  | succ count ih =>
    rw [List.replicate_succ, Seq.ofList_cons, Seq.cons_append]
    cases index with
    | zero => simp
    | succ index =>
      rw [Seq.get?_cons_succ, ih]
      simp only [Nat.add_lt_add_iff_right, Nat.add_sub_add_right]

theorem get?_const_append (delay : Duration) (rest : Seq Duration) (index : Nat) :
    ((Seq.ofStream (const delay)).append rest).get? index = some delay := by
  induction index with
  | zero => rw [const_eq, Seq.ofStream_cons, Seq.cons_append, Seq.get?_cons_zero]
  | succ index ih => rw [const_eq, Seq.ofStream_cons, Seq.cons_append, Seq.get?_cons_succ, ih]

theorem get?_sequenceOf (stages : List Stage) (index : Nat) :
    (sequenceOf stages).get? index = delayIn? stages index := by
  induction stages generalizing index with
  | nil => rfl
  | cons s stages ih =>
    change (s.delays.append (sequenceOf stages)).get? index = _
    rw [Stage.delays, delayIn?]
    cases s.count with
    | none => exact get?_const_append s.delay _ index
    | some count =>
      rw [get?_replicate_append, ih]

/-- The delay after an attempt is the one of that number. -/
theorem get?_sequence (p : Policy) (index : Nat) : p.sequence.get? index = p.delay? index :=
  get?_sequenceOf p.stages index

/-- There is no delay behind the last one. -/
theorem delay?_of_length {p : Policy} {length : Nat} (h : p.sequence.length' = length) :
    p.delay? length = none :=
  (p.get?_sequence length).symm.trans (Seq.length'_le_iff.mp h.le)

/-! ## How many delays there are -/

/-- The counts of stages that have one each. -/
def Counted (stages : List Stage) (counts : List UInt32) : Prop :=
  stages.map Stage.count = counts.map some

theorem totalCount?_cons (s : Stage) (stages : List Stage) :
    totalCount? (s :: stages) =
      s.count.bind fun count => (totalCount? stages).map (count.toNat + ·) := by
  rw [totalCount?]
  cases s.count <;> cases totalCount? stages <;> rfl

theorem totalCount?_eq_none (stages : List Stage) :
    totalCount? stages = none ↔ ∃ s ∈ stages, s.count = none := by
  induction stages with
  | nil => simp [totalCount?]
  | cons s stages ih => cases hCount : s.count <;> simp [totalCount?_cons, hCount, ih]

theorem totalCount?_eq_some {stages : List Stage} {counts : List UInt32}
    (h : Counted stages counts) : totalCount? stages = some (counts.map UInt32.toNat).sum := by
  induction stages generalizing counts with
  | nil =>
    obtain rfl : counts = [] := by simpa [Counted] using h
    rfl
  | cons s stages ih =>
    cases counts with
    | nil => simp [Counted] at h
    | cons count counts =>
      obtain ⟨hCount, hRest⟩ : s.count = some count ∧ Counted stages counts := by
        simpa [Counted] using h
      simp [totalCount?_cons, hCount, ih hRest]

/-- The delays end after as many as the stages give together. -/
theorem delayIn?_eq_none {stages : List Stage} {counts : List UInt32} (h : Counted stages counts)
    (index : Nat) : delayIn? stages index = none ↔ (counts.map UInt32.toNat).sum ≤ index := by
  induction stages generalizing counts index with
  | nil =>
    obtain rfl : counts = [] := by simpa [Counted] using h
    simp [delayIn?]
  | cons s stages ih =>
    cases counts with
    | nil => simp [Counted] at h
    | cons count counts =>
      obtain ⟨hCount, hRest⟩ : s.count = some count ∧ Counted stages counts := by
        simpa [Counted] using h
      rw [delayIn?, hCount, List.map_cons, List.sum_cons]
      dsimp only
      split
      next hBefore => simp; omega
      next hBehind =>
        rw [ih hRest]
        omega

variable {p : Policy} {counts : List UInt32}

/-- There is no bound on the attempts exactly if a stage has no count. -/
theorem maxAttempts?_eq_none : p.maxAttempts? = none ↔ ∃ s ∈ p.stages, s.count = none := by
  rw [maxAttempts?, Option.map_eq_none_iff, totalCount?_eq_none]

/-- Otherwise there is one attempt more than there are delays, as far as attempts are counted. -/
theorem maxAttempts?_eq_some (h : Counted p.stages counts) :
    p.maxAttempts? = some (min attemptLimit (1 + (counts.map UInt32.toNat).sum)) := by
  rw [maxAttempts?, totalCount?_eq_some h, Option.map_some]

theorem length_sequence (h : Counted p.stages counts) :
    p.sequence.length' = ((counts.map UInt32.toNat).sum : Nat) := by
  apply le_antisymm
  · rw [Seq.length'_le_iff]
    exact (p.get?_sequence _).trans ((delayIn?_eq_none h _).mpr le_rfl)
  · rw [← not_lt]
    intro hShort
    obtain ⟨length, hLength⟩ := ENat.ne_top_iff_exists.mp hShort.ne_top
    have hEnd : p.sequence.get? length = none := Seq.length'_le_iff.mp hLength.symm.le
    rw [get?_sequence] at hEnd
    have hLe := (delayIn?_eq_none h length).mp hEnd
    rw [← hLength] at hShort
    exact absurd (Nat.cast_lt.mp hShort) (Nat.not_lt_of_le hLe)

end Policy

end PeerServices.Retry
