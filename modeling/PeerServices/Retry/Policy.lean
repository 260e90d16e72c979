import PeerServices.Text.Duration

/-!
# Retry policies

Stages of delays between the attempts of an operation. A stage repeats its delay a number of times,
or for ever.

* `Policy.delay?`: the delay after each failed attempt, none once the stages are used up.
* `Policy.maxAttempts?`: one attempt more than there are delays, as far as 32 bits can count; none
  without a bound.
-/

namespace PeerServices.Retry

/-- A delay and how many times it applies; without a count it applies for ever. -/
structure Stage where
  count : Option UInt32
  delay : Duration
deriving DecidableEq

structure Policy where
  stages : List Stage
deriving DecidableEq

namespace Policy

def never : Policy := ⟨[]⟩

instance : Inhabited Policy := ⟨never⟩

def stage (p : Policy) (s : Stage) : Policy := ⟨p.stages ++ [s]⟩

/-- The delay number `index`, counted from zero. -/
def delayIn? : List Stage → (index : Nat) → Option Duration
  | [], _ => none
  | s :: rest, index =>
    match s.count with
    | none => some s.delay
    | some count =>
      if index < count.toNat then some s.delay else delayIn? rest (index - count.toNat)

/-- The delay after the failed attempt number `index`, counted from zero. -/
def delay? (p : Policy) (index : Nat) : Option Duration := delayIn? p.stages index

/-- The first `count` delays, fewer if the stages are used up before. -/
def delays (p : Policy) (count : Nat) : List Duration := (List.range count).filterMap p.delay?

/-- The largest number of attempts that is counted. -/
def attemptLimit : Nat := UInt32.size - 1

/-- How many delays the stages give together, up to the limit; none without a bound. -/
def totalCount? : List Stage → Option Nat
  | [] => some 0
  | s :: rest => do
    let count ← s.count
    return count.toNat + (← totalCount? rest)

/-- The most attempts that are made; none without a bound. -/
def maxAttempts? (p : Policy) : Option Nat :=
  (totalCount? p.stages).map fun total => min attemptLimit (1 + total)

end Policy

end PeerServices.Retry
