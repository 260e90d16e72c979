import PeerServices.Retry.Policy

/-!
# Retried operations

An operation is attempted until it succeeds, fails in a way that is not worth another attempt, uses
up its policy, or is cancelled.

* `Plan.next`: what follows an attempt. A refused error counts before an exhausted policy.
* `Plan.run`: the course without cancellation, up to a deadline.
* `Task.step?`, `Task.poll`: how far a task gets when it is run. Between two runs somebody may ask it
  to stop, with `Task.stop`.
-/

namespace PeerServices.Retry

/-! ## Outcomes -/

/-- Why a task ended without a value. -/
inductive Failure (ε : Type)
  | cancelled
  /-- The operation failed in a way that is not retried. -/
  | aborted (error : ε)
  /-- The policy has no delay left. -/
  | exhausted (attempts : Nat) (last : ε)
deriving DecidableEq, Repr

namespace Failure

variable {ε : Type}

def inner? : Failure ε → Option ε
  | .cancelled => none
  | .aborted error => some error
  | .exhausted _ last => some last

def isCancelled : Failure ε → Bool
  | .cancelled => true
  | _ => false

/-- The wording of a failure, given that of the operation's errors. -/
def message (text : ε → String) : Failure ε → String
  | .cancelled => "retry cancelled"
  | .aborted error => "non-retryable failure: " ++ text error
  | .exhausted attempts last =>
    "gave up after " ++ toString attempts ++ " attempts: " ++ text last

end Failure

abbrev Outcome (α ε : Type) := Except (Failure ε) α

/-- What follows an attempt. -/
inductive Next (α ε : Type)
  | stop (outcome : Outcome α ε)
  | again (delay : Duration)

/-! ## Plans -/

structure Plan (ε : Type) where
  policy : Policy
  /-- Is another attempt worth it after this error? -/
  retries : ε → Bool

namespace Plan

variable {α ε : Type}

/-- What follows attempt number `attempts`, counted from one. -/
def next (plan : Plan ε) (attempts : Nat) : Except ε α → Next α ε
  | .ok value => .stop (.ok value)
  | .error e =>
    if plan.retries e then
      match plan.policy.delay? (attempts - 1) with
      | some delay => .again delay
      | none => .stop (.error (.exhausted attempts e))
    else .stop (.error (.aborted e))

/-- The course of a task up to a deadline. -/
structure Course (α ε : Type) where
  starts : List Duration
  /-- When the task ended; the deadline if it has not ended by then. -/
  finish : Duration
  outcome : Option (Outcome α ε)

/-- What an operation does when it is attempted: how long each attempt takes and what it gives,
counted from zero. -/
structure Operation (α ε : Type) where
  takes : Nat → Duration
  gives : Nat → Except ε α

/-- The course from attempt number `done + 1` on, which begins at `now`, for at most `limit` more
attempts. -/
def runFrom (plan : Plan ε) (op : Operation α ε) (deadline : Duration) :
    (limit : Nat) → (done : Nat) → (now : Duration) → (starts : List Duration) → Course α ε
  | 0, _, _, starts => { starts := starts.reverse, finish := deadline, outcome := none }
  | limit + 1, done, now, starts =>
    if deadline.nanoseconds < now.nanoseconds then
      { starts := starts.reverse, finish := deadline, outcome := none }
    else
      let finish : Duration := ⟨now.nanoseconds + (op.takes done).nanoseconds⟩
      let starts := now :: starts
      if deadline.nanoseconds < finish.nanoseconds then
        { starts := starts.reverse, finish := deadline, outcome := none }
      else
        match plan.next (done + 1) (op.gives done) with
        | .stop outcome => { starts := starts.reverse, finish, outcome := some outcome }
        | .again delay =>
          runFrom plan op deadline limit (done + 1)
            ⟨finish.nanoseconds + delay.nanoseconds⟩ starts

/-- The course up to a deadline of a task that nobody cancels, as long as attempts are counted. -/
def run (plan : Plan ε) (op : Operation α ε) (deadline : Duration) : Course α ε :=
  runFrom plan op deadline Policy.attemptLimit 0 ⟨0⟩ []

end Plan

/-! ## Tasks -/

/-- Where a task stands when it is not run. -/
inductive Phase (α ε : Type)
  /-- It was not run yet. -/
  | fresh
  /-- An attempt is made until an instant. -/
  | attempting (finish : Duration)
  /-- The next attempt begins at an instant. -/
  | waiting (resume : Duration)
  | finished (outcome : Outcome α ε)

/-- What the listener of a task is told when the task ends. -/
inductive Hook (α ε : Type)
  | completed (value : α)
  | failed (cause : Failure ε)
  | canceled

def Hook.ofOutcome {α ε : Type} : Outcome α ε → Hook α ε
  | .ok value => .completed value
  | .error .cancelled => .canceled
  | .error cause => .failed cause

structure Task (α ε : Type) where
  plan : Plan ε
  op : Plan.Operation α ε
  /-- Under what number the task is tracked, if it ever was. -/
  number : Option Nat
  /-- Somebody asked the task to stop. -/
  cancelled : Bool
  /-- When its attempts began. -/
  starts : List Duration
  phase : Phase α ε
  /-- What its listener was told. -/
  hooks : List (Hook α ε)

namespace Task

variable {α ε : Type}

def create (plan : Plan ε) (op : Plan.Operation α ε) (number : Option Nat) (cancelled : Bool) :
    Task α ε :=
  { plan, op, number, cancelled, starts := [], phase := .fresh, hooks := [] }

def isFinished (t : Task α ε) : Bool :=
  match t.phase with
  | .finished _ => true
  | _ => false

def outcome? (t : Task α ε) : Option (Outcome α ε) :=
  match t.phase with
  | .finished outcome => some outcome
  | _ => none

/-- When the task gets further by itself. -/
def due? (t : Task α ε) : Option Duration :=
  match t.phase with
  | .attempting finish => some finish
  | .waiting resume => some resume
  | .fresh | .finished _ => none

/-- Ends a task and tells its listener. -/
def finish (t : Task α ε) (outcome : Outcome α ε) : Task α ε :=
  { t with phase := .finished outcome, hooks := t.hooks ++ [Hook.ofOutcome outcome] }

def attempt (t : Task α ε) (now : Duration) : Task α ε :=
  { t with
    starts := t.starts ++ [now]
    phase := .attempting ⟨now.nanoseconds + (t.op.takes t.starts.length).nanoseconds⟩ }

/-- Asks a task to stop. -/
def stop (t : Task α ε) : Task α ε := { t with cancelled := true }

/-- Gets a task further by one thing, if anything can be done at `now`. A task that was asked to
stop does nothing else any more. -/
def step? (t : Task α ε) (now : Duration) : Option (Task α ε) :=
  if t.isFinished then none
  else if t.cancelled then some (t.finish (.error .cancelled))
  else
    match t.phase with
    | .finished _ => none
    | .fresh => some (t.attempt now)
    | .attempting finish =>
      if finish.nanoseconds ≤ now.nanoseconds then
        match t.plan.next t.starts.length (t.op.gives (t.starts.length - 1)) with
        | .stop outcome => some (t.finish outcome)
        | .again delay => some { t with phase := .waiting ⟨now.nanoseconds + delay.nanoseconds⟩ }
      else none
    | .waiting resume =>
      if resume.nanoseconds ≤ now.nanoseconds then some (t.attempt now) else none

/-- Gets a task further by at most `limit` things. -/
def pollUpTo : (limit : Nat) → Task α ε → (now : Duration) → Task α ε
  | 0, t, _ => t
  | limit + 1, t, now =>
    match t.step? now with
    | none => t
    | some t => pollUpTo limit t now

/-- More things than a task ever does at one instant. -/
def pollLimit : Nat := 2 * Policy.attemptLimit

/-- Runs a task at `now` until it has to wait. -/
def poll (t : Task α ε) (now : Duration) : Task α ε := pollUpTo pollLimit t now

end Task

end PeerServices.Retry
