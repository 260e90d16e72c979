import PeerServices.Collection.SortedSet
import PeerServices.Retry.Task

/-!
# Registry of retried operations

Keeps track of the tasks that are under way, so that all of them can be asked to stop together. After
its shutdown a registry tracks no task, and what is executed then is asked to stop before its first
attempt.

* `Registry.Event`, `Registry.handle`: what happens to a registry and its tasks, one thing at a time.
  A task that can go on is run some time; until then it stays as it is.
* `Registry.execute`, `advance`, `cancel`, `shutdown`: the same when every task that can go on is run
  at once.
-/

namespace PeerServices.Retry

/-- Tasks under way and over, on one clock. -/
structure Registry (α ε : Type) where
  now : Duration
  shutDown : Bool
  /-- Tasks are numbered upwards. -/
  nextNumber : Nat
  /-- The numbers of the tasks that are tracked. -/
  tracked : SortedSet Nat
  /-- Every task that was executed, in order. -/
  tasks : List (Task α ε)

namespace Registry

variable {α ε : Type}

def empty : Registry α ε :=
  { now := ⟨0⟩, shutDown := false, nextNumber := 0, tracked := .empty, tasks := [] }

instance : Inhabited (Registry α ε) := ⟨empty⟩

/-- How many tasks are tracked. -/
def inFlight (r : Registry α ε) : Nat := r.tracked.size

def tracks (r : Registry α ε) (t : Task α ε) : Bool :=
  match t.number with
  | none => false
  | some number => r.tracked.contains number

/-! ## Events -/

inductive Event (α ε : Type)
  | execute (plan : Plan ε) (op : Plan.Operation α ε)
  /-- Time passes. -/
  | pass (time : Duration)
  /-- A task is run. -/
  | poll (index : Nat)
  /-- A task is asked to stop. -/
  | cancel (index : Nat)
  | shutdown

/-- Takes up a task, which is the last of the list then. -/
def register (r : Registry α ε) (plan : Plan ε) (op : Plan.Operation α ε) : Registry α ε :=
  if r.shutDown then { r with tasks := r.tasks ++ [.create plan op none true] }
  else
    { r with
      nextNumber := r.nextNumber + 1
      tracked := r.tracked.insert r.nextNumber
      tasks := r.tasks ++ [.create plan op (some r.nextNumber) false] }

/-- Tracks a task no longer. -/
def deregister (r : Registry α ε) (t : Task α ε) : Registry α ε :=
  match t.number with
  | none => r
  | some number => { r with tracked := r.tracked.erase number }

/-- Runs a task. It is not tracked any more once it has ended. -/
def poll (r : Registry α ε) (index : Nat) : Registry α ε :=
  match r.tasks[index]? with
  | none => r
  | some t =>
    let t := t.poll r.now
    let r := { r with tasks := r.tasks.set index t }
    if t.isFinished then r.deregister t else r

def handle (r : Registry α ε) : Event α ε → Registry α ε
  | .execute plan op => r.register plan op
  | .pass time => { r with now := ⟨r.now.nanoseconds + time.nanoseconds⟩ }
  | .poll index => r.poll index
  | .cancel index => { r with tasks := r.tasks.modify index Task.stop }
  | .shutdown =>
    { r with
      shutDown := true
      tracked := .empty
      tasks := r.tasks.map fun t => if r.tracks t then t.stop else t }

def run (r : Registry α ε) (events : List (Event α ε)) : Registry α ε := events.foldl handle r

/-! ## Tasks that are run at once -/

/-- Runs every task. -/
def settle (r : Registry α ε) : Registry α ε :=
  r.run ((List.range r.tasks.length).map .poll)

def execute (r : Registry α ε) (plan : Plan ε) (op : Plan.Operation α ε) : Registry α ε :=
  (r.handle (.execute plan op)).settle

def cancel (r : Registry α ε) (index : Nat) : Registry α ε := (r.handle (.cancel index)).settle

def shutdown (r : Registry α ε) : Registry α ε := (r.handle .shutdown).settle

/-- When the next task gets further by itself. -/
def nextDue? (r : Registry α ε) : Option Duration :=
  ((r.tasks.filterMap Task.due?).map Duration.nanoseconds).min?.map Duration.mk

/-- Lets time pass up to an instant, for at most `limit` instants at which a task is due. -/
def advanceUpTo : (limit : Nat) → Registry α ε → (target : Duration) → Registry α ε
  | 0, r, _ => r
  | limit + 1, r, target =>
    let next := min (r.nextDue?.elim target.nanoseconds Duration.nanoseconds) target.nanoseconds
    let r := (r.handle (.pass ⟨next - r.now.nanoseconds⟩)).settle
    if next < target.nanoseconds then advanceUpTo limit r target else r

def advance (r : Registry α ε) (time : Duration) : Registry α ε :=
  advanceUpTo Task.pollLimit r ⟨r.now.nanoseconds + time.nanoseconds⟩

end Registry

end PeerServices.Retry
