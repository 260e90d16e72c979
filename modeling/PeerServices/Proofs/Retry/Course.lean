import Mathlib.Algebra.BigOperators.Intervals
import Mathlib.Algebra.Order.BigOperators.Group.Finset
import PeerServices.Proofs.Retry.Delays
import PeerServices.Retry.Task

/-!
# The course of a retried operation

An operation is attempted again and again, as its policy says, until an attempt is the last one.
Attempts are numbered from zero here, so the delay of a number stands behind its attempt.

* `Plan.Ends`: nothing follows an attempt. `Plan.Last`: it is the first such attempt.
* `Plan.begins`: when an attempt begins. `Plan.verdict`: how a task ends with its last attempt.
* `Plan.runFrom_eq`: the attempts from some number on.
* `Plan.course_of_last`: a whole course, and how many attempts there can be.
* `Task.punctual_eq`: a task that is run whenever it is due takes that course.
-/

namespace PeerServices.Retry.Plan

variable {α ε : Type} {plan : Plan ε} {op : Operation α ε} {deadline : Duration} {last : Nat}

/-- Nothing follows an attempt: it succeeds, it fails in a way that is not retried, or there are
exactly as many delays as there were attempts before it. -/
def Ends (plan : Plan ε) (op : Operation α ε) (number : Nat) : Prop :=
  (∃ value, op.gives number = .ok value) ∨
    (∃ e, op.gives number = .error e ∧ plan.retries e = false) ∨
    plan.policy.sequence.length' = number

/-- The first attempt that nothing follows. -/
def Last (plan : Plan ε) (op : Operation α ε) (number : Nat) : Prop :=
  plan.Ends op number ∧ ∀ earlier < number, ¬plan.Ends op earlier

/-- When an attempt begins: after the attempts before it and their delays. -/
def begins (plan : Plan ε) (op : Operation α ε) (number : Nat) : Duration :=
  ⟨∑ i ∈ Finset.range number, ((op.takes i).nanoseconds +
    ((plan.policy.sequence.get? i).getD ⟨0⟩).nanoseconds)⟩

def ends (plan : Plan ε) (op : Operation α ε) (number : Nat) : Duration :=
  ⟨(plan.begins op number).nanoseconds + (op.takes number).nanoseconds⟩

/-- How a task ends with its last attempt. -/
def verdict (plan : Plan ε) (attempts : Nat) : Except ε α → Outcome α ε
  | .ok value => .ok value
  | .error e =>
    if plan.retries e then .error (.exhausted attempts e) else .error (.aborted e)

/-! ## One attempt -/

/-- As long as no attempt ended the task there is a delay behind each of them. -/
theorem exists_delay (h : ∀ earlier ≤ last, ¬plan.Ends op earlier) :
    ∃ delay, plan.policy.delay? last = some delay := by
  have hMore : ∀ number ≤ last + 1, (number : ℕ∞) ≤ plan.policy.sequence.length' := by
    intro number hNumber
    induction number with
    | zero => exact zero_le
    | succ number ih =>
      have hLe := ih (Nat.le_of_succ_le hNumber)
      have hNe : plan.policy.sequence.length' ≠ number := fun hEq =>
        h number (Nat.le_of_succ_le_succ hNumber) (.inr (.inr hEq))
      rw [Nat.cast_succ, ENat.add_one_le_iff (ENat.natCast_ne_top number)]
      exact lt_of_le_of_ne hLe hNe.symm
  have hLt : (last : ℕ∞) < plan.policy.sequence.length' :=
    lt_of_lt_of_le (by exact_mod_cast Nat.lt_succ_self last) (hMore (last + 1) le_rfl)
  obtain ⟨delay, hDelay⟩ := Stream'.Seq.lt_length'_iff.mp hLt
  exact ⟨delay, (plan.policy.get?_sequence last).symm.trans hDelay⟩

/-- Another attempt follows if this one does not end the task, and none before it did. -/
theorem next_of_not_ends (h : ∀ earlier ≤ last, ¬plan.Ends op earlier) :
    ∃ delay, plan.policy.delay? last = some delay ∧
      plan.next (last + 1) (op.gives last) = .again delay := by
  obtain ⟨delay, hDelay⟩ := exists_delay h
  have hNot := h last le_rfl
  unfold Ends at hNot
  refine ⟨delay, hDelay, ?_⟩
  cases hGives : op.gives last with
  | ok value => exact absurd (.inl ⟨value, hGives⟩) hNot
  | error e =>
    cases hRetries : plan.retries e with
    | false => exact absurd (.inr (.inl ⟨e, hGives, hRetries⟩)) hNot
    | true => simp [next, hRetries, hDelay]

/-- The last attempt ends the task. That an error is not retried counts before the delays are used
up. -/
theorem next_of_ends (h : plan.Ends op last) :
    plan.next (last + 1) (op.gives last) =
      .stop (plan.verdict (last + 1) (op.gives last)) := by
  rcases h with ⟨value, hGives⟩ | ⟨e, hGives, hRetries⟩ | hLength
  · rw [hGives]
    rfl
  · rw [hGives]
    simp [next, verdict, hRetries]
  · have hDelay := Policy.delay?_of_length hLength
    cases op.gives last with
    | ok value => rfl
    | error e => cases hRetries : plan.retries e <;> simp [next, verdict, hRetries, hDelay]

theorem begins_succ {delay : Duration} {number : Nat}
    (h : plan.policy.delay? number = some delay) :
    plan.begins op (number + 1) =
      ⟨(plan.ends op number).nanoseconds + delay.nanoseconds⟩ := by
  rw [begins, Finset.sum_range_succ, Policy.get?_sequence, h, ends, begins]
  simp only [Option.getD_some, Nat.add_assoc]

theorem begins_le_ends (plan : Plan ε) (op : Operation α ε) (number : Nat) :
    (plan.begins op number).nanoseconds ≤ (plan.ends op number).nanoseconds := Nat.le_add_right _ _

theorem begins_mono {earlier later : Nat} (h : earlier ≤ later) :
    (plan.begins op earlier).nanoseconds ≤ (plan.begins op later).nanoseconds :=
  Finset.sum_le_sum_of_subset (Finset.range_subset_range.mpr h)

theorem ends_le_begins {earlier later : Nat} (h : earlier < later) :
    (plan.ends op earlier).nanoseconds ≤ (plan.begins op later).nanoseconds := by
  refine le_trans ?_ (begins_mono (Nat.succ_le_of_lt h))
  rw [begins, Finset.sum_range_succ, ends, begins]
  simp only [← Nat.add_assoc, Nat.le_add_right]

/-! ## A whole course -/

/-- The attempts up to the last one that begin by a deadline. -/
def startsBy (plan : Plan ε) (op : Operation α ε) (last : Nat) (deadline : Duration) :
    List Duration :=
  ((List.range (last + 1)).map (plan.begins op)).filter
    fun start => start.nanoseconds ≤ deadline.nanoseconds

/-- The course of a task with a last attempt, up to a deadline. -/
def courseTo (plan : Plan ε) (op : Operation α ε) (last : Nat) (deadline : Duration) :
    Course α ε :=
  if (plan.ends op last).nanoseconds ≤ deadline.nanoseconds then
    { starts := (List.range (last + 1)).map (plan.begins op)
      finish := plan.ends op last
      outcome := some (plan.verdict (last + 1) (op.gives last)) }
  else { starts := plan.startsBy op last deadline, finish := deadline, outcome := none }

/-- If attempt number `done` does not begin by the deadline and all before it do, those are all that
do. -/
theorem startsBy_eq {done : Nat} (hDone : done ≤ last + 1)
    (hBefore : ∀ number < done, (plan.begins op number).nanoseconds ≤ deadline.nanoseconds)
    (hBehind : done ≤ last → deadline.nanoseconds < (plan.begins op done).nanoseconds) :
    plan.startsBy op last deadline = (List.range done).map (plan.begins op) := by
  obtain ⟨more, hMore⟩ : ∃ more, last + 1 = done + more := ⟨last + 1 - done, by omega⟩
  rw [startsBy, hMore, List.range_add, List.map_append, List.filter_append]
  have hKept : ((List.range done).map (plan.begins op)).filter
      (fun start => start.nanoseconds ≤ deadline.nanoseconds) =
        (List.range done).map (plan.begins op) := by
    simpa [List.filter_eq_self] using hBefore
  have hDropped : (((List.range more).map (done + ·)).map (plan.begins op)).filter
      (fun start => start.nanoseconds ≤ deadline.nanoseconds) = [] := by
    simp only [List.filter_eq_nil_iff, List.mem_map, List.mem_range, decide_eq_true_eq]
    rintro _ ⟨_, ⟨number, hNumber, rfl⟩, rfl⟩
    exact Nat.not_le_of_lt (Nat.lt_of_lt_of_le (hBehind (by omega)) (begins_mono (by omega)))
  rw [hKept, hDropped, List.append_nil]

/-- The attempts from number `done` on. -/
theorem runFrom_eq (hLast : plan.Last op last) {limit done : Nat} (hDone : done ≤ last)
    (hLimit : last + 1 ≤ done + limit)
    (hBefore : ∀ number < done, (plan.begins op number).nanoseconds ≤ deadline.nanoseconds) :
    plan.runFrom op deadline limit done (plan.begins op done)
        ((List.range done).map (plan.begins op)).reverse = plan.courseTo op last deadline := by
  induction limit generalizing done with
  | zero => omega
  | succ limit ih =>
    have hStarted : plan.begins op done :: ((List.range done).map (plan.begins op)).reverse =
        ((List.range (done + 1)).map (plan.begins op)).reverse := by
      rw [List.range_succ, List.map_append, List.reverse_append]
      rfl
    have hOver : ∀ number ≤ last,
        deadline.nanoseconds < (plan.ends op number).nanoseconds →
        plan.courseTo op last deadline =
          { starts := plan.startsBy op last deadline, finish := deadline, outcome := none } := by
      intro number hNumber hLate
      have hLater : (plan.ends op number).nanoseconds ≤ (plan.ends op last).nanoseconds := by
        rcases Nat.lt_or_eq_of_le hNumber with hLt | rfl
        · exact (ends_le_begins hLt).trans (begins_le_ends plan op last)
        · exact le_rfl
      exact if_neg (Nat.not_le_of_lt (Nat.lt_of_lt_of_le hLate hLater))
    rw [runFrom]
    dsimp only
    rw [hStarted, List.reverse_reverse, List.reverse_reverse]
    split
    next hLate =>
      rw [hOver done hDone (Nat.lt_of_lt_of_le hLate (begins_le_ends plan op done)),
        startsBy_eq (Nat.le_succ_of_le hDone) hBefore fun _ => hLate]
    next hBegun =>
      have hBefore' : ∀ number < done + 1,
          (plan.begins op number).nanoseconds ≤ deadline.nanoseconds := by
        intro number hNumber
        exact (begins_mono (Nat.le_of_lt_succ hNumber)).trans (Nat.le_of_not_lt hBegun)
      change (if deadline.nanoseconds < (plan.ends op done).nanoseconds then _ else _) = _
      split
      next hLate =>
        rw [hOver done hDone hLate, startsBy_eq (Nat.succ_le_succ hDone) hBefore' fun _ =>
          Nat.lt_of_lt_of_le hLate (ends_le_begins (Nat.lt_succ_self done))]
      next hInTime =>
        rcases Nat.lt_or_eq_of_le hDone with hMore | rfl
        · obtain ⟨delay, hDelay, hNext⟩ :=
            next_of_not_ends fun earlier hLe => hLast.2 earlier (Nat.lt_of_le_of_lt hLe hMore)
          rw [hNext]
          change plan.runFrom op deadline limit (done + 1)
            ⟨(plan.ends op done).nanoseconds + delay.nanoseconds⟩ _ = _
          rw [← begins_succ hDelay]
          exact ih hMore (by omega) hBefore'
        · rw [next_of_ends hLast.1]
          exact (if_pos (Nat.le_of_not_lt hInTime)).symm

theorem run_eq (hLast : plan.Last op last) (hLimit : last + 1 ≤ Policy.attemptLimit)
    (deadline : Duration) : plan.run op deadline = plan.courseTo op last deadline := by
  have hLimit' : last + 1 ≤ 0 + Policy.attemptLimit := by omega
  exact runFrom_eq hLast (Nat.zero_le last) hLimit' nofun

/-! ## How many attempts there are -/

theorem last_of_failing {counts : List UInt32} (hCounted : Policy.Counted plan.policy.stages counts)
    (hFails : ∀ number, ∃ e, op.gives number = .error e ∧ plan.retries e = true) :
    plan.Last op (counts.map UInt32.toNat).sum := by
  have hLength := Policy.length_sequence hCounted
  refine ⟨.inr (.inr hLength), ?_⟩
  rintro earlier hEarlier (⟨value, hGives⟩ | ⟨e, hGives, hRetries⟩ | hEnds)
  · obtain ⟨e, hFails, -⟩ := hFails earlier
    cases hGives.symm.trans hFails
  · obtain ⟨e', hFails, hRetries'⟩ := hFails earlier
    cases hGives.symm.trans hFails
    cases hRetries.symm.trans hRetries'
  · rw [hLength] at hEnds
    exact absurd (Nat.cast_inj.mp hEnds) (Nat.ne_of_gt hEarlier)

/-- The course of an operation that nobody cancels. If there is a last attempt, and attempts can be
counted up to it, then exactly the attempts up to it are made, each after the ones before it and
their delays, and the task ends with the last one: as that succeeds; or as aborted, if its error is
not retried; or as exhausted. By an earlier deadline there are as many of these attempts as have
begun. There can be one attempt more than the stages give delays, as far as attempts are counted,
and an operation that always fails and is always retried is attempted that often. -/
theorem course_of_last (plan : Plan ε) (op : Operation α ε) :
    (∀ last, plan.Last op last → last + 1 ≤ Policy.attemptLimit → ∀ deadline : Duration,
      ((plan.ends op last).nanoseconds ≤ deadline.nanoseconds →
        plan.run op deadline =
          { starts := (List.range (last + 1)).map (plan.begins op)
            finish := plan.ends op last
            outcome := some (plan.verdict (last + 1) (op.gives last)) }) ∧
      (deadline.nanoseconds < (plan.ends op last).nanoseconds →
        plan.run op deadline =
          { starts := plan.startsBy op last deadline, finish := deadline, outcome := none })) ∧
      (plan.policy.maxAttempts? = none ↔ ∃ s ∈ plan.policy.stages, s.count = none) ∧
      (∀ counts, Policy.Counted plan.policy.stages counts →
        plan.policy.maxAttempts? =
          some (min (UInt32.size - 1) (1 + (counts.map UInt32.toNat).sum))) ∧
      ∀ counts, Policy.Counted plan.policy.stages counts →
        1 + (counts.map UInt32.toNat).sum ≤ UInt32.size - 1 →
        (∀ number, ∃ e, op.gives number = .error e ∧ plan.retries e = true) →
        ∀ deadline : Duration,
          (plan.ends op (counts.map UInt32.toNat).sum).nanoseconds ≤ deadline.nanoseconds →
          plan.policy.maxAttempts? = some (plan.run op deadline).starts.length := by
  refine ⟨fun last hLast hLimit deadline => ?_, Policy.maxAttempts?_eq_none,
    fun counts hCounted => Policy.maxAttempts?_eq_some hCounted,
    fun counts hCounted hLimit hFails deadline hDeadline => ?_⟩
  · rw [run_eq hLast hLimit]
    exact ⟨fun hInTime => if_pos hInTime, fun hLate => if_neg (Nat.not_le_of_lt hLate)⟩
  · have hLimit' : (counts.map UInt32.toNat).sum + 1 ≤ Policy.attemptLimit := by
      rw [Nat.add_comm]
      exact hLimit
    rw [Policy.maxAttempts?_eq_some hCounted, run_eq (last_of_failing hCounted hFails) hLimit',
      courseTo, if_pos hDeadline, List.length_map, List.length_range, Nat.add_comm]
    exact congrArg some (Nat.min_eq_right hLimit')

/-- Two delays, with a stage between them that gives none, for failures that are not fatal. -/
def briefPlan : Plan String where
  policy := ⟨[⟨some 1, .ofMilliseconds 10⟩, ⟨some 0, .ofSeconds 1⟩, ⟨some 1, .ofMilliseconds 50⟩]⟩
  retries e := e ≠ "fatal"

/-- An operation whose third attempt fails for good. -/
def failingOperation : Operation Unit String where
  takes _ := .ofMilliseconds 2
  gives number := .error (if number = 2 then "fatal" else "busy")

theorem briefPlan_last : briefPlan.Last failingOperation 2 := by
  refine ⟨.inr (.inl ⟨"fatal", rfl, rfl⟩), ?_⟩
  have hDelay : ∀ number < 2, briefPlan.policy.delay? number ≠ none := by decide
  rintro earlier hEarlier (⟨value, hGives⟩ | ⟨e, hGives, hRetries⟩ | hLength)
  · cases hGives
  · have hBusy : failingOperation.gives earlier = .error "busy" :=
      congrArg Except.error (if_neg (Nat.ne_of_lt hEarlier))
    obtain rfl := Except.error.inj (hBusy.symm.trans hGives)
    cases hRetries
  · exact hDelay earlier hEarlier (Policy.delay?_of_length hLength)

/-- The third attempt ends the task as aborted, although no delay is left behind it. -/
theorem briefPlan_aborts :
    briefPlan.Last failingOperation 2 ∧
      briefPlan.run failingOperation (.ofSeconds 1) =
        { starts := [⟨0⟩, .ofMilliseconds 12, .ofMilliseconds 64]
          finish := .ofMilliseconds 66
          outcome := some (.error (.aborted "fatal")) } := by
  have hEnds : briefPlan.ends failingOperation 2 = .ofMilliseconds 66 := by
    simp [ends, begins, Finset.sum_range_succ, Policy.get?_sequence]
    decide
  obtain ⟨hCourse, -⟩ := course_of_last briefPlan failingOperation
  have hRun := (hCourse 2 briefPlan_last (by decide) (.ofSeconds 1)).1 (by rw [hEnds]; decide)
  refine ⟨briefPlan_last, hRun.trans ?_⟩
  rw [hEnds]
  simp [begins, Finset.sum_range_succ, Policy.get?_sequence, List.range_succ]
  decide

end PeerServices.Retry.Plan

/-! ## Tasks that are run in time -/

namespace PeerServices.Retry.Task

variable {α ε : Type} {plan : Plan ε} {op : Plan.Operation α ε} {last : Nat}

/-- A task after it was run some times, first at `start` and from then on whenever it was due. -/
def punctual (t : Task α ε) (start : Duration) : (count : Nat) → Task α ε
  | 0 => t
  | count + 1 =>
    let t := t.punctual start count
    (t.step? (t.due?.getD start)).getD t

/-- An instant of a course that begins at `start`. -/
def since (start time : Duration) : Duration := ⟨start.nanoseconds + time.nanoseconds⟩

/-- A task that makes an attempt, of a course that began at `start`. -/
def amid (plan : Plan ε) (op : Plan.Operation α ε) (number? : Option Nat) (start : Duration)
    (attempt : Nat) : Task α ε :=
  { create plan op number? false with
    starts := (List.range (attempt + 1)).map fun i => since start (plan.begins op i)
    phase := .attempting (since start (plan.ends op attempt)) }

/-- A task between an attempt and the next one. -/
def between (plan : Plan ε) (op : Plan.Operation α ε) (number? : Option Nat) (start : Duration)
    (attempt : Nat) : Task α ε :=
  { amid plan op number? start attempt with
    phase := .waiting (since start (plan.begins op (attempt + 1))) }

theorem step?_amid (number? : Option Nat) (start : Duration) (attempt : Nat) :
    (amid plan op number? start attempt).step? (since start (plan.ends op attempt)) =
      match plan.next (attempt + 1) (op.gives attempt) with
      | .stop outcome => some ((amid plan op number? start attempt).finish outcome)
      | .again delay => some { amid plan op number? start attempt with
          phase := .waiting (since start
            ⟨(plan.ends op attempt).nanoseconds + delay.nanoseconds⟩) } := by
  cases hNext : plan.next (attempt + 1) (op.gives attempt) <;>
    simp [step?, amid, isFinished, create, hNext, since, Nat.add_assoc]

theorem step?_between (number? : Option Nat) (start : Duration) (attempt : Nat) :
    (between plan op number? start attempt).step?
        (since start (plan.begins op (attempt + 1))) =
      some (amid plan op number? start (attempt + 1)) := by
  simp [step?, between, amid, Task.attempt, isFinished, create, List.range_succ, since, Plan.ends,
    Nat.add_assoc]

/-- A task is amid attempt after attempt until the last one. -/
theorem punctual_amid (hLast : plan.Last op last) (number? : Option Nat) (start : Duration)
    {attempt : Nat} (hAttempt : attempt ≤ last) :
    (create plan op number? false).punctual start (2 * attempt + 1) =
      amid plan op number? start attempt := by
  induction attempt with
  | zero =>
    simp [punctual, step?, due?, Task.attempt, isFinished, create, amid, since, Plan.ends, Plan.begins]
  | succ attempt ih =>
    obtain ⟨delay, hDelay, hNext⟩ :=
      Plan.next_of_not_ends fun earlier hLe => hLast.2 earlier (Nat.lt_of_le_of_lt hLe hAttempt)
    have hStep : (create plan op number? false).punctual start (2 * attempt + 2) =
        between plan op number? start attempt := by
      rw [punctual, ih (Nat.le_of_succ_le hAttempt)]
      change ((amid plan op number? start attempt).step?
        (since start (plan.ends op attempt))).getD _ = _
      rw [step?_amid, hNext, between, Plan.begins_succ hDelay]
      rfl
    rw [Nat.mul_succ, punctual, hStep]
    change ((between plan op number? start attempt).step?
      (since start (plan.begins op (attempt + 1)))).getD _ = _
    rw [step?_between]
    rfl

/-- A task that nobody asks to stop, and that is run whenever it is due, takes the course of its plan
from the instant on at which it is run first. Its listener is told of the end. -/
theorem punctual_eq (hLast : plan.Last op last) (number? : Option Nat) (start : Duration) :
    (create plan op number? false).punctual start (2 * (last + 1)) =
      { create plan op number? false with
        starts := (List.range (last + 1)).map fun i => since start (plan.begins op i)
        phase := .finished (plan.verdict (last + 1) (op.gives last))
        hooks := [Hook.ofOutcome (plan.verdict (last + 1) (op.gives last))] } := by
  rw [Nat.mul_succ, punctual, punctual_amid hLast number? start le_rfl]
  change ((amid plan op number? start last).step? (since start (plan.ends op last))).getD _ = _
  rw [step?_amid, Plan.next_of_ends hLast.1]
  rfl

end PeerServices.Retry.Task
