import PeerServices.Retry.Task

/-!
# What becomes of a retried operation

A task is run now and then. Between two runs somebody may ask it to stop, and the next run ends it
then, wherever it stands.

* `Task.step?_cases`: the four things that a task can do when it is run.
* `Task.Later`: what is common to all later states of a task. An end is final, and a task that was
  asked to stop makes no attempt any more and can only end as cancelled.
* `Task.poll_of_cancelled`: it does end when it is run.
-/

namespace PeerServices.Retry.Task

variable {α ε : Type} {t t' t'' : Task α ε} {now : Duration}

theorem isFinished_eq (t : Task α ε) : t.isFinished = t.outcome?.isSome := by
  unfold isFinished outcome?
  cases t.phase <;> rfl

theorem isFinished_iff : t.isFinished = true ↔ ∃ outcome, t.outcome? = some outcome := by
  rw [isFinished_eq, Option.isSome_iff_exists]

theorem outcome?_eq_none : t.outcome? = none ↔ t.isFinished = false := by
  rw [isFinished_eq, Option.isSome_eq_false_iff, Option.isNone_iff_eq_none]

@[simp] theorem outcome?_finish (t : Task α ε) (outcome : Outcome α ε) :
    (t.finish outcome).outcome? = some outcome := rfl

@[simp] theorem isFinished_stop (t : Task α ε) : t.stop.isFinished = t.isFinished := rfl

/-! ## One thing that a task does -/

/-- A task that is run ends, begins an attempt or waits for the next one. If it was asked to stop it
can only end as cancelled. -/
theorem step?_cases (h : t.step? now = some t') : t.isFinished = false ∧
    ((t.cancelled = true ∧ t' = t.finish (.error .cancelled)) ∨
      (t.cancelled = false ∧ ((∃ outcome, t' = t.finish outcome) ∨ t' = t.attempt now ∨
        ∃ resume, t' = { t with phase := .waiting resume }))) := by
  unfold step? at h
  cases hFinished : t.isFinished with
  | true => simp [hFinished] at h
  | false =>
    refine ⟨rfl, ?_⟩
    cases hCancelled : t.cancelled with
    | true => simp_all
    | false =>
      refine .inr ⟨rfl, ?_⟩
      simp only [hFinished, hCancelled, Bool.false_eq_true, if_false] at h
      cases hPhase : t.phase with
      | finished outcome => simp [hPhase] at h
      | fresh =>
        simp only [hPhase, Option.some.injEq] at h
        exact .inr (.inl h.symm)
      | waiting resume =>
        simp only [hPhase, Option.ite_none_right_eq_some, Option.some.injEq] at h
        exact .inr (.inl h.2.symm)
      | attempting finish =>
        simp only [hPhase, Option.ite_none_right_eq_some] at h
        obtain ⟨-, h⟩ := h
        split at h
        next outcome _ => exact .inl ⟨outcome, (Option.some.inj h).symm⟩
        next delay _ => exact .inr (.inr ⟨_, (Option.some.inj h).symm⟩)

/-- Nobody is told anything before the end, and at the end the listener is told once. -/
def Told (t : Task α ε) : Prop := t.hooks = (t.outcome?.map Hook.ofOutcome).toList

theorem told_create (plan : Plan ε) (op : Plan.Operation α ε) (number : Option Nat)
    (cancelled : Bool) : (create plan op number cancelled).Told := rfl

theorem Told.hooks_of_unfinished (h : t.Told) (hFinished : t.isFinished = false) :
    t.hooks = [] := by
  rw [h, outcome?_eq_none.mpr hFinished]
  rfl

theorem Told.finish (h : t.Told) (hFinished : t.isFinished = false) (outcome : Outcome α ε) :
    (t.finish outcome).Told := by
  have hHooks := h.hooks_of_unfinished hFinished
  simp [Told, Task.finish, hHooks, outcome?]

theorem Told.step (h : t.Told) (hStep : t.step? now = some t') : t'.Told := by
  obtain ⟨hFinished, hCases⟩ := step?_cases hStep
  have hHooks := h.hooks_of_unfinished hFinished
  rcases hCases with ⟨-, rfl⟩ | ⟨-, ⟨outcome, rfl⟩ | rfl | ⟨resume, rfl⟩⟩
  · exact h.finish hFinished _
  · exact h.finish hFinished _
  · simp [Told, attempt, hHooks, outcome?]
  · simp [Told, hHooks, outcome?]

theorem ofOutcome_error (cause : Failure ε) :
    (cause = .cancelled ∧ (Hook.ofOutcome (.error cause) : Hook α ε) = .canceled) ∨
      (cause.isCancelled = false ∧ (Hook.ofOutcome (.error cause) : Hook α ε) = .failed cause) := by
  cases cause with
  | cancelled => exact .inl ⟨rfl, rfl⟩
  | aborted error => exact .inr ⟨rfl, rfl⟩
  | exhausted attempts last => exact .inr ⟨rfl, rfl⟩

/-- What a task tells its listener matches its end: it has completed, was canceled or has failed. -/
theorem Told.hooks_iff (h : t.Told) :
    (∀ value, t.hooks = [.completed value] ↔ t.outcome? = some (.ok value)) ∧
      (t.hooks = [.canceled] ↔ t.outcome? = some (.error .cancelled)) ∧
      (∀ cause, t.hooks = [.failed cause] ↔
        t.outcome? = some (.error cause) ∧ cause.isCancelled = false) ∧
      (t.hooks = [] ↔ t.isFinished = false) := by
  rw [← outcome?_eq_none, h]
  cases t.outcome? with
  | none => simp
  | some outcome =>
    cases outcome with
    | ok value => simp [Hook.ofOutcome]
    | error cause =>
      rcases ofOutcome_error (α := α) cause with ⟨rfl, hHook⟩ | ⟨hFailed, hHook⟩
      · simp [hHook, Failure.isCancelled]
      · have hNot : cause ≠ .cancelled := by
          rintro rfl
          cases hFailed
        have hSame : ∀ cause', cause = cause' ↔ cause = cause' ∧ cause'.isCancelled = false :=
          fun cause' => ⟨fun h => ⟨h, h ▸ hFailed⟩, And.left⟩
        simp [hHook, hNot, ← hSame]

/-! ## Later states -/

/-- One task is a later state of another one. -/
structure Later (t t' : Task α ε) : Prop where
  plan : t'.plan = t.plan
  op : t'.op = t.op
  number : t'.number = t.number
  cancelled : t.cancelled = true → t'.cancelled = true
  ended : ∀ outcome, t.outcome? = some outcome →
    t'.outcome? = some outcome ∧ t'.starts = t.starts ∧ t'.hooks = t.hooks
  stopped : t.cancelled = true → t.isFinished = false →
    t'.starts = t.starts ∧ ∀ outcome, t'.outcome? = some outcome → outcome = .error .cancelled

theorem Later.refl (t : Task α ε) : t.Later t where
  plan := rfl
  op := rfl
  number := rfl
  cancelled := id
  ended _ hOutcome := ⟨hOutcome, rfl, rfl⟩
  stopped _ hFinished := by
    refine ⟨rfl, fun outcome hOutcome => ?_⟩
    rw [outcome?_eq_none.mpr hFinished] at hOutcome
    cases hOutcome

theorem Later.trans (h : t.Later t') (h' : t'.Later t'') : t.Later t'' where
  plan := h'.plan.trans h.plan
  op := h'.op.trans h.op
  number := h'.number.trans h.number
  cancelled hCancelled := h'.cancelled (h.cancelled hCancelled)
  ended outcome hOutcome := by
    obtain ⟨hOutcome', hStarts, hHooks⟩ := h.ended outcome hOutcome
    obtain ⟨hOutcome'', hStarts', hHooks'⟩ := h'.ended outcome hOutcome'
    exact ⟨hOutcome'', hStarts'.trans hStarts, hHooks'.trans hHooks⟩
  stopped hCancelled hFinished := by
    obtain ⟨hStarts, hEnd⟩ := h.stopped hCancelled hFinished
    cases hMiddle : t'.isFinished with
    | true =>
      obtain ⟨outcome, hOutcome⟩ := isFinished_iff.mp hMiddle
      obtain ⟨hOutcome', hStarts', -⟩ := h'.ended outcome hOutcome
      refine ⟨hStarts'.trans hStarts, fun outcome' hLast => ?_⟩
      have hSame : outcome' = outcome := Option.some.inj (hLast.symm.trans hOutcome')
      rw [hSame]
      exact hEnd outcome hOutcome
    | false =>
      obtain ⟨hStarts', hEnd'⟩ := h'.stopped (h.cancelled hCancelled) hMiddle
      exact ⟨hStarts'.trans hStarts, hEnd'⟩

theorem later_stop (t : Task α ε) : t.Later t.stop where
  plan := rfl
  op := rfl
  number := rfl
  cancelled _ := rfl
  ended _ hOutcome := ⟨hOutcome, rfl, rfl⟩
  stopped hCancelled hFinished := ⟨rfl, ((Later.refl t).stopped hCancelled hFinished).2⟩

theorem Later.isFinished (h : t.Later t') (hFinished : t.isFinished = true) :
    t'.isFinished = true := by
  obtain ⟨outcome, hOutcome⟩ := isFinished_iff.mp hFinished
  exact isFinished_iff.mpr ⟨outcome, (h.ended outcome hOutcome).1⟩

theorem Later.of_step (h : t.step? now = some t') : t.Later t' := by
  obtain ⟨hFinished, hCases⟩ := step?_cases h
  have hNone := outcome?_eq_none.mpr hFinished
  constructor
  case plan => rcases hCases with ⟨-, rfl⟩ | ⟨-, ⟨_, rfl⟩ | rfl | ⟨_, rfl⟩⟩ <;> rfl
  case op => rcases hCases with ⟨-, rfl⟩ | ⟨-, ⟨_, rfl⟩ | rfl | ⟨_, rfl⟩⟩ <;> rfl
  case number => rcases hCases with ⟨-, rfl⟩ | ⟨-, ⟨_, rfl⟩ | rfl | ⟨_, rfl⟩⟩ <;> rfl
  case cancelled =>
    intro hCancelled
    rcases hCases with ⟨-, rfl⟩ | ⟨hNot, -⟩
    · exact hCancelled
    · rw [hNot] at hCancelled
      cases hCancelled
  case ended =>
    intro outcome hOutcome
    rw [hNone] at hOutcome
    cases hOutcome
  case stopped =>
    intro hCancelled _
    rcases hCases with ⟨-, rfl⟩ | ⟨hNot, -⟩
    · refine ⟨rfl, fun outcome hOutcome => ?_⟩
      rw [outcome?_finish] at hOutcome
      exact (Option.some.inj hOutcome).symm
    · rw [hNot] at hCancelled
      cases hCancelled

/-! ## A whole run -/

theorem pollUpTo_spec (limit : Nat) (t : Task α ε) (now : Duration) :
    t.Later (t.pollUpTo limit now) ∧ (t.Told → (t.pollUpTo limit now).Told) := by
  induction limit generalizing t with
  | zero => exact ⟨.refl t, id⟩
  | succ limit ih =>
    unfold pollUpTo
    cases hStep : t.step? now with
    | none => exact ⟨.refl t, id⟩
    | some t' =>
      obtain ⟨hLater, hTold⟩ := ih t'
      exact ⟨(Later.of_step hStep).trans hLater, fun h => hTold (h.step hStep)⟩

theorem later_poll (t : Task α ε) (now : Duration) : t.Later (t.poll now) :=
  (pollUpTo_spec _ t now).1

theorem Told.poll (h : t.Told) (now : Duration) : (t.poll now).Told := (pollUpTo_spec _ t now).2 h

theorem pollUpTo_of_isFinished (h : t.isFinished = true) (limit : Nat) (now : Duration) :
    t.pollUpTo limit now = t := by
  have hStep : t.step? now = none := by simp [step?, h]
  cases limit <;> simp [pollUpTo, hStep]

/-- A task that was asked to stop ends as cancelled when it is run. -/
theorem poll_of_cancelled (hCancelled : t.cancelled = true) (hFinished : t.isFinished = false)
    (now : Duration) : t.poll now = t.finish (.error .cancelled) := by
  have hStep : t.step? now = some (t.finish (.error .cancelled)) := by
    simp [step?, hCancelled, hFinished]
  obtain ⟨limit, hLimit⟩ : ∃ limit, pollLimit = limit + 1 := ⟨pollLimit - 1, by decide⟩
  unfold poll
  rw [hLimit, pollUpTo, hStep]
  exact pollUpTo_of_isFinished rfl limit now

end PeerServices.Retry.Task
