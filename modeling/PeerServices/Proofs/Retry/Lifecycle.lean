import PeerServices.Proofs.Retry.Registry

/-!
# What becomes of the tasks of a registry

* `Registry.Later`: every task keeps its place and gets to a later state, in any run.
* `Registry.Stops`: a task that was asked to stop makes no attempt any more and ends as cancelled
  when it is run.
* `Registry.Agree`: two registries that differ in one task only stay so, whatever happens to both.
* `Registry.lifecycle`: what becomes of every task and what the registry counts, in any run.
-/

namespace PeerServices.Retry.Registry

variable {α ε : Type} {r r' r'' : Registry α ε} {i : Nat} {t : Task α ε}

theorem run_append (r : Registry α ε) (events later : List (Event α ε)) :
    r.run (events ++ later) = (r.run events).run later := List.foldl_append

/-! ## Tasks one by one -/

/-- A run of one task changes that task and what is tracked. -/
theorem exists_poll_eq (r : Registry α ε) (i : Nat) : ∃ tracked,
    r.poll i = { r with tracked, tasks := r.tasks.modify i (·.poll r.now) } := by
  unfold Registry.poll
  cases hTask : r.tasks[i]? with
  | none =>
    refine ⟨r.tracked, ?_⟩
    rw [List.modify_eq_self (List.getElem?_eq_none_iff.mp hTask)]
  | some t =>
    rw [modify_of_getElem? _ hTask]
    dsimp only
    cases (t.poll r.now).isFinished with
    | false => exact ⟨_, rfl⟩
    | true =>
      unfold deregister
      cases (t.poll r.now).number with
      | none => exact ⟨_, rfl⟩
      | some k => exact ⟨_, rfl⟩

/-- What an event does to the task at a place. -/
def affect (r : Registry α ε) (e : Event α ε) (i : Nat) (t : Task α ε) : Task α ε :=
  match e with
  | .execute .. | .pass _ => t
  | .poll j => if j = i then t.poll r.now else t
  | .cancel j => if j = i then t.stop else t
  | .shutdown => r.stopTracked t

theorem later_affect (r : Registry α ε) (e : Event α ε) (i : Nat) (t : Task α ε) :
    t.Later (r.affect e i t) := by
  cases e with
  | execute plan op => exact .refl t
  | pass time => exact .refl t
  | poll j =>
    by_cases hj : j = i
    · simpa [affect, hj] using t.later_poll r.now
    · simpa [affect, hj] using Task.Later.refl t
  | cancel j =>
    by_cases hj : j = i
    · simpa [affect, hj] using t.later_stop
    · simpa [affect, hj] using Task.Later.refl t
  | shutdown => exact r.later_stopTracked t

/-- The task that an event takes up. -/
def taken (r : Registry α ε) : Event α ε → List (Task α ε)
  | .execute plan op =>
    [if r.shutDown then .create plan op none true else .create plan op (some r.nextNumber) false]
  | _ => []

theorem tasks_handle (r : Registry α ε) (e : Event α ε) :
    (r.handle e).tasks = r.tasks.mapIdx (r.affect e) ++ r.taken e := by
  have hSame : r.tasks.mapIdx (fun _ t => t) = r.tasks := List.ext_getElem? fun i => by simp
  have hModify : ∀ (j : Nat) (f : Task α ε → Task α ε),
      r.tasks.modify j f = r.tasks.mapIdx fun i t => if j = i then f t else t := by
    intro j f
    refine List.ext_getElem? fun i => ?_
    rw [List.getElem?_modify, List.getElem?_mapIdx]
    by_cases hj : j = i <;> simp [hj]
  cases e with
  | execute plan op =>
    change (r.register plan op).tasks = r.tasks.mapIdx (fun _ t => t) ++ _
    rw [hSame]
    cases hDown : r.shutDown <;> simp [register, hDown, taken]
  | pass time =>
    change r.tasks = r.tasks.mapIdx (fun _ t => t) ++ []
    rw [hSame, List.append_nil]
  | poll j =>
    obtain ⟨tracked, hPoll⟩ := r.exists_poll_eq j
    change (r.poll j).tasks = r.tasks.mapIdx (fun i t => if j = i then t.poll r.now else t) ++ []
    rw [hPoll, ← hModify, List.append_nil]
  | cancel j =>
    change r.tasks.modify j Task.stop = r.tasks.mapIdx (fun i t => if j = i then t.stop else t) ++ []
    rw [hModify, List.append_nil]
  | shutdown =>
    change r.tasks.map r.stopTracked = r.tasks.mapIdx (fun _ => r.stopTracked) ++ []
    rw [List.append_nil]
    exact List.ext_getElem? fun i => by simp

theorem getElem?_handle (hTask : r.tasks[i]? = some t) (e : Event α ε) :
    (r.handle e).tasks[i]? = some (r.affect e i t) := by
  obtain ⟨hi, -⟩ := List.getElem?_eq_some_iff.mp hTask
  have hLength : i < (r.tasks.mapIdx (r.affect e)).length := by rwa [List.length_mapIdx]
  rw [tasks_handle, List.getElem?_append_left hLength, List.getElem?_mapIdx, hTask]
  rfl

theorem shutDown_handle (r : Registry α ε) (e : Event α ε) :
    (r.handle e).shutDown = true ↔ r.shutDown = true ∨ e = .shutdown := by
  cases e with
  | execute plan op =>
    change (r.register plan op).shutDown = true ↔ _
    cases hDown : r.shutDown <;> simp [register, hDown]
  | pass time => simp [handle]
  | poll j =>
    change (r.poll j).shutDown = true ↔ _
    obtain ⟨tracked, hPoll⟩ := r.exists_poll_eq j
    simp [hPoll]
  | cancel j => simp [handle]
  | shutdown => simp [handle]

theorem shutDown_run (r : Registry α ε) (events : List (Event α ε)) :
    (r.run events).shutDown = true ↔ r.shutDown = true ∨ .shutdown ∈ events := by
  induction events generalizing r with
  | nil => simp [run]
  | cons e events ih =>
    change ((r.handle e).run events).shutDown = true ↔ _
    rw [ih, shutDown_handle, or_assoc, List.mem_cons, eq_comm (a := e)]

/-! ## Any run -/

/-- Every task keeps its place and gets to a later state. -/
def Later (r r' : Registry α ε) : Prop :=
  ∀ (i : Nat) (t : Task α ε), r.tasks[i]? = some t → ∃ t', r'.tasks[i]? = some t' ∧ t.Later t'

theorem Later.refl (r : Registry α ε) : r.Later r := fun _ t hTask => ⟨t, hTask, .refl t⟩

theorem Later.trans (h : r.Later r') (h' : r'.Later r'') : r.Later r'' := by
  intro i t hTask
  obtain ⟨t', hTask', hLater⟩ := h i t hTask
  obtain ⟨t'', hTask'', hLater'⟩ := h' i t' hTask'
  exact ⟨t'', hTask'', hLater.trans hLater'⟩

theorem later_handle (r : Registry α ε) (e : Event α ε) : r.Later (r.handle e) :=
  fun i t hTask => ⟨r.affect e i t, getElem?_handle hTask e, r.later_affect e i t⟩

theorem later_run (r : Registry α ε) (events : List (Event α ε)) : r.Later (r.run events) := by
  induction events generalizing r with
  | nil => exact .refl r
  | cons e events ih => exact (r.later_handle e).trans (ih _)

/-- What is executed, if an event is that. -/
def Event.executed? : Event α ε → Option (Plan ε × Plan.Operation α ε)
  | .execute plan op => some (plan, op)
  | _ => none

/-- What tasks carry out. -/
def works (tasks : List (Task α ε)) : List (Plan ε × Plan.Operation α ε) :=
  tasks.map fun t => (t.plan, t.op)

theorem works_handle (r : Registry α ε) (e : Event α ε) :
    works (r.handle e).tasks = works r.tasks ++ e.executed?.toList := by
  have hOld : works (r.tasks.mapIdx (r.affect e)) = works r.tasks := by
    refine List.ext_getElem? fun i => ?_
    have hWork : ∀ t, ((r.affect e i t).plan, (r.affect e i t).op) = (t.plan, t.op) := fun t => by
      rw [(r.later_affect e i t).plan, (r.later_affect e i t).op]
    simp [works, hWork, Function.comp_def]
  have hNew : works (r.taken e) = e.executed?.toList := by
    cases e with
    | execute plan op => cases hDown : r.shutDown <;> simp [taken, works, hDown] <;> rfl
    | pass | poll | cancel | shutdown => rfl
  rw [tasks_handle, works, List.map_append]
  exact congr (congrArg _ hOld) hNew

/-- The tasks are those that were executed, in order. -/
theorem works_run (r : Registry α ε) (events : List (Event α ε)) :
    works (r.run events).tasks = works r.tasks ++ events.filterMap Event.executed? := by
  induction events generalizing r with
  | nil => simp [run]
  | cons e events ih =>
    change works ((r.handle e).run events).tasks = _
    rw [ih, works_handle, List.append_assoc]
    cases hExecuted : e.executed? <;> simp [hExecuted]

/-! ## Tasks that were asked to stop -/

/-- Whatever happens from now on, a task makes no attempt besides those it has made, and it can only
end as cancelled, which it does at the latest when it is run. -/
def Stops (r : Registry α ε) (i : Nat) (starts : List Duration) : Prop :=
  ∀ later : List (Event α ε), ∃ t, (r.run later).tasks[i]? = some t ∧ t.starts = starts ∧
    (∀ outcome, t.outcome? = some outcome → outcome = .error .cancelled) ∧
    (.poll i ∈ later → t.isFinished = true)

theorem stops_of_cancelled (hTask : r.tasks[i]? = some t) (hCancelled : t.cancelled = true)
    (hFinished : t.isFinished = false) {starts : List Duration} (hStarts : t.starts = starts) :
    r.Stops i starts := by
  intro later
  obtain ⟨t', hTask', hLater⟩ := r.later_run later i t hTask
  obtain ⟨hStarts', hEnd⟩ := hLater.stopped hCancelled hFinished
  refine ⟨t', hTask', hStarts'.trans hStarts, hEnd, fun hPoll => ?_⟩
  -- At its first run the task has ended already, or it ends then; it stays so.
  obtain ⟨before, behind, rfl⟩ := List.append_of_mem hPoll
  obtain ⟨t₁, hTask₁, hLater₁⟩ := r.later_run before i t hTask
  have hPolled : ((r.run before).affect (.poll i) i t₁).isFinished = true := by
    simp only [affect, if_true]
    cases hFinished₁ : t₁.isFinished with
    | true => exact (t₁.later_poll _).isFinished hFinished₁
    | false =>
      rw [Task.poll_of_cancelled (hLater₁.cancelled hCancelled) hFinished₁]
      rfl
  have hTask₂ := getElem?_handle hTask₁ (.poll i)
  obtain ⟨t₃, hTask₃, hLater₃⟩ := ((r.run before).handle (.poll i)).later_run behind i _ hTask₂
  have hSame : t' = t₃ := by
    rw [run_append] at hTask'
    exact Option.some.inj (hTask'.symm.trans hTask₃)
  rw [hSame]
  exact hLater₃.isFinished hPolled

theorem stops_cancel (hTask : r.tasks[i]? = some t) (hFinished : t.isFinished = false) :
    (r.handle (.cancel i)).Stops i t.starts := by
  have hStopped : (r.handle (.cancel i)).tasks[i]? = some t.stop := by
    simpa [affect] using getElem?_handle hTask (.cancel i)
  exact stops_of_cancelled hStopped rfl hFinished rfl

theorem Tracks.stops_shutdown (h : r.Tracks) (hTask : r.tasks[i]? = some t)
    (hFinished : t.isFinished = false) : (r.handle .shutdown).Stops i t.starts := by
  have hMem : t ∈ r.tasks := List.mem_of_getElem? hTask
  have hStopped : (r.stopTracked t).cancelled = true := by
    cases hDown : r.shutDown with
    | false =>
      have hTracked := (h.tracks_iff hDown hMem).mpr hFinished
      simp [stopTracked, hTracked, Task.stop]
    | true =>
      rcases h.stopped hDown t hMem with hEnd | hCancelled
      · rw [hFinished] at hEnd
        cases hEnd
      · exact (r.later_stopTracked t).cancelled hCancelled
  have hStill : (r.stopTracked t).isFinished = false ∧ (r.stopTracked t).starts = t.starts := by
    rcases r.stopTracked_cases t with hSame | hSame
    · rw [hSame]
      exact ⟨hFinished, rfl⟩
    · rw [hSame]
      exact ⟨hFinished, rfl⟩
  exact stops_of_cancelled (getElem?_handle hTask .shutdown) hStopped hStill.1 hStill.2

theorem stops_execute (hDown : r.shutDown = true) (plan : Plan ε) (op : Plan.Operation α ε) :
    (r.handle (.execute plan op)).Stops r.tasks.length [] := by
  have hTask : (r.handle (.execute plan op)).tasks[r.tasks.length]? =
      some (.create plan op none true) := by
    simp [handle, register, hDown]
  exact stops_of_cancelled hTask rfl rfl rfl

/-! ## Asking again -/

theorem Tracks.shutdown_again (h : r.Tracks) (hDown : r.shutDown = true) :
    r.handle .shutdown = r := by
  have hNone : ∀ t, r.tracks t = false := by
    intro t
    unfold tracks
    rw [h.drained hDown]
    cases t.number <;> rfl
  have hTasks : r.tasks.map r.stopTracked = r.tasks := by
    have hSame : r.stopTracked = id := funext fun t => by simp [stopTracked, hNone]
    rw [hSame, List.map_id]
  change { r with shutDown := true, tracked := .empty, tasks := r.tasks.map r.stopTracked } = r
  rw [hTasks, ← hDown, ← h.drained hDown]

theorem cancel_again (h : ∀ t, r.tasks[i]? = some t → t.cancelled = true) :
    r.handle (.cancel i) = r := by
  have hTasks : r.tasks.modify i Task.stop = r.tasks := by
    cases hTask : r.tasks[i]? with
    | none => exact List.modify_eq_self (List.getElem?_eq_none_iff.mp hTask)
    | some t =>
      have hSame : t.stop = t := by
        have hCancelled := h t hTask
        cases t
        subst hCancelled
        rfl
      obtain ⟨before, behind, hOld, hNew⟩ := exists_split hTask
      rw [modify_of_getElem? Task.stop hTask, hSame, hNew, ← hOld]
  change { r with tasks := r.tasks.modify i Task.stop } = r
  rw [hTasks]

/-! ## The other tasks -/

/-- What a registry does with its tasks depends on, besides the tasks. -/
def outline (r : Registry α ε) : Duration × Bool × Nat := (r.now, r.shutDown, r.nextNumber)

theorem outline_handle (h : r'.outline = r.outline) (e : Event α ε) :
    (r'.handle e).outline = (r.handle e).outline := by
  obtain ⟨hNow, hRest⟩ := Prod.mk.inj h
  obtain ⟨hDown, hNext⟩ := Prod.mk.inj hRest
  cases e with
  | execute plan op =>
    change (r'.register plan op).outline = (r.register plan op).outline
    cases hHere : r.shutDown <;> simp [register, outline, hNow, hDown, hNext, hHere]
  | pass time => simp [handle, outline, hNow, hDown, hNext]
  | poll j =>
    obtain ⟨tracked, hPoll⟩ := r.exists_poll_eq j
    obtain ⟨tracked', hPoll'⟩ := r'.exists_poll_eq j
    change (r'.poll j).outline = (r.poll j).outline
    rw [hPoll, hPoll']
    exact h
  | cancel j => exact h
  | shutdown => simp [handle, outline, hNow, hNext]

/-- Two registries that differ in one task only. -/
structure Agree (i : Nat) (r r' : Registry α ε) : Prop where
  outline : r'.outline = r.outline
  length : r'.tasks.length = r.tasks.length
  others : ∀ j, j ≠ i → r'.tasks[j]? = r.tasks[j]?

theorem agree_cancel (r : Registry α ε) (i : Nat) : Agree i r (r.handle (.cancel i)) where
  outline := rfl
  length := List.length_modify _ _ _
  others j hj := by
    change (r.tasks.modify i Task.stop)[j]? = _
    rw [List.getElem?_modify]
    simp [Ne.symm hj]

/-- An event does the same to the other tasks of both, so they still differ in one task only. -/
theorem Agree.handle (h : Agree i r r') (hTracks : r.Tracks) (hTracks' : r'.Tracks)
    (e : Event α ε) : Agree i (r.handle e) (r'.handle e) := by
  obtain ⟨hNow, hRest⟩ := Prod.mk.inj h.outline
  obtain ⟨hDown, hNext⟩ := Prod.mk.inj hRest
  have hAffect : ∀ j t, r.tasks[j]? = some t → r'.tasks[j]? = some t →
      r'.affect e j t = r.affect e j t := by
    intro j t hTask hTask'
    cases e with
    | execute | pass | cancel => rfl
    | poll k => simp [affect, hNow]
    | shutdown =>
      have hTracked : r'.tracks t = r.tracks t := by
        cases hHere : r.shutDown with
        | false =>
          rw [Bool.eq_iff_iff, hTracks.tracks_iff hHere (List.mem_of_getElem? hTask),
            hTracks'.tracks_iff (hDown.trans hHere) (List.mem_of_getElem? hTask')]
        | true =>
          unfold tracks
          rw [hTracks.drained hHere, hTracks'.drained (hDown.trans hHere)]
      simp [affect, stopTracked, hTracked]
  have hTaken : r'.taken e = r.taken e := by
    cases e with
    | execute => simp [taken, hDown, hNext]
    | pass | poll | cancel | shutdown => rfl
  constructor
  case outline => exact outline_handle h.outline e
  case length => simp [tasks_handle, hTaken, h.length]
  case others =>
    intro j hj
    rw [tasks_handle, tasks_handle, hTaken, List.getElem?_append, List.getElem?_append]
    simp only [List.length_mapIdx, List.getElem?_mapIdx, h.length, h.others j hj]
    by_cases hLength : j < r.tasks.length
    · rw [if_pos hLength, if_pos hLength]
      have hTask : r.tasks[j]? = some r.tasks[j] := List.getElem?_eq_getElem hLength
      rw [hTask]
      exact congrArg some (hAffect j _ hTask ((h.others j hj).trans hTask))
    · rw [if_neg hLength, if_neg hLength]

theorem Agree.run (h : Agree i r r') (hTracks : r.Tracks) (hTracks' : r'.Tracks)
    (events : List (Event α ε)) : Agree i (r.run events) (r'.run events) := by
  induction events generalizing r r' with
  | nil => exact h
  | cons e events ih =>
    exact ih (h.handle hTracks hTracks' e) (hTracks.handle e) (hTracks'.handle e)

/-! ## Tasks that are run at once -/

theorem exists_run_advanceUpTo (limit : Nat) (r : Registry α ε) (target : Duration) :
    ∃ events, advanceUpTo limit r target = r.run events := by
  induction limit generalizing r with
  | zero => exact ⟨[], rfl⟩
  | succ limit ih =>
    unfold advanceUpTo
    dsimp only
    generalize hNext : min (r.nextDue?.elim target.nanoseconds Duration.nanoseconds)
      target.nanoseconds = next
    let step : List (Event α ε) := .pass ⟨next - r.now.nanoseconds⟩ ::
      (List.range (r.handle (.pass ⟨next - r.now.nanoseconds⟩)).tasks.length).map .poll
    have hStep : (r.handle (.pass ⟨next - r.now.nanoseconds⟩)).settle = r.run step := rfl
    rw [hStep]
    by_cases hMore : next < target.nanoseconds
    · obtain ⟨events, hEvents⟩ := ih (r.run step)
      exact ⟨step ++ events, by rw [if_pos hMore, hEvents, run_append]⟩
    · exact ⟨step, if_neg hMore⟩

/-- Letting time pass while every task is run as soon as it can go on is one of the runs. -/
theorem exists_run_advance (r : Registry α ε) (time : Duration) :
    ∃ events, r.advance time = r.run events := exists_run_advanceUpTo _ r _

/-! ## The lifecycle -/

theorem works_eq (events : List (Event α ε)) :
    works ((empty : Registry α ε).run events).tasks = events.filterMap Event.executed? :=
  works_run empty events

/-- What becomes of the tasks of a registry, and what it counts, whatever happened so far.

The listener of a task is told once, when the task ends, and what it is told matches the end. A task
that has not ended when it is asked to stop, by itself or with all others, makes no attempt any more
and ends as cancelled, and so does a task that is executed after a shutdown. Until a shutdown the
tasks that have not ended are counted, from then on none. Asking one task to stop changes nothing
for the other ones, and asking again changes nothing at all. -/
theorem lifecycle (events : List (Event α ε)) :
    let r := (empty : Registry α ε).run events
    works r.tasks = events.filterMap Event.executed? ∧
      (∀ t ∈ r.tasks,
        (∀ value, t.hooks = [.completed value] ↔ t.outcome? = some (.ok value)) ∧
        (t.hooks = [.canceled] ↔ t.outcome? = some (.error .cancelled)) ∧
        (∀ cause, t.hooks = [.failed cause] ↔
          t.outcome? = some (.error cause) ∧ cause.isCancelled = false) ∧
        (t.hooks = [] ↔ t.isFinished = false)) ∧
      (∀ i t, r.tasks[i]? = some t → t.isFinished = false →
        (r.handle (.cancel i)).Stops i t.starts ∧ (r.handle .shutdown).Stops i t.starts) ∧
      (.shutdown ∈ events → ∀ plan op,
        (r.handle (.execute plan op)).Stops r.tasks.length []) ∧
      (.shutdown ∉ events → r.inFlight = (r.tasks.filter (!·.isFinished)).length) ∧
      (.shutdown ∈ events → r.inFlight = 0) ∧
      (∀ i j later, j ≠ i →
        ((r.handle (.cancel i)).run later).tasks[j]? = (r.run later).tasks[j]?) ∧
      (∀ i < r.tasks.length, ∀ later,
        let r' := (r.handle (.cancel i)).run later
        r'.handle (.cancel i) = r') ∧
      (∀ later,
        let r' := (r.handle .shutdown).run later
        r'.handle .shutdown = r') := by
  intro r
  have hTracks : r.Tracks := tracks_empty.run events
  have hDown : r.shutDown = true ↔ .shutdown ∈ events :=
    (shutDown_run empty events).trans (or_iff_right Bool.false_ne_true)
  refine ⟨works_eq events, fun t hMem => (hTracks.told t hMem).hooks_iff,
    fun i t hTask hFinished =>
      ⟨stops_cancel hTask hFinished, hTracks.stops_shutdown hTask hFinished⟩,
    fun hEvent => stops_execute (hDown.mpr hEvent), fun hNone => ?_, fun hEvent => ?_,
    fun i j later hj => ?_, fun i hi later => ?_, fun later => ?_⟩
  · have hUp : r.shutDown = false := by
      rw [← Bool.not_eq_true]
      exact fun h => hNone (hDown.mp h)
    rw [hTracks.inFlight_eq, hUp]
    rfl
  · rw [hTracks.inFlight_eq, hDown.mpr hEvent]
    rfl
  · exact ((agree_cancel r i).run hTracks (hTracks.cancel i) later).others j hj
  · refine cancel_again fun t' hTask' => ?_
    have hTask : r.tasks[i]? = some r.tasks[i] := List.getElem?_eq_getElem hi
    have hStopped : (r.handle (.cancel i)).tasks[i]? = some r.tasks[i].stop := by
      simpa [affect] using getElem?_handle hTask (.cancel i)
    obtain ⟨t'', hTask'', hLater⟩ := (r.handle (.cancel i)).later_run later i _ hStopped
    rw [Option.some.inj (hTask'.symm.trans hTask'')]
    exact hLater.cancelled rfl
  · have hTracks' := hTracks.shutdown.run later
    exact hTracks'.shutdown_again ((shutDown_run _ later).mpr (.inl rfl))

end PeerServices.Retry.Registry
