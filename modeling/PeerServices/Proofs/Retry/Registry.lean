import PeerServices.Proofs.Collection.SortedSet
import PeerServices.Proofs.Retry.Task
import PeerServices.Retry.Registry

/-!
# What a registry keeps track of

Tasks are executed, run, asked to stop one by one or all together, in any order, while time passes.

* `Registry.Tracks`: as long as the registry is not shut down it tracks exactly the tasks that have
  not ended; after that it tracks none, and every task has ended or was asked to stop.
* `Registry.Tracks.run`: it stays so.
-/

namespace PeerServices.Retry

variable {α ε : Type}

namespace Registry

variable {r r' : Registry α ε}

/-- The numbers of tasks, in order. -/
def numbers (tasks : List (Task α ε)) : List Nat := tasks.filterMap Task.number

/-- The tasks that have not ended. -/
def unfinished (tasks : List (Task α ε)) : List (Task α ε) := tasks.filter (!·.isFinished)

theorem numbers_append (l l' : List (Task α ε)) : numbers (l ++ l') = numbers l ++ numbers l' :=
  List.filterMap_append

theorem unfinished_append (l l' : List (Task α ε)) :
    unfinished (l ++ l') = unfinished l ++ unfinished l' := List.filter_append l l'

theorem numbers_cons (t : Task α ε) (l : List (Task α ε)) :
    numbers (t :: l) = t.number.toList ++ numbers l := by
  cases hNumber : t.number <;> simp [numbers, hNumber]

theorem unfinished_cons (t : Task α ε) (l : List (Task α ε)) :
    unfinished (t :: l) = if t.isFinished then unfinished l else t :: unfinished l := by
  cases hFinished : t.isFinished <;> simp [unfinished, hFinished]

theorem numbers_unfinished_subset {l : List (Task α ε)} {k : Nat} (h : k ∈ numbers (unfinished l)) :
    k ∈ numbers l := by
  obtain ⟨t, hMem, hNumber⟩ := List.mem_filterMap.mp h
  exact List.mem_filterMap.mpr ⟨t, (List.mem_filter.mp hMem).1, hNumber⟩

/-- A change of tasks that leaves their numbers and ends alone. -/
theorem numbers_map {f : Task α ε → Task α ε} (hNumber : ∀ t, (f t).number = t.number)
    (l : List (Task α ε)) : numbers (l.map f) = numbers l := by
  have hSame : Task.number ∘ f = Task.number := funext hNumber
  unfold numbers
  rw [List.filterMap_map, hSame]

/-- A place in a list, with what is before and behind it. -/
theorem exists_split {β : Type} {l : List β} {i : Nat} {a : β} (h : l[i]? = some a) :
    ∃ before behind, l = before ++ a :: behind ∧ ∀ a', l.set i a' = before ++ a' :: behind := by
  obtain ⟨hi, rfl⟩ := List.getElem?_eq_some_iff.mp h
  refine ⟨l.take i, l.drop (i + 1), ?_, fun a' => ?_⟩
  · rw [List.getElem_cons_drop, List.take_append_drop]
  · rw [List.set_eq_take_append_cons_drop, if_pos hi]

/-! ## What is tracked -/

structure Tracks (r : Registry α ε) : Prop where
  increasing : (numbers r.tasks).Pairwise (· < ·)
  bounded : ∀ k ∈ numbers r.tasks, k < r.nextNumber
  numbered : r.shutDown = false → ∀ t ∈ r.tasks, t.number.isSome = true
  tracked : r.shutDown = false → r.tracked.toList = numbers (unfinished r.tasks)
  drained : r.shutDown = true → r.tracked = .empty
  stopped : r.shutDown = true → ∀ t ∈ r.tasks, t.isFinished = true ∨ t.cancelled = true
  told : ∀ t ∈ r.tasks, t.Told

theorem tracks_empty : (empty : Registry α ε).Tracks where
  increasing := .nil
  bounded := nofun
  numbered := nofun
  tracked _ := rfl
  drained _ := rfl
  stopped := nofun
  told := nofun

theorem Tracks.inFlight_eq (h : r.Tracks) :
    r.inFlight = if r.shutDown then 0 else (unfinished r.tasks).length := by
  unfold inFlight SortedSet.size
  cases hDown : r.shutDown with
  | true =>
    rw [h.drained hDown]
    rfl
  | false =>
    rw [h.tracked hDown]
    have hNumbered : ∀ t ∈ unfinished r.tasks, t.number.isSome = true := fun t hMem =>
      h.numbered hDown t (List.mem_filter.mp hMem).1
    generalize unfinished r.tasks = l at hNumbered ⊢
    induction l with
    | nil => rfl
    | cons t l ih =>
      obtain ⟨k, hk⟩ := Option.isSome_iff_exists.mp (hNumbered t List.mem_cons_self)
      have hRest := ih fun t' hMem => hNumbered t' (List.mem_cons_of_mem t hMem)
      simp only [numbers, List.filterMap_cons, hk, Bool.false_eq_true, if_false] at hRest ⊢
      simp only [List.length_cons, hRest]

/-- The number of a task is that of no other one. -/
theorem Tracks.number_ne (h : r.Tracks) {before behind : List (Task α ε)} {t : Task α ε}
    (hTasks : r.tasks = before ++ t :: behind) {k : Nat} (hk : t.number = some k) :
    k ∉ numbers before ∧ k ∉ numbers behind := by
  have hIncreasing := h.increasing
  rw [hTasks, numbers_append, List.pairwise_append] at hIncreasing
  have hHere : numbers (t :: behind) = k :: numbers behind := by simp [numbers, hk]
  rw [hHere, List.pairwise_cons] at hIncreasing
  obtain ⟨-, ⟨hBehind, -⟩, hBefore⟩ := hIncreasing
  refine ⟨fun hMem => ?_, fun hMem => ?_⟩
  · exact Nat.lt_irrefl k (hBefore k hMem k List.mem_cons_self)
  · exact Nat.lt_irrefl k (hBehind k hMem)

theorem Tracks.told_concat (h : r.Tracks) {t : Task α ε} (hTold : t.Told) :
    ∀ t' ∈ r.tasks ++ [t], t'.Told := by
  intro t' hMem
  rcases List.mem_append.mp hMem with hMem | hMem
  · exact h.told t' hMem
  · rw [List.mem_singleton.mp hMem]
    exact hTold

/-- After a shutdown a task is taken up to be stopped, and is not tracked. -/
theorem Tracks.register_stopped (h : r.Tracks) (hDown : r.shutDown = true) (plan : Plan ε)
    (op : Plan.Operation α ε) :
    Tracks { r with tasks := r.tasks ++ [Task.create plan op none true] } := by
  have hNumbers : numbers (r.tasks ++ [Task.create plan op none true]) = numbers r.tasks := by
    simp [numbers, Task.create]
  constructor
  case increasing => exact hNumbers ▸ h.increasing
  case bounded => exact hNumbers ▸ h.bounded
  case numbered =>
    intro hUp
    cases hDown.symm.trans hUp
  case tracked =>
    intro hUp
    cases hDown.symm.trans hUp
  case drained => exact fun _ => h.drained hDown
  case stopped =>
    intro _ t hMem
    rcases List.mem_append.mp hMem with hMem | hMem
    · exact h.stopped hDown t hMem
    · rw [List.mem_singleton.mp hMem]
      exact .inr rfl
  case told => exact h.told_concat (Task.told_create plan op none true)

/-- Until then it is tracked under the next number. -/
theorem Tracks.register_tracked (h : r.Tracks) (hUp : r.shutDown = false) (plan : Plan ε)
    (op : Plan.Operation α ε) :
    Tracks { r with
      nextNumber := r.nextNumber + 1
      tracked := r.tracked.insert r.nextNumber
      tasks := r.tasks ++ [Task.create plan op (some r.nextNumber) false] } := by
  have hNumbers : numbers (r.tasks ++ [Task.create plan op (some r.nextNumber) false]) =
      numbers r.tasks ++ [r.nextNumber] := by simp [numbers, Task.create]
  have hUnfinished : numbers (unfinished (r.tasks ++ [Task.create plan op (some r.nextNumber)
      false])) = numbers (unfinished r.tasks) ++ [r.nextNumber] := by
    simp [numbers, unfinished, Task.create, Task.isFinished]
  constructor
  case increasing =>
    change (numbers (r.tasks ++ [_])).Pairwise _
    rw [hNumbers, List.pairwise_append]
    refine ⟨h.increasing, List.pairwise_singleton _ _, fun k hk k' hk' => ?_⟩
    rw [List.mem_singleton.mp hk']
    exact h.bounded k hk
  case bounded =>
    change ∀ k ∈ numbers (r.tasks ++ [_]), k < r.nextNumber + 1
    rw [hNumbers]
    intro k hk
    rcases List.mem_append.mp hk with hk | hk
    · exact Nat.lt_succ_of_lt (h.bounded k hk)
    · rw [List.mem_singleton.mp hk]
      exact Nat.lt_succ_self _
  case numbered =>
    intro _ t hMem
    rcases List.mem_append.mp hMem with hMem | hMem
    · exact h.numbered hUp t hMem
    · rw [List.mem_singleton.mp hMem]
      rfl
  case tracked =>
    intro _
    have hLess : ∀ k ∈ r.tracked.toList, compare k r.nextNumber = .lt := by
      rw [h.tracked hUp]
      intro k hk
      exact Nat.compare_eq_lt.mpr (h.bounded k (numbers_unfinished_subset hk))
    change SortedSet.insertList r.nextNumber r.tracked.toList = numbers (unfinished (r.tasks ++ [_]))
    rw [SortedSet.insertList_of_forall_lt hLess, hUnfinished, h.tracked hUp]
  case drained =>
    intro hDown
    cases hUp.symm.trans hDown
  case stopped =>
    intro hDown
    cases hUp.symm.trans hDown
  case told => exact h.told_concat (Task.told_create plan op _ false)

theorem Tracks.register (h : r.Tracks) (plan : Plan ε) (op : Plan.Operation α ε) :
    (r.register plan op).Tracks := by
  unfold Registry.register
  by_cases hDown : r.shutDown = true
  · rw [if_pos hDown]
    exact h.register_stopped hDown plan op
  · rw [if_neg hDown]
    exact h.register_tracked (Bool.not_eq_true _ ▸ hDown) plan op

/-- A task gets further, or is asked to stop, and stays where it is. -/
structure Moves (r r' : Registry α ε) (t t' : Task α ε) (before behind : List (Task α ε)) :
    Prop where
  old : r.tasks = before ++ t :: behind
  new : r'.tasks = before ++ t' :: behind
  later : t.Later t'
  told : t.Told → t'.Told
  shutDown : r'.shutDown = r.shutDown
  nextNumber : r'.nextNumber = r.nextNumber

variable {t t' : Task α ε} {before behind : List (Task α ε)}

theorem Moves.numbers (h : Moves r r' t t' before behind) : numbers r'.tasks = numbers r.tasks := by
  rw [h.old, h.new, numbers_append, numbers_append, numbers_cons, numbers_cons, h.later.number]

theorem Moves.tracks (h : Moves r r' t t' before behind) (hTracks : r.Tracks)
    (hTracked : r.shutDown = false → r'.tracked.toList = Registry.numbers (unfinished r'.tasks))
    (hDrained : r.shutDown = true → r'.tracked = .empty) : r'.Tracks := by
  have hMem : ∀ a ∈ r'.tasks, a = t' ∨ a ∈ r.tasks := by
    rw [h.old, h.new]
    intro a hMem
    rcases List.mem_append.mp hMem with hMem | hMem
    · exact .inr (List.mem_append_left _ hMem)
    · rcases List.mem_cons.mp hMem with rfl | hMem
      · exact .inl rfl
      · exact .inr (List.mem_append_right _ (List.mem_cons_of_mem t hMem))
  have hHere : t ∈ r.tasks := h.old ▸ List.mem_append_right _ List.mem_cons_self
  constructor
  case increasing => exact h.numbers ▸ hTracks.increasing
  case bounded => exact h.nextNumber ▸ h.numbers ▸ hTracks.bounded
  case numbered =>
    intro hUp a ha
    rw [h.shutDown] at hUp
    rcases hMem a ha with rfl | ha
    · rw [h.later.number]
      exact hTracks.numbered hUp t hHere
    · exact hTracks.numbered hUp a ha
  case tracked => exact fun hUp => hTracked (h.shutDown ▸ hUp)
  case drained => exact fun hDown => hDrained (h.shutDown ▸ hDown)
  case stopped =>
    intro hDown a ha
    rw [h.shutDown] at hDown
    rcases hMem a ha with rfl | ha
    · rcases hTracks.stopped hDown t hHere with hFinished | hCancelled
      · exact .inl (h.later.isFinished hFinished)
      · exact .inr (h.later.cancelled hCancelled)
    · exact hTracks.stopped hDown a ha
  case told =>
    intro a ha
    rcases hMem a ha with rfl | ha
    · exact h.told (hTracks.told t hHere)
    · exact hTracks.told a ha

/-- What is tracked once a task has ended. -/
theorem Tracks.tracked_of_ended (h : r.Tracks) (hUp : r.shutDown = false)
    (hTasks : r.tasks = before ++ t :: behind) (hFinished : t'.isFinished = true) {k : Nat}
    (hk : t.number = some k) :
    (r.tracked.erase k).toList = numbers (unfinished (before ++ t' :: behind)) := by
  obtain ⟨hBefore, hBehind⟩ := h.number_ne hTasks hk
  have hKeep : ∀ l : List (Task α ε), k ∉ numbers l →
      (numbers (unfinished l)).filter (· ≠ k) = numbers (unfinished l) := by
    intro l hNot
    rw [List.filter_eq_self]
    intro k' hk'
    refine decide_eq_true fun hSame => hNot ?_
    rw [← hSame]
    exact numbers_unfinished_subset hk'
  have hNew : unfinished (t' :: behind) = unfinished behind := by simp [unfinished, hFinished]
  have hOld : (numbers (unfinished (t :: behind))).filter (· ≠ k) = numbers (unfinished behind) := by
    rw [← hKeep behind hBehind]
    cases hEnd : t.isFinished <;> simp [unfinished, numbers, hEnd, hk]
  rw [SortedSet.toList_erase, h.tracked hUp, hTasks, unfinished_append, numbers_append,
    List.filter_append, hKeep before hBefore, hOld, unfinished_append, numbers_append, hNew]

/-- A task that has not ended, or had ended before, is tracked as it was. -/
theorem Moves.tracks_of_isFinished (h : Moves r r' t t' before behind) (hTracks : r.Tracks)
    (hFinished : t'.isFinished = t.isFinished) (hTracked : r'.tracked = r.tracked) : r'.Tracks := by
  have hSame : Registry.numbers (unfinished (t' :: behind)) =
      Registry.numbers (unfinished (t :: behind)) := by
    rw [unfinished_cons, unfinished_cons, hFinished]
    cases t.isFinished with
    | true => rfl
    | false => simp [numbers_cons, h.later.number]
  refine h.tracks hTracks (fun hUp => ?_) fun hDown => ?_
  · rw [hTracked, h.new, hTracks.tracked hUp, h.old, unfinished_append, unfinished_append,
      numbers_append, numbers_append, hSame]
  · rw [hTracked]
    exact hTracks.drained hDown

/-- A task that has ended is tracked no longer. -/
theorem Moves.tracks_deregister (h : Moves r r' t t' before behind) (hTracks : r.Tracks)
    (hFinished : t'.isFinished = true) (hTracked : r'.tracked = r.tracked) :
    (r'.deregister t').Tracks := by
  have hHere : t ∈ r.tasks := h.old ▸ List.mem_append_right _ List.mem_cons_self
  unfold deregister
  cases hNumber : t'.number with
  | none =>
    have hWas : t.number = none := h.later.number.symm.trans hNumber
    refine h.tracks hTracks (fun hUp => ?_) fun hDown => hTracked.trans (hTracks.drained hDown)
    cases hWas ▸ hTracks.numbered hUp t hHere
  | some k =>
    have hWas : t.number = some k := h.later.number.symm.trans hNumber
    have hErased : Moves r { r' with tracked := r'.tracked.erase k } t t' before behind :=
      ⟨h.old, h.new, h.later, h.told, h.shutDown, h.nextNumber⟩
    refine hErased.tracks hTracks (fun hUp => ?_) fun hDown => ?_
    · change (r'.tracked.erase k).toList = Registry.numbers (unfinished r'.tasks)
      rw [hTracked, h.new]
      exact hTracks.tracked_of_ended hUp h.old hFinished hWas
    · change r'.tracked.erase k = .empty
      rw [hTracked, hTracks.drained hDown]
      rfl

theorem Tracks.poll (h : r.Tracks) (i : Nat) : (r.poll i).Tracks := by
  unfold Registry.poll
  cases hTask : r.tasks[i]? with
  | none => exact h
  | some t =>
    obtain ⟨before, behind, hOld, hNew⟩ := exists_split hTask
    have hLater := t.later_poll r.now
    have hMoves : Moves r { r with tasks := r.tasks.set i (t.poll r.now) } t (t.poll r.now) before
        behind := ⟨hOld, hNew _, hLater, fun hTold => hTold.poll _, rfl, rfl⟩
    dsimp only
    cases hFinished : (t.poll r.now).isFinished with
    | true =>
      rw [if_pos rfl]
      exact hMoves.tracks_deregister h hFinished rfl
    | false =>
      have hWas : t.isFinished = false := by
        rw [Bool.eq_false_iff]
        intro hEnd
        cases hFinished.symm.trans (hLater.isFinished hEnd)
      rw [if_neg Bool.false_ne_true]
      exact hMoves.tracks_of_isFinished h (hFinished.trans hWas.symm) rfl

theorem modify_of_getElem? {β : Type} {l : List β} {i : Nat} {a : β} (f : β → β)
    (h : l[i]? = some a) : l.modify i f = l.set i (f a) := by
  refine List.ext_getElem? fun j => ?_
  rw [List.getElem?_modify, List.getElem?_set]
  by_cases hij : i = j
  · obtain ⟨hi, hGet⟩ := List.getElem?_eq_some_iff.mp h
    subst hij
    simp [hGet, hi]
  · simp [hij]

theorem Tracks.cancel (h : r.Tracks) (i : Nat) : (r.handle (.cancel i)).Tracks := by
  cases hTask : r.tasks[i]? with
  | none =>
    have hSame : r.tasks.modify i Task.stop = r.tasks :=
      List.modify_eq_self (List.getElem?_eq_none_iff.mp hTask)
    change Tracks { r with tasks := r.tasks.modify i Task.stop }
    rw [hSame]
    exact h
  | some t =>
    obtain ⟨before, behind, hOld, hNew⟩ := exists_split hTask
    have hModified : (r.handle (.cancel i)).tasks = before ++ t.stop :: behind :=
      (modify_of_getElem? Task.stop hTask).trans (hNew t.stop)
    have hMoves : Moves r (r.handle (.cancel i)) t t.stop before behind :=
      ⟨hOld, hModified, t.later_stop, id, rfl, rfl⟩
    exact hMoves.tracks_of_isFinished h t.isFinished_stop rfl

theorem Tracks.pass (h : r.Tracks) (time : Duration) : (r.handle (.pass time)).Tracks :=
  ⟨h.increasing, h.bounded, h.numbered, h.tracked, h.drained, h.stopped, h.told⟩

/-- A shutdown asks exactly the tasks to stop that have not ended, as long as there was none. -/
theorem Tracks.tracks_iff (h : r.Tracks) (hUp : r.shutDown = false) {t : Task α ε}
    (hMem : t ∈ r.tasks) : r.tracks t = true ↔ t.isFinished = false := by
  obtain ⟨before, behind, hTasks⟩ := List.append_of_mem hMem
  obtain ⟨k, hk⟩ := Option.isSome_iff_exists.mp (h.numbered hUp t hMem)
  obtain ⟨hBefore, hBehind⟩ := h.number_ne hTasks hk
  have hBefore' : k ∉ numbers (unfinished before) := fun hIn => hBefore (numbers_unfinished_subset hIn)
  have hBehind' : k ∉ numbers (unfinished behind) := fun hIn => hBehind (numbers_unfinished_subset hIn)
  have hHere : k ∈ numbers (unfinished r.tasks) ↔ t.isFinished = false := by
    rw [hTasks, unfinished_append, unfinished_cons, numbers_append, List.mem_append,
      or_iff_right hBefore']
    cases hFinished : t.isFinished with
    | true => simpa using hBehind'
    | false => simp [numbers_cons, hk]
  simp only [tracks, hk]
  rw [SortedSet.contains_iff, h.tracked hUp, hHere]

/-- What a shutdown makes of a task. -/
def stopTracked (r : Registry α ε) (t : Task α ε) : Task α ε := if r.tracks t then t.stop else t

theorem stopTracked_cases (r : Registry α ε) (t : Task α ε) :
    r.stopTracked t = t ∨ r.stopTracked t = t.stop := by
  unfold stopTracked
  cases r.tracks t
  · exact .inl rfl
  · exact .inr rfl

theorem later_stopTracked (r : Registry α ε) (t : Task α ε) : t.Later (r.stopTracked t) := by
  rcases r.stopTracked_cases t with hSame | hSame
  · rw [hSame]
    exact .refl t
  · rw [hSame]
    exact t.later_stop

theorem Tracks.shutdown (h : r.Tracks) : (r.handle .shutdown).Tracks := by
  have hNumbers : numbers (r.handle .shutdown).tasks = numbers r.tasks :=
    numbers_map (fun t => (r.later_stopTracked t).number) r.tasks
  constructor
  case increasing => exact hNumbers ▸ h.increasing
  case bounded => exact hNumbers ▸ h.bounded
  case numbered => exact nofun
  case tracked => exact nofun
  case drained => exact fun _ => rfl
  case stopped =>
    intro _ t' hMem
    obtain ⟨t, hOld, rfl⟩ := List.mem_map.mp hMem
    cases hDown : r.shutDown with
    | true =>
      rcases h.stopped hDown t hOld with hFinished | hCancelled
      · exact .inl ((r.later_stopTracked t).isFinished hFinished)
      · exact .inr ((r.later_stopTracked t).cancelled hCancelled)
    | false =>
      have hIff := h.tracks_iff hDown hOld
      by_cases hTracked : r.tracks t = true
      · exact .inr (by simp [hTracked, Task.stop])
      · have hFinished : t.isFinished = true := by
          rw [← Bool.not_eq_false]
          exact fun hNot => hTracked (hIff.mpr hNot)
        exact .inl (by simp [hTracked, hFinished])
  case told =>
    intro t' hMem
    obtain ⟨t, hOld, rfl⟩ := List.mem_map.mp hMem
    change (r.stopTracked t).Told
    rcases r.stopTracked_cases t with hSame | hSame
    · rw [hSame]
      exact h.told t hOld
    · rw [hSame]
      exact h.told t hOld

theorem Tracks.handle (h : r.Tracks) (e : Event α ε) : (r.handle e).Tracks := by
  cases e with
  | execute plan op => exact h.register plan op
  | pass time => exact h.pass time
  | poll i => exact h.poll i
  | cancel i => exact h.cancel i
  | shutdown => exact h.shutdown

theorem Tracks.run (h : r.Tracks) (events : List (Event α ε)) : (r.run events).Tracks := by
  induction events generalizing r with
  | nil => exact h
  | cons e events ih => exact ih (h.handle e)

end Registry

end PeerServices.Retry
