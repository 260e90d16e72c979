import PeerServices.Proofs.Node.Finality

/-!
# Cues

A call begins when the node says so, and a call that waits for another one goes on when the node
says so. Whoever runs a node gives such an event back to it once, and gives it no response that was
not handed over. A run that keeps to this is timely.

* `Cue`: what a node says that a call may do. `Node.Due`: it was said more often than it was done.
* `Node.Timely`: a run of which every occasion comes in time.
* `Node.tally`: how often something happens to a session in a run.
-/

namespace PeerServices

/-- What a node says that a call may do. -/
inductive Cue
  /-- It may begin. -/
  | start (k : CallId)
  /-- It may go on after the call before it. -/
  | proceed (k : CallId)
deriving DecidableEq

def Event.cue? : Event → Option Cue
  | .begin k => some (.start k)
  | .proceed k => some (.proceed k)
  | _ => none

def Effect.cue? : Effect → Option Cue
  | .later e => e.cue?
  | _ => none

namespace Node

def Occasion.cue? : Occasion → Option Cue
  | .move (.event e) => e.cue?
  | _ => none

/-- The cues that a node gave. -/
def cues (n : Node) : List Cue := n.effects.filterMap Effect.cue?

/-- The cues that were taken in a run. -/
def cuesOf (past : List Occasion) : List Cue := past.filterMap Occasion.cue?

/-- A cue was given more often than it was taken. -/
def Due (n : Node) (taken : List Cue) (q : Cue) : Prop := taken.count q < n.cues.count q

instance (n : Node) (taken : List Cue) (q : Cue) : Decidable (n.Due taken q) :=
  inferInstanceAs (Decidable (_ < _))

/-- An occasion comes in time: a cue is taken once for each time that it was given, and a response
is taken that was handed over. -/
structure InTime (n : Node) (taken : List Cue) (o : Occasion) : Prop where
  cue : ∀ q, o.cue? = some q → n.Due taken q
  response : ∀ l m, o = .move (.event (.deliver l m)) → .later (.deliver l m) ∈ n.effects

/-- A run of a node that begins with nothing, of which every occasion comes in time. -/
inductive Timely (start : Node) : List Occasion → Prop
  | nil (h : start.Blank) : Timely start []
  | concat {past : List Occasion} {o : Occasion} (h : Timely start past)
      (hAdmits : (start.meetAll past).Admits o)
      (hInTime : (start.meetAll past).InTime (cuesOf past) o) : Timely start (past ++ [o])

variable {n start : Node} {taken : List Cue} {past : List Occasion} {q : Cue}

theorem meetAll_concat (n : Node) (past : List Occasion) (o : Occasion) :
    n.meetAll (past ++ [o]) = (n.meetAll past).meet o := by
  unfold meetAll
  rw [List.foldl_append]
  rfl

theorem cuesOf_concat (past : List Occasion) (o : Occasion) :
    cuesOf (past ++ [o]) = cuesOf past ++ o.cue?.toList := by
  unfold cuesOf
  rw [List.filterMap_append]
  cases h : o.cue? <;> simp [h]

/-- What is due after a cue was taken was due before. -/
theorem Due.of_append {more : List Cue} (h : n.Due (taken ++ more) q) : n.Due taken q := by
  unfold Due at h ⊢
  rw [List.count_append] at h
  exact Nat.lt_of_le_of_lt (Nat.le_add_right _ _) h

/-- A cue that was given once more than it was taken is not due any more when it is taken. -/
theorem not_due_taken (h : n.cues.count q ≤ taken.count q + 1) : ¬n.Due (taken ++ [q]) q := by
  unfold Due
  rw [List.count_append, List.count_singleton_self]
  exact Nat.not_lt.mpr h

/-- The node said that a call may go on, if that is due. -/
theorem Due.mem_effects {k : CallId} (h : n.Due taken (.proceed k)) :
    .later (.proceed k) ∈ n.effects := by
  have hGiven : .proceed k ∈ n.cues := List.count_pos_iff.mp (Nat.zero_lt_of_lt h)
  obtain ⟨e, hMem, hCue⟩ := List.mem_filterMap.mp hGiven
  cases e with
  | later e =>
    cases e with
    | proceed j =>
      cases hCue
      exact hMem
    | _ => cases hCue
  | _ => cases hCue

/-- An occasion that is no cue and hands no response over is always in time. -/
theorem Timely.plain {o : Occasion} (h : Timely start past)
    (hAdmits : (start.meetAll past).Admits o) (hCue : o.cue? = none)
    (hResponse : ∀ l m, o ≠ .move (.event (.deliver l m))) : Timely start (past ++ [o]) := by
  refine h.concat hAdmits ⟨fun q hTaken => ?_, fun l m hDeliver => ?_⟩
  · cases hCue.symm.trans hTaken
  · exact absurd hDeliver (hResponse l m)

/-- A cue that is due can be taken. -/
theorem Timely.cued {e : Event} (h : Timely start past)
    (hAdmits : (start.meetAll past).Admits (.move (.event e))) (hCue : e.cue? = some q)
    (hDue : (start.meetAll past).Due (cuesOf past) q) :
    Timely start (past ++ [.move (.event e)]) := by
  refine h.concat hAdmits ⟨fun q' hTaken => ?_, fun l m hDeliver => ?_⟩
  · obtain rfl := Option.some.inj (hCue.symm.trans hTaken)
    exact hDue
  · cases hDeliver
    cases hCue

/-- Every timely run is the life of a node. -/
theorem Timely.lived (h : Timely start past) : (start.meetAll past).Lived := by
  induction h with
  | nil h => exact .blank h
  | @concat past o _ hAdmits _ ih =>
    rw [meetAll_concat]
    exact ih.meet o hAdmits

/-- A node is sound after any number of occasions. -/
theorem Lived.sound (h : n.Lived) : n.Sound := by
  induction h with
  | blank h => exact h.sound
  | @meet n _ o hAdmits ih =>
    cases o with
    | move m => exact (make_outlives hAdmits ih).1
    | unlink s => exact (goes_unlink n s ih).1
    | close c => exact (goes_terminate n c none ih).1
    | closeAll => exact (goes_closeAll n ih).1

/-! ## Counting -/

/-- How often in a run something happens to a session. -/
def tally (f : Node → Occasion → Option SessionId) (s : SessionId) : Node → List Occasion → Nat
  | _, [] => 0
  | n, o :: os => (if f n o = some s then 1 else 0) + tally f s (n.meet o) os

theorem tally_concat (f : Node → Occasion → Option SessionId) (s : SessionId) (n : Node)
    (past : List Occasion) (o : Occasion) : tally f s n (past ++ [o]) =
      tally f s n past + if f (n.meetAll past) o = some s then 1 else 0 := by
  induction past generalizing n with
  | nil => exact Nat.add_comm _ _
  | cons first rest ih =>
    change _ + tally f s (n.meet first) (rest ++ [o]) = _
    rw [ih, ← Nat.add_assoc]
    rfl

end Node

end PeerServices
