import PeerServices.Proofs.Node.Pursuing

/-!
# How many attempts there were, and how they ended

In a timely run the owner of a session is told once of each attempt to connect how it ended. There
is one exception: a handshake with somebody who named a service, and whose time is over, ends
without a word.

* `Node.outcomes`: the ends that the owner of a session was told of.
* `Node.Reported`: what holds after a run, as one attempt after another is counted.
* `Node.Reports`: what the next occasion tells, and whom.
* `Node.attempts_reported`: both hold at every time of a timely run.
* `Node.expiry_untold`: the exception.
-/

namespace PeerServices

/-- Tells how an attempt to connect ended. -/
def Session.Hook.endsAttempt : Session.Hook → Bool
  | .connected _ => true
  | hook => hook.isFailure

/-- The session whose owner is told that it is connected. -/
def Session.connected? : SessionId × Session.Hook → Option SessionId
  | (s, .connected _) => some s
  | _ => none

def Word.connected? : Word → Option SessionId
  | .connected s => some s
  | .closed .. => none

/-- The session for which a connection is opened. -/
def Turn.opened? : Turn → Option SessionId
  | .opened _ s => some s
  | _ => none

/-- What is meant for one session. -/
def Session.hooksFor (s : SessionId) (told : List (SessionId × Session.Hook)) : List Session.Hook :=
  (told.filter (·.1 = s)).map (·.2)

namespace Node

open Session (connected? hooksFor)

variable {n n' : Node} {c : ConnectionId} {s s' : SessionId} {k : CallId} {taken : List Cue}
  {told : List (SessionId × Session.Hook)} {begun overrun : Option SessionId} {o : Occasion}

/-- What the owner of a session was told of attempts to connect, in order. -/
def hooksOf (n : Node) (s : SessionId) : List Session.Hook := hooksFor s n.notices

/-- The ends of attempts that the owner of a session was told of. -/
def outcomes (n : Node) (s : SessionId) : List Session.Hook :=
  (n.hooksOf s).filter Session.Hook.endsAttempt

/-- A session is told once that it will be connected, right before it is told for the first time
that it is. -/
inductive Heralded : List Session.Hook → Prop
  | never {failures : List Session.Hook} (h : ∀ hook ∈ failures, hook.isFailure = true) :
      Heralded failures
  | once {failures later : List Session.Hook} (view : Session.View)
      (h : ∀ hook ∈ failures, hook.isFailure = true) (hLater : .configured ∉ later) :
      Heralded (failures ++ .configured :: .connected view :: later)

/-- Of the attempts of a session that began, all but the one that is under way have ended, and its
owner was told so, but for those that were cut off. -/
structure Balanced (n : Node) (s : SessionId) (begun cutOff : Nat) : Prop where
  underWay : n.Trying s → begun = (n.outcomes s).length + cutOff + 1
  ended : ¬n.Trying s → begun = (n.outcomes s).length + cutOff

/-- What a run tells of attempts to connect. -/
structure Reported (start : Node) (past : List Occasion) : Prop where
  balanced : ∀ s, (start.meetAll past).Balanced s (tally begun? s start past)
    (tally overrun? s start past)
  heralded : ∀ s, Heralded ((start.meetAll past).hooksOf s)
  /-- Nobody is told that a connection is closed who was not told before that there is one. -/
  closedLater : ∀ before s reason after,
    (start.meetAll past).words = before ++ .closed s reason :: after → .connected s ∈ before
  /-- A request is dispatched only to a session that was told that it will be connected. -/
  dispatched : ∀ c s, ((start.meetAll past).connections.find? c).bind (·.session) = some s →
    .configured ∈ (start.meetAll past).hooksOf s

/-- The attempt of a session ends with an occasion. -/
def Concludes (n : Node) (o : Occasion) (s : SessionId) : Prop :=
  (n.Trying s ∨ n.begun? o = some s) ∧ ¬(n.meet o).Trying s

/-- What an occasion tells of attempts to connect. -/
structure Reports (n : Node) (o : Occasion) (told : List (SessionId × Session.Hook)) : Prop where
  notices : (n.meet o).notices = n.notices ++ told
  /-- No two attempts are made for one session at the same time. -/
  alone : ∀ s, n.begun? o = some s → ¬n.Trying s
  ends : ∀ s, n.Concludes o s → n.Outcome s told ∨ (n.overrun? o = some s ∧ told = [])
  /-- Nobody else is told anything. -/
  only : ∀ s hook, (s, hook) ∈ told → n.Concludes o s ∧ n.overrun? o ≠ some s
  /-- Exactly the sessions are told to be connected for which a connection is opened. -/
  opened : ∀ story, n.Orderly story → ∃ ts, (n.meet o).Orderly (story ++ ts) ∧
    told.filterMap connected? = ts.filterMap Turn.opened?

/-! ## One outcome -/

theorem hooksFor_append (s : SessionId) (told told' : List (SessionId × Session.Hook)) :
    hooksFor s (told ++ told') = hooksFor s told ++ hooksFor s told' := by
  unfold hooksFor
  rw [List.filter_append, List.map_append]

theorem Tells.hooksOf (h : n.Tells told n') (s : SessionId) :
    n'.hooksOf s = n.hooksOf s ++ hooksFor s told := by
  unfold Node.hooksOf
  rw [h.notices, hooksFor_append]

theorem Tells.outcomes (h : n.Tells told n') (s : SessionId) :
    n'.outcomes s = n.outcomes s ++ (hooksFor s told).filter Session.Hook.endsAttempt := by
  unfold Node.outcomes
  rw [h.hooksOf, List.filter_append]

/-- The owner of the session is told one end of one attempt. -/
theorem Outcome.eq_singleton (h : n.Outcome s told) :
    ∃ hook, (s, hook) ∈ told ∧ (hooksFor s told).filter Session.Hook.endsAttempt = [hook] := by
  cases h with
  | unauthenticated cause => exact ⟨.authenticationFailed cause, by simp, by simp [hooksFor]; rfl⟩
  | unconnected cause => exact ⟨.connectionFailed cause, by simp, by simp [hooksFor]; rfl⟩
  | first view _ => exact ⟨.connected view, by simp, by simp [hooksFor]; rfl⟩
  | again view _ => exact ⟨.connected view, by simp, by simp [hooksFor]; rfl⟩

theorem Outcome.eq_of_mem (h : n.Outcome s told) {hook : Session.Hook} (hMem : (s', hook) ∈ told) :
    s' = s := by
  cases h with
  | first view _ =>
    simp only [List.mem_cons, Prod.mk.injEq, List.not_mem_nil, or_false] at hMem
    exact hMem.elim And.left And.left
  | _ =>
    cases List.mem_singleton.mp hMem
    rfl

theorem hooksFor_eq_nil (h : ∀ hook, (s, hook) ∉ told) : hooksFor s told = [] := by
  unfold hooksFor
  rw [List.map_eq_nil_iff, List.filter_eq_nil_iff]
  rintro ⟨s', hook⟩ hMem hSame
  obtain rfl := of_decide_eq_true hSame
  exact h hook hMem

theorem Outcome.mem_configured (h : n.Outcome s told) : (s, .configured) ∈ told ↔
    ¬n.Configured s ∧ ∃ view, (s, .connected view) ∈ told := by
  cases h <;> simp_all

/-! ## What a step tells -/

/-- What a step is for the attempts of one session. -/
inductive Relates (n : Node) (s : SessionId) (begun overrun : Option SessionId)
    (told : List (SessionId × Session.Hook)) (n' : Node) : Prop
  | untouched (hBegun : begun ≠ some s) (hOver : overrun ≠ some s)
      (hTold : ∀ hook, (s, hook) ∉ told) (hTrying : n'.Trying s ↔ n.Trying s)
  | begins (hBegun : begun = some s) (hOver : overrun ≠ some s) (hIdle : ¬n.Trying s)
      (hPursues : n.Pursues s told n')
  | goesOn (hBegun : begun ≠ some s) (hOver : overrun ≠ some s) (hTrying : n.Trying s)
      (hPursues : n.Pursues s told n')
  | overruns (hBegun : begun ≠ some s) (hOver : overrun = some s) (hTrying : n.Trying s)
      (hAccepts : n.Accepts s) (hTold : told = []) (hEnded : ¬n'.Trying s)

theorem Pursues.not_mem_of_ne (h : n.Pursues s told n') (hs : s' ≠ s) (hook : Session.Hook) :
    (s', hook) ∉ told := by
  rcases h with ⟨-, rfl⟩ | ⟨-, hOutcome⟩
  · exact List.not_mem_nil
  · exact fun hMem => hs (hOutcome.eq_of_mem hMem)

/-- The owner of a session is told nothing by a step, or how its attempt ended. -/
theorem Relates.untold_or_ended (h : n.Relates s begun overrun told n') :
    (∀ hook, (s, hook) ∉ told) ∨ (¬n'.Trying s ∧ n.Outcome s told) := by
  have hPursued : n.Pursues s told n' →
      (∀ hook, (s, hook) ∉ told) ∨ (¬n'.Trying s ∧ n.Outcome s told) :=
    Or.imp_left fun ⟨_, hNothing⟩ _ => hNothing ▸ List.not_mem_nil
  cases h with
  | untouched _ _ hTold _ => exact .inl hTold
  | begins _ _ _ hPursues => exact hPursued hPursues
  | goesOn _ _ _ hPursues => exact hPursued hPursues
  | overruns _ _ _ _ hTold _ => exact .inl fun _ => hTold ▸ List.not_mem_nil

/-- Whoever is told something is told how an attempt ended. -/
theorem Relates.ended_of_mem (h : n.Relates s begun overrun told n') {hook : Session.Hook}
    (hMem : (s, hook) ∈ told) : ¬n'.Trying s ∧ n.Outcome s told :=
  h.untold_or_ended.resolve_left fun hUntold => hUntold hook hMem

/-- What a step is for the attempts of all sessions. A connection that is open was attached before
as it is now, if its session did not give it up, or it was opened. -/
structure Affects (n : Node) (begun overrun unlinked : Option SessionId)
    (told : List (SessionId × Session.Hook)) (n' : Node) : Prop where
  tells : n.Tells told n'
  relates : ∀ s, n.Relates s begun overrun told n'
  openFor : ∀ c s, n'.OpenFor c s →
    (n.OpenFor c s ∧ (unlinked ≠ some s → (n'.Attached s c ↔ n.Attached s c))) ∨
      (n'.Attached s c ∧ ∃ view, (s, .connected view) ∈ told)
  unattached : ∀ s hook, (s, hook) ∈ told → n.Unattached s
  settles : n.Settles told n'

theorem Concerns.openFor_or (h : n.Concerns taken s k told n') {c : ConnectionId} {s' : SessionId}
    (hOpen : n'.OpenFor c s') :
    (n.OpenFor c s' ∧ ((none : Option SessionId) ≠ some s' →
      (n'.Attached s' c ↔ n.Attached s' c))) ∨
      (n'.Attached s' c ∧ ∃ view, (s', .connected view) ∈ told) := by
  rcases h.openFor c s' hOpen with ⟨hWasOpen, hAttached⟩ | ⟨rfl, hAttached, hTold⟩
  · exact .inl ⟨hWasOpen, fun _ => hAttached⟩
  · exact .inr ⟨hAttached, hTold⟩

theorem Pursues.unattached (h : n.Pursues s told n') (hUnattached : n.Unattached s)
    (hook : Session.Hook) (hMem : (s', hook) ∈ told) : n.Unattached s' := by
  by_cases hs : s' = s
  · exact hs ▸ hUnattached
  · exact absurd hMem (h.not_mem_of_ne hs hook)

theorem Passes.affects (h : n.Passes taken k begun overrun n') :
    ∃ told, n.Affects begun overrun none told n' := by
  cases h with
  | idles h hSettles =>
    exact ⟨[], h.tells, fun s => .untouched nofun nofun (fun _ => List.not_mem_nil) (h.trying s),
      fun c s hOpen => .inl ((h.openFor c s hOpen).imp_right fun hAttached _ => hAttached),
      fun _ _ => nofun, hSettles⟩
  | @begins s told _ hIdle hUnattached h hPursues hSettles =>
    refine ⟨told, h.tells, fun s' => ?_, fun c s' => h.openFor_or,
      fun s' => hPursues.unattached hUnattached, hSettles⟩
    by_cases hs : s' = s
    · subst hs
      exact .begins rfl nofun hIdle hPursues
    · exact .untouched (fun hSame => hs (Option.some.inj hSame).symm) nofun
        (hPursues.not_mem_of_ne hs) (h.others s' hs)
  | @goesOn s told _ hTrying hUnattached h hPursues hSettles =>
    refine ⟨told, h.tells, fun s' => ?_, fun c s' => h.openFor_or,
      fun s' => hPursues.unattached hUnattached, hSettles⟩
    by_cases hs : s' = s
    · subst hs
      exact .goesOn nofun nofun hTrying hPursues
    · exact .untouched nofun nofun (hPursues.not_mem_of_ne hs) (h.others s' hs)
  | @overruns s _ hTrying hAccepts h hEnded hSettles =>
    refine ⟨[], h.tells, fun s' => ?_, fun c s' => h.openFor_or, fun _ _ => nofun, hSettles⟩
    by_cases hs : s' = s
    · subst hs
      exact .overruns nofun rfl hTrying hAccepts rfl hEnded
    · exact .untouched nofun (fun hSame => hs (Option.some.inj hSame).symm)
        (fun _ => List.not_mem_nil) (h.others s' hs)

/-- Nobody is told that a session gives up its connection, and no attempt is affected. -/
theorem affects_unlink (n : Node) (s : SessionId) :
    n.Affects none none (some s) [] (n.unlink s) where
  tells := tells_modifySession fun _ => rfl
  relates _ := .untouched nofun nofun (fun _ => List.not_mem_nil) Iff.rfl
  openFor _ _ hOpen := .inl ⟨hOpen, fun hOther =>
    attached_unlink.trans (and_iff_right fun hs => hOther (congrArg some hs.symm))⟩
  unattached _ _ := nofun
  settles := .of_nobody fun _ => .of_others fun _ _ => rfl

/-- Every occasion that comes in time affects the attempts of at most one session. -/
theorem Timely.affects {start : Node} {past : List Occasion} (h : Timely start past)
    (hAdmits : (start.meetAll past).Admits o)
    (hInTime : (start.meetAll past).InTime (cuesOf past) o) :
    ∃ told, (start.meetAll past).Affects ((start.meetAll past).begun? o)
      ((start.meetAll past).overrun? o) (unlinked? o) told ((start.meetAll past).meet o) := by
  cases o with
  | unlink s => exact ⟨[], affects_unlink _ s⟩
  | _ =>
    obtain ⟨k, hPasses⟩ := passes_meet h.paced hAdmits hInTime nofun
    exact hPasses.affects

/-- What an attempt that is pursued adds to the ends that were told. -/
theorem Pursues.outcomes (h : n.Pursues s told n') (hTells : n.Tells told n') :
    (n'.Trying s ∧ (n'.outcomes s).length = (n.outcomes s).length) ∨
      (¬n'.Trying s ∧ (n'.outcomes s).length = (n.outcomes s).length + 1) := by
  rw [hTells.outcomes, List.length_append]
  rcases h with ⟨hTrying, rfl⟩ | ⟨hEnded, hOutcome⟩
  · exact .inl ⟨hTrying, rfl⟩
  · obtain ⟨hook, -, hOne⟩ := hOutcome.eq_singleton
    exact .inr ⟨hEnded, by rw [hOne, List.length_singleton]⟩

theorem Tells.outcomes_of_untold (hTells : n.Tells told n') (h : ∀ hook, (s, hook) ∉ told) :
    n'.outcomes s = n.outcomes s := by
  rw [hTells.outcomes, hooksFor_eq_nil h]
  exact List.append_nil _

/-- A step keeps the balance of every session. -/
theorem Relates.balanced (h : n.Relates s begun overrun told n') (hTells : n.Tells told n')
    {began cutOff : Nat} (hBefore : n.Balanced s began cutOff) :
    n'.Balanced s (began + if begun = some s then 1 else 0)
      (cutOff + if overrun = some s then 1 else 0) := by
  have hUnderWay := hBefore.underWay
  have hOver := hBefore.ended
  cases h with
  | untouched hBegun hNotOver hTold hTrying =>
    rw [if_neg hBegun, if_neg hNotOver]
    have hSame := congrArg List.length (hTells.outcomes_of_untold hTold)
    refine ⟨fun hNow => ?_, fun hNow => ?_⟩
    · have := hUnderWay (hTrying.mp hNow)
      omega
    · have := hOver (mt hTrying.mpr hNow)
      omega
  | begins hBegun hNotOver hIdle hPursues =>
    have := hOver hIdle
    rw [if_pos hBegun, if_neg hNotOver]
    rcases hPursues.outcomes hTells with ⟨hNow, hSame⟩ | ⟨hEnded, hMore⟩
    · exact ⟨fun _ => by omega, fun hNot => absurd hNow hNot⟩
    · exact ⟨fun hNow => absurd hNow hEnded, fun _ => by omega⟩
  | goesOn hBegun hNotOver hTrying hPursues =>
    have := hUnderWay hTrying
    rw [if_neg hBegun, if_neg hNotOver]
    rcases hPursues.outcomes hTells with ⟨hNow, hSame⟩ | ⟨hEnded, hMore⟩
    · exact ⟨fun _ => by omega, fun hNot => absurd hNow hNot⟩
    · exact ⟨fun hNow => absurd hNow hEnded, fun _ => by omega⟩
  | overruns hBegun hCutOff hTrying _ hTold hEnded =>
    have := hUnderWay hTrying
    have hSame := congrArg List.length
      (hTells.outcomes_of_untold (s := s) fun _ => hTold ▸ List.not_mem_nil)
    rw [if_neg hBegun, if_pos hCutOff]
    exact ⟨fun hNow => absurd hNow hEnded, fun _ => by omega⟩

/-! ## Configured sessions -/

/-- A session is told of another failure. -/
theorem Heralded.fail {told : List Session.Hook} (h : Heralded told) (hook : Session.Hook)
    (hFailure : hook.isFailure = true) : Heralded (told ++ [hook]) := by
  have hNot : hook ≠ .configured := by
    rintro rfl
    cases hFailure
  cases h with
  | never h =>
    refine .never fun hook' hMem => ?_
    rcases List.mem_append.mp hMem with hMem | hMem
    · exact h hook' hMem
    · rwa [List.mem_singleton.mp hMem]
  | once view h hLater =>
    rw [List.append_assoc]
    refine .once view h fun hMem => ?_
    rcases List.mem_append.mp hMem with hMem | hMem
    · exact hLater hMem
    · exact hNot (List.mem_singleton.mp hMem).symm

theorem Heralded.connect {told : List Session.Hook} (h : Heralded told)
    (hNew : .configured ∉ told) (view : Session.View) :
    Heralded (told ++ [.configured, .connected view]) := by
  cases h with
  | never h => exact .once view h List.not_mem_nil
  | once view' h hLater => exact absurd (List.mem_append_right _ List.mem_cons_self) hNew

theorem Heralded.reconnect {told : List Session.Hook} (h : Heralded told)
    (hAgain : .configured ∈ told) (view : Session.View) :
    Heralded (told ++ [.connected view]) := by
  cases h with
  | never h => cases h _ hAgain
  | once view' h hLater =>
    rw [List.append_assoc]
    refine .once view' h fun hMem => ?_
    rcases List.mem_append.mp hMem with hMem | hMem
    · exact hLater hMem
    · cases List.mem_singleton.mp hMem

theorem mem_hooksFor {hook : Session.Hook} : hook ∈ hooksFor s told ↔ (s, hook) ∈ told := by
  unfold hooksFor
  simp

/-- Who is kept for configured was told so. -/
theorem mem_hooksOf_configured (h : n.Tells told n')
    (hBefore : n.Configured s ↔ .configured ∈ n.hooksOf s) :
    n'.Configured s ↔ .configured ∈ n'.hooksOf s := by
  rw [h.configured, h.hooksOf, List.mem_append, mem_hooksFor, hBefore]

theorem Outcome.heralded (h : n.Outcome s told) (hTells : n.Tells told n')
    (hBefore : n.Configured s ↔ .configured ∈ n.hooksOf s) (hHeralded : Heralded (n.hooksOf s)) :
    Heralded (n'.hooksOf s) := by
  rw [hTells.hooksOf]
  cases h with
  | unauthenticated cause =>
    simpa [hooksFor] using hHeralded.fail (.authenticationFailed cause) rfl
  | unconnected cause =>
    simpa [hooksFor] using hHeralded.fail (.connectionFailed cause) rfl
  | first view hNew => simpa [hooksFor] using hHeralded.connect (mt hBefore.mpr hNew) view
  | again view hAgain => simpa [hooksFor] using hHeralded.reconnect (hBefore.mp hAgain) view

theorem Relates.heralded (h : n.Relates s begun overrun told n') (hTells : n.Tells told n')
    (hBefore : n.Configured s ↔ .configured ∈ n.hooksOf s) (hHeralded : Heralded (n.hooksOf s)) :
    Heralded (n'.hooksOf s) := by
  rcases h.untold_or_ended with hUntold | ⟨-, hOutcome⟩
  · rw [hTells.hooksOf, hooksFor_eq_nil hUntold, List.append_nil]
    exact hHeralded
  · exact hOutcome.heralded hTells hBefore hHeralded

/-! ## Closed connections -/

/-- Before a connection is closed it was opened for its session. -/
theorem Fits.opened_before {earlier later : List Turn} {reason : Option WireError}
    (h : n.Fits c (earlier ++ .closed c s reason :: later)) : .opened c s ∈ earlier := by
  generalize hPast : earlier ++ .closed c s reason :: later = past at h
  have hMem : .closed c s reason ∈ past := hPast ▸ List.mem_append_right _ List.mem_cons_self
  cases h with
  | unknown _ => cases hMem
  | unopened _ _ => cases List.mem_singleton.mp hMem
  | opened _ _ _ => simp at hMem
  | closed _ _ =>
    match earlier, hPast with
    | [], hPast => cases hPast
    | [_], hPast => cases hPast
    | [_, _], hPast =>
      cases hPast
      exact List.mem_cons_of_mem _ (List.mem_singleton_self _)
    | _ :: _ :: _ :: rest, hPast => simp at hPast

/-- Whoever is told that a connection is closed was told before that there is one. -/
theorem Orderly.connected_before {story : List Turn} (h : n.Orderly story)
    {before after : List Word} {reason : Option WireError}
    (hWords : n.words = before ++ .closed s reason :: after) :
    .connected s ∈ before := by
  rw [h.words] at hWords
  obtain ⟨earlier, rest, rfl, rfl, hRest⟩ := List.filterMap_eq_append_iff.mp hWords
  obtain ⟨quiet, t, later, rfl, hQuiet, hClosed, rfl⟩ := List.filterMap_eq_cons_iff.mp hRest
  obtain ⟨c, rfl⟩ : ∃ c, t = .closed c s reason := by
    cases t with
    | closed c s' reason' =>
      cases hClosed
      exact ⟨c, rfl⟩
    | _ => cases hClosed
  have hOpened : .opened c s ∈ earlier ++ quiet := by
    have hFits := h.fits c
    have hTurns : turnsOf c (.closed c s reason :: later) = .closed c s reason :: turnsOf c later :=
      List.filter_cons_of_pos (decide_eq_true rfl)
    rw [← List.append_assoc, turnsOf, List.filter_append] at hFits
    change n.Fits c
      (turnsOf c (earlier ++ quiet) ++ turnsOf c (.closed c s reason :: later)) at hFits
    rw [hTurns] at hFits
    exact (List.mem_filter.mp hFits.opened_before).1
  rcases List.mem_append.mp hOpened with hMem | hMem
  · exact List.mem_filterMap.mpr ⟨_, hMem, rfl⟩
  · cases hQuiet _ hMem

/-! ## Runs -/

/-- What is kept in step with a run. -/
structure Accounted (start : Node) (past : List Occasion) : Prop where
  balanced : ∀ s, (start.meetAll past).Balanced s (tally begun? s start past)
    (tally overrun? s start past)
  heralded : ∀ s, Heralded ((start.meetAll past).hooksOf s)
  configured : ∀ s, (start.meetAll past).Configured s ↔
    .configured ∈ (start.meetAll past).hooksOf s
  openFor : ∀ c s, (start.meetAll past).OpenFor c s → (start.meetAll past).Configured s

theorem Outcome.configured (h : n.Outcome s told) {view : Session.View}
    (hConnected : (s, .connected view) ∈ told) (hTells : n.Tells told n') : n'.Configured s := by
  rw [hTells.configured]
  by_cases hBefore : n.Configured s
  · exact .inl hBefore
  · exact .inr (h.mem_configured.mpr ⟨hBefore, view, hConnected⟩)

theorem Blank.hooksOf (h : n.Blank) (s : SessionId) : n.hooksOf s = [] := by
  simp [Node.hooksOf, hooksFor, notices, h.effects]

theorem Timely.accounted {start : Node} {past : List Occasion} (h : Timely start past) :
    Accounted start past := by
  induction h with
  | nil h =>
    have hHooks := h.hooksOf
    have hIdle : ∀ s, ¬start.Trying s := by
      rintro s (⟨k, hDialling⟩ | ⟨c, k?, hHandshake⟩)
      · obtain ⟨ws, hLineup⟩ := (h.paced.lock s k (.inl hDialling)).1
        simp [lineup?, h.sessions] at hLineup
      · simp [handshake?, h.connections] at hHandshake
    refine ⟨fun s => ⟨fun hTrying => absurd hTrying (hIdle s), fun _ => ?_⟩, fun s => ?_,
      fun s => ?_, fun c s hOpen => ?_⟩
    · change 0 = (start.outcomes s).length + 0
      rw [outcomes, hHooks]
      rfl
    · change Heralded (start.hooksOf s)
      rw [hHooks]
      exact .never fun _ => List.not_mem_nil.elim
    · change start.Configured s ↔ .configured ∈ start.hooksOf s
      rw [hHooks]
      refine iff_of_false ?_ List.not_mem_nil
      rintro ⟨session, hSession, -⟩
      simp [h.sessions] at hSession
    · obtain ⟨connection, hFind, -⟩ := hOpen
      simp [meetAll, h.connections] at hFind
  | @concat past o hPast hAdmits hInTime ih =>
    obtain ⟨told, hTells, hRelates, hOpened, -, -⟩ := hPast.affects hAdmits hInTime
    rw [← meetAll_concat] at hTells hOpened hRelates
    constructor
    case balanced =>
      intro s
      rw [tally_concat, tally_concat]
      exact (hRelates s).balanced hTells (ih.balanced s)
    case heralded => exact fun s => (hRelates s).heralded hTells (ih.configured s) (ih.heralded s)
    case configured => exact fun s => mem_hooksOf_configured hTells (ih.configured s)
    case openFor =>
      intro c s hOpen
      rcases hOpened c s hOpen with ⟨hWasOpen, -⟩ | ⟨-, view, hConnected⟩
      · exact (hTells.configured s).mpr (.inl (ih.openFor c s hWasOpen))
      · exact ((hRelates s).ended_of_mem hConnected).2.configured hConnected hTells

theorem Timely.reported {start : Node} {past : List Occasion} (h : Timely start past) :
    Reported start past where
  balanced := h.accounted.balanced
  heralded := h.accounted.heralded
  closedLater before s reason after hWords := by
    obtain ⟨story, hOrderly⟩ := h.lived.exists_orderly
    exact hOrderly.connected_before hWords
  dispatched c s hSession := by
    obtain ⟨connection, hFind, hOf⟩ := Option.bind_eq_some_iff.mp hSession
    rw [← h.accounted.configured]
    apply h.accounted.openFor c s
    refine ⟨connection, hFind, ?_, hOf⟩
    rw [← Bool.not_eq_false]
    intro hShut
    cases (h.lived.fit.shut c connection hFind hShut).session.symm.trans hOf

/-! ## What happens next -/

/-- Sessions are told that they are connected in the order in which connections are opened for
them. -/
theorem connected_eq_opened {new : List Effect} {ts : List Turn}
    (hWords : new.filterMap Effect.word? = ts.filterMap Turn.word?) :
    (new.filterMap Effect.notice?).filterMap connected? = ts.filterMap Turn.opened? := by
  have hSaid : ∀ e : Effect, (e.notice?.bind connected?) = e.word?.bind Word.connected? := by
    intro e
    cases e with
    | hook s hook => cases hook <;> rfl
    | _ => rfl
  have hTurn : ∀ t : Turn, t.word?.bind Word.connected? = t.opened? := by
    intro t
    cases t <;> rfl
  rw [List.filterMap_filterMap, funext hSaid, ← List.filterMap_filterMap, hWords,
    List.filterMap_filterMap, funext hTurn]

/-- The turns that an occasion adds, told by what the owners are told of attempts. -/
theorem Tells.opened (h : n.Tells told (n.meet o)) (hLived : n.Lived) (hAdmits : n.Admits o)
    {story : List Turn} (hOrderly : n.Orderly story) :
    ∃ ts, (n.meet o).Orderly (story ++ ts) ∧
      told.filterMap connected? = ts.filterMap Turn.opened? := by
  obtain ⟨ts, hPath, -, -⟩ := proceeds_meet hAdmits hLived.fit
  obtain ⟨new, hNew, hWords, -⟩ := hPath.effects
  have hTold : told = new.filterMap Effect.notice? := by
    have hNotices := h.notices
    unfold Node.notices at hNotices
    rw [hNew, List.filterMap_append] at hNotices
    exact (List.append_cancel_left hNotices).symm
  refine ⟨ts, hOrderly.path hLived.fit hPath, ?_⟩
  rw [hTold]
  exact connected_eq_opened hWords

theorem Relates.ends (h : n.Relates s (n.begun? o) (n.overrun? o) told (n.meet o))
    (hEnds : n.Concludes o s) : n.Outcome s told ∨ (n.overrun? o = some s ∧ told = []) := by
  obtain ⟨hBefore, hEnded⟩ := hEnds
  have hPursued : n.Pursues s told (n.meet o) → n.Outcome s told := by
    rintro (⟨hTrying, -⟩ | ⟨-, hOutcome⟩)
    · exact absurd hTrying hEnded
    · exact hOutcome
  cases h with
  | untouched hBegun _ _ hTrying =>
    exact absurd (hBefore.resolve_right hBegun) (mt hTrying.mpr hEnded)
  | begins _ _ _ hPursues => exact .inl (hPursued hPursues)
  | goesOn _ _ _ hPursues => exact .inl (hPursued hPursues)
  | overruns _ hOver _ _ hTold _ => exact .inr ⟨hOver, hTold⟩

theorem Relates.only (h : n.Relates s (n.begun? o) (n.overrun? o) told (n.meet o))
    {hook : Session.Hook} (hMem : (s, hook) ∈ told) : n.Concludes o s ∧ n.overrun? o ≠ some s := by
  have hEnded := (h.ended_of_mem hMem).1
  cases h with
  | untouched _ _ hTold _ => exact absurd hMem (hTold hook)
  | begins hBegun hOver _ _ => exact ⟨⟨.inr hBegun, hEnded⟩, hOver⟩
  | goesOn _ hOver hTrying _ => exact ⟨⟨.inl hTrying, hEnded⟩, hOver⟩
  | overruns _ _ _ _ hTold _ =>
    rw [hTold] at hMem
    cases hMem

theorem Timely.reports {start : Node} {past : List Occasion} (h : Timely start past)
    (hAdmits : (start.meetAll past).Admits o)
    (hInTime : (start.meetAll past).InTime (cuesOf past) o) :
    ∃ told, (start.meetAll past).Reports o told := by
  obtain ⟨told, hTells, hRelates, -, -, -⟩ := h.affects hAdmits hInTime
  refine ⟨told, hTells.notices, fun s hBegun => ?_, fun s => (hRelates s).ends,
    fun s hook => (hRelates s).only, fun story hOrderly => ?_⟩
  · cases hRelates s with
    | begins _ _ hIdle _ => exact hIdle
    | untouched hNot _ _ _ => exact absurd hBegun hNot
    | goesOn hNot _ _ _ => exact absurd hBegun hNot
    | overruns hNot _ _ _ _ _ => exact absurd hBegun hNot
  · exact hTells.opened h.lived hAdmits hOrderly

/-- In every timely run, whatever the owner, the hosts, the other sides and the time do: each
attempt to connect a session is over before the next one begins, and when it is over the owner of
the session is told once how it ended, unless it was cut off because its time was over; and owners
are told that they are connected exactly if a connection was opened. The first time an owner is told
before that it will be connected, once, and no request is dispatched to it before. -/
theorem attempts_reported {start : Node} {past : List Occasion} (h : Timely start past) :
    Reported start past ∧ ∀ o, (start.meetAll past).Admits o →
      (start.meetAll past).InTime (cuesOf past) o → ∃ told, (start.meetAll past).Reports o told :=
  ⟨h.reported, fun _ hAdmits hInTime => h.reports hAdmits hInTime⟩

/-! ## A visit -/

section Visit

open Handshake

/-- A guest comes to exchange grants, and is asked to prove itself. -/
def arrival : List Occasion :=
  [.move (.activate (.exchange Relay.sample.host.address)), .move (.add Relay.sample.record),
    .move (.event (.accept ⟨0, Relay.sample.issued, true⟩)),
    .move (.event (.receive 0 (.ok (Parcel.service .exchange).body))),
    .move (.event (.receive 0 (.ok (Parcel.challenge Relay.sample.counter).body)))]

/-- The time for the guest to prove itself is over. -/
def expiry : Occasion := .move (.event (.expire 0))

theorem arrival_timely : Timely (create Relay.sample.host) arrival := by
  have hBlank : Timely (create Relay.sample.host) [] := .nil ⟨rfl, rfl, rfl, rfl, rfl, rfl⟩
  have hOffers := hBlank.plain (o := .move (.activate (.exchange Relay.sample.host.address)))
    trivial rfl fun _ _ => nofun
  have hKnows := hOffers.plain (o := .move (.add Relay.sample.record)) trivial rfl fun _ _ => nofun
  have hAccepts := hKnows.plain (o := .move (.event (.accept ⟨0, Relay.sample.issued, true⟩))) rfl
    rfl fun _ _ => nofun
  have hNames := hAccepts.plain
    (o := .move (.event (.receive 0 (.ok (Parcel.service .exchange).body)))) trivial rfl
    fun _ _ => nofun
  exact hNames.plain
    (o := .move (.event (.receive 0 (.ok (Parcel.challenge Relay.sample.counter).body)))) trivial
    rfl fun _ _ => nofun

theorem visit_timely : Timely (create Relay.sample.host) (arrival ++ [.move proving]) :=
  arrival_timely.plain trivial rfl fun _ _ => nofun

theorem expiry_timely : Timely (create Relay.sample.host) (arrival ++ [expiry]) :=
  arrival_timely.plain trivial rfl fun _ _ => nofun

set_option maxRecDepth 100000 in
theorem visit_counts :
    tally begun? 0 (create Relay.sample.host) (arrival ++ [.move proving]) = 1 ∧
      ((create Relay.sample.host).meetAll (arrival ++ [.move proving])).isOpen 0 = true := by
  decide +kernel

/-- A guest who proves itself makes one attempt, and the owner is told that it is connected. -/
theorem visit_reported : Timely (create Relay.sample.host) (arrival ++ [.move proving]) ∧
    tally begun? 0 (create Relay.sample.host) (arrival ++ [.move proving]) = 1 ∧
    ((create Relay.sample.host).meetAll (arrival ++ [.move proving])).isOpen 0 = true ∧
    Reported (create Relay.sample.host) (arrival ++ [.move proving]) :=
  ⟨visit_timely, visit_counts.1, visit_counts.2, (attempts_reported visit_timely).1⟩

set_option maxRecDepth 100000 in
theorem expiry_counts :
    tally begun? 0 (create Relay.sample.host) (arrival ++ [expiry]) = 1 ∧
      tally overrun? 0 (create Relay.sample.host) (arrival ++ [expiry]) = 1 ∧
      (((create Relay.sample.host).meetAll (arrival ++ [expiry])).outcomes 0).length = 0 := by
  decide +kernel

/-- So it is not true that the owner of a session is told of every attempt how it ended: nobody is
told of a guest whose time was over. -/
theorem expiry_untold : ¬∀ (start : Node) (past : List Occasion) (s : SessionId),
    Timely start past → ¬(start.meetAll past).Trying s →
      tally begun? s start past = ((start.meetAll past).outcomes s).length := by
  intro hTold
  obtain ⟨hBegun, hCutOff, hOutcomes⟩ := expiry_counts
  have hOver : ¬((create Relay.sample.host).meetAll (arrival ++ [expiry])).Trying 0 := by
    intro hTrying
    have hCount := (expiry_timely.accounted.balanced 0).underWay hTrying
    rw [hBegun, hCutOff, hOutcomes] at hCount
    cases hCount
  have hSame := hTold _ _ 0 expiry_timely hOver
  rw [hBegun, hOutcomes] at hSame
  cases hSame

end Visit

end Node

end PeerServices
