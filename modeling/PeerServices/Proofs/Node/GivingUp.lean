import PeerServices.Proofs.Node.Outcomes

/-!
# Connections that are given up

A session is closed in two steps: it gives up its connection, and then the connection is closed. In
between it can be connected again, so more than one connection can be open for it. Still only one
attempt to connect it is under way at any time, none while an open connection is attached to it, and
every other connection that is open for it was given up.

* `Node.UnderWay`: an attempt, from reaching for the host on. `Node.GivenUp`: a connection that its
  session gave up.
* `Node.Exclusive`: only one attempt is under way, or one connection is attached.
* `Node.Successive`: one connection is attached after another.
* `Node.Timely.exclusive`, `Node.Timely.successive`: both hold at every time of a timely run.
-/

namespace PeerServices.Node

open Session (connected?)

variable {n n' : Node} {c : ConnectionId} {s : SessionId} {k : CallId}
  {told : List (SessionId × Session.Hook)} {begun overrun unlinked : Option SessionId}
  {o : Occasion} {start : Node} {past : List Occasion} {story ts : List Turn}

/-- An attempt to connect a session is under way: a call reaches for the host, or a handshake goes
on, on behalf of a call if this side connects. -/
inductive UnderWay (n : Node) (s : SessionId) : Option CallId → Option ConnectionId → Prop
  | dials {k : CallId} (h : n.Dialling s k) : UnderWay n s (some k) none
  | shakes {k? : Option CallId} {c : ConnectionId} (h : n.handshake? c = some (s, k?)) :
      UnderWay n s k? (some c)

/-- A session was attached to a connection in a run, and gave it up then: somebody is about to close
it, or has done so. -/
def GivenUp (start : Node) (past : List Occasion) (s : SessionId) (c : ConnectionId) : Prop :=
  ∃ p, p ++ [.unlink s] <+: past ∧ (start.meetAll p).Attached s c

/-- At most one attempt to connect a session is under way, or it has a connection. -/
structure Exclusive (start : Node) (past : List Occasion) (s : SessionId) : Prop where
  attempt : ∀ k? c? k?' c?', (start.meetAll past).UnderWay s k? c? →
    (start.meetAll past).UnderWay s k?' c?' → k?' = k? ∧ c?' = c?
  /-- But for those that were given up, at most one connection is open. -/
  connection : ∀ c c', (start.meetAll past).OpenFor c s → ¬GivenUp start past s c →
    (start.meetAll past).OpenFor c' s → ¬GivenUp start past s c' → c' = c
  /-- It is the one that requests are passed to. -/
  current : ∀ c, (start.meetAll past).openConnection? s = some c ↔
    (start.meetAll past).OpenFor c s ∧ ¬GivenUp start past s c
  either : ∀ c k? c?, (start.meetAll past).openConnection? s = some c →
    ¬(start.meetAll past).UnderWay s k? c?

/-- What the turns of the next step can be: at most one connection is opened, for a session that has
none, and those that are open for that session still were given up. -/
structure Successive (start : Node) (past : List Occasion) (ts : List Turn) : Prop where
  single : (ts.filterMap Turn.opened?).length ≤ 1
  free : ∀ c s, .opened c s ∈ ts → (start.meetAll past).openConnection? s = none
  givenUp : ∀ c c' s, .opened c s ∈ ts → (start.meetAll past).OpenFor c' s →
    GivenUp start past s c'

/-! ## One attempt -/

theorem UnderWay.trying {k? : Option CallId} {c? : Option ConnectionId} (h : n.UnderWay s k? c?) :
    n.Trying s := by
  cases h with
  | dials h => exact .inl ⟨_, h⟩
  | shakes h => exact .inr ⟨_, _, h⟩

/-- While a call reaches for the host of a session, no handshake is under way for it. -/
theorem Locked.not_shaking (h : n.Locked) (hDialling : n.Dialling s k) {k? : Option CallId} :
    n.handshake? c ≠ some (s, k?) := by
  intro hHandshake
  have hHolds := (h.lock s k (.inl hDialling)).1
  cases k? with
  | none => exact hHolds.not_accepts (h.serving c s hHandshake).1
  | some j =>
    obtain rfl := h.holder_of_attempts hHolds (.inr ⟨c, hHandshake⟩)
    obtain ⟨attempts, socket, hAt⟩ := hDialling
    cases ((h.reached c s j hHandshake).unique hAt).2

/-- Handshakes for one session are under way for the same call. -/
theorem Locked.same_shaking (h : n.Locked) {c' : ConnectionId} {k? k?' : Option CallId}
    (hHandshake : n.handshake? c = some (s, k?)) (hHandshake' : n.handshake? c' = some (s, k?')) :
    k?' = k? ∧ c' = c := by
  have hSame : k?' = k? := by
    cases k? with
    | none =>
      cases k?' with
      | none => rfl
      | some k' =>
        have hHolds := (h.lock s k' (.inr ⟨c', hHandshake'⟩)).1
        exact absurd (h.serving c s hHandshake).1 hHolds.not_accepts
    | some k =>
      have hHolds := (h.lock s k (.inr ⟨c, hHandshake⟩)).1
      cases k?' with
      | none => exact absurd (h.serving c' s hHandshake').1 hHolds.not_accepts
      | some k' => rw [h.holder_of_attempts hHolds (.inr ⟨c', hHandshake'⟩)]
  subst hSame
  exact ⟨rfl, h.single c c' _ hHandshake hHandshake'⟩

theorem Locked.underWay_unique (h : n.Locked) {k? k?' : Option CallId}
    {c? c?' : Option ConnectionId} (hOne : n.UnderWay s k? c?) (hOther : n.UnderWay s k?' c?') :
    k?' = k? ∧ c?' = c? := by
  cases hOne with
  | @dials k hDialling =>
    cases hOther with
    | @dials k' hDialling' =>
      have hHolds := (h.lock s k (.inl hDialling)).1
      rw [h.holder_of_attempts hHolds (.inl hDialling')]
      exact ⟨rfl, rfl⟩
    | shakes hHandshake => exact absurd hHandshake (h.not_shaking hDialling)
  | @shakes _ c hHandshake =>
    cases hOther with
    | dials hDialling => exact absurd hHandshake (h.not_shaking hDialling)
    | @shakes _ c' hHandshake' =>
      obtain ⟨rfl, rfl⟩ := h.same_shaking hHandshake hHandshake'
      exact ⟨rfl, rfl⟩

/-! ## Attached connections -/

theorem Fit.openFor (h : n.Fit) (hAttached : n.Attached s c) : n.OpenFor c s := by
  obtain ⟨session, hSession, hCurrent⟩ := hAttached
  exact h.current s session c hSession hCurrent

/-- Requests of a session are passed to the connection that is attached to it. -/
theorem Fit.openConnection?_iff (h : n.Fit) :
    n.openConnection? s = some c ↔ n.Attached s c := by
  refine ⟨fun hOpen => ?_,
    fun hAttached => openConnection?_of_attached (h.openFor hAttached) hAttached⟩
  obtain ⟨session, hSession, hCurrent, -⟩ := openConnection?_eq_some.mp hOpen
  exact ⟨session, hSession, hCurrent⟩

theorem Fit.openConnection?_of_unattached (h : n.Fit) (hNone : n.Unattached s) :
    n.openConnection? s = none := by
  rw [Option.eq_none_iff_forall_ne_some]
  intro c hOpen
  have hAttached := h.openConnection?_iff.mp hOpen
  exact hNone c (h.openFor hAttached) hAttached

theorem Attached.unique {c' : ConnectionId} (h : n.Attached s c) (h' : n.Attached s c') :
    c' = c := by
  obtain ⟨session, hSession, hCurrent⟩ := h
  obtain ⟨session', hSession', hCurrent'⟩ := h'
  obtain rfl := Option.some.inj (hSession.symm.trans hSession')
  exact Option.some.inj (hCurrent'.symm.trans hCurrent)

/-- A connection is attached when it is opened, and not later. -/
theorem Tick.attached (h : Tick n ts n') (hAttached : n'.Attached s c) :
    n.Attached s c ∨ .opened c s ∈ ts := by
  obtain ⟨session, hSession, hCurrent⟩ := hAttached
  cases h with
  | rests h => exact .inl (h.current s session c hSession hCurrent)
  | joins _ _ => exact .inl ⟨session, hSession, hCurrent⟩
  | opens h =>
    rcases h.current s session c hSession hCurrent with ⟨rfl, rfl⟩ | hBefore
    · exact .inr (List.mem_singleton_self _)
    · exact .inl hBefore
  | closes h reason =>
    rw [(h.terminate reason).2.2.1] at hSession
    obtain ⟨old, hOld, hSame, -⟩ := current_detach hSession hCurrent
    exact .inl ⟨old, hOld, hSame⟩

theorem Path.attached (h : Path n ts n') (hAttached : n'.Attached s c) :
    n.Attached s c ∨ .opened c s ∈ ts := by
  induction h with
  | refl => exact .inl hAttached
  | tick _ hTick ih =>
    rcases hTick.attached hAttached with hBefore | hMem
    · exact (ih hBefore).imp_right (List.mem_append_left _)
    · exact .inr (List.mem_append_right _ hMem)

/-! ## Turns -/

/-- A connection that was opened for a session is open for it, or was closed. -/
theorem Orderly.openFor_or_closed {story : List Turn} (h : n.Orderly story)
    (hMem : .opened c s ∈ story) : n.OpenFor c s ∨ ∃ reason, .closed c s reason ∈ story := by
  have hTurn : .opened c s ∈ turnsOf c story :=
    List.mem_filter.mpr ⟨hMem, decide_eq_true rfl⟩
  have hFits := h.fits c
  generalize hTurns : turnsOf c story = turns at hFits hTurn
  cases hFits with
  | unknown _ => cases hTurn
  | unopened _ _ => cases List.mem_singleton.mp hTurn
  | opened hFind hOpen hSession =>
    simp only [List.mem_cons, reduceCtorEq, false_or, List.not_mem_nil, or_false] at hTurn
    cases hTurn
    exact .inl ⟨_, hFind, hOpen, hSession⟩
  | @closed connection s' reason _ _ =>
    simp only [List.mem_cons, reduceCtorEq, false_or, List.not_mem_nil, or_false] at hTurn
    cases hTurn
    have hClosed : .closed c s reason ∈ turnsOf c story := by
      rw [hTurns]
      exact List.mem_cons_of_mem _ (List.mem_cons_of_mem _ (List.mem_singleton_self _))
    exact .inr ⟨reason, (List.mem_filter.mp hClosed).1⟩

theorem Orderly.opened_of_openFor {story : List Turn} (h : n.Orderly story)
    (hOpen : n.OpenFor c s) : .opened c s ∈ story := by
  obtain ⟨connection, hFind, hIsOpen, hSession⟩ := hOpen
  have hFits := h.fits c
  generalize hTurns : turnsOf c story = turns at hFits
  cases hFits with
  | unknown hNone => cases hNone.symm.trans hFind
  | unopened hFound hShut =>
    obtain rfl := Option.some.inj (hFound.symm.trans hFind)
    cases hShut.symm.trans hIsOpen
  | @opened found s' hFound _ hOf =>
    obtain rfl := Option.some.inj (hFound.symm.trans hFind)
    obtain rfl := Option.some.inj (hOf.symm.trans hSession)
    have hMem : .opened c s' ∈ turnsOf c story := by
      rw [hTurns]
      exact List.mem_cons_of_mem _ (List.mem_singleton_self _)
    exact (List.mem_filter.mp hMem).1
  | closed hFound hStage =>
    obtain rfl := Option.some.inj (hFound.symm.trans hFind)
    cases (Connection.isOpen_of_closed hStage).symm.trans hIsOpen

/-- A connection is opened once. -/
theorem Orderly.not_opened_again (h : n.Orderly (story ++ ts)) {s' : SessionId}
    (hMem : .opened c s ∈ story) : .opened c s' ∉ ts := by
  intro hMem'
  have hFirst : .opened c s ∈ turnsOf c story := List.mem_filter.mpr ⟨hMem, decide_eq_true rfl⟩
  have hSecond : .opened c s' ∈ turnsOf c ts := List.mem_filter.mpr ⟨hMem', decide_eq_true rfl⟩
  have hOnce : ((turnsOf c (story ++ ts)).filterMap Turn.opened?).length ≤ 1 := by
    have hFits := h.fits c
    generalize turnsOf c (story ++ ts) = turns at hFits
    cases hFits with
    | unknown _ | unopened _ _ => exact Nat.zero_le 1
    | opened _ _ _ | closed _ _ => exact Nat.le_refl 1
  have hLeft := List.length_pos_of_mem (List.mem_filterMap.mpr ⟨_, hFirst, rfl⟩ :
    s ∈ (turnsOf c story).filterMap Turn.opened?)
  have hRight := List.length_pos_of_mem (List.mem_filterMap.mpr ⟨_, hSecond, rfl⟩ :
    s' ∈ (turnsOf c ts).filterMap Turn.opened?)
  rw [turnsOf, List.filter_append, List.filterMap_append, List.length_append] at hOnce
  exact absurd hOnce (Nat.not_le.mpr (Nat.add_le_add hLeft hRight))

theorem Outcome.connected_eq (h : n.Outcome s told) {view : Session.View}
    (hMem : (s, .connected view) ∈ told) : told.filterMap connected? = [s] := by
  cases h with
  | unauthenticated cause => simp at hMem
  | unconnected cause => simp at hMem
  | first view' _ => rfl
  | again view' _ => rfl

/-- If the owner of a session is told that it is connected, nobody else is told so by that step, and
no connection was attached to the session before. -/
theorem Affects.connected (h : n.Affects begun overrun unlinked told n')
    (hMem : s ∈ told.filterMap connected?) : told.filterMap connected? = [s] ∧ n.Unattached s := by
  obtain ⟨⟨s', hook⟩, hTold, hSame⟩ := List.mem_filterMap.mp hMem
  obtain ⟨view, rfl, rfl⟩ : ∃ view, hook = .connected view ∧ s' = s := by
    cases hook with
    | connected view => exact ⟨view, rfl, Option.some.inj hSame⟩
    | _ => cases hSame
  exact ⟨((h.relates s').ended_of_mem hTold).2.connected_eq hTold, h.unattached _ _ hTold⟩

/-! ## Connections that are open and not attached -/

theorem GivenUp.concat (h : GivenUp start past s c) (o : Occasion) :
    GivenUp start (past ++ [o]) s c := by
  obtain ⟨p, hPrefix, hAttached⟩ := h
  exact ⟨p, hPrefix.trans (List.prefix_append past [o]), hAttached⟩

theorem GivenUp.mem (h : GivenUp start past s c) : .unlink s ∈ past := by
  obtain ⟨p, hPrefix, -⟩ := h
  exact hPrefix.subset (List.mem_append_right _ (List.mem_singleton_self _))

/-- What was given up was so before the last occasion, or by it. -/
theorem GivenUp.of_concat (h : GivenUp start (past ++ [o]) s c) :
    GivenUp start past s c ∨ (o = .unlink s ∧ (start.meetAll past).Attached s c) := by
  obtain ⟨p, hPrefix, hAttached⟩ := h
  rcases List.prefix_concat_iff.mp hPrefix with hSame | hPrefix
  · obtain ⟨rfl, hLast⟩ := List.append_inj' hSame rfl
    cases hLast
    exact .inr ⟨rfl, hAttached⟩
  · exact .inl ⟨p, hPrefix, hAttached⟩

theorem unlinked?_eq_some (h : unlinked? o = some s) : o = .unlink s := by
  cases o with
  | unlink s' => rw [Option.some.inj h]
  | _ => cases h

theorem Blank.not_openFor (h : n.Blank) : ¬n.OpenFor c s := by
  rintro ⟨connection, hFind, -⟩
  rw [h.connections] at hFind
  cases hFind

/-- Every connection that is open for a session is attached to it, or was given up. -/
theorem Timely.attached_or_givenUp (h : Timely start past)
    (hOpen : (start.meetAll past).OpenFor c s) :
    (start.meetAll past).Attached s c ∨ GivenUp start past s c := by
  induction h with
  | nil h => exact absurd hOpen h.not_openFor
  | @concat past o hPast hAdmits hInTime ih =>
    obtain ⟨told, hAffects⟩ := hPast.affects hAdmits hInTime
    rw [meetAll_concat] at hOpen ⊢
    rcases hAffects.openFor c s hOpen with ⟨hWasOpen, hKept⟩ | ⟨hAttached, -⟩
    · rcases ih hWasOpen with hAttached | hGivenUp
      · by_cases hUnlinked : unlinked? o = some s
        · obtain rfl := unlinked?_eq_some hUnlinked
          exact .inr ⟨past, List.prefix_rfl, hAttached⟩
        · exact .inl ((hKept hUnlinked).mpr hAttached)
      · exact .inr (hGivenUp.concat o)
    · exact .inl hAttached

/-- A connection that was given up is attached to its session no more. -/
theorem Timely.not_attached (h : Timely start past) (hGivenUp : GivenUp start past s c) :
    ¬(start.meetAll past).Attached s c ∧
      ∃ story, (start.meetAll past).Orderly story ∧ .opened c s ∈ story := by
  induction h with
  | nil _ =>
    obtain ⟨p, hPrefix, -⟩ := hGivenUp
    simp at hPrefix
  | @concat past o hPast hAdmits hInTime ih =>
    have hFit := hPast.lived.fit
    obtain ⟨ts, hPath, -, -⟩ := proceeds_meet hAdmits hFit
    rw [meetAll_concat]
    rcases hGivenUp.of_concat with hBefore | ⟨rfl, hAttached⟩
    · obtain ⟨hNot, story, hOrderly, hMem⟩ := ih hBefore
      have hNext := hOrderly.path hFit hPath
      exact ⟨fun hAttached => (hPath.attached hAttached).elim hNot (hNext.not_opened_again hMem),
        story ++ ts, hNext, List.mem_append_left _ hMem⟩
    · obtain ⟨story, hOrderly⟩ := hPast.lived.exists_orderly
      exact ⟨fun hStill => (attached_unlink.mp hStill).1 rfl, story ++ ts, hOrderly.path hFit hPath,
        List.mem_append_left _ (hOrderly.opened_of_openFor (hFit.openFor hAttached))⟩

/-! ## One at a time, and one after another -/

theorem Timely.exclusive (h : Timely start past) (s : SessionId) : Exclusive start past s := by
  have hFit := h.lived.fit
  have hAttached : ∀ {c}, (start.meetAll past).OpenFor c s → ¬GivenUp start past s c →
      (start.meetAll past).Attached s c :=
    fun hOpen hKept => (h.attached_or_givenUp hOpen).resolve_right hKept
  constructor
  case attempt => exact fun _ _ _ _ => h.paced.underWay_unique
  case connection =>
    exact fun c c' hOpen hKept hOpen' hKept' =>
      (hAttached hOpen hKept).unique (hAttached hOpen' hKept')
  case current =>
    intro c
    rw [hFit.openConnection?_iff]
    refine ⟨fun hLinked => ⟨hFit.openFor hLinked, fun hGivenUp => ?_⟩,
      fun ⟨hOpen, hKept⟩ => hAttached hOpen hKept⟩
    exact (h.not_attached hGivenUp).1 hLinked
  case either =>
    intro c k? c? hOpen hUnderWay
    have hLinked := hFit.openConnection?_iff.mp hOpen
    exact h.paced.unattached_of_trying hUnderWay.trying c (hFit.openFor hLinked) hLinked

/-- A connection is opened for a session after another one that was closed or given up. -/
theorem Timely.successive (h : Timely start past) (hAdmits : (start.meetAll past).Admits o)
    (hAffects : (start.meetAll past).Affects begun overrun unlinked told
      ((start.meetAll past).meet o)) (hOrderly : (start.meetAll past).Orderly story) :
    ∃ ts, ((start.meetAll past).meet o).Orderly (story ++ ts) ∧ Successive start past ts := by
  obtain ⟨ts, hNext, hOpened⟩ := hAffects.tells.opened h.lived hAdmits hOrderly
  have hFirst : ∀ {c s}, .opened c s ∈ ts →
      told.filterMap connected? = [s] ∧ (start.meetAll past).Unattached s := by
    intro c s hMem
    apply hAffects.connected
    rw [hOpened]
    exact List.mem_filterMap.mpr ⟨_, hMem, rfl⟩
  refine ⟨ts, hNext, ?_, fun c s hMem => ?_, fun c c' s hMem hOpen => ?_⟩
  · rw [← hOpened]
    cases hTold : told.filterMap connected? with
    | nil => exact Nat.zero_le 1
    | cons s rest =>
      have hMem : s ∈ told.filterMap connected? := hTold ▸ List.mem_cons_self
      rw [← hTold, (hAffects.connected hMem).1]
      exact Nat.le_refl 1
  · exact h.lived.fit.openConnection?_of_unattached (hFirst hMem).2
  · exact (h.attached_or_givenUp hOpen).resolve_left ((hFirst hMem).2 c' hOpen)

end PeerServices.Node
