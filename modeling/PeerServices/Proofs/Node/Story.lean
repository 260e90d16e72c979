import PeerServices.Proofs.Node.Turns

/-!
# What turns tell

The owners of sessions are told of every turn once and of nothing else, and how far a connection is
can be told from its turns.

* `Node.words`, `Node.Path.words`: what the owners are told.
* `Node.Fits`, `Node.Path.fits`: a connection is as far as its turns tell.
* `Node.Path.isClosed`: a closed connection stays closed. `Node.Path.closing`: it was open until it
  was closed.
* `Node.Path.unread`: only a connection that is being opened is not read yet.
-/

namespace PeerServices.Node

variable {n n' : Node} {c : ConnectionId} {s : SessionId} {ts : List Turn}

/-! ## What is told -/

/-- What the owners of sessions were told of their connections, in order. -/
def words (n : Node) : List Word := n.effects.filterMap Effect.word?

theorem Tick.lasts (h : Tick n ts n') : Lasts n n' := by
  cases h with
  | rests h => exact h.lasts
  | joins _ _ => exact ⟨id, id, id⟩
  | opens h => exact h.lasts
  | closes h reason => exact (h.terminate reason).2.2.2.1

/-- The owners are told of every turn and of nothing else, and no host is reached for once that is
cancelled. -/
theorem Tick.effects (h : Tick n ts n') :
    ∃ new, n'.effects = n.effects ++ new ∧ new.filterMap Effect.word? = ts.filterMap Turn.word? ∧
      (n.dialsCancelled = true → ∀ e ∈ new, e.isDial = false) := by
  cases h with
  | rests h =>
    obtain ⟨new, hNew, hQuiet⟩ := h.effects
    refine ⟨new, hNew, ?_, fun hCancelled e hMem => ?_⟩
    · exact Effect.filterMap_word?_of_isQuiet hQuiet
    · exact Effect.isDial_of_isQuiet (hCancelled ▸ hQuiet e hMem)
  | joins _ _ => exact ⟨[], (List.append_nil _).symm, rfl, fun _ => List.forall_mem_nil _⟩
  | opens h =>
    exact h.effects
  | closes h reason =>
    obtain ⟨-, -, -, -, released, hNew, hQuiet⟩ := h.terminate reason
    exact ⟨_, hNew, Effect.filterMap_word?_concat hQuiet _,
      fun _ => Effect.isDial_of_mem_concat hQuiet rfl⟩

theorem Path.lasts (h : Path n ts n') : Lasts n n' := by
  induction h with
  | refl => exact .refl n
  | tick _ hTick ih => exact ih.trans hTick.lasts

theorem Path.effects (h : Path n ts n') :
    ∃ new, n'.effects = n.effects ++ new ∧ new.filterMap Effect.word? = ts.filterMap Turn.word? ∧
      (n.dialsCancelled = true → ∀ e ∈ new, e.isDial = false) := by
  induction h with
  | refl => exact ⟨[], (List.append_nil _).symm, rfl, fun _ => List.forall_mem_nil _⟩
  | tick hPath hTick ih =>
    obtain ⟨new, hNew, hWords, hDial⟩ := ih
    obtain ⟨new', hNew', hWords', hDial'⟩ := hTick.effects
    refine ⟨new ++ new', by rw [hNew', hNew, List.append_assoc],
      by rw [List.filterMap_append, List.filterMap_append, hWords, hWords'],
      fun hCancelled e hMem => ?_⟩
    rcases List.mem_append.mp hMem with hMem | hMem
    · exact hDial hCancelled e hMem
    · exact hDial' (hPath.lasts.cancelled hCancelled) e hMem

theorem Path.words (h : Path n ts n') : n'.words = n.words ++ ts.filterMap Turn.word? := by
  obtain ⟨new, hNew, hWords, -⟩ := h.effects
  unfold Node.words
  rw [hNew, List.filterMap_append, hWords]

/-! ## How far a connection is -/

/-- A connection is as far as its turns tell. -/
inductive Fits (n : Node) (c : ConnectionId) : List Turn → Prop
  | unknown (hFind : n.connections.find? c = none) : Fits n c []
  /-- Its handshake is under way or has failed. -/
  | unopened {connection : Connection} (hFind : n.connections.find? c = some connection)
      (hShut : connection.isOpen = false) : Fits n c [.joined c]
  | opened {connection : Connection} {s : SessionId}
      (hFind : n.connections.find? c = some connection) (hOpen : connection.isOpen = true)
      (hSession : connection.session = some s) : Fits n c [.joined c, .opened c s]
  | closed {connection : Connection} {s : SessionId} {reason : Option WireError}
      (hFind : n.connections.find? c = some connection) (hStage : connection.stage = .closed) :
      Fits n c [.joined c, .opened c s, .closed c s reason]

/-- The turns of one connection. -/
def turnsOf (c : ConnectionId) (ts : List Turn) : List Turn :=
  ts.filter (·.connection = c)

variable {past : List Turn}

theorem Fits.of_same (h : n.Fits c past) (hSame : n'.connections.find? c = n.connections.find? c) :
    n'.Fits c past := by
  cases h with
  | unknown hFind => exact .unknown (hSame.trans hFind)
  | unopened hFind hShut => exact .unopened (hSame.trans hFind) hShut
  | opened hFind hOpen hSession => exact .opened (hSame.trans hFind) hOpen hSession
  | closed hFind hStage => exact .closed (hSame.trans hFind) hStage

theorem turnsOf_of_eq {t : Turn} (h : t.connection = c) : turnsOf c [t] = [t] := by
  simp [turnsOf, h]

theorem turnsOf_of_ne {t : Turn} (h : t.connection ≠ c) : turnsOf c [t] = [] := by
  simp [turnsOf, h]

/-- The turn of another connection makes no difference. -/
theorem Fits.of_other (h : n.Fits c past) {t : Turn} (hOther : t.connection ≠ c)
    (hSame : n'.connections.find? c = n.connections.find? c) :
    n'.Fits c (past ++ turnsOf c [t]) := by
  rw [turnsOf_of_ne hOther, List.append_nil]
  exact h.of_same hSame

theorem Rests.fits (h : Rests n n') (hFits : n.Fits c past) : n'.Fits c past := by
  cases hFits with
  | unknown hFind => exact .unknown (h.joined c hFind)
  | unopened hFind hShut =>
    obtain ⟨new, hNew, hKeeps, -⟩ := h.connections c _ hFind
    exact .unopened hNew (hKeeps.isOpen.trans hShut)
  | opened hFind hOpen hSession =>
    obtain ⟨new, hNew, hKeeps, -⟩ := h.connections c _ hFind
    exact .opened hNew (hKeeps.isOpen.trans hOpen) (hKeeps.session.trans hSession)
  | closed hFind hStage =>
    obtain ⟨new, hNew, hKeeps, -⟩ := h.connections c _ hFind
    exact .closed hNew (hKeeps.closed hStage)

theorem Opens.fits (h : n.Opens c s n') (hFits : n.Fits c past) :
    n'.Fits c (past ++ [.opened c s]) := by
  obtain ⟨old, hOld, hUnsettled⟩ := h.unsettled
  obtain ⟨new, hNew, hOpen, hSession, -⟩ := h.self
  cases hFits with
  | unknown hFind => cases hFind.symm.trans hOld
  | unopened _ _ => exact .opened hNew hOpen hSession
  | opened hFind hWasOpen _ =>
    obtain rfl := Option.some.inj (hFind.symm.trans hOld)
    cases (Connection.isOpen_of_unsettled hUnsettled).symm.trans hWasOpen
  | closed hFind hStage =>
    obtain rfl := Option.some.inj (hFind.symm.trans hOld)
    cases (Connection.isSettled_of_closed hStage).symm.trans hUnsettled

theorem Serves.fits {connection : Connection} {session : Session}
    (h : n.Serves c s connection session) (reason : Option WireError) (hFits : n.Fits c past) :
    (n.terminate c reason).Fits c (past ++ [.closed c s reason]) := by
  have hClosed : (n.terminate c reason).connections.find? c = some connection.afterClosing := by
    rw [(h.terminate reason).1, SortedMap.find?_modify_self, h.found]
    rfl
  cases hFits with
  | unknown hFind => cases hFind.symm.trans h.found
  | unopened hFind hShut =>
    obtain rfl := Option.some.inj (hFind.symm.trans h.found)
    cases hShut.symm.trans h.isOpen
  | opened hFind _ hSession =>
    obtain rfl := Option.some.inj (hFind.symm.trans h.found)
    obtain rfl := Option.some.inj (hSession.symm.trans h.attached)
    exact .closed hClosed rfl
  | closed hFind hStage =>
    obtain rfl := Option.some.inj (hFind.symm.trans h.found)
    cases (Connection.isOpen_of_closed hStage).symm.trans h.isOpen

theorem Tick.fits (h : Tick n ts n') (hFits : n.Fits c past) :
    n'.Fits c (past ++ turnsOf c ts) := by
  cases h with
  | rests h =>
    rw [turnsOf, List.filter_nil, List.append_nil]
    exact h.fits hFits
  | @joins line stage hNew hStarts =>
    by_cases hc : line.id = c
    · subst hc
      have hFound := SortedMap.find?_insert_self n.connections line.id
        (Connection.create line stage)
      have hTurns : turnsOf line.id [.joined line.id] = [.joined line.id] := turnsOf_of_eq rfl
      rw [hTurns]
      cases hFits with
      | unknown _ => exact .unopened hFound hStarts.isOpen
      | unopened hFind _ | opened hFind _ _ | closed hFind _ => cases hNew.symm.trans hFind
    · exact hFits.of_other hc (SortedMap.find?_insert_of_ne (Ne.symm hc) _ _)
  | @opens _ c' s h =>
    by_cases hc : c' = c
    · subst hc
      have hTurns : turnsOf c' [.opened c' s] = [.opened c' s] := turnsOf_of_eq rfl
      rw [hTurns]
      exact h.fits hFits
    · exact hFits.of_other hc (h.others c (Ne.symm hc))
  | @closes c' s _ _ h reason =>
    by_cases hc : c' = c
    · subst hc
      have hTurns : turnsOf c' [.closed c' s reason] = [.closed c' s reason] := turnsOf_of_eq rfl
      rw [hTurns]
      exact h.fits reason hFits
    · apply hFits.of_other (t := .closed c' s reason) hc
      rw [(h.terminate reason).1, SortedMap.find?_modify_of_ne (Ne.symm hc)]

theorem Path.fits (h : Path n ts n') (hFits : n.Fits c past) :
    n'.Fits c (past ++ turnsOf c ts) := by
  induction h with
  | refl =>
    rw [turnsOf, List.filter_nil, List.append_nil]
    exact hFits
  | tick _ hTick ih =>
    have hNext := hTick.fits ih
    rwa [List.append_assoc, turnsOf, turnsOf, ← List.filter_append] at hNext

/-! ## Closed connections -/

/-- A connection is closed. -/
def IsClosed (n : Node) (c : ConnectionId) : Prop :=
  ∃ connection, n.connections.find? c = some connection ∧ connection.stage = .closed

theorem Tick.isClosed (h : Tick n ts n') (hClosed : n.IsClosed c) : n'.IsClosed c := by
  obtain ⟨old, hOld, hStage⟩ := hClosed
  cases h with
  | rests h =>
    obtain ⟨new, hNew, hKeeps, -⟩ := h.connections c old hOld
    exact ⟨new, hNew, hKeeps.closed hStage⟩
  | @joins line stage hNew _ =>
    have hc : c ≠ line.id := by
      rintro rfl
      cases hNew.symm.trans hOld
    exact ⟨old, (SortedMap.find?_insert_of_ne hc _ _).trans hOld, hStage⟩
  | @opens _ c' s h =>
    obtain ⟨before, hBefore, hUnsettled⟩ := h.unsettled
    have hc : c ≠ c' := by
      rintro rfl
      obtain rfl := Option.some.inj (hBefore.symm.trans hOld)
      cases (Connection.isSettled_of_closed hStage).symm.trans hUnsettled
    exact ⟨old, (h.others c hc).trans hOld, hStage⟩
  | @closes c' s _ _ h reason =>
    have hConnections := (h.terminate reason).1
    by_cases hc : c = c'
    · subst hc
      refine ⟨old.afterClosing, ?_, rfl⟩
      rw [hConnections, SortedMap.find?_modify_self, hOld]
      rfl
    · refine ⟨old, ?_, hStage⟩
      rw [hConnections, SortedMap.find?_modify_of_ne hc]
      exact hOld

theorem Path.isClosed (h : Path n ts n') (hClosed : n.IsClosed c) : n'.IsClosed c := by
  induction h with
  | refl => exact hClosed
  | tick _ hTick ih => exact hTick.isClosed ih

/-- Whenever a connection is closed, it was open for its session until then. -/
theorem Path.closing {reason : Option WireError} (h : Path n ts n')
    (hMem : .closed c s reason ∈ ts) :
    ∃ (m : Node) (connection : Connection) (session : Session),
      m.Serves c s connection session ∧ n.effects <+: m.effects ∧
        (m.terminate c reason).effects <+: n'.effects := by
  have hGrows : ∀ {m m' : Node} {ts : List Turn}, Path m ts m' → m.effects <+: m'.effects := by
    intro m m' ts hPath
    obtain ⟨new, hNew, -⟩ := hPath.effects
    exact ⟨new, hNew.symm⟩
  induction h with
  | refl => cases hMem
  | @tick middle after _ _ hPath hTick ih =>
    rcases List.mem_append.mp hMem with hMem | hMem
    · obtain ⟨m, connection, session, hServes, hBefore, hAfter⟩ := ih hMem
      exact ⟨m, connection, session, hServes, hBefore, hAfter.trans (hGrows (.single hTick))⟩
    · cases hTick with
      | rests h => cases hMem
      | joins _ _ =>
        cases List.mem_singleton.mp hMem
      | opens h =>
        cases List.mem_singleton.mp hMem
      | @closes _ _ connection session h reason =>
        cases List.mem_singleton.mp hMem
        exact ⟨middle, connection, session, h, hGrows hPath, List.prefix_refl _⟩

/-! ## Messages that are taken -/

theorem Tick.unread (h : Tick n ts n') (hUnread : n'.Unread c) :
    n.Unread c ∨ ∃ s, .opened c s ∈ ts := by
  obtain ⟨new, hNew, hOpen, hUnread⟩ := hUnread
  cases h with
  | rests h =>
    obtain ⟨old, hOld, hKeeps, -⟩ := h.back hNew
    refine .inl ⟨old, hOld, hKeeps.isOpen ▸ hOpen, ?_⟩
    rw [← Bool.not_eq_true]
    intro hReading
    cases hUnread.symm.trans (hKeeps.reading hOpen hReading)
  | joins _ hStarts =>
    rcases SortedMap.find?_insert_eq_some hNew with ⟨-, rfl⟩ | ⟨-, hOld⟩
    · cases hStarts.isOpen.symm.trans hOpen
    · exact .inl ⟨new, hOld, hOpen, hUnread⟩
  | @opens _ c' s h =>
    by_cases hc : c = c'
    · subst hc
      exact .inr ⟨s, List.mem_singleton_self _⟩
    · exact .inl ⟨new, (h.others c hc).symm.trans hNew, hOpen, hUnread⟩
  | closes h reason =>
    rw [(h.terminate reason).1] at hNew
    rcases SortedMap.find?_modify_eq_some hNew with ⟨rfl, old, -, rfl⟩ | ⟨-, hOld⟩
    · cases hOpen
    · exact .inl ⟨new, hOld, hOpen, hUnread⟩

theorem Path.unread (h : Path n ts n') (hUnread : n'.Unread c) :
    n.Unread c ∨ ∃ s, .opened c s ∈ ts := by
  induction h with
  | refl => exact .inl hUnread
  | tick _ hTick ih =>
    rcases hTick.unread hUnread with hBefore | ⟨s, hMem⟩
    · rcases ih hBefore with hFirst | ⟨s, hMem⟩
      · exact .inl hFirst
      · exact .inr ⟨s, List.mem_append_left _ hMem⟩
    · exact .inr ⟨s, List.mem_append_right _ hMem⟩

end PeerServices.Node
