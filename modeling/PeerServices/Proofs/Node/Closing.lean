import PeerServices.Proofs.Collection.SortedMap
import PeerServices.Proofs.Node.Hooks

/-!
# What closing a connection does

An open connection is closed by `Node.terminate` and in no other way. Its stage, its requests that
wait, its session, the roster and the session's link back to it are given up together, and the owner
of the session is told once.

* `Node.abandon_eq`: every call that waits for a response and has not ended ends with the failure
  `Reply.dropped`.
* `Node.terminate_eq`: a whole closing.
* `Node.find?_detach`: the session gives up the connection that is closed, and no other one.
  `Node.unlink_eq_detach`: it is the one that the session refers to, if this side closes it.
* `Node.terminate_enroll`: nothing else of a closing depends on the roster.
-/

namespace PeerServices.Node

variable {n : Node} {c : ConnectionId} {s : SessionId}

/-! ## Calls that are released -/

/-- The calls that wait for responses. -/
def callers (listeners : List (Listener Target)) : List CallId :=
  listeners.filterMap (·.target.call?)

/-- What is said of a call that ends because its connection is closed. -/
def releaseOf (k : CallId) : Effect := .finished k (.error Reply.dropped)

theorem finish_eq (n : Node) (k : CallId) (result : Reply.Result) :
    ∃ calls new, n.finish k result = { n with calls, effects := n.effects ++ new } ∧
      (∀ j, calls.find? j = if j = k then none else n.calls.find? j) ∧
      (∀ e ∈ new, e = .finished k result) ∧
      ((n.calls.find? k).isSome = true → .finished k result ∈ new) := by
  unfold finish SortedMap.contains
  cases hCall : n.calls.find? k with
  | none =>
    refine ⟨n.calls, [], by simp, fun j => ?_, List.forall_mem_nil _, nofun⟩
    by_cases hj : j = k
    · rw [if_pos hj, hj, hCall]
    · rw [if_neg hj]
  | some call =>
    refine ⟨n.calls.erase k, [.finished k result], by simp [emit], fun j => ?_,
      fun e hMem => List.mem_singleton.mp hMem, fun _ => List.mem_singleton.mpr rfl⟩
    by_cases hj : j = k
    · rw [if_pos hj, hj, SortedMap.find?_erase_self]
    · rw [if_neg hj, SortedMap.find?_erase_of_ne hj]

/-- Every call that waits and has not ended is released, and nothing else happens. -/
theorem abandon_eq (n : Node) (listeners : List (Listener Target)) :
    ∃ calls new, n.abandon listeners = { n with calls, effects := n.effects ++ new } ∧
      (∀ j, calls.find? j = if j ∈ callers listeners then none else n.calls.find? j) ∧
      (∀ e ∈ new, ∃ k, e = releaseOf k) ∧
      ∀ k ∈ callers listeners, (n.calls.find? k).isSome = true → releaseOf k ∈ new := by
  unfold abandon callers
  generalize listeners.filterMap (·.target.call?) = ks
  induction ks generalizing n with
  | nil => exact ⟨n.calls, [], by simp, fun _ => rfl, List.forall_mem_nil _, List.forall_mem_nil _⟩
  | cons k ks ih =>
    obtain ⟨calls, new, hFinish, hCalls, hAll, hSaid⟩ := n.finish_eq k (.error Reply.dropped)
    obtain ⟨calls', new', hRest, hCalls', hAll', hSaid'⟩ := ih (n.finish k (.error Reply.dropped))
    have hBetween : (n.finish k (.error Reply.dropped)).calls = calls := by rw [hFinish]
    refine ⟨calls', new ++ new', ?_, fun j => ?_, fun e hMem => ?_, fun j hj hSome => ?_⟩
    · rw [List.foldl_cons, hRest, hFinish]
      simp only [List.append_assoc]
    · rw [hCalls', hBetween, hCalls]
      by_cases hj : j = k <;> simp [hj]
    · rcases List.mem_append.mp hMem with hMem | hMem
      · exact ⟨k, hAll e hMem⟩
      · exact hAll' e hMem
    · by_cases hk : j = k
      · subst hk
        exact List.mem_append_left _ (hSaid hSome)
      · have hRestMem : j ∈ ks := (List.mem_cons.mp hj).resolve_left hk
        have hStill : ((n.finish k (.error Reply.dropped)).calls.find? j).isSome = true := by
          rw [hBetween, hCalls, if_neg hk]
          exact hSome
        exact List.mem_append_right _ (hSaid' j hRestMem hStill)

/-! ## The session -/

theorem find?_detach (n : Node) (s : SessionId) (c : ConnectionId) (s' : SessionId) :
    (n.detach s c).sessions.find? s' = (n.sessions.find? s').map fun session =>
      if s' = s ∧ session.current = some c then { session with current := none } else session := by
  unfold detach
  by_cases hs : s' = s
  · subst hs
    rw [find?_modifySession_self]
    simp
  · rw [n.find?_modifySession_of_ne hs]
    simp [hs]

/-- A session that gives up whatever connection it refers to gives up that one. -/
theorem unlink_eq_detach (h : (n.sessions.find? s).bind (·.current) = some c) :
    n.unlink s = n.detach s c := by
  obtain ⟨session, hSession, hCurrent⟩ := Option.bind_eq_some_iff.mp h
  have hSessions : (n.unlink s).sessions = (n.detach s c).sessions := by
    apply SortedMap.ext_find?
    intro s'
    by_cases hs : s' = s
    · subst hs
      rw [find?_detach]
      change (n.sessions.modify s' _).find? s' = _
      rw [SortedMap.find?_modify_self, hSession]
      simp [hCurrent]
    · rw [find?_detach]
      change (n.sessions.modify s _).find? s' = _
      rw [SortedMap.find?_modify_of_ne hs]
      simp [hs]
  exact congrArg (fun sessions => { n with sessions }) hSessions

/-! ## Closing -/

/-- A connection that is not open is not closed again. -/
theorem terminate_of_not_open (h : n.isOpen c = false) (reason : Option WireError) :
    n.terminate c reason = n := by
  unfold isOpen at h
  unfold terminate
  cases hFind : n.connections.find? c with
  | none => rfl
  | some connection =>
    rw [hFind] at h
    have hShut : connection.isOpen = false := h
    simp [hShut]

/-- Everything that is kept for an open connection is given up: it is closed, nobody waits for a
response on it, it is off the roster, every call that waited is released, and the owner of its
session is told why, once and last. -/
theorem terminate_eq {connection : Connection} {session : Session}
    (hFind : n.connections.find? c = some connection) (hOpen : connection.isOpen = true)
    (hSession : connection.session = some s) (hKnown : n.sessions.find? s = some session)
    (reason : Option WireError) :
    ∃ calls exchanges released, n.terminate c reason =
      { n.detach s c with
        connections := n.connections.modify c Connection.afterClosing
        calls
        roster := n.roster.erase c
        exchanges
        effects := n.effects ++ released ++ [.hook s (.closed reason)] } ∧
      (∀ j, calls.find? j = if j ∈ callers connection.listeners then none else n.calls.find? j) ∧
      (∀ e ∈ released, e = .hangUp c ∨ ∃ k, e = releaseOf k) ∧
      ∀ k ∈ callers connection.listeners, (n.calls.find? k).isSome = true →
        releaseOf k ∈ released := by
  obtain ⟨calls, new, hAbandon, hCalls, hAll, hSaid⟩ :=
    (n.modifyConnection c Connection.afterClosing).abandon_eq connection.listeners
  let middle : Node := { n with
    connections := n.connections.modify c Connection.afterClosing
    calls
    effects := n.effects ++ (new ++ if connection.reading then [.hangUp c] else []) }
  have hMiddle : (if connection.reading then
      ((n.modifyConnection c Connection.afterClosing).abandon connection.listeners).emit (.hangUp c)
      else (n.modifyConnection c Connection.afterClosing).abandon connection.listeners) =
        middle := by
    rw [hAbandon]
    by_cases hReading : connection.reading = true
    · simp [middle, emit, modifyConnection, hReading]
    · simp [middle, modifyConnection, hReading]
  have hLeft : ((middle.strike c).detach s c).sessions.find? s =
      some (if session.current = some c then { session with current := none } else session) := by
    have hStill : (middle.strike c).sessions.find? s = some session := hKnown
    rw [find?_detach, hStill]
    simp
  obtain ⟨exchanges, hFire⟩ := fire_eq hLeft (.closed reason)
  refine ⟨calls, exchanges, new ++ if connection.reading then [.hangUp c] else [], ?_, hCalls, ?_,
    fun k hk hSome => List.mem_append_left _ (hSaid k hk hSome)⟩
  · unfold terminate
    rw [hFind]
    simp only [hOpen, Bool.not_true, Bool.false_eq_true, if_false, hSession]
    exact (congrArg (fun left : Node => ((left.strike c).detach s c).fire s (.closed reason))
      hMiddle).trans hFire
  · intro e hMem
    rcases List.mem_append.mp hMem with hMem | hMem
    · exact .inr (hAll e hMem)
    · split at hMem
      · exact .inl (List.mem_singleton.mp hMem)
      · cases hMem

/-! ## The roster -/

/-- A node with another roster. -/
def enroll (n : Node) (roster : SortedSet ConnectionId) : Node := { n with roster }

section Enroll

variable (n : Node) (roster : SortedSet ConnectionId)

theorem finish_enroll (k : CallId) (result : Reply.Result) :
    (n.enroll roster).finish k result = (n.finish k result).enroll roster := by
  unfold finish
  change (if n.calls.contains k = true then _ else _) = _
  split <;> rfl

theorem abandon_enroll (listeners : List (Listener Target)) :
    (n.enroll roster).abandon listeners = (n.abandon listeners).enroll roster := by
  unfold abandon
  generalize listeners.filterMap _ = ks
  induction ks generalizing n with
  | nil => rfl
  | cons k ks ih =>
    rw [List.foldl_cons, List.foldl_cons, finish_enroll]
    exact ih _

theorem keepExchange_enroll (s : SessionId) :
    (n.enroll roster).keepExchange s = (n.keepExchange s).enroll roster := by
  have hPeer : (n.enroll roster).peerOf? s = n.peerOf? s := rfl
  have hExchanges : (n.enroll roster).exchanges = n.exchanges := rfl
  have hConnected : ∀ kept, (n.enroll roster).isConnected kept = n.isConnected kept := fun _ => rfl
  unfold keepExchange
  simp only [hPeer, hExchanges, hConnected]
  split
  · rfl
  · split
    · rfl
    · split <;> rfl

theorem dropExchange_enroll (s : SessionId) :
    (n.enroll roster).dropExchange s = (n.dropExchange s).enroll roster := by
  have hPeer : (n.enroll roster).peerOf? s = n.peerOf? s := rfl
  have hExchanges : (n.enroll roster).exchanges = n.exchanges := rfl
  unfold dropExchange
  simp only [hPeer, hExchanges]
  split
  · rfl
  · split <;> rfl

theorem fire_enroll (s : SessionId) (hook : Session.Hook) :
    (n.enroll roster).fire s hook = (n.fire s hook).enroll roster := by
  have hSessions : (n.enroll roster).sessions = n.sessions := rfl
  have hEmit : (n.enroll roster).emit (.hook s hook) = (n.emit (.hook s hook)).enroll roster := rfl
  unfold fire
  simp only [hSessions, hEmit]
  split
  · rfl
  · split
    · rfl
    · rfl
    · exact keepExchange_enroll _ roster s
    · exact dropExchange_enroll _ roster s

/-- Closing a connection takes it off the roster and reads nothing else of that. -/
theorem terminate_enroll (c : ConnectionId) (reason : Option WireError) :
    (n.enroll .empty).terminate c reason = (n.terminate c reason).enroll .empty := by
  have hConnections : (n.enroll .empty).connections = n.connections := rfl
  have hModify : ∀ f, (n.enroll .empty).modifyConnection c f =
      (n.modifyConnection c f).enroll .empty := fun _ => rfl
  unfold terminate
  simp only [hConnections, hModify, abandon_enroll]
  split
  · rfl
  next connection _ =>
    split
    · rfl
    · generalize (n.modifyConnection c _).abandon connection.listeners = abandoned
      have hMiddle : (if connection.reading = true then (abandoned.enroll .empty).emit (.hangUp c)
          else abandoned.enroll .empty) =
            (if connection.reading = true then abandoned.emit (.hangUp c)
              else abandoned).enroll .empty := by
        split <;> rfl
      rw [hMiddle]
      generalize (if connection.reading = true then _ else _ : Node) = middle
      have hStrike : (middle.enroll .empty).strike c = (middle.strike c).enroll .empty := rfl
      rw [hStrike]
      split
      · rfl
      next s _ => exact fire_enroll ((middle.strike c).detach s c) .empty s (.closed reason)

end Enroll

/-- Connections are closed one after another. -/
def terminateAll (n : Node) (cs : List ConnectionId) : Node :=
  cs.foldl (fun n c => n.terminate c none) n

theorem terminateAll_enroll (n : Node) (cs : List ConnectionId) :
    (n.enroll .empty).terminateAll cs = (n.terminateAll cs).enroll .empty := by
  induction cs generalizing n with
  | nil => rfl
  | cons c cs ih =>
    change ((n.enroll .empty).terminate c none).terminateAll cs = _
    rw [terminate_enroll]
    exact ih (n.terminate c none)

end PeerServices.Node
