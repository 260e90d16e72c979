import PeerServices.Proofs.Node.Closing
import PeerServices.Proofs.Node.Preservation
import PeerServices.Proofs.Session.Outstanding

/-!
# Steps that bring no connection nearer to being open

Most of what a node does opens no connection and attaches none to a session. If it waits for an
answer to an exchange on a connection afterwards, it did before, or the answer can come from nobody
but the peer at the other end. Such a step leaves the directory alone as well.

* `Node.Wanes`: what such a step does to connections, sessions and calls.
* One lemma for each thing that a node does in this way: it closes connections, tells sessions,
  sends requests, ends calls and reaches for hosts.
-/

namespace PeerServices

/-- The peer whose answer to an exchange is waited for. -/
def Target.peer? : Target → Option PeerAddress
  | .exchange _ peer => some peer
  | .reply .. | .report => none

namespace Connection

/-- A connection that belongs to no session, and on which nobody waits for a response. -/
structure IsIdle (connection : Connection) : Prop where
  session : connection.session = none
  outstanding : connection.outstanding = none

/-- A connection comes no nearer to being open. Whose answer to an exchange is waited for on it was
waited for before, or is at the other end. -/
structure Wanes (old new : Connection) : Prop where
  peer : new.peer = old.peer
  isOpen : new.isOpen = true → old.isOpen = true ∧ new.session = old.session
  idle : new.isOpen = false → (old.isOpen = false → old.IsIdle) → new.IsIdle
  listeners : ∀ l ∈ new.listeners, ∀ p, l.target.peer? = some p →
    l ∈ old.listeners ∨ old.peer = some p
  accepting : ∀ s rest, new.stage = .accepting s rest → ∃ rest', old.stage = .accepting s rest'
  connecting : ∀ s k rest, new.stage = .connecting s k rest →
    ∃ rest', old.stage = .connecting s k rest'

variable {a b c : Connection}

theorem Wanes.refl (a : Connection) : a.Wanes a where
  peer := rfl
  isOpen hOpen := ⟨hOpen, rfl⟩
  idle hShut hIdle := hIdle hShut
  listeners _ hMem _ _ := .inl hMem
  accepting _ rest hStage := ⟨rest, hStage⟩
  connecting _ _ rest hStage := ⟨rest, hStage⟩

theorem Wanes.trans (h : a.Wanes b) (h' : b.Wanes c) : a.Wanes c where
  peer := h'.peer.trans h.peer
  isOpen hOpen := by
    obtain ⟨hMiddle, hSession'⟩ := h'.isOpen hOpen
    obtain ⟨hFirst, hSession⟩ := h.isOpen hMiddle
    exact ⟨hFirst, hSession'.trans hSession⟩
  idle hShut hIdle := h'.idle hShut fun hMiddle => h.idle hMiddle hIdle
  listeners l hMem p hPeer := by
    rcases h'.listeners l hMem p hPeer with hMem | hEnd
    · exact h.listeners l hMem p hPeer
    · exact .inr (h.peer.symm.trans hEnd)
  accepting s rest hStage := by
    obtain ⟨rest', hStage'⟩ := h'.accepting s rest hStage
    exact h.accepting s rest' hStage'
  connecting s k rest hStage := by
    obtain ⟨rest', hStage'⟩ := h'.connecting s k rest hStage
    exact h.connecting s k rest' hStage'

/-- Nothing is changed but who waits. -/
theorem Wanes.of_stage {old new : Connection} (hStage : new.stage = old.stage)
    (hPeer : new.peer = old.peer) (hSession : new.session = old.session)
    (hOutstanding : old.outstanding = none → new.outstanding = none)
    (hListeners : ∀ l ∈ new.listeners, ∀ p, l.target.peer? = some p →
      l ∈ old.listeners ∨ old.peer = some p) : old.Wanes new := by
  have hOpen : new.isOpen = old.isOpen := by
    unfold Connection.isOpen
    rw [hStage]
  constructor
  case peer => exact hPeer
  case isOpen => exact fun hIsOpen => ⟨hOpen ▸ hIsOpen, hSession⟩
  case idle =>
    intro hShut hIdle
    obtain ⟨hNone, hNobody⟩ := hIdle (hOpen ▸ hShut)
    exact ⟨hSession.trans hNone, hOutstanding hNobody⟩
  case listeners => exact hListeners
  case accepting => exact fun s rest h => ⟨rest, hStage ▸ h⟩
  case connecting => exact fun s k rest h => ⟨rest, hStage ▸ h⟩

theorem listeners_of_none {connection : Connection} (h : connection.outstanding = none) :
    connection.listeners = [] := by
  unfold Connection.listeners
  rw [h]
  rfl

theorem wanes_afterClosing (connection : Connection) :
    connection.Wanes connection.afterClosing where
  peer := rfl
  isOpen := nofun
  idle _ _ := ⟨rfl, rfl⟩
  listeners := nofun
  accepting _ _ := nofun
  connecting _ _ _ := nofun

/-- A connection that never was open is given up. -/
theorem wanes_giveUp {old new : Connection} (hUnopened : old.isOpen = false)
    (hStage : new.stage = .closed) (hPeer : new.peer = old.peer)
    (hSession : new.session = old.session) (hOutstanding : new.outstanding = old.outstanding) :
    old.Wanes new := by
  have hShut : new.isOpen = false := by
    unfold Connection.isOpen
    rw [hStage]
  constructor
  case peer => exact hPeer
  case isOpen =>
    intro hOpen
    cases hShut.symm.trans hOpen
  case idle =>
    intro _ hIdle
    obtain ⟨hNone, hNobody⟩ := hIdle hUnopened
    exact ⟨hSession.trans hNone, hOutstanding.trans hNobody⟩
  case listeners =>
    intro l hMem _ _
    unfold Connection.listeners at hMem ⊢
    rw [hOutstanding] at hMem
    exact .inl hMem
  case accepting =>
    intro s rest hAccepting
    cases hStage.symm.trans hAccepting
  case connecting =>
    intro s k rest hConnecting
    cases hStage.symm.trans hConnecting

theorem listeners_of_some {connection : Connection} {t : Outstanding Target}
    (h : connection.outstanding = some t) : connection.listeners = t.listeners := by
  unfold Connection.listeners
  rw [h]
  rfl

theorem wanes_withdraw {connection : Connection} {t : Outstanding Target} (uid : Int64)
    (h : connection.outstanding = some t) :
    connection.Wanes { connection with outstanding := some (t.erase uid) } := by
  refine .of_stage rfl rfl rfl ?_ ?_
  · intro hNone
    cases h.symm.trans hNone
  · intro l hMem _ _
    rw [listeners_of_some h]
    exact .inl (Outstanding.mem_listeners_erase hMem)

theorem wanes_expect {connection : Connection} {t : Outstanding Target} (uid : Int64)
    {ls : List (Listener Target)} (h : connection.outstanding = some t)
    (hPeer : ∀ l ∈ ls, ∀ p, l.target.peer? = some p → connection.peer = some p) :
    connection.Wanes { connection with outstanding := some (t.insert uid ls) } := by
  refine .of_stage rfl rfl rfl ?_ ?_
  · intro hNone
    cases h.symm.trans hNone
  · intro l hMem p hWaits
    rw [listeners_of_some h]
    rcases Outstanding.mem_listeners_insert hMem with hMem | hMem
    · exact .inl hMem
    · exact .inr (hPeer l hMem p hWaits)

end Connection

/-- The same conversation, which may have lost its connection if that is over. -/
structure Session.Wanes (isOpen : ConnectionId → Bool) (old new : Session) : Prop where
  same : old.Same new
  current : ∀ c, new.current = some c → old.current = some c
  lost : ∀ c, old.current = some c → new.current = some c ∨ isOpen c = false

theorem Session.Wanes.refl (isOpen : ConnectionId → Bool) (session : Session) :
    session.Wanes isOpen session where
  same := .refl session
  current _ hCurrent := hCurrent
  lost _ hCurrent := .inl hCurrent

namespace Node

/-- No connection is opened, and the answer to an exchange is waited for only where it was before,
or where it can come from nobody else. -/
structure Wanes (n n' : Node) : Prop where
  connections : ∀ c new, n'.connections.find? c = some new →
    ∃ old, n.connections.find? c = some old ∧ old.Wanes new
  sessions : ∀ s new, n'.sessions.find? s = some new →
    ∃ old, n.sessions.find? s = some old ∧ old.Wanes n'.isOpen new
  remembers : Remembers n n'
  calls : ∀ k new, n'.calls.find? k = some new →
    (∃ old, n.calls.find? k = some old ∧ new.session = old.session ∧
      new.listeners = old.listeners) ∨
    (n.nextCall ≤ k ∧ ∀ l ∈ new.listeners, l.target.peer? = none)
  nextCall : n.nextCall ≤ n'.nextCall
  directory : n'.directory = n.directory

variable {n n' n'' : Node}

theorem Wanes.not_open (h : Wanes n n') {c : ConnectionId} (hShut : n.isOpen c = false) :
    n'.isOpen c = false := by
  rw [Bool.eq_false_iff] at hShut ⊢
  intro hOpen
  obtain ⟨new, hNew, hIsOpen⟩ := isOpen_iff.mp hOpen
  obtain ⟨old, hOld, hWanes⟩ := h.connections c new hNew
  exact hShut (isOpen_iff.mpr ⟨old, hOld, (hWanes.isOpen hIsOpen).1⟩)

theorem Wanes.of_eq (hConnections : n'.connections = n.connections)
    (hSessions : n'.sessions = n.sessions) (hCalls : n'.calls = n.calls)
    (hNext : n.nextCall ≤ n'.nextCall) (hDirectory : n'.directory = n.directory) :
    Wanes n n' where
  connections _ new hNew := ⟨new, hConnections ▸ hNew, .refl new⟩
  sessions _ new hNew := ⟨new, hSessions ▸ hNew, .refl _ new⟩
  remembers _ session hSession := ⟨session, hSessions ▸ hSession, .refl session⟩
  calls _ new hNew := .inl ⟨new, hCalls ▸ hNew, rfl, rfl⟩
  nextCall := hNext
  directory := hDirectory

theorem Wanes.refl (n : Node) : Wanes n n := .of_eq rfl rfl rfl (Nat.le_refl _) rfl

theorem Wanes.trans (h : Wanes n n') (h' : Wanes n' n'') : Wanes n n'' := by
  constructor
  case connections =>
    intro c new hNew
    obtain ⟨middle, hMiddle, hWanes'⟩ := h'.connections c new hNew
    obtain ⟨old, hOld, hWanes⟩ := h.connections c middle hMiddle
    exact ⟨old, hOld, hWanes.trans hWanes'⟩
  case sessions =>
    intro s new hNew
    obtain ⟨middle, hMiddle, hWanes'⟩ := h'.sessions s new hNew
    obtain ⟨old, hOld, hWanes⟩ := h.sessions s middle hMiddle
    refine ⟨old, hOld, hWanes.same.trans hWanes'.same,
      fun c hCurrent => hWanes.current c (hWanes'.current c hCurrent), fun c hCurrent => ?_⟩
    rcases hWanes.lost c hCurrent with hCurrent | hShut
    · exact hWanes'.lost c hCurrent
    · exact .inr (h'.not_open hShut)
  case remembers =>
    intro s session hSession
    obtain ⟨session', hSession', hSame⟩ := h.remembers s session hSession
    obtain ⟨session'', hSession'', hSame'⟩ := h'.remembers s session' hSession'
    exact ⟨session'', hSession'', hSame.trans hSame'⟩
  case calls =>
    intro k new hNew
    rcases h'.calls k new hNew with ⟨middle, hMiddle, hSession', hListeners'⟩ | ⟨hLate, hNobody⟩
    · rcases h.calls k middle hMiddle with ⟨old, hOld, hSession, hListeners⟩ | ⟨hLate, hNobody⟩
      · exact .inl ⟨old, hOld, hSession'.trans hSession, hListeners'.trans hListeners⟩
      · exact .inr ⟨hLate, hListeners' ▸ hNobody⟩
    · exact .inr ⟨Nat.le_trans h.nextCall hLate, hNobody⟩
  case nextCall => exact Nat.le_trans h.nextCall h'.nextCall
  case directory => exact h'.directory.trans h.directory

theorem wanes_foldl {α : Type} {f : Node → α → Node} (h : ∀ n a, Wanes n (f n a)) (l : List α)
    (n : Node) : Wanes n (l.foldl f n) := by
  induction l generalizing n with
  | nil => exact .refl n
  | cons a l ih => exact (h n a).trans (ih (f n a))

/-! ## Single changes -/

theorem wanes_emit (n : Node) (e : Effect) : Wanes n (n.emit e) :=
  .of_eq rfl rfl rfl (Nat.le_refl _) rfl

theorem wanes_strike (n : Node) (c : ConnectionId) : Wanes n (n.strike c) :=
  .of_eq rfl rfl rfl (Nat.le_refl _) rfl

theorem wanes_sendAll (n : Node) (c : ConnectionId) (parcels : List Parcel) :
    Wanes n (n.sendAll c parcels) := wanes_foldl (fun n _ => wanes_emit n _) parcels n

theorem wanes_modifyConnection {c : ConnectionId} {f : Connection → Connection}
    (h : ∀ old, n.connections.find? c = some old → old.Wanes (f old)) :
    Wanes n (n.modifyConnection c f) where
  connections c' new hNew := by
    rcases SortedMap.find?_modify_eq_some hNew with ⟨rfl, old, hOld, rfl⟩ | ⟨_, hNew⟩
    · exact ⟨old, hOld, h old hOld⟩
    · exact ⟨new, hNew, .refl new⟩
  sessions _ new hNew := ⟨new, hNew, .refl _ new⟩
  remembers := .refl n
  calls _ new hNew := .inl ⟨new, hNew, rfl, rfl⟩
  nextCall := Nat.le_refl _
  directory := rfl

theorem wanes_modifySession {s : SessionId} {f : Session → Session}
    (h : ∀ old, n.sessions.find? s = some old → old.Wanes n.isOpen (f old)) :
    Wanes n (n.modifySession s f) where
  connections _ new hNew := ⟨new, hNew, .refl new⟩
  sessions s' new hNew := by
    rcases SortedMap.find?_modify_eq_some hNew with ⟨rfl, old, hOld, rfl⟩ | ⟨_, hNew⟩
    · exact ⟨old, hOld, h old hOld⟩
    · exact ⟨new, hNew, .refl _ new⟩
  remembers := by
    intro s' session hSession
    by_cases hKey : s' = s
    · subst hKey
      have hModified := n.find?_modifySession_self s' f
      rw [hSession] at hModified
      exact ⟨f session, hModified, (h session hSession).same⟩
    · exact ⟨session, (n.find?_modifySession_of_ne hKey f).trans hSession, .refl session⟩
  calls _ new hNew := .inl ⟨new, hNew, rfl, rfl⟩
  nextCall := Nat.le_refl _
  directory := rfl

/-- What may become of a session that keeps its connection. -/
theorem wanes_adjustSession {s : SessionId} {f : Session → Session}
    (hSame : ∀ old : Session, old.Same (f old)) (hCurrent : ∀ old, (f old).current = old.current) :
    Wanes n (n.modifySession s f) :=
  wanes_modifySession fun old _ => ⟨hSame old, fun _ h => hCurrent old ▸ h,
    fun _ h => .inl ((hCurrent old).trans h)⟩

theorem wanes_calls {calls : SortedMap CallId Call} {next : CallId} (hNext : n.nextCall ≤ next)
    (hCalls : ∀ k new, calls.find? k = some new →
      (∃ old, n.calls.find? k = some old ∧ new.session = old.session ∧
        new.listeners = old.listeners) ∨
      (n.nextCall ≤ k ∧ ∀ l ∈ new.listeners, l.target.peer? = none)) :
    Wanes n { n with calls, nextCall := next } where
  connections _ new hNew := ⟨new, hNew, .refl new⟩
  sessions _ new hNew := ⟨new, hNew, .refl _ new⟩
  remembers := .refl n
  calls := hCalls
  nextCall := hNext
  directory := rfl

theorem wanes_stageCall (n : Node) (k : CallId) (stage : Call.Stage) :
    Wanes n (n.modifyCall k fun call => { call with stage }) := by
  apply wanes_calls (Nat.le_refl _)
  intro k' new hNew
  rcases SortedMap.find?_modify_eq_some hNew with ⟨rfl, old, hOld, rfl⟩ | ⟨_, hNew⟩
  · exact .inl ⟨old, hOld, rfl, rfl⟩
  · exact .inl ⟨new, hNew, rfl, rfl⟩

theorem wanes_finish (n : Node) (k : CallId) (result : Reply.Result) :
    Wanes n (n.finish k result) := by
  unfold finish
  split
  · have hErased : Wanes n { n with calls := n.calls.erase k } :=
      wanes_calls (Nat.le_refl _) fun k' new hNew =>
        .inl ⟨new, (SortedMap.find?_erase_eq_some hNew).2, rfl, rfl⟩
    exact hErased.trans (wanes_emit _ _)
  · exact .refl n

theorem wanes_abandon (n : Node) (listeners : List (Listener Target)) :
    Wanes n (n.abandon listeners) := wanes_foldl (fun n k => wanes_finish n k _) _ n

theorem wanes_fire (n : Node) (s : SessionId) (h : Session.Hook) : Wanes n (n.fire s h) := by
  cases hSession : n.sessions.find? s with
  | none =>
    rw [fire_none hSession]
    exact .refl n
  | some session =>
    obtain ⟨kept, hKept⟩ := fire_eq hSession h
    rw [hKept]
    exact .of_eq rfl rfl rfl (Nat.le_refl _) rfl

/-! ## Closing -/

theorem wanes_detach (s : SessionId) {c : ConnectionId} (hShut : n.isOpen c = false) :
    Wanes n (n.detach s c) := by
  apply wanes_modifySession
  intro old _
  split
  next hCurrent =>
    refine ⟨⟨rfl, rfl, rfl⟩, fun _ => nofun, fun c' hWas => .inr ?_⟩
    obtain rfl := Option.some.inj (hCurrent.symm.trans hWas)
    exact hShut
  · exact .refl _ old

theorem not_open_afterClosing (n : Node) (c : ConnectionId) :
    (n.modifyConnection c Connection.afterClosing).isOpen c = false := by
  unfold isOpen
  rw [find?_modifyConnection_self]
  cases n.connections.find? c <;> rfl

/-- A session can be detached from a connection that is closed at the same time. -/
theorem wanes_close (n : Node) (s : SessionId) (c : ConnectionId) :
    Wanes n ((n.modifyConnection c Connection.afterClosing).detach s c) :=
  (wanes_modifyConnection fun old _ => old.wanes_afterClosing).trans
    (wanes_detach s (not_open_afterClosing n c))

/-- What follows when a connection was closed. -/
theorem wanes_terminate_of_open {c : ConnectionId} {connection : Connection}
    (hConnection : n.connections.find? c = some connection) (hOpen : connection.isOpen = true)
    (reason : Option WireError) :
    Wanes (n.modifyConnection c Connection.afterClosing) (n.terminate c reason) := by
  unfold terminate
  rw [hConnection]
  simp only [hOpen, Bool.not_true, Bool.false_eq_true, if_false]
  have hAbandoned := wanes_abandon (n.modifyConnection c Connection.afterClosing)
    connection.listeners
  generalize hMiddle : (if connection.reading = true then _ else _ : Node) = middle
  have hHungUp : Wanes (n.modifyConnection c Connection.afterClosing) middle := by
    subst hMiddle
    split
    · exact hAbandoned.trans (wanes_emit _ _)
    · exact hAbandoned
  have hStruck := hHungUp.trans (wanes_strike middle c)
  split
  · exact hStruck
  · have hShut := hStruck.not_open (not_open_afterClosing n c)
    exact (hStruck.trans (wanes_detach _ hShut)).trans (wanes_fire _ _ _)

theorem wanes_terminate (n : Node) (c : ConnectionId) (reason : Option WireError) :
    Wanes n (n.terminate c reason) := by
  cases hOpen : n.isOpen c with
  | false =>
    rw [terminate_of_not_open hOpen]
    exact .refl n
  | true =>
    obtain ⟨connection, hConnection, hIsOpen⟩ := isOpen_iff.mp hOpen
    exact (wanes_modifyConnection fun old _ => old.wanes_afterClosing).trans
      (wanes_terminate_of_open hConnection hIsOpen reason)

theorem wanes_closeSession (n : Node) (s : SessionId) : Wanes n (n.closeSession s) := by
  unfold closeSession
  split
  · exact .refl n
  next c hCurrent =>
    rw [unlink_eq_detach hCurrent]
    cases hOpen : n.isOpen c with
    | false =>
      have hDetached := wanes_detach s hOpen
      exact hDetached.trans (wanes_terminate _ c none)
    | true =>
      obtain ⟨connection, hConnection, hIsOpen⟩ := isOpen_iff.mp hOpen
      -- The session is detached first, which makes no difference.
      exact (wanes_close n s c).trans
        (wanes_terminate_of_open (n := n.detach s c) hConnection hIsOpen none)

theorem wanes_closeAll (n : Node) : Wanes n n.closeAll := by
  have hDrained : Wanes n { n with roster := .empty } := .of_eq rfl rfl rfl (Nat.le_refl _) rfl
  exact hDrained.trans (wanes_foldl (fun n c => wanes_terminate n c none) _ _)

theorem wanes_stopReading (n : Node) (c : ConnectionId) (reason : WireError) :
    Wanes n (n.stopReading c reason) := by
  unfold stopReading
  split
  · exact wanes_terminate n c _
  · apply Wanes.trans _ (wanes_emit _ _)
    exact wanes_modifyConnection fun old _ => .of_stage rfl rfl rfl id fun _ h _ _ => .inl h

/-- A connection that never was open is refused. -/
theorem wanes_refuse {c : ConnectionId} (hUnopened : n.isOpen c = false) (cause : WireError) :
    Wanes n (n.refuse c cause) := by
  apply Wanes.trans _ (wanes_emit _ _)
  apply wanes_modifyConnection
  intro old hOld
  refine Connection.wanes_giveUp ?_ rfl rfl rfl rfl
  rw [Bool.eq_false_iff] at hUnopened ⊢
  exact fun hOpen => hUnopened (isOpen_iff.mpr ⟨old, hOld, hOpen⟩)

theorem wanes_expire (n : Node) (c : ConnectionId) : Wanes n (n.expire c) := by
  have hUnopened : ∀ stage, (n.connections.find? c).map Connection.stage = some stage →
      (∀ h : stage = .opened, False) → n.isOpen c = false := by
    intro stage hStage hNot
    obtain ⟨connection, hConnection, rfl⟩ := Option.map_eq_some_iff.mp hStage
    unfold isOpen Connection.isOpen
    rw [hConnection]
    cases h : connection.stage with
    | opened => exact (hNot h).elim
    | _ => simp [h]
  unfold expire
  split
  next hStage => exact wanes_refuse (hUnopened _ hStage nofun) _
  next hStage => exact wanes_refuse (hUnopened _ hStage nofun) _
  · exact .refl n

/-! ## Telling -/

theorem wanes_configure (n : Node) (s : SessionId) :
    Wanes n ((n.modifySession s fun session => { session with configured := true }).fire s
      .configured) := by
  apply Wanes.trans _ (wanes_fire _ s .configured)
  exact wanes_adjustSession (fun _ => ⟨rfl, rfl, rfl⟩) fun _ => rfl

theorem wanes_fireConnected (n : Node) (s : SessionId) : Wanes n (n.fireConnected s) := by
  unfold fireConnected
  split
  · exact .refl n
  next session _ =>
    dsimp only
    generalize hConfigured : (if session.configured = true then n else _ : Node) = configured
    have hFirst : Wanes n configured := by
      subst hConfigured
      split
      · exact .refl n
      · exact wanes_configure n s
    have hSecond : ∀ view, Wanes n (configured.fire s (.connected view)) := fun view =>
      hFirst.trans (wanes_fire _ s _)
    cases configured.view? s with
    | none =>
      dsimp only
      split
      · exact hFirst.trans (wanes_closeSession _ s)
      · exact hFirst
    | some view =>
      dsimp only
      split
      · exact (hSecond view).trans (wanes_closeSession _ s)
      · exact hSecond view

/-! ## Messages -/

theorem outstanding_of_find? {c : ConnectionId} {uid : Int64} {t : Outstanding Target}
    {ls : List (Listener Target)}
    (h : (((n.connections.find? c).bind (·.outstanding)).bind fun t =>
      (t.find? uid).map (t, ·)) = some (t, ls)) :
    ∀ old, n.connections.find? c = some old → old.outstanding = some t := by
  intro old hOld
  obtain ⟨t', hTable, hEntry⟩ := Option.bind_eq_some_iff.mp h
  obtain ⟨ls', -, hPair⟩ := Option.map_eq_some_iff.mp hEntry
  cases hPair
  rwa [hOld] at hTable

/-- A request whose listeners wait for who is at the other end. -/
theorem wanes_sendRequest {c : ConnectionId} {m : Message} {ls : List (Listener Target)}
    (h : ∀ connection, n.connections.find? c = some connection → ∀ l ∈ ls, ∀ p,
      l.target.peer? = some p → connection.peer = some p) :
    Wanes n (n.sendRequest c m ls).2 := by
  unfold sendRequest
  split
  · exact .refl n
  next connection hConnection =>
    split
    · exact .refl n
    · exact .refl n
    next outstanding hOutstanding _ =>
      apply Wanes.trans _ (wanes_emit _ _)
      apply wanes_modifyConnection
      intro old hOld
      obtain rfl := Option.some.inj (hOld.symm.trans hConnection)
      exact old.wanes_expect m.uid hOutstanding (h old hOld)

theorem wanes_forget (n : Node) (c : ConnectionId) (uid : Int64) :
    Wanes n (n.forget c uid).2 := by
  unfold forget
  split
  · exact .refl n
  next hFound =>
    have hWithdrawn := wanes_modifyConnection fun old hOld =>
      old.wanes_withdraw uid (outstanding_of_find? hFound old hOld)
    exact hWithdrawn.trans (wanes_abandon _ _)

theorem wanes_respond (n : Node) (c : ConnectionId) (m : Message) : Wanes n (n.respond c m) := by
  unfold respond
  split
  · exact .refl n
  · split
    · exact wanes_emit n _
    · exact .refl n

theorem wanes_takeResponse (n : Node) (c : ConnectionId) (m : Message) :
    Wanes n (n.takeResponse c m) := by
  unfold takeResponse
  split
  · exact .refl n
  next hFound =>
    have hWithdrawn := wanes_modifyConnection fun old hOld =>
      old.wanes_withdraw m.uid (outstanding_of_find? hFound old hOld)
    dsimp only
    split
    · exact hWithdrawn.trans (wanes_emit _ _)
    · exact hWithdrawn.trans (wanes_abandon _ _)

/-! ## Calls -/

/-- A call whose listeners wait for no exchange. -/
theorem wanes_newCall (n : Node) (s : SessionId) (timeout : Duration) (message : Message → Message)
    (code : UInt8) (listeners : CallId → List (Listener Target)) (resolved : Option Reply.Result)
    (h : ∀ k, ∀ l ∈ listeners k, l.target.peer? = none) :
    Wanes n (n.newCall s timeout message code listeners resolved).2 := by
  apply wanes_calls (Nat.le_succ _)
  intro k new hNew
  rcases SortedMap.find?_insert_eq_some hNew with ⟨rfl, rfl⟩ | ⟨_, hNew⟩
  · exact .inr ⟨Nat.le_refl _, h n.nextCall⟩
  · exact .inl ⟨new, hNew, rfl, rfl⟩

theorem wanes_request (n : Node) (s : SessionId) (timeout : Duration) (code : UInt8)
    (payload : Bytes) (forms : List (UInt8 × Reply.Form)) (resolved : Option Reply.Result) :
    Wanes n (n.request s timeout code payload forms resolved).2 := by
  have hReplies : ∀ k, ∀ l ∈ forms.map fun f => (⟨f.1, .reply k f.2⟩ : Listener Target),
      l.target.peer? = none := by
    intro k l hMem
    obtain ⟨f, -, rfl⟩ := List.mem_map.mp hMem
    rfl
  have hMade := wanes_newCall n s timeout (·.write payload) code
    (fun k => forms.map fun f => ⟨f.1, .reply k f.2⟩) resolved hReplies
  exact hMade.trans (wanes_emit _ _)

theorem wanes_lapse (n : Node) (k : CallId) (cause : Call → ServiceError) :
    Wanes n (n.lapse k cause) := by
  unfold lapse
  split
  · exact .refl n
  · split
    · exact (wanes_finish n k _).trans (wanes_forget _ _ _)
    · exact .refl n

/-- The peer for which a call waits is at the other end of a connection. -/
def Directed (n : Node) (k : CallId) (c : ConnectionId) : Prop :=
  ∀ call connection l p, n.calls.find? k = some call → n.connections.find? c = some connection →
    l ∈ call.listeners → l.target.peer? = some p → connection.peer = some p

theorem Directed.wanes (hWanes : Wanes n n') {k : CallId} {c : ConnectionId}
    (h : n.Directed k c) : n'.Directed k c := by
  intro new after l p hNew hAfter hMem hPeer
  obtain ⟨before, hBefore, hConnection⟩ := hWanes.connections c after hAfter
  rw [hConnection.peer]
  rcases hWanes.calls k new hNew with ⟨old, hOld, -, hListeners⟩ | ⟨-, hNobody⟩
  · exact h old before l p hOld hBefore (hListeners ▸ hMem) hPeer
  · cases (hNobody l hMem).symm.trans hPeer

theorem wanes_transmit {k : CallId} {c : ConnectionId} (h : n.Directed k c) :
    Wanes n (n.transmit k c) := by
  unfold transmit
  split
  · exact .refl n
  next call hCall =>
    have hSent : Wanes n (n.sendRequest c call.message call.listeners).2 :=
      wanes_sendRequest fun connection hFind l hMem p => h call connection l p hCall hFind hMem
    dsimp only
    generalize n.sendRequest c call.message call.listeners = sent at hSent ⊢
    obtain ⟨result, n'⟩ := sent
    cases result with
    | error e => exact hSent.trans (wanes_finish n' k _)
    | ok done =>
      dsimp only
      split
      · exact hSent.trans (wanes_finish n' k _)
      · split
        · exact hSent.trans (wanes_finish n' k _)
        · have hWaiting := hSent.trans (wanes_stageCall n' k (.waiting c))
          split
          · exact hWaiting.trans (wanes_lapse _ k _)
          · exact hWaiting.trans (wanes_emit _ _)

theorem wanes_release (n : Node) (s : SessionId) : Wanes n (n.release s) := by
  unfold release
  split
  · exact .refl n
  next session _ =>
    have hNext : Wanes n (n.modifySession s fun session =>
        { session with connecting := session.waiters.head?, waiters := session.waiters.tail }) :=
      wanes_adjustSession (fun _ => ⟨rfl, rfl, rfl⟩) fun _ => rfl
    dsimp only
    split
    · exact hNext
    · exact hNext.trans (wanes_emit _ _)

theorem wanes_failToConnect (n : Node) (s : SessionId) (k : CallId) (cause : ServiceError) :
    Wanes n (n.failToConnect s k cause) :=
  ((wanes_fire n s _).trans (wanes_finish _ k _)).trans (wanes_release _ s)

theorem wanes_dialAt (n : Node) (s : SessionId) (k : CallId) (host : PeerAddress)
    (socket : SocketAddress) (attempts : Nat) : Wanes n (n.dialAt s k host socket attempts) := by
  unfold dialAt
  split
  · exact wanes_failToConnect n s k _
  · exact (wanes_stageCall n k _).trans (wanes_emit _ _)

theorem wanes_dial (n : Node) (s : SessionId) (k : CallId) (host : PeerAddress) :
    Wanes n (n.dial s k host) := by
  unfold dial
  split
  · exact wanes_failToConnect n s k _
  · exact wanes_dialAt n s k host _ 0

theorem wanes_decline (n : Node) (outcome : Except ServiceError Line) :
    Wanes n (n.decline outcome) := by
  unfold decline
  split
  · exact wanes_emit n _
  · exact .refl n

theorem wanes_redial (n : Node) (k : CallId) : Wanes n (n.redial k) := by
  unfold redial
  split
  · exact .refl n
  · split
    · exact wanes_dialAt n _ k _ _ _
    · exact .refl n

theorem wanes_cancelDials (n : Node) : Wanes n n.cancelDials := by
  have hCancelled : Wanes n { n with dialsCancelled := true } :=
    .of_eq rfl rfl rfl (Nat.le_refl _) rfl
  apply hCancelled.trans
  apply wanes_foldl
  intro n' e
  split
  · exact .refl n'
  · exact wanes_emit n' _

theorem wanes_skipCall (n : Node) : Wanes n { n with nextCall := n.nextCall + 1 } :=
  .of_eq rfl rfl rfl (Nat.le_succ _) rfl

theorem wanes_fail (n : Node) (cause : ServiceError) : Wanes n (n.fail cause).2 :=
  (wanes_skipCall n).trans (wanes_emit _ _)

/-! ## Directories -/

/-- What happened to the directory is told. -/
theorem wanes_commit (n : Node) (change : Directory.Change) :
    Wanes { n with directory := change.1 } (n.commit change) :=
  wanes_foldl (fun n' _ => wanes_emit n' _) _ _

end Node

end PeerServices
