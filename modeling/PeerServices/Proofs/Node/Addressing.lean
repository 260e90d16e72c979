import PeerServices.Proofs.Node.Course
import PeerServices.Proofs.Node.Waning

/-!
# Whose answer is waited for

An exchange with a peer is asked for on the session that is kept for the peer. Whoever waits for the
answer waits on a connection with this peer at the other end, whatever happened in between.

* `Node.Addressed`: connections, sessions and calls agree on the peer.
* `Node.Heeds`: a step that keeps this, and leaves the directory as it is. One lemma for each thing
  that a node does and that opens a connection or waits for a response.
* `Node.Addressed.peerOf?`: who waits on a connection waits for the peer of its session.
-/

namespace PeerServices.Node

variable {n n' n'' : Node}

/-! ## The invariant -/

/-- A session by which a peer is reached. It waits for no handshake, unless it connects. -/
structure Reaches (n : Node) (p : PeerAddress) (s : SessionId) : Prop where
  suits : ∃ session, n.sessions.find? s = some session ∧ session.Suits n.connections p
  settled : ∀ c connection rest, n.connections.find? c = some connection →
    connection.stage ≠ .accepting s rest

/-- A call was made, and is one of this session if it has not ended. -/
def Belongs (n : Node) (k : CallId) (s : SessionId) : Prop :=
  k < n.nextCall ∧ ∀ call, n.calls.find? k = some call → call.session = s

/-- No call for an exchange is one of this session. -/
def Unasked (n : Node) (s : SessionId) : Prop :=
  ∀ k call l, n.calls.find? k = some call → l ∈ call.listeners → l.target.peer? ≠ none →
    call.session ≠ s

/-- Connections and their sessions belong to each other, and the answer to an exchange is waited for
where it can come from nobody else. -/
structure Addressed (n : Node) : Prop where
  idle : ∀ c connection, n.connections.find? c = some connection → connection.isOpen = false →
    connection.IsIdle
  current : ∀ s session c connection, n.sessions.find? s = some session →
    session.current = some c → n.connections.find? c = some connection →
      connection.isOpen = true → connection.session = some s
  attached : ∀ c connection s session, n.connections.find? c = some connection →
    connection.session = some s → n.sessions.find? s = some session →
      session.isProxy = false → session.current = some c
  host : ∀ c connection s session, n.connections.find? c = some connection →
    connection.session = some s → n.sessions.find? s = some session →
      session.isProxy = true → connection.peer = some session.address.host
  listeners : ∀ c connection l p, n.connections.find? c = some connection →
    l ∈ connection.listeners → l.target.peer? = some p → connection.peer = some p
  calls : ∀ k call l p, n.calls.find? k = some call → l ∈ call.listeners →
    l.target.peer? = some p → n.Reaches p call.session
  connecting : ∀ c connection s k rest, n.connections.find? c = some connection →
    connection.stage = .connecting s k rest → n.Belongs k s

theorem Blank.addressed (h : n.Blank) : n.Addressed := by
  have hConnection : ∀ c connection, n.connections.find? c ≠ some connection := by
    simp [h.connections]
  have hCall : ∀ k call, n.calls.find? k ≠ some call := by
    simp [h.calls]
  constructor
  case idle => exact fun c connection hFind => absurd hFind (hConnection c connection)
  case current => exact fun _ _ c connection _ _ hFind => absurd hFind (hConnection c connection)
  case attached => exact fun c connection _ _ hFind => absurd hFind (hConnection c connection)
  case host => exact fun c connection _ _ hFind => absurd hFind (hConnection c connection)
  case listeners => exact fun c connection _ _ hFind => absurd hFind (hConnection c connection)
  case calls => exact fun k call _ _ hFind => absurd hFind (hCall k call)
  case connecting => exact fun c connection _ _ _ hFind => absurd hFind (hConnection c connection)

/-- A session that is kept for a peer reaches it. -/
theorem reaches_of_kept (h : n.Sound) {p : PeerAddress} {s : SessionId}
    (hKept : n.exchanges.find? p = some s) : n.Reaches p s where
  suits := h.kept.suits p s hKept
  settled c connection rest hFind hStage :=
    (h.linked.accepting c connection s rest hFind hStage).unkept p hKept

section Peers

variable {c : ConnectionId} {s : SessionId} {connection : Connection} {p : PeerAddress}

/-- A peer is at the other end of the open connection of a session that reaches it. -/
theorem Addressed.peer_of_reaches (h : n.Addressed) (hReaches : n.Reaches p s)
    (hOpen : n.openConnection? s = some c) (hFind : n.connections.find? c = some connection) :
    connection.peer = some p := by
  obtain ⟨session, hSession, hCurrent, hIsOpen⟩ := openConnection?_eq_some.mp hOpen
  obtain ⟨known, hKnown, hIsOpen⟩ := isOpen_iff.mp hIsOpen
  obtain rfl := Option.some.inj (hKnown.symm.trans hFind)
  obtain ⟨suited, hSuited, hSuits⟩ := hReaches.suits
  obtain rfl := Option.some.inj (hSession.symm.trans hSuited)
  cases hProxy : session.isProxy with
  | true =>
    have hAttached := h.current s session c known hSession hCurrent hKnown hIsOpen
    rw [h.host c known s session hKnown hAttached hSession hProxy, hSuits.host hProxy]
  | false => exact hSuits.peer hProxy c known hCurrent hKnown hIsOpen

theorem Addressed.directed (h : n.Addressed) {k : CallId} {call : Call}
    (hCall : n.calls.find? k = some call) (hOpen : n.openConnection? call.session = some c) :
    n.Directed k c := by
  intro call' connection l p hCall' hFind hMem hPeer
  obtain rfl := Option.some.inj (hCall.symm.trans hCall')
  exact h.peer_of_reaches (h.calls k call l p hCall hMem hPeer) hOpen hFind

/-- Who waits on a connection for the answer to an exchange waits for the peer of its session. -/
theorem Addressed.peerOf? (h : n.Addressed) (hFind : n.connections.find? c = some connection)
    (hAttached : connection.session = some s) {session : Session}
    (hSession : n.sessions.find? s = some session) {l : Listener Target}
    (hMem : l ∈ connection.listeners) (hPeer : l.target.peer? = some p) :
    n.peerOf? s = some p := by
  have hEnd := h.listeners c connection l p hFind hMem hPeer
  cases hProxy : session.isProxy with
  | true =>
    rw [peerOf?_of_isProxy hSession hProxy, ← h.host c connection s session hFind hAttached
      hSession hProxy, hEnd]
  | false =>
    have hCurrent := h.attached c connection s session hFind hAttached hSession hProxy
    have hOpen : connection.isOpen = true := by
      cases hIsOpen : connection.isOpen with
      | true => rfl
      | false =>
        have hNone := (h.idle c connection hFind hIsOpen).session
        cases hNone.symm.trans hAttached
    exact (peerOf?_eq_some hSession hProxy).mpr ⟨c, connection, hCurrent, hFind, hOpen, hEnd⟩

/-- A session that waits for its handshake was asked for nothing. -/
theorem Addressed.unasked (h : n.Addressed) {rest : Received → Dialogue Handshake.Result}
    (hFind : n.connections.find? c = some connection)
    (hStage : connection.stage = .accepting s rest) : n.Unasked s := by
  rintro k call l hCall hMem hPeer rfl
  obtain ⟨p, hPeer⟩ := Option.ne_none_iff_exists'.mp hPeer
  exact (h.calls k call l p hCall hMem hPeer).settled c connection rest hFind hStage

end Peers

/-! ## Steps that bring no connection nearer to being open -/

theorem Reaches.wanes (hWanes : Wanes n n') {p : PeerAddress} {s : SessionId}
    (h : n.Reaches p s) : n'.Reaches p s := by
  obtain ⟨old, hOld, hSuits⟩ := h.suits
  obtain ⟨new, hNew, -⟩ := hWanes.remembers s old hOld
  obtain ⟨old', hOld', hSame, hCurrent, -⟩ := hWanes.sessions s new hNew
  obtain rfl := Option.some.inj (hOld.symm.trans hOld')
  constructor
  case suits =>
    refine ⟨new, hNew, hSame.behaviour.trans hSuits.behaviour, fun hProxy => ?_, ?_⟩
    · rw [hSame.address]
      exact hSuits.host (hSame.isProxy.symm.trans hProxy)
    · intro hServing c after hAfter hFind hOpen
      obtain ⟨before, hBefore, hConnection⟩ := hWanes.connections c after hFind
      rw [hConnection.peer]
      exact hSuits.peer (hSame.isProxy.symm.trans hServing) c before (hCurrent c hAfter) hBefore
        (hConnection.isOpen hOpen).1
  case settled =>
    intro c after rest hFind hStage
    obtain ⟨before, hBefore, hConnection⟩ := hWanes.connections c after hFind
    obtain ⟨rest', hStage'⟩ := hConnection.accepting s rest hStage
    exact h.settled c before rest' hBefore hStage'

theorem Belongs.wanes (hWanes : Wanes n n') {k : CallId} {s : SessionId} (h : n.Belongs k s) :
    n'.Belongs k s := by
  refine ⟨Nat.lt_of_lt_of_le h.1 hWanes.nextCall, fun new hNew => ?_⟩
  rcases hWanes.calls k new hNew with ⟨old, hOld, hSession, -⟩ | ⟨hLate, -⟩
  · exact hSession.trans (h.2 old hOld)
  · exact absurd h.1 (Nat.not_lt.mpr hLate)

theorem Unasked.wanes (hWanes : Wanes n n') {s : SessionId} (h : n.Unasked s) : n'.Unasked s := by
  intro k new l hNew hMem hPeer
  rcases hWanes.calls k new hNew with ⟨old, hOld, hSession, hListeners⟩ | ⟨-, hNobody⟩
  · rw [hSession]
    exact h k old l hOld (hListeners ▸ hMem) hPeer
  · exact absurd (hNobody l hMem) hPeer

theorem Addressed.wanes (hWanes : Wanes n n') (h : n.Addressed) : n'.Addressed := by
  have hIdle : ∀ c new, n'.connections.find? c = some new → new.isOpen = false → new.IsIdle := by
    intro c new hNew hShut
    obtain ⟨old, hOld, hConnection⟩ := hWanes.connections c new hNew
    exact hConnection.idle hShut (h.idle c old hOld)
  have hOpen : ∀ c new s, n'.connections.find? c = some new → new.session = some s →
      new.isOpen = true := by
    intro c new s hNew hAttached
    cases hIsOpen : new.isOpen with
    | true => rfl
    | false => cases (hIdle c new hNew hIsOpen).session.symm.trans hAttached
  constructor
  case idle => exact hIdle
  case current =>
    intro s session c new hSession hCurrent hNew hIsOpen
    obtain ⟨before, hBefore, hKept⟩ := hWanes.sessions s session hSession
    obtain ⟨old, hOld, hConnection⟩ := hWanes.connections c new hNew
    obtain ⟨hWasOpen, hSame⟩ := hConnection.isOpen hIsOpen
    exact hSame.trans (h.current s before c old hBefore (hKept.current c hCurrent) hOld hWasOpen)
  case attached =>
    intro c new s session hNew hAttached hSession hServing
    have hIsOpen := hOpen c new s hNew hAttached
    obtain ⟨before, hBefore, hKept⟩ := hWanes.sessions s session hSession
    obtain ⟨old, hOld, hConnection⟩ := hWanes.connections c new hNew
    have hWasAttached := (hConnection.isOpen hIsOpen).2.symm.trans hAttached
    have hWas := h.attached c old s before hOld hWasAttached hBefore
      (hKept.same.isProxy.symm.trans hServing)
    rcases hKept.lost c hWas with hCurrent | hShut
    · exact hCurrent
    · cases hShut.symm.trans (isOpen_iff.mpr ⟨new, hNew, hIsOpen⟩)
  case host =>
    intro c new s session hNew hAttached hSession hProxy
    have hIsOpen := hOpen c new s hNew hAttached
    obtain ⟨before, hBefore, hKept⟩ := hWanes.sessions s session hSession
    obtain ⟨old, hOld, hConnection⟩ := hWanes.connections c new hNew
    have hWasAttached := (hConnection.isOpen hIsOpen).2.symm.trans hAttached
    rw [hConnection.peer, hKept.same.address]
    exact h.host c old s before hOld hWasAttached hBefore (hKept.same.isProxy.symm.trans hProxy)
  case listeners =>
    intro c new l p hNew hMem hPeer
    obtain ⟨old, hOld, hConnection⟩ := hWanes.connections c new hNew
    rw [hConnection.peer]
    rcases hConnection.listeners l hMem p hPeer with hMem | hEnd
    · exact h.listeners c old l p hOld hMem hPeer
    · exact hEnd
  case calls =>
    intro k new l p hNew hMem hPeer
    rcases hWanes.calls k new hNew with ⟨old, hOld, hSession, hListeners⟩ | ⟨-, hNobody⟩
    · rw [hSession]
      exact (h.calls k old l p hOld (hListeners ▸ hMem) hPeer).wanes hWanes
    · cases (hNobody l hMem).symm.trans hPeer
  case connecting =>
    intro c new s k rest hNew hStage
    obtain ⟨old, hOld, hConnection⟩ := hWanes.connections c new hNew
    obtain ⟨rest', hStage'⟩ := hConnection.connecting s k rest hStage
    exact (h.connecting c old s k rest' hOld hStage').wanes hWanes

theorem Addressed.withDirectory (h : n.Addressed) (d : Directory) :
    ({ n with directory := d } : Node).Addressed where
  idle := h.idle
  current := h.current
  attached := h.attached
  host := h.host
  listeners := h.listeners
  calls k call l p hCall hMem hPeer :=
    ⟨(h.calls k call l p hCall hMem hPeer).suits, (h.calls k call l p hCall hMem hPeer).settled⟩
  connecting c connection s k rest hFind hStage := h.connecting c connection s k rest hFind hStage

/-! ## Connections that are not open -/

section Unopened

variable {c : ConnectionId} {s : SessionId} {connection : Connection}

/-- The handshake of a connection goes on. -/
structure Unopened (n : Node) (c : ConnectionId) (old new : Connection) : Prop where
  before : old.isOpen = false
  after : new.isOpen = false
  session : new.session = old.session
  outstanding : new.outstanding = old.outstanding
  accepting : ∀ s rest, new.stage = .accepting s rest → n.Unasked s
  connecting : ∀ s k rest, new.stage = .connecting s k rest → n.Belongs k s

theorem Reaches.modifyConnection {f : Connection → Connection} {p : PeerAddress}
    (h : n.Reaches p s)
    (hUnopened : ∀ old, n.connections.find? c = some old → n.Unopened c old (f old))
    (hSettled : ∀ old rest, n.connections.find? c = some old → (f old).stage ≠ .accepting s rest) :
    (n.modifyConnection c f).Reaches p s := by
  obtain ⟨session, hSession, hSuits⟩ := h.suits
  refine ⟨⟨session, hSession, hSuits.behaviour, hSuits.host, ?_⟩, ?_⟩
  · intro hServing c' new hCurrent hNew hOpen
    rcases SortedMap.find?_modify_eq_some hNew with ⟨rfl, old, hOld, rfl⟩ | ⟨_, hNew⟩
    · cases (hUnopened old hOld).after.symm.trans hOpen
    · exact hSuits.peer hServing c' new hCurrent hNew hOpen
  · intro c' new rest hNew hStage
    rcases SortedMap.find?_modify_eq_some hNew with ⟨rfl, old, hOld, rfl⟩ | ⟨_, hNew⟩
    · exact hSettled old rest hOld hStage
    · exact h.settled c' new rest hNew hStage

theorem Addressed.modifyConnection (h : n.Addressed) {f : Connection → Connection}
    (hUnopened : ∀ old, n.connections.find? c = some old → n.Unopened c old (f old)) :
    (n.modifyConnection c f).Addressed := by
  have hIdle : ∀ old, n.connections.find? c = some old → (f old).IsIdle := by
    intro old hOld
    obtain ⟨hBefore, -, hSession, hOutstanding, -, -⟩ := hUnopened old hOld
    obtain ⟨hNone, hNobody⟩ := h.idle c old hOld hBefore
    exact ⟨hSession.trans hNone, hOutstanding.trans hNobody⟩
  constructor
  case idle =>
    intro c' new hNew hShut
    rcases SortedMap.find?_modify_eq_some hNew with ⟨rfl, old, hOld, rfl⟩ | ⟨_, hNew⟩
    · exact hIdle old hOld
    · exact h.idle c' new hNew hShut
  case current =>
    intro s session c' new hSession hCurrent hNew hOpen
    rcases SortedMap.find?_modify_eq_some hNew with ⟨rfl, old, hOld, rfl⟩ | ⟨_, hNew⟩
    · cases (hUnopened old hOld).after.symm.trans hOpen
    · exact h.current s session c' new hSession hCurrent hNew hOpen
  case attached =>
    intro c' new s session hNew hAttached hSession hServing
    rcases SortedMap.find?_modify_eq_some hNew with ⟨rfl, old, hOld, rfl⟩ | ⟨_, hNew⟩
    · cases (hIdle old hOld).session.symm.trans hAttached
    · exact h.attached c' new s session hNew hAttached hSession hServing
  case host =>
    intro c' new s session hNew hAttached hSession hProxy
    rcases SortedMap.find?_modify_eq_some hNew with ⟨rfl, old, hOld, rfl⟩ | ⟨_, hNew⟩
    · cases (hIdle old hOld).session.symm.trans hAttached
    · exact h.host c' new s session hNew hAttached hSession hProxy
  case listeners =>
    intro c' new l p hNew hMem hPeer
    rcases SortedMap.find?_modify_eq_some hNew with ⟨rfl, old, hOld, rfl⟩ | ⟨_, hNew⟩
    · rw [Connection.listeners_of_none (hIdle old hOld).outstanding] at hMem
      cases hMem
    · exact h.listeners c' new l p hNew hMem hPeer
  case calls =>
    intro k call l p hCall hMem hPeer
    apply (h.calls k call l p hCall hMem hPeer).modifyConnection hUnopened
    intro old rest hOld hStage
    refine (hUnopened old hOld).accepting _ rest hStage k call l hCall hMem ?_ rfl
    rw [hPeer]
    exact Option.some_ne_none p
  case connecting =>
    intro c' new s k rest hNew hStage
    rcases SortedMap.find?_modify_eq_some hNew with ⟨rfl, old, hOld, rfl⟩ | ⟨_, hNew⟩
    · exact (hUnopened old hOld).connecting s k rest hStage
    · exact h.connecting c' new s k rest hNew hStage

end Unopened

/-! ## Opening -/

section Attach

variable {c : ConnectionId} {s : SessionId} {connection : Connection}

/-- The session of a connection that is opened has nobody else at its other side: the host, if it
connects, and otherwise it was asked for nothing yet. -/
structure Expects (n : Node) (s : SessionId) (connection : Connection) : Prop where
  host : ∀ session, n.sessions.find? s = some session → session.isProxy = true →
    connection.peer = some session.address.host
  unasked : ∀ session, n.sessions.find? s = some session → session.isProxy = false → n.Unasked s

theorem Reaches.attach (h : n.Joins c s connection) (hLinked : n.Linked)
    (record? : Option PeerRecord) {p : PeerAddress} {s' : SessionId} (hReaches : n.Reaches p s')
    (hNe : ∀ session, n.sessions.find? s' = some session → session.isProxy = false → s' ≠ s) :
    (n.attach c s record?).Reaches p s' := by
  obtain ⟨old, hOld, hSuits⟩ := hReaches.suits
  obtain ⟨new, hNew, hSame⟩ := remembers_attach (n := n) c s record? s' old hOld
  refine ⟨⟨new, hNew, hSame.behaviour.trans hSuits.behaviour, fun hProxy => ?_, ?_⟩, ?_⟩
  · rw [hSame.address]
    exact hSuits.host (hSame.isProxy.symm.trans hProxy)
  · intro hServing c' other hCurrent hFind hOpen
    have hWasServing := hSame.isProxy.symm.trans hServing
    obtain ⟨old', hOld', _, ⟨hEq, _⟩ | ⟨_, hStays⟩⟩ := attach_session hNew
    · exact absurd hEq (hNe old hOld hWasServing)
    · obtain rfl := Option.some.inj (hOld.symm.trans hOld')
      rw [hStays] at hCurrent
      rcases attach_connection h.found hFind with ⟨rfl, _⟩ | ⟨_, hFind⟩
      · exact absurd rfl (h.current_ne hLinked hOld hCurrent)
      · exact hSuits.peer hWasServing c' other hCurrent hFind hOpen
  · intro c' other rest hFind hStage
    rcases attach_connection h.found hFind with ⟨_, rfl⟩ | ⟨_, hFind⟩
    · cases hStage
    · exact hReaches.settled c' other rest hFind hStage

/-- A session that is attached serves no other connection. -/
theorem Joins.not_attached (h : n.Joins c s connection) {c' : ConnectionId} {other : Connection}
    {s' : SessionId} {session : Session} (hFind : n.connections.find? c' = some other)
    (hAttached : other.session = some s') (hSession : n.sessions.find? s' = some session)
    (hServing : session.isProxy = false) : s' ≠ s :=
  h.serving_ne hSession hServing fun hReserved => hReserved.unattached c' other hFind hAttached

theorem Addressed.attach (h : n.Addressed) (hLinked : n.Linked) (hJoins : n.Joins c s connection)
    (hExpects : n.Expects s connection) (record? : Option PeerRecord) :
    (n.attach c s record?).Addressed := by
  constructor
  case idle =>
    intro c' other hFind hShut
    rcases attach_connection hJoins.found hFind with ⟨_, rfl⟩ | ⟨_, hFind⟩
    · cases hShut
    · exact h.idle c' other hFind hShut
  case current =>
    intro s' new c' other hSession hCurrent hFind hOpen
    obtain ⟨old, hOld, _, ⟨rfl, hIs⟩ | ⟨_, hStays⟩⟩ := attach_session hSession
    · rcases attach_connection hJoins.found hFind with ⟨_, rfl⟩ | ⟨hNe, _⟩
      · rfl
      · exact absurd (Option.some.inj (hCurrent.symm.trans hIs)) hNe
    · rw [hStays] at hCurrent
      rcases attach_connection hJoins.found hFind with ⟨rfl, _⟩ | ⟨_, hFind⟩
      · exact absurd rfl (hJoins.current_ne hLinked hOld hCurrent)
      · exact h.current s' old c' other hOld hCurrent hFind hOpen
  case attached =>
    intro c' other s' new hFind hAttached hSession hServing
    obtain ⟨old, hOld, -⟩ := attach_session hSession
    obtain ⟨new', hNew', hSame⟩ := remembers_attach (n := n) c s record? s' old hOld
    obtain rfl := Option.some.inj (hNew'.symm.trans hSession)
    have hWasServing := hSame.isProxy.symm.trans hServing
    rcases attach_connection hJoins.found hFind with ⟨rfl, rfl⟩ | ⟨_, hFind⟩
    · obtain ⟨_, _, _, ⟨_, hIs⟩ | ⟨hNe, _⟩⟩ := attach_session hSession
      · exact hIs
      · exact absurd (Option.some.inj hAttached).symm hNe
    · have hNe := hJoins.not_attached hFind hAttached hOld hWasServing
      obtain ⟨old', hOld', _, ⟨hEq, _⟩ | ⟨_, hStays⟩⟩ := attach_session hSession
      · exact absurd hEq hNe
      · obtain rfl := Option.some.inj (hOld.symm.trans hOld')
        exact hStays.trans (h.attached c' other s' old hFind hAttached hOld hWasServing)
  case host =>
    intro c' other s' new hFind hAttached hSession hProxy
    obtain ⟨old, hOld, -⟩ := attach_session hSession
    obtain ⟨new', hNew', hSame⟩ := remembers_attach (n := n) c s record? s' old hOld
    obtain rfl := Option.some.inj (hNew'.symm.trans hSession)
    have hWasProxy := hSame.isProxy.symm.trans hProxy
    rw [hSame.address]
    rcases attach_connection hJoins.found hFind with ⟨_, rfl⟩ | ⟨_, hFind⟩
    · obtain rfl := Option.some.inj hAttached
      unfold Connection.afterOpening
      rw [hExpects.host old hOld hWasProxy, Option.some_or]
    · exact h.host c' other s' old hFind hAttached hOld hWasProxy
  case listeners =>
    intro c' other l p hFind hMem hPeer
    rcases attach_connection hJoins.found hFind with ⟨_, rfl⟩ | ⟨_, hFind⟩
    · cases hMem
    · exact h.listeners c' other l p hFind hMem hPeer
  case calls =>
    intro k call l p hCall hMem hPeer
    apply (h.calls k call l p hCall hMem hPeer).attach hJoins hLinked
    rintro session hSession hServing rfl
    refine hExpects.unasked session hSession hServing k call l hCall hMem ?_ rfl
    rw [hPeer]
    exact Option.some_ne_none p
  case connecting =>
    intro c' other s' k rest hFind hStage
    rcases attach_connection hJoins.found hFind with ⟨_, rfl⟩ | ⟨_, hFind⟩
    · cases hStage
    · exact h.connecting c' other s' k rest hFind hStage

end Attach

/-! ## What is new -/

/-- Whatever is kept for an old connection. -/
theorem Addressed.insertConnection (h : n.Addressed) {line : Line} {stage : Connection.Stage}
    (hBegins : n.Begins stage)
    (hBelongs : ∀ s k rest, stage = .connecting s k rest → n.Belongs k s) :
    ({ n with
      connections := n.connections.insert line.id (Connection.create line stage) } :
        Node).Addressed := by
  constructor
  case idle =>
    intro c connection hFind hShut
    rcases SortedMap.find?_insert_eq_some hFind with ⟨_, rfl⟩ | ⟨_, hFind⟩
    · exact ⟨rfl, rfl⟩
    · exact h.idle c connection hFind hShut
  case current =>
    intro s session c connection hSession hCurrent hFind hOpen
    rcases SortedMap.find?_insert_eq_some hFind with ⟨_, rfl⟩ | ⟨_, hFind⟩
    · exact absurd hOpen hBegins.not_open
    · exact h.current s session c connection hSession hCurrent hFind hOpen
  case attached =>
    intro c connection s session hFind hAttached hSession hServing
    rcases SortedMap.find?_insert_eq_some hFind with ⟨_, rfl⟩ | ⟨_, hFind⟩
    · cases hAttached
    · exact h.attached c connection s session hFind hAttached hSession hServing
  case host =>
    intro c connection s session hFind hAttached hSession hProxy
    rcases SortedMap.find?_insert_eq_some hFind with ⟨_, rfl⟩ | ⟨_, hFind⟩
    · cases hAttached
    · exact h.host c connection s session hFind hAttached hSession hProxy
  case listeners =>
    intro c connection l p hFind hMem hPeer
    rcases SortedMap.find?_insert_eq_some hFind with ⟨_, rfl⟩ | ⟨_, hFind⟩
    · cases hMem
    · exact h.listeners c connection l p hFind hMem hPeer
  case calls =>
    intro k call l p hCall hMem hPeer
    obtain ⟨⟨session, hSession, hSuits⟩, hSettled⟩ := h.calls k call l p hCall hMem hPeer
    refine ⟨⟨session, hSession, hSuits.behaviour, hSuits.host, ?_⟩, ?_⟩
    · intro hServing c connection hCurrent hFind hOpen
      rcases SortedMap.find?_insert_eq_some hFind with ⟨_, rfl⟩ | ⟨_, hFind⟩
      · exact absurd hOpen hBegins.not_open
      · exact hSuits.peer hServing c connection hCurrent hFind hOpen
    · intro c connection rest hFind
      rcases SortedMap.find?_insert_eq_some hFind with ⟨_, rfl⟩ | ⟨_, hFind⟩
      · exact hBegins.not_accepting
      · exact hSettled c connection rest hFind
  case connecting =>
    intro c connection s k rest hFind hStage
    rcases SortedMap.find?_insert_eq_some hFind with ⟨_, rfl⟩ | ⟨_, hFind⟩
    · exact hBelongs s k rest hStage
    · exact h.connecting c connection s k rest hFind hStage

theorem Reaches.lt_nextSession (h : n.Numbered) {p : PeerAddress} {s : SessionId}
    (hReaches : n.Reaches p s) : s < n.nextSession := by
  obtain ⟨session, hSession, -⟩ := hReaches.suits
  exact h.session s session hSession

/-- Nothing was asked for on a session that is new. -/
theorem Addressed.unasked_next (h : n.Addressed) (hNumbered : n.Numbered) :
    n.Unasked n.nextSession := by
  intro k call l hCall hMem hPeer hSession
  obtain ⟨p, hPeer⟩ := Option.ne_none_iff_exists'.mp hPeer
  have hLt := (h.calls k call l p hCall hMem hPeer).lt_nextSession hNumbered
  exact absurd hLt (Nat.not_lt.mpr (Nat.le_of_eq hSession.symm))

theorem Addressed.newSession (h : n.Addressed) (hSound : n.Sound) {session : Session}
    (hUnused : session.Unused) : (n.newSession session).2.Addressed := by
  have hAttached : ∀ c connection s new, n.connections.find? c = some connection →
      connection.session = some s → (n.newSession session).2.sessions.find? s = some new →
        n.sessions.find? s = some new := by
    intro c connection s new hFind hSome hNew
    rcases SortedMap.find?_insert_eq_some hNew with ⟨rfl, _⟩ | ⟨_, hNew⟩
    · obtain ⟨old, hOld, -⟩ := hSound.linked.attached c connection _ hFind hSome
      exact absurd (hSound.numbered.session _ old hOld) (Nat.lt_irrefl _)
    · exact hNew
  constructor
  case idle => exact h.idle
  case current =>
    intro s new c connection hNew hCurrent
    rcases SortedMap.find?_insert_eq_some hNew with ⟨_, rfl⟩ | ⟨_, hOld⟩
    · cases hUnused.current.symm.trans hCurrent
    · exact h.current s new c connection hOld hCurrent
  case attached =>
    intro c connection s new hFind hSome hNew
    exact h.attached c connection s new hFind hSome (hAttached c connection s new hFind hSome hNew)
  case host =>
    intro c connection s new hFind hSome hNew
    exact h.host c connection s new hFind hSome (hAttached c connection s new hFind hSome hNew)
  case listeners => exact h.listeners
  case calls =>
    intro k call l p hCall hMem hPeer
    have hReaches := h.calls k call l p hCall hMem hPeer
    have hNe : call.session ≠ n.nextSession :=
      Nat.ne_of_lt (hReaches.lt_nextSession hSound.numbered)
    obtain ⟨old, hOld, hSuits⟩ := hReaches.suits
    exact ⟨⟨old, (SortedMap.find?_insert_of_ne hNe _ _).trans hOld, hSuits⟩, hReaches.settled⟩
  case connecting =>
    exact fun c connection s k rest hFind hStage => h.connecting c connection s k rest hFind hStage

/-- A call on a session that reaches everybody for whom it waits. -/
theorem Addressed.newCall (h : n.Addressed) {s : SessionId} {timeout : Duration}
    {message : Message → Message} {code : UInt8} {listeners : CallId → List (Listener Target)}
    {resolved : Option Reply.Result}
    (hReaches : ∀ l ∈ listeners n.nextCall, ∀ p, l.target.peer? = some p → n.Reaches p s) :
    (n.newCall s timeout message code listeners resolved).2.Addressed := by
  constructor
  case idle => exact h.idle
  case current => exact h.current
  case attached => exact h.attached
  case host => exact h.host
  case listeners => exact h.listeners
  case calls =>
    intro k call l p hCall hMem hPeer
    rcases SortedMap.find?_insert_eq_some hCall with ⟨_, rfl⟩ | ⟨_, hOld⟩
    · have hMeant := hReaches l hMem p hPeer
      exact ⟨hMeant.suits, hMeant.settled⟩
    · have hMeant := h.calls k call l p hOld hMem hPeer
      exact ⟨hMeant.suits, hMeant.settled⟩
  case connecting =>
    intro c connection s' k rest hFind hStage
    obtain ⟨hMade, hSession⟩ := h.connecting c connection s' k rest hFind hStage
    refine ⟨Nat.lt_succ_of_lt hMade, fun call hCall => ?_⟩
    rcases SortedMap.find?_insert_eq_some hCall with ⟨rfl, _⟩ | ⟨_, hOld⟩
    · exact absurd hMade (Nat.lt_irrefl _)
    · exact hSession call hOld

/-! ## Steps -/

/-- A step that keeps a node sound and addressed, and leaves its directory as it is. -/
def Heeds (n n' : Node) : Prop :=
  n.Sound → n.Addressed → n'.Sound ∧ n'.Addressed ∧ n'.directory = n.directory

theorem Heeds.refl (n : Node) : Heeds n n := fun hSound hAddressed => ⟨hSound, hAddressed, rfl⟩

theorem Heeds.trans (h : Heeds n n') (h' : Heeds n' n'') : Heeds n n'' := by
  intro hSound hAddressed
  obtain ⟨hSound', hAddressed', hSame⟩ := h hSound hAddressed
  obtain ⟨hSound'', hAddressed'', hSame'⟩ := h' hSound' hAddressed'
  exact ⟨hSound'', hAddressed'', hSame'.trans hSame⟩

/-- The second step may use what is known after the first one. -/
theorem Heeds.next (h : Heeds n n') (h' : n'.Sound → n'.Addressed → Heeds n' n'') :
    Heeds n n'' := by
  intro hSound hAddressed
  obtain ⟨hSound', hAddressed', -⟩ := h hSound hAddressed
  exact h.trans (h' hSound' hAddressed') hSound hAddressed

/-- The step may use what is known before it. -/
theorem Heeds.of_goes (hGoes : Goes n n') (h : n.Sound → n.Addressed → Wanes n n') :
    Heeds n n' := fun hSound hAddressed =>
  have hWanes := h hSound hAddressed
  ⟨(hGoes hSound).1, hAddressed.wanes hWanes, hWanes.directory⟩

theorem Heeds.of_wanes (hGoes : Goes n n') (hWanes : Wanes n n') : Heeds n n' :=
  .of_goes hGoes fun _ _ => hWanes

theorem heeds_plain (n : Node) {e : Effect} (h : e.isPlain = true) : Heeds n (n.emit e) :=
  .of_wanes (goes_plain n h) (wanes_emit n e)

/-! ## Calls -/

theorem heeds_transmit {k : CallId} {c : ConnectionId} (h : n.Directed k c) :
    Heeds n (n.transmit k c) := .of_wanes (goes_transmit n k c) (wanes_transmit h)

theorem heeds_release (n : Node) (s : SessionId) : Heeds n (n.release s) :=
  .of_wanes (goes_release n s) (wanes_release n s)

/-- A call connects its own session. -/
theorem Addressed.wanes_connect (h : n.Addressed) {k : CallId} {call : Call}
    (hCall : n.calls.find? k = some call) (host : PeerAddress) :
    Wanes n (n.connect call.session k host) := by
  unfold connect
  split
  next c hOpen =>
    have hReleased := wanes_release n call.session
    exact hReleased.trans (wanes_transmit ((h.directed hCall hOpen).wanes hReleased))
  · split
    · exact wanes_dial n _ k host
    · exact wanes_failToConnect n _ k _

theorem Addressed.wanes_begin (h : n.Addressed) (k : CallId) : Wanes n (n.begin k) := by
  unfold begin
  split
  · exact .refl n
  next call hCall =>
    split
    next c hOpen => exact wanes_transmit (h.directed hCall hOpen)
    · exact .refl n
    next session _ _ =>
      split
      · exact wanes_finish n k _
      · split
        · exact wanes_adjustSession (fun _ => ⟨rfl, rfl, rfl⟩) fun _ => rfl
        · have hConnecting : Wanes n (n.modifySession call.session fun session =>
              { session with connecting := some k }) :=
            wanes_adjustSession (fun _ => ⟨rfl, rfl, rfl⟩) fun _ => rfl
          exact hConnecting.trans ((h.wanes hConnecting).wanes_connect hCall _)

theorem heeds_begin (n : Node) (k : CallId) : Heeds n (n.begin k) :=
  .of_goes (goes_begin n k) fun _ hAddressed => hAddressed.wanes_begin k

theorem heeds_proceed {k : CallId} (h : n.Cleared k) : Heeds n (n.proceed k) := by
  apply Heeds.of_goes (goes_proceed h)
  intro _ hAddressed
  unfold proceed
  split
  · exact .refl n
  next call hCall =>
    split
    · exact .refl n
    · exact hAddressed.wanes_connect hCall _

/-! ## Handshakes -/

section Conversing

variable {c : ConnectionId} {s : SessionId} {connection : Connection}

theorem heeds_sendAll (n : Node) (c : ConnectionId) (parcels : List Parcel) :
    Heeds n (n.sendAll c parcels) :=
  .of_wanes (goes_sendAll n c parcels) (wanes_sendAll n c parcels)

/-- A handshake that is not over, of this session or of none. -/
theorem heeds_converse {f : Connection → Connection}
    (hConnection : n.connections.find? c = some connection)
    (hGoes : Goes n (n.modifyConnection c f))
    (hUnopened : n.Addressed → n.Unopened c connection (f connection)) :
    Heeds n (n.modifyConnection c f) := by
  intro hSound hAddressed
  refine ⟨(hGoes hSound).1, hAddressed.modifyConnection ?_, rfl⟩
  intro old hOld
  obtain rfl := Option.some.inj (hOld.symm.trans hConnection)
  exact hUnopened hAddressed

/-- What happens once a connection is attached to its session. -/
theorem wanes_opened (n : Node) (c : ConnectionId) (s : SessionId) (record? : Option PeerRecord) :
    Wanes (n.attach c s record?) (n.openConnection c s record?) := by
  rw [openConnection_eq]
  apply Wanes.trans _ (wanes_emit _ _)
  apply (wanes_fireConnected _ s).trans
  exact wanes_modifyConnection fun old _ => .of_stage rfl rfl rfl id fun _ h _ _ => .inl h

theorem heeds_openConnection (hJoins : n.Joins c s connection)
    (hExpects : n.Addressed → n.Expects s connection) (record? : Option PeerRecord) :
    Heeds n (n.openConnection c s record?) := by
  intro hSound hAddressed
  have hAttached := hAddressed.attach hSound.linked hJoins (hExpects hAddressed) record?
  have hOpened := wanes_opened n c s record?
  exact ⟨(goes_openConnection hJoins record? hSound).1, hAttached.wanes hOpened, hOpened.directory⟩

/-- The host of a session is at the other end of the connection that the session makes. -/
theorem directed_attach {k : CallId} (hBelongs : n.Belongs k s)
    (hAddressed : n.Addressed) (hProxies : n.Proxies s)
    (hConnection : n.connections.find? c = some connection)
    (hExpects : n.Expects s connection) (record? : Option PeerRecord) :
    (n.attach c s record?).Directed k c := by
  intro call other l p hCall hFind hMem hPeer
  obtain ⟨session, hSession, hProxy⟩ := hProxies
  have hReaches := hAddressed.calls k call l p hCall hMem hPeer
  rw [hBelongs.2 call hCall] at hReaches
  obtain ⟨suited, hSuited, hSuits⟩ := hReaches.suits
  obtain rfl := Option.some.inj (hSuited.symm.trans hSession)
  obtain rfl := Option.some.inj ((find?_attach_self hConnection).symm.trans hFind)
  unfold Connection.afterOpening
  rw [hExpects.host suited hSuited hProxy, Option.some_or, hSuits.host hProxy]

theorem heeds_opensConnecting (hConnection : n.connections.find? c = some connection)
    (hUnsettled : connection.isSettled = false) (hProxies : n.Proxies s) {k : CallId}
    (hBelongs : n.Belongs k s) (record? : Option PeerRecord) :
    Heeds n ((((n.modifyConnection c fun connection =>
      { connection with peer := (n.sessions.find? s).map fun session => session.address.host }
        ).openConnection c s record?).release s).transmit k c) := by
  have hShut := Connection.isOpen_of_unsettled hUnsettled
  have hNamed : Heeds n (n.modifyConnection c fun connection =>
      { connection with peer := (n.sessions.find? s).map fun session => session.address.host }) := by
    apply heeds_converse hConnection (goes_nameHost hConnection hUnsettled _)
    intro hAddressed
    refine ⟨hShut, hShut, rfl, rfl, fun s' rest hStage => ?_, fun s' k' rest hStage => ?_⟩
    · exact hAddressed.unasked hConnection hStage
    · exact hAddressed.connecting c connection s' k' rest hConnection hStage
  have hFound := (n.find?_modifyConnection_self c fun connection =>
    { connection with peer := (n.sessions.find? s).map fun session => session.address.host }).trans
      (congrArg (Option.map _) hConnection)
  generalize hHost : n.modifyConnection c (fun connection =>
    { connection with peer := (n.sessions.find? s).map fun session => session.address.host }) = named
    at hNamed hFound ⊢
  have hSessions : named.sessions = n.sessions := by rw [← hHost]; rfl
  have hCalls : named.calls = n.calls := by rw [← hHost]; rfl
  have hNext : named.nextCall = n.nextCall := by rw [← hHost]; rfl
  have hStill : named.Proxies s := by
    unfold Proxies
    rwa [hSessions]
  have hCalled : named.Belongs k s := by
    unfold Belongs
    rwa [hCalls, hNext]
  have hExpects : named.Expects s
      { connection with peer := (n.sessions.find? s).map fun session => session.address.host } := by
    rw [← hSessions]
    constructor
    case host =>
      intro session hSession _
      dsimp only
      rw [hSession]
      rfl
    case unasked =>
      intro session hSession hServing
      obtain ⟨session', hSession', hProxy⟩ := hStill
      obtain rfl := Option.some.inj (hSession.symm.trans hSession')
      cases hServing.symm.trans hProxy
  apply hNamed.next
  intro _ hAddressed
  have hDirected := directed_attach hCalled hAddressed hStill hFound hExpects record?
  have hOpened := heeds_openConnection ⟨hFound, hUnsettled, .inl hStill⟩ (fun _ => hExpects) record?
  have hReleased := wanes_release (named.openConnection c s record?) s
  apply (hOpened.trans (heeds_release _ s)).trans
  exact heeds_transmit ((hDirected.wanes (wanes_opened named c s record?)).wanes hReleased)

theorem heeds_failsConnecting (hConnection : n.connections.find? c = some connection)
    (hUnsettled : connection.isSettled = false) (hProxies : n.Proxies s) (k : CallId)
    (cause : HandshakeError) (result : Reply.Result) :
    Heeds n (((((n.modifyConnection c fun connection => { connection with stage := .closed }).fire s
      (.authenticationFailed cause)).emit (.hangUp c)).finish k result).release s) := by
  have hClosed : Wanes n (n.modifyConnection c fun connection =>
      { connection with stage := .closed }) := by
    apply wanes_modifyConnection
    intro old hOld
    obtain rfl := Option.some.inj (hOld.symm.trans hConnection)
    exact Connection.wanes_giveUp (Connection.isOpen_of_unsettled hUnsettled) rfl rfl rfl rfl
  have hTold := hClosed.trans (wanes_fire _ s (.authenticationFailed cause))
  have hEnded := (hTold.trans (wanes_emit _ (.hangUp c))).trans (wanes_finish _ k result)
  exact .of_wanes (goes_failsConnecting hProxies k cause result) (hEnded.trans (wanes_release _ s))

theorem heeds_converseConnecting (hConnection : n.connections.find? c = some connection)
    (hUnsettled : connection.isSettled = false) (hProxies : n.Proxies s) {k : CallId}
    (hBelongs : n.Belongs k s) (dialogue : Dialogue Handshake.Result) :
    Heeds n (n.converseConnecting c s k dialogue) := by
  unfold converseConnecting
  dsimp only
  generalize dialogue.advance n.authorizer _ = progress
  obtain ⟨sent, pause⟩ := progress
  apply (heeds_sendAll n c sent).trans
  have hFind : (n.sendAll c sent).connections.find? c = some connection := by
    rw [sendAll_eq]
    exact hConnection
  have hSession : (n.sendAll c sent).Proxies s := by
    rw [sendAll_eq]
    exact hProxies
  have hCalled := hBelongs.wanes (wanes_sendAll n c sent)
  have hShut := Connection.isOpen_of_unsettled hUnsettled
  cases pause with
  | waiting rest =>
    have hProxied : ∀ s' k' rest', Connection.Stage.connecting s k rest = .connecting s' k' rest' →
        (n.sendAll c sent).Proxies s' := by
      intro s' k' rest' hStage
      cases hStage
      exact hSession
    have hGoes : Goes (n.sendAll c sent) ((n.sendAll c sent).modifyConnection c fun connection =>
        { connection with stage := .connecting s k rest }) :=
      goes_wait hFind hUnsettled hProxied (fun _ _ => nofun) rfl
    apply heeds_converse hFind hGoes
    intro _
    refine ⟨hShut, rfl, rfl, rfl, fun s' rest' => nofun, fun s' k' rest' hStage => ?_⟩
    cases hStage
    exact hCalled
  | «over» result =>
    cases result with
    | ok record? => exact heeds_opensConnecting hFind hUnsettled hSession hCalled record?
    | error cause => exact heeds_failsConnecting hFind hUnsettled hSession k cause _

theorem heeds_opensAccepting (hConnection : n.connections.find? c = some connection)
    (hUnsettled : connection.isSettled = false) (hReserved : n.Reserved c s)
    (hUnasked : n.Unasked s) (record? : Option PeerRecord) :
    Heeds n ((n.modifyConnection c fun connection =>
      { connection with acceptance := some (.ok ()) }).openConnection c s record?) := by
  have hAccepted : Heeds n (n.modifyConnection c fun connection =>
      { connection with acceptance := some (.ok ()) }) := by
    apply Heeds.of_wanes
    · exact goes_sameStage (fun _ => rfl) (fun _ => rfl) (fun _ _ _ => rfl) fun _ _ h => h
    · exact wanes_modifyConnection fun old _ => .of_stage rfl rfl rfl id fun _ h _ _ => .inl h
  have hFound := (n.find?_modifyConnection_self c fun connection =>
    { connection with acceptance := some (.ok ()) }).trans (congrArg (Option.map _) hConnection)
  have hStill : (n.modifyConnection c fun connection =>
      { connection with acceptance := some (.ok ()) }).Reserved c s :=
    hReserved.modifyConnection (fun _ _ _ h => h) fun _ _ _ _ => rfl
  apply hAccepted.trans
  apply heeds_openConnection ⟨hFound, hUnsettled, .inr hStill⟩ _ record?
  intro _
  constructor
  case host =>
    intro session hSession hProxy
    obtain ⟨session', hSession', hServing, -⟩ := hReserved.serving
    obtain rfl := Option.some.inj (hSession.symm.trans hSession')
    cases hServing.symm.trans hProxy
  case unasked => exact fun _ _ _ => hUnasked

theorem heeds_converseAccepting (hConnection : n.connections.find? c = some connection)
    (hUnsettled : connection.isSettled = false) (hReserved : n.Reserved c s)
    (hUnasked : n.Unasked s) (dialogue : Dialogue Handshake.Result) :
    Heeds n (n.converseAccepting c s dialogue) := by
  unfold converseAccepting
  dsimp only
  generalize dialogue.advance n.authorizer _ = progress
  obtain ⟨sent, pause⟩ := progress
  apply (heeds_sendAll n c sent).trans
  have hFind : (n.sendAll c sent).connections.find? c = some connection := by
    rw [sendAll_eq]
    exact hConnection
  have hSession : (n.sendAll c sent).Reserved c s := by
    rw [sendAll_eq]
    exact ⟨hReserved.serving, hReserved.alone, hReserved.unattached, hReserved.unkept⟩
  have hNobody := hUnasked.wanes (wanes_sendAll n c sent)
  have hShut := Connection.isOpen_of_unsettled hUnsettled
  cases pause with
  | waiting rest =>
    have hWaited : ∀ s' rest', Connection.Stage.accepting s rest = .accepting s' rest' →
        (n.sendAll c sent).Reserved c s' := by
      intro s' rest' hStage
      cases hStage
      exact hSession
    have hGoes : Goes (n.sendAll c sent) ((n.sendAll c sent).modifyConnection c fun connection =>
        { connection with stage := .accepting s rest }) :=
      goes_wait hFind hUnsettled (fun _ _ _ => nofun) hWaited rfl
    apply heeds_converse hFind hGoes
    intro _
    refine ⟨hShut, rfl, rfl, rfl, fun s' rest' hStage => ?_, fun s' k' rest' => nofun⟩
    cases hStage
    exact hNobody
  | «over» result =>
    cases result with
    | ok record? => exact heeds_opensAccepting hFind hUnsettled hSession hNobody record?
    | error cause =>
      have hTold := goes_fire (n := n.sendAll c sent) (s := s) (h := .authenticationFailed cause)
        (fun _ => nofun) fun _ _ => .inr hSession.peerOf?
      apply Heeds.of_wanes (hTold.trans (goes_refuse _ c _))
      have hFired := wanes_fire (n.sendAll c sent) s (.authenticationFailed cause)
      have hUnopened := isOpen_of_unsettled hFind hUnsettled
      exact hFired.trans (wanes_refuse (hFired.not_open hUnopened) _)

theorem heeds_nameService (hConnection : n.connections.find? c = some connection)
    (hUnsettled : connection.isSettled = false) (issued : Challenge) (frame : Received) :
    Heeds n (n.nameService c issued frame) := by
  have hUnopened := isOpen_of_unsettled hConnection hUnsettled
  unfold nameService
  split
  · exact .of_wanes (goes_refuse n c _) (wanes_refuse hUnopened _)
  · split
    · exact .of_wanes (goes_refuse n c _) (wanes_refuse hUnopened _)
    next service _ =>
      let session : Session := .create service.address service.mode false service.behaviour
      have hUnused : session.Unused := ⟨rfl, rfl⟩
      intro hSound hAddressed
      have hNobody : (n.newSession session).2.Unasked n.nextSession :=
        hAddressed.unasked_next hSound.numbered
      have hMade : Heeds n (n.newSession session).2 := fun hSound hAddressed =>
        ⟨(goes_newSession hUnused hSound).1, hAddressed.newSession hSound hUnused, rfl⟩
      exact hMade.trans (heeds_converseAccepting (n := (n.newSession session).2) hConnection
        hUnsettled (newSession_reserved hSound hUnused rfl c) hNobody _) hSound hAddressed

end Conversing

theorem heeds_insertConnection {line : Line} {stage : Connection.Stage}
    (hNew : n.connections.find? line.id = none) (hBegins : n.Begins stage)
    (hBelongs : ∀ s k rest, stage = .connecting s k rest → n.Belongs k s) :
    Heeds n { n with
      connections := n.connections.insert line.id (Connection.create line stage) } :=
  fun hSound hAddressed => ⟨(goes_insertConnection hNew hBegins hSound).1,
    hAddressed.insertConnection hBegins hBelongs, rfl⟩

theorem heeds_accept {line : Line} (hNew : n.connections.find? line.id = none) :
    Heeds n (n.accept line) := by
  have hBegins : n.Begins (.naming line.issued) := .inl ⟨line.issued, rfl⟩
  have hInserted := heeds_insertConnection hNew hBegins fun _ _ _ => nofun
  have hListening := hInserted.trans (heeds_plain _ (e := .listen line.id) rfl)
  exact hListening.trans (heeds_plain _ rfl)

theorem heeds_dialled (n : Node) (k : CallId) (outcome : Except ServiceError Line)
    (hNew : ∀ line, outcome = .ok line → n.connections.find? line.id = none) :
    Heeds n (n.dialled k outcome) := by
  cases outcome with
  | error e =>
    apply Heeds.of_wanes (goes_dialled n k (.error e) hNew)
    unfold dialled
    split
    · exact wanes_decline n _
    · split
      · dsimp only
        split
        · exact (wanes_stageCall n k _).trans (wanes_emit _ _)
        · exact wanes_failToConnect n _ k e
      · exact wanes_decline n _
  | ok line =>
    unfold dialled
    split
    · exact .of_wanes (goes_decline n _) (wanes_decline n _)
    next call hCall =>
      split
      next attempts socket session hStage hSession =>
        intro hSound
        have hProxies := hSound.calling.dialling k call attempts socket hCall hStage
        have hCalled : n.Belongs k call.session := by
          refine ⟨hSound.numbered.call k call hCall, fun call' hCall' => ?_⟩
          obtain rfl := Option.some.inj (hCall.symm.trans hCall')
          rfl
        suffices hHeeds : Heeds n _ from hHeeds hSound
        have hReached : Heeds n (n.modifyCall k fun call => { call with stage := .reached }) :=
          .of_wanes (goes_modifyCall fun _ _ _ => ⟨rfl, fun _ => nofun⟩)
            (wanes_stageCall n k .reached)
        let stage : Connection.Stage :=
          .connecting call.session k fun _ => (n.connectingSide session line.issued).run
        have hBegins : n.Begins stage := .inr ⟨call.session, k, _, rfl, hProxies⟩
        have hStill := hCalled.wanes (wanes_stageCall n k .reached)
        have hStays : ∀ s' k' rest, stage = .connecting s' k' rest →
            (n.modifyCall k fun call => { call with stage := .reached }).Belongs k' s' := by
          intro s' k' rest hEq
          obtain ⟨rfl, rfl, -⟩ := Connection.Stage.connecting.inj hEq
          exact hStill
        have hInserted := hReached.trans (heeds_insertConnection (hNew line rfl) hBegins hStays)
        have hListening := hInserted.trans (heeds_plain _ (e := .listen line.id) rfl)
        have hUnsettled : (Connection.create line stage).isSettled = false := rfl
        apply hListening.trans
        refine heeds_converseConnecting ?_ hUnsettled ?_ ?_ _
        · exact SortedMap.find?_insert_self n.connections line.id (Connection.create line stage)
        · exact hProxies
        · exact ⟨hStill.1, hStill.2⟩
      · exact .of_wanes (goes_decline n _) (wanes_decline n _)

/-! ## Exchanges -/

theorem heeds_exchangeSession? {p : PeerAddress} {s : SessionId}
    (h : n.exchangeSession? p = some (s, n')) : Heeds n n' ∧ n'.exchanges.find? p = some s := by
  have hGoes := goes_exchangeSession? h
  unfold exchangeSession? at h
  split at h
  next hKept =>
    cases h
    exact ⟨.refl n, hKept⟩
  · split at h
    · cases h
      refine ⟨fun hSound hAddressed => ⟨(hGoes hSound).1, ?_, rfl⟩,
        SortedMap.find?_insert_self n.exchanges p _⟩
      let session : Session := .create ⟨.exchange, p⟩ .restricted true .exchange
      have hUnused : session.Unused := ⟨rfl, rfl⟩
      have hMade := hAddressed.newSession hSound hUnused
      have hKept : Wanes (n.newSession session).2 { (n.newSession session).2 with
          exchanges := n.exchanges.insert p n.nextSession } :=
        .of_eq rfl rfl rfl (Nat.le_refl _) rfl
      exact hMade.wanes hKept
    · cases h

/-- An exchange waits for the peer with which it is. -/
theorem heeds_exchange (n : Node) (p : PeerAddress) : Heeds n (n.exchange p).2 := by
  unfold exchange
  split
  · exact .of_wanes (goes_fail n _) (wanes_fail n _)
  next record _ =>
    split
    · exact .of_wanes (goes_fail n _) (wanes_fail n _)
    next s n' hSession =>
      obtain ⟨hHeeds, hKept⟩ := heeds_exchangeSession? hSession
      apply hHeeds.next
      intro hSound' _
      have hGoes := goes_newCall n' s n'.exchangeTimeout (·.put record.exported) exchangeCode
        (fun k => [⟨exchangeCode, .exchange k p⟩]) none
      have hMade : Heeds n' (n'.newCall s n'.exchangeTimeout (·.put record.exported) exchangeCode
          (fun k => [⟨exchangeCode, .exchange k p⟩]) none).2 := by
        refine fun hSound hAddressed => ⟨(hGoes hSound).1, hAddressed.newCall ?_, rfl⟩
        intro l hMem q hPeer
        rw [List.mem_singleton.mp hMem] at hPeer
        cases hPeer
        exact reaches_of_kept hSound' hKept
      exact hMade.trans (heeds_begin _ _)

theorem heeds_endDial (n : Node) (k : CallId) (outcome : Except ServiceError Line)
    (hNew : ∀ line, outcome = .ok line → n.connections.find? line.id = none) :
    Heeds n (n.endDial k outcome) := by
  have hDeclined : Heeds n (n.decline outcome) :=
    .of_wanes (goes_decline n outcome) (wanes_decline n outcome)
  unfold endDial
  split
  · split
    · exact hDeclined
    · exact hDeclined.trans (heeds_dialled _ k _ fun _ => nofun)
  · exact heeds_dialled n k outcome hNew

end PeerServices.Node
