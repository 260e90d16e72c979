import PeerServices.Proofs.Collection.SortedSet
import PeerServices.Proofs.Node.Hooks

/-!
# What opening a connection comes to

A handshake that succeeds attaches the connection to its session, and the owner of the session is
told. Some sessions hang up at once after that.

* `Node.view?_of_current`: what there is to tell of a session with an open connection.
* `Node.fireConnected_spec`: the owner is told exactly that.
* `Node.openConnection_spec`: what is kept for the connection, and that nothing else is changed.
-/

namespace PeerServices

/-- Does a session hang up as soon as it is connected? -/
def Behaviour.closesAtOnce : Behaviour → Bool
  | .application _ closesWhenConnected => closesWhenConnected
  | .exchange => false

/-- What is told of a session whose connection is open. -/
def Session.viewOn (session : Session) (connection : Connection) : Session.View where
  address := session.address
  mode := session.mode
  isProxy := session.isProxy
  isOpen := true
  peer := if session.isProxy then some session.address.host else connection.peer
  record := connection.record

/-- A connection that was just opened, on behalf of a session that hangs up at once or does not. -/
structure Connection.OpenedAs (old new : Connection) (closes : Bool)
    (record? : Option PeerRecord) : Prop where
  acceptance : new.acceptance = old.acceptance
  record : new.record = record?
  peer : new.peer = old.peer.or (record?.map PeerRecord.address)
  stage : new.stage = if closes then .closed else .opened

namespace Node

section Opening

variable {n : Node} {c : ConnectionId} {s : SessionId} {session : Session}
  {connection : Connection}

theorem view?_of_current (hConnection : n.connections.find? c = some connection)
    (hOpen : connection.isOpen = true) (hSession : n.sessions.find? s = some session)
    (hCurrent : session.current = some c) : n.view? s = some (session.viewOn connection) := by
  have hOpenConnection : n.openConnection? s = some c :=
    openConnection?_eq_some.mpr
      ⟨session, hSession, hCurrent, isOpen_iff.mpr ⟨connection, hConnection, hOpen⟩⟩
  simp only [view?, hSession, isConnected, peerOf?, recordOf?, currentConnection?, hOpenConnection,
    hConnection, Option.bind_eq_bind, Option.bind_some, Option.isSome_some, Option.pure_def]
  rfl

theorem closeSession_of_current (hConnection : n.connections.find? c = some connection)
    (hOpen : connection.isOpen = true) (hSession : n.sessions.find? s = some session)
    (hCurrent : session.current = some c) :
    Steady ((n.modifyConnection c Connection.afterClosing).strike c) (n.closeSession s) := by
  have hFound : (n.sessions.find? s).bind (·.current) = some c := by
    rw [hSession, Option.bind_some, hCurrent]
  unfold closeSession
  rw [hFound]
  have hSteady := terminate_steady (n := n.unlink s) hConnection hOpen none
  exact ⟨hSteady.connections, hSteady.roster, hSteady.effects⟩

/-- A session is told for the first time that it will be connected. -/
def configure (n : Node) (s : SessionId) : Node :=
  (n.modifySession s fun session => { session with configured := true }).fire s .configured

theorem configure_spec (hSession : n.sessions.find? s = some session) :
    (n.configure s).sessions.find? s = some { session with configured := true } ∧
      Steady n (n.configure s) := by
  unfold configure
  have hModified : (n.modifySession s fun session =>
      { session with configured := true }).sessions.find? s =
        some { session with configured := true } := by
    rw [find?_modifySession_self, hSession]
    rfl
  obtain ⟨kept, hConfigured⟩ := fire_eq hModified .configured
  refine ⟨by rw [hConfigured]; exact hModified, ?_⟩
  exact (steady_modifySession n s _).trans (steady_fire _ s .configured)

/-- A session is told that it will be connected, unless it was before. -/
def prepare (n : Node) (s : SessionId) (session : Session) : Node :=
  if session.configured then n else n.configure s

theorem prepare_spec (hSession : n.sessions.find? s = some session) :
    (n.prepare s session).sessions.find? s = some { session with configured := true } ∧
      Steady n (n.prepare s session) := by
  unfold prepare
  split
  next hConfigured =>
    have hSame : { session with configured := true } = session := by rw [← hConfigured]
    rw [hSame]
    exact ⟨hSession, .refl n⟩
  · exact configure_spec hSession

/-- A session that is attached is told so. After that it may hang up. -/
theorem fireConnected_eq {view : Session.View} (hSession : n.sessions.find? s = some session)
    (hView : (n.prepare s session).view? s = some view) :
    n.fireConnected s =
      if session.behaviour.closesAtOnce then
        ((n.prepare s session).fire s (.connected view)).closeSession s
      else (n.prepare s session).fire s (.connected view) := by
  unfold fireConnected
  rw [hSession]
  have hFirst : (if session.configured = true then n
      else (n.modifySession s fun session => { session with configured := true }).fire s
        .configured) = n.prepare s session := rfl
  simp only [hFirst, hView]
  cases session.behaviour with
  | exchange => rfl
  | application handlers closes => cases closes <;> rfl

/-- What becomes of a session that is attached to an open connection. -/
theorem fireConnected_spec (hConnection : n.connections.find? c = some connection)
    (hOpen : connection.isOpen = true) (hSession : n.sessions.find? s = some session)
    (hCurrent : session.current = some c) :
    (n.fireConnected s).connections =
        (if session.behaviour.closesAtOnce then n.modifyConnection c Connection.afterClosing
          else n).connections ∧
      (n.fireConnected s).roster =
        (if session.behaviour.closesAtOnce then n.roster.erase c else n.roster) ∧
      ∃ new, (n.fireConnected s).effects = n.effects ++ new ∧
        .hook s (.connected (session.viewOn connection)) ∈ new := by
  obtain ⟨hPrepared, hSteady⟩ := prepare_spec hSession
  have hKept : (n.prepare s session).connections.find? c = some connection := by
    rw [hSteady.connections, hConnection]
  have hBody := fireConnected_eq hSession (view?_of_current hKept hOpen hPrepared hCurrent)
  have hView : Session.viewOn { session with configured := true } connection =
      session.viewOn connection := rfl
  rw [hView] at hBody
  obtain ⟨kept, hFire⟩ := fire_eq hPrepared (.connected (session.viewOn connection))
  obtain ⟨new, hNew⟩ := hSteady.effects
  generalize hTold : (n.prepare s session).fire s (.connected (session.viewOn connection)) = told
    at hBody hFire
  have hConnections : told.connections = n.connections := by rw [hFire, hSteady.connections]
  have hRoster : told.roster = n.roster := by rw [hFire, hSteady.roster]
  have hSessions : told.sessions.find? s = some { session with configured := true } := by
    rw [hFire, hPrepared]
  have hEffects : told.effects =
      n.effects ++ (new ++ [.hook s (.connected (session.viewOn connection))]) := by
    rw [hFire, hNew, List.append_assoc]
  have hLast : Effect.hook s (.connected (session.viewOn connection)) ∈
      new ++ [.hook s (.connected (session.viewOn connection))] :=
    List.mem_append_right _ (List.mem_singleton_self _)
  rw [hBody]
  by_cases hCloses : session.behaviour.closesAtOnce = true
  · rw [if_pos hCloses, if_pos hCloses, if_pos hCloses]
    have hClosed := closeSession_of_current (hConnections ▸ hConnection) hOpen hSessions hCurrent
    obtain ⟨more, hMore⟩ := hClosed.effects
    refine ⟨?_, ?_, new ++ [.hook s (.connected (session.viewOn connection))] ++ more, ?_,
      List.mem_append_left _ hLast⟩
    · rw [hClosed.connections]
      simp only [modifyConnection, strike, hConnections]
    · rw [hClosed.roster]
      exact congrArg (·.erase c) hRoster
    · rw [hMore, ← List.append_assoc, ← hEffects]
      rfl
  · rw [if_neg hCloses, if_neg hCloses, if_neg hCloses]
    exact ⟨hConnections, hRoster, _, hEffects, hLast⟩

/-- A session once a connection is attached to it. -/
theorem attach_session_self {record? : Option PeerRecord}
    (hSession : n.sessions.find? s = some session) :
    (n.attach c s record?).sessions.find? s = some { session with current := some c } := by
  change (n.modifySession s _).sessions.find? s = _
  rw [find?_modifySession_self, hSession]
  rfl

/-- A handshake that succeeds opens the connection, and the owner of its session is told. -/
theorem openConnection_spec (record? : Option PeerRecord)
    (hConnection : n.connections.find? c = some connection)
    (hSession : n.sessions.find? s = some session) :
    (∀ c', c' ≠ c →
      (n.openConnection c s record?).connections.find? c' = n.connections.find? c') ∧
    (∃ connection', (n.openConnection c s record?).connections.find? c = some connection' ∧
      connection.OpenedAs connection' session.behaviour.closesAtOnce record?) ∧
    (n.openConnection c s record?).roster =
      (if session.behaviour.closesAtOnce then n.roster.erase c else n.roster.insert c) ∧
    ∃ new, (n.openConnection c s record?).effects = n.effects ++ new ∧
      .hook s (.connected (session.viewOn (connection.afterOpening s record?))) ∈ new := by
  have hAttached : (n.attach c s record?).connections.find? c =
      some (connection.afterOpening s record?) := find?_attach_self hConnection
  obtain ⟨hConnections, hRoster, new, hNew, hHook⟩ :=
    fireConnected_spec hAttached rfl (attach_session_self hSession) rfl
  rw [openConnection_eq]
  refine ⟨fun c' hc' => ?_, ?_, ?_, new ++ [.listen c], ?_, List.mem_append_left _ hHook⟩
  · change (((n.attach c s record?).fireConnected s).modifyConnection c _).connections.find? c' = _
    rw [find?_modifyConnection_of_ne _ hc', hConnections]
    split
    · rw [find?_modifyConnection_of_ne _ hc', find?_attach_of_ne hc']
    · exact find?_attach_of_ne hc'
  · change ∃ connection', (((n.attach c s record?).fireConnected s).modifyConnection c
      _).connections.find? c = some connection' ∧ _
    rw [find?_modifyConnection_self, hConnections]
    have hSame : Behaviour.closesAtOnce { session with current := some c }.behaviour =
      session.behaviour.closesAtOnce := rfl
    rw [hSame]
    cases hCloses : session.behaviour.closesAtOnce with
    | false =>
      refine ⟨{ connection.afterOpening s record? with reading := true }, ?_, rfl, rfl, rfl, rfl⟩
      rw [if_neg (by decide), hAttached]
      rfl
    | true =>
      refine ⟨{ (connection.afterOpening s record?).afterClosing with reading := true }, ?_, rfl,
        rfl, rfl, rfl⟩
      rw [if_pos rfl, find?_modifyConnection_self, hAttached]
      rfl
  · change ((n.attach c s record?).fireConnected s).roster = _
    have hListed : (n.attach c s record?).roster = n.roster.insert c := rfl
    rw [hRoster, hListed, SortedSet.erase_insert_self]
  · change ((n.attach c s record?).fireConnected s).effects ++ [.listen c] = _
    rw [hNew, List.append_assoc]
    rfl

end Opening

end Node

end PeerServices
