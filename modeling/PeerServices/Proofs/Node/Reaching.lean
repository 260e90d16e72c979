import PeerServices.Proofs.Handshake.HostProof
import PeerServices.Proofs.Node.Admission

/-!
# Whom a node connects to

A call reached the host of its session, and somebody answers there with frames. They are arbitrary;
a stream that breaks off is a frame that is none.

* `Node.Ends`: what becomes of a connection when the handshake waits for more, fails or succeeds.
* `Node.converse_hear`: it becomes of it what the connecting side of the handshake makes of the
  frames.
* `Node.reach_spec`: the connection is opened exactly if the frames prove the host and what the mode
  asks for besides. If the handshake fails, the connection is closed, no session is told that it is
  connected, and nothing was signed.
-/

namespace PeerServices

/-- The parcel that an effect sends, and where. -/
def Effect.sent? : Effect → Option (ConnectionId × Parcel)
  | .send c parcel => some (c, parcel)
  | _ => none

namespace Node

/-! ## Frames until a decision -/

/-- The handshake by which a node connects goes on. -/
def isConnecting (n : Node) (c : ConnectionId) : Bool :=
  match (n.connections.find? c).map Connection.stage with
  | some (.connecting ..) => true
  | _ => false

/-- What a node makes of frames as long as the handshake goes on. -/
def hear (n : Node) (c : ConnectionId) (frames : List Received) : Node :=
  frames.foldl (fun n frame => if n.isConnecting c then n.receive c frame else n) n

/-- What a node makes of a call's host that it reached and that sends these frames. Every parcel of
the node gets through. -/
def reach (n : Node) (k : CallId) (c : ConnectionId) (issued : Challenge)
    (frames : List Received) : Node :=
  (n.dialled k (.ok ⟨c, issued, true⟩)).hear c frames

/-- A call tries to reach the host of its session. -/
structure Dials (n : Node) (k : CallId) (s : SessionId) (session : Session) : Prop where
  call : ∃ call attempts socket, n.calls.find? k = some call ∧ call.session = s ∧
    call.stage = .dialling attempts socket
  known : n.sessions.find? s = some session
  connects : session.isProxy = true

/-- The frames prove the host of a session, and settle this record. -/
def HostProven (n : Node) (session : Session) (issued : Challenge) (record? : Option PeerRecord)
    (frames : List Received) : Prop :=
  Handshake.HostProves n.credentials n.authorizer session.mode session.address.host issued record?
    frames

theorem hear_of_decided {n : Node} {c : ConnectionId} (h : n.isConnecting c = false)
    (frames : List Received) : n.hear c frames = n := by
  induction frames with
  | nil => rfl
  | cons frame frames ih =>
    unfold hear
    rw [List.foldl_cons, if_neg (by rw [h]; decide)]
    exact ih

theorem hear_cons {n : Node} {c : ConnectionId} (h : n.isConnecting c = true) (frame : Received)
    (frames : List Received) : n.hear c (frame :: frames) = (n.receive c frame).hear c frames := by
  unfold hear
  rw [List.foldl_cons, if_pos h]

/-! ## What is sent -/

/-- On the connection exactly these parcels were sent, and on others nothing. -/
def Sends (n n' : Node) (c : ConnectionId) (parcels : List Parcel) : Prop :=
  ∃ new, n'.effects = n.effects ++ new ∧ new.filterMap Effect.sent? = parcels.map (c, ·)

/-- No signature was sent. -/
def Unsigned (n n' : Node) : Prop :=
  ∃ new, n'.effects = n.effects ++ new ∧ ∀ c signed, .send c (.proof signed) ∉ new

section Sends

variable {n n' n'' : Node} {c : ConnectionId} {parcels later : List Parcel}

theorem sends_of_eq (h : n'.effects = n.effects) : Sends n n' c [] :=
  ⟨[], by rw [h, List.append_nil], rfl⟩

theorem Sends.trans (h : Sends n n' c parcels) (h' : Sends n' n'' c later) :
    Sends n n'' c (parcels ++ later) := by
  obtain ⟨new, hNew, hSent⟩ := h
  obtain ⟨new', hNew', hSent'⟩ := h'
  refine ⟨new ++ new', by rw [hNew', hNew, List.append_assoc], ?_⟩
  rw [List.filterMap_append, hSent, hSent', List.map_append]

theorem Sends.next (h : Sends n n' c parcels) (h' : Sends n' n'' c []) : Sends n n'' c parcels :=
  List.append_nil parcels ▸ h.trans h'

theorem sends_emit {e : Effect} (h : e.sent? = none) : Sends n (n.emit e) c [] :=
  ⟨[e], rfl, by rw [List.filterMap_cons, h]; rfl⟩

theorem sends_sendAll (n : Node) (c : ConnectionId) (parcels : List Parcel) :
    Sends n (n.sendAll c parcels) c parcels := by
  refine ⟨parcels.map (.send c), by rw [sendAll_eq], ?_⟩
  have hSent : Effect.sent? ∘ Effect.send c = some ∘ (c, ·) := rfl
  rw [List.filterMap_map, hSent, List.filterMap_eq_map]

theorem sends_fire (s : SessionId) (hook : Session.Hook) : Sends n (n.fire s hook) c [] := by
  cases hSession : n.sessions.find? s with
  | none =>
    rw [fire_none hSession]
    exact sends_of_eq rfl
  | some session =>
    obtain ⟨kept, hKept⟩ := fire_eq hSession hook
    rw [hKept]
    exact ⟨[.hook s hook], rfl, rfl⟩

theorem sends_finish (k : CallId) (result : Reply.Result) : Sends n (n.finish k result) c [] := by
  unfold finish
  split
  · exact ⟨[.finished k result], rfl, rfl⟩
  · exact sends_of_eq rfl

theorem sends_release (s : SessionId) : Sends n (n.release s) c [] := by
  unfold release
  split
  · exact sends_of_eq rfl
  next session _ =>
    cases session.waiters.head? with
    | none => exact sends_of_eq rfl
    | some k => exact sends_emit (n := n.modifySession s _) rfl

/-- Without a proof among the parcels no signature is sent. -/
theorem Sends.unsigned (h : Sends n n' c parcels) (hNone : ∀ signed, .proof signed ∉ parcels) :
    Unsigned n n' := by
  obtain ⟨new, hNew, hSent⟩ := h
  refine ⟨new, hNew, fun c' signed hMem => ?_⟩
  have hSaid : (c', Parcel.proof signed) ∈ new.filterMap Effect.sent? :=
    List.mem_filterMap.mpr ⟨_, hMem, rfl⟩
  rw [hSent] at hSaid
  obtain ⟨parcel, hParcel, hEq⟩ := List.mem_map.mp hSaid
  exact hNone signed ((Prod.mk.inj hEq).2 ▸ hParcel)

end Sends

/-! ## What stays as it is -/

section Quiet

variable {n : Node} {c : ConnectionId}

theorem quiet_modifySession (s : SessionId) (f : Session → Session) :
    Quiet n (n.modifySession s f) c :=
  ⟨fun _ _ => rfl, rfl, (Quiet.refl n c).effects, rfl, rfl, rfl⟩

theorem quiet_finish (k : CallId) (result : Reply.Result) : Quiet n (n.finish k result) c := by
  unfold finish
  split
  · have hEmit : Quiet n (n.emit (.finished k result)) c := quiet_emit fun _ _ h => nomatch h
    exact ⟨fun _ _ => rfl, rfl, hEmit.effects, rfl, rfl, rfl⟩
  · exact .refl n c

theorem quiet_release (s : SessionId) : Quiet n (n.release s) c := by
  unfold release
  split
  · exact .refl n c
  next session _ =>
    cases session.waiters.head? with
    | none => exact quiet_modifySession s _
    | some k => exact (quiet_modifySession s _).trans (quiet_emit fun _ _ h => nomatch h)

theorem steady_release (s : SessionId) : Steady n (n.release s) := by
  unfold release
  split
  · exact .refl n
  next session _ =>
    cases session.waiters.head? with
    | none => exact steady_modifySession n s _
    | some k => exact (steady_modifySession n s _).trans (steady_emit _ _)

end Quiet

/-- What a handshake settled of a connection stays as it is, and so do all other connections and the
roster. -/
structure Retains (n n' : Node) (c : ConnectionId) : Prop where
  connections : ∀ c', c' ≠ c → n'.connections.find? c' = n.connections.find? c'
  roster : n'.roster = n.roster
  connection : ∀ connection, n.connections.find? c = some connection →
    ∃ connection', n'.connections.find? c = some connection' ∧
      connection'.stage = connection.stage ∧ connection'.peer = connection.peer ∧
      connection'.record = connection.record
  effects : ∃ new, n'.effects = n.effects ++ new

section Retains

variable {n n' n'' : Node} {c : ConnectionId}

theorem Steady.retains (h : Steady n n') (c : ConnectionId) : Retains n n' c where
  connections c' _ := by rw [h.connections]
  roster := h.roster
  connection connection hFind := ⟨connection, by rw [h.connections, hFind], rfl, rfl, rfl⟩
  effects := h.effects

theorem Retains.trans (h : Retains n n' c) (h' : Retains n' n'' c) : Retains n n'' c where
  connections c' hc' := (h'.connections c' hc').trans (h.connections c' hc')
  roster := h'.roster.trans h.roster
  connection connection hFind := by
    obtain ⟨connection', hFind', hStage, hPeer, hRecord⟩ := h.connection connection hFind
    obtain ⟨connection'', hFind'', hStage', hPeer', hRecord'⟩ := h'.connection connection' hFind'
    exact ⟨connection'', hFind'', hStage'.trans hStage, hPeer'.trans hPeer,
      hRecord'.trans hRecord⟩
  effects := by
    obtain ⟨new, hNew⟩ := h.effects
    obtain ⟨new', hNew'⟩ := h'.effects
    exact ⟨new ++ new', by rw [hNew', hNew, List.append_assoc]⟩

/-- Other requests wait for a response. -/
theorem retains_expect (n : Node) (c : ConnectionId) (outstanding : Option (Outstanding Target)) :
    Retains n (n.modifyConnection c fun connection => { connection with outstanding }) c where
  connections _ hc' := n.find?_modifyConnection_of_ne hc' _
  roster := rfl
  connection connection hFind :=
    ⟨{ connection with outstanding }, by rw [find?_modifyConnection_self, hFind, Option.map_some],
      rfl, rfl, rfl⟩
  effects := ⟨[], (List.append_nil _).symm⟩

theorem retains_sendRequest (n : Node) (c : ConnectionId) (m : Message)
    (listeners : List (Listener Target)) : Retains n (n.sendRequest c m listeners).2 c := by
  unfold sendRequest
  split
  · exact (Steady.refl n).retains c
  · split
    · exact (Steady.refl n).retains c
    · exact (Steady.refl n).retains c
    · exact (retains_expect n c _).trans ((steady_emit _ _).retains c)

theorem retains_forget (n : Node) (c : ConnectionId) (uid : Int64) :
    Retains n (n.forget c uid).2 c := by
  unfold forget
  split
  · exact (Steady.refl n).retains c
  · exact (retains_expect n c _).trans ((steady_abandon _ _).retains c)

theorem steady_modifyCall (n : Node) (k : CallId) (f : Call → Call) :
    Steady n (n.modifyCall k f) := ⟨rfl, rfl, [], (List.append_nil _).symm⟩

/-- The time of a call is over that waits for responses on the connection. -/
theorem retains_overdue (n : Node) (k : CallId) (c : ConnectionId) :
    Retains n ((n.modifyCall k fun call => { call with stage := .waiting c }).overdue k) c := by
  have hCall := SortedMap.find?_modify_self n.calls k
    fun call => { call with stage := .waiting c }
  have hSame := (steady_modifyCall n k fun call => { call with stage := .waiting c }).retains c
  unfold overdue lapse
  split
  · exact hSame
  next call hFind =>
    obtain ⟨before, -, rfl⟩ := Option.map_eq_some_iff.mp (hCall.symm.trans hFind)
    exact (hSame.trans ((steady_finish _ k _).retains c)).trans (retains_forget _ c _)

theorem retains_transmit (n : Node) (k : CallId) (c : ConnectionId) :
    Retains n (n.transmit k c) c := by
  unfold transmit
  split
  · exact (Steady.refl n).retains c
  next call hCall =>
    have hSent := retains_sendRequest n c call.message call.listeners
    generalize n.sendRequest c call.message call.listeners = sent at hSent ⊢
    obtain ⟨result, n'⟩ := sent
    cases result with
    | error e => exact hSent.trans ((steady_finish _ k _).retains c)
    | ok done =>
      dsimp only
      split
      · exact hSent.trans ((steady_finish _ k _).retains c)
      · split
        · exact hSent.trans ((steady_finish _ k _).retains c)
        · split
          · exact hSent.trans (retains_overdue n' k c)
          · exact (hSent.trans ((steady_modifyCall n' k _).retains c)).trans
              ((steady_emit _ _).retains c)

end Retains

/-! ## Conversations -/

/-- The handshake with the host of a session goes on. -/
structure Reaching (n : Node) (c : ConnectionId) (s : SessionId) (session : Session) : Prop where
  connection : ∃ connection, n.connections.find? c = some connection ∧
    connection.reachable = true
  known : n.sessions.find? s = some session
  connects : session.isProxy = true

/-- The connection waits for a frame of the handshake, and these parcels were sent. -/
structure Awaits (n n' : Node) (c : ConnectionId) (s : SessionId) (k : CallId)
    (parcels : List Parcel) : Prop where
  quiet : Quiet n n' c
  sends : Sends n n' c parcels
  connection : ∃ connection rest, n'.connections.find? c = some connection ∧
    connection.stage = .connecting s k rest

/-- The handshake failed, and these parcels were sent. -/
structure Failed (n n' : Node) (c : ConnectionId) (parcels : List Parcel) : Prop where
  quiet : Quiet n n' c
  sends : Sends n n' c parcels
  connection : ∃ connection, n'.connections.find? c = some connection ∧ connection.stage = .closed

/-- The connection was opened after these parcels were sent, and its session was told so. It is on
the roster, unless its session hung up at once. -/
structure Reached (n n' : Node) (c : ConnectionId) (s : SessionId) (session : Session)
    (record? : Option PeerRecord) (parcels : List Parcel) : Prop where
  connections : ∀ c', c' ≠ c → n'.connections.find? c' = n.connections.find? c'
  roster : n'.roster =
    if session.behaviour.closesAtOnce then n.roster.erase c else n.roster.insert c
  connection : ∃ connection, n'.connections.find? c = some connection ∧
    connection.record = record? ∧ connection.peer = some session.address.host ∧
    connection.stage = if session.behaviour.closesAtOnce then .closed else .opened
  told : ∃ new more, n'.effects = n.effects ++ new ++ more ∧
    new.filterMap Effect.sent? = parcels.map (c, ·) ∧
    .hook s (.connected
      { address := session.address, mode := session.mode, isProxy := true, isOpen := true
        peer := some session.address.host, record := record? }) ∈ more

/-- What became of the connection when the handshake came to this, and these parcels were sent. -/
def Ends (n n' : Node) (c : ConnectionId) (s : SessionId) (k : CallId) (session : Session)
    (parcels : List Parcel) : Option Handshake.Result → Prop
  | none => Awaits n n' c s k parcels
  | some (.error _) => Failed n n' c parcels
  | some (.ok record?) => Reached n n' c s session record? parcels

section Conversations

variable {n n' n'' : Node} {c : ConnectionId} {s : SessionId} {k : CallId} {session : Session}
  {record? : Option PeerRecord} {parcels later : List Parcel}

/-- What a step of the conversation comes to. -/
theorem converseConnecting_eq (h : Reaching n c s session) (d : Dialogue Handshake.Result) :
    n.converseConnecting c s k d =
      let spoken := n.sendAll c (d.advance n.authorizer true).1
      match (d.advance n.authorizer true).2 with
      | .waiting rest =>
        spoken.modifyConnection c fun connection =>
          { connection with stage := .connecting s k rest }
      | .over (.ok record) =>
        (((spoken.modifyConnection c fun connection =>
          { connection with peer := some session.address.host }).openConnection c s record).release
            s).transmit k c
      | .over (.error cause) =>
        ((((spoken.modifyConnection c fun connection =>
          { connection with stage := .closed }).fire s (.authenticationFailed cause)).emit
            (.hangUp c)).finish k
              (.error (.io ⟨.connectionAborted, "Authentication failed"⟩))).release s := by
  obtain ⟨connection, hConnection, hReachable⟩ := h.connection
  have hHost : ((n.sendAll c (d.advance n.authorizer true).1).sessions.find? s).map
      (fun session => session.address.host) = some session.address.host := by
    rw [sendAll_eq]
    simp only [h.known, Option.map_some]
  unfold converseConnecting
  rw [hConnection, Option.map_some, Option.getD_some, hReachable]
  simp only [← hHost]
  rfl

theorem Reaching.of_sendAll (h : Reaching n c s session) (parcels : List Parcel) :
    Reaching (n.sendAll c parcels) c s session := by
  rw [sendAll_eq]
  exact ⟨h.connection, h.known, h.connects⟩

theorem isConnecting_of_find? {connection : Connection}
    {rest : Received → Dialogue Handshake.Result}
    (hConnection : n.connections.find? c = some connection)
    (hStage : connection.stage = .connecting s k rest) : n.isConnecting c = true := by
  simp only [isConnecting, hConnection, Option.map_some, hStage]

theorem isConnecting_of_failed (h : Failed n n' c parcels) : n'.isConnecting c = false := by
  obtain ⟨connection, hConnection, hStage⟩ := h.connection
  simp only [isConnecting, hConnection, Option.map_some, hStage]

theorem not_live_of_stage {connection : Connection}
    (hConnection : n.connections.find? c = some connection) (hStage : connection.stage ≠ .opened) :
    c ∉ n.live := by
  rw [mem_live_iff, isOpen_iff]
  rintro ⟨connection', hConnection', hOpen⟩
  obtain rfl := Option.some.inj (hConnection.symm.trans hConnection')
  unfold Connection.isOpen at hOpen
  split at hOpen
  next hOpened => exact hStage hOpened
  · cases hOpen

theorem Awaits.not_live (h : Awaits n n' c s k parcels) : c ∉ n'.live := by
  obtain ⟨connection, rest, hConnection, hStage⟩ := h.connection
  exact not_live_of_stage hConnection fun hOpened => nomatch hStage.symm.trans hOpened

theorem Failed.not_live (h : Failed n n' c parcels) : c ∉ n'.live := by
  obtain ⟨connection, hConnection, hStage⟩ := h.connection
  exact not_live_of_stage hConnection fun hOpened => nomatch hStage.symm.trans hOpened

theorem isConnecting_of_reached (h : Reached n n' c s session record? parcels) :
    n'.isConnecting c = false := by
  obtain ⟨connection, hConnection, -, -, hStage⟩ := h.connection
  simp only [isConnecting, hConnection, Option.map_some, hStage]
  cases session.behaviour.closesAtOnce <;> rfl

/-- The next frame goes to the dialogue that waits for it. -/
theorem receive_connecting {connection : Connection}
    {rest : Received → Dialogue Handshake.Result}
    (hConnection : n.connections.find? c = some connection)
    (hStage : connection.stage = .connecting s k rest) (frame : Received) :
    n.receive c frame = n.converseConnecting c s k (rest frame) := by
  unfold receive
  rw [hConnection]
  simp only [hStage]

section After

variable (hQuiet : Quiet n n' c) (hSends : Sends n n' c parcels)

include hQuiet hSends

theorem Awaits.after (h : Awaits n' n'' c s k later) : Awaits n n'' c s k (parcels ++ later) :=
  ⟨hQuiet.trans h.quiet, hSends.trans h.sends, h.connection⟩

theorem Failed.after (h : Failed n' n'' c later) : Failed n n'' c (parcels ++ later) :=
  ⟨hQuiet.trans h.quiet, hSends.trans h.sends, h.connection⟩

theorem Reached.after (h : Reached n' n'' c s session record? later) :
    Reached n n'' c s session record? (parcels ++ later) := by
  refine ⟨fun c' hc' => (h.connections c' hc').trans (hQuiet.connections c' hc'), ?_, h.connection,
    ?_⟩
  · rw [h.roster, hQuiet.roster]
  obtain ⟨new, hNew, hSent⟩ := hSends
  obtain ⟨new', more, hMore, hSent', hHook⟩ := h.told
  refine ⟨new ++ new', more, by simp only [hMore, hNew, List.append_assoc], ?_, hHook⟩
  rw [List.filterMap_append, hSent, hSent', List.map_append]

theorem Ends.after {outcome : Option Handshake.Result}
    (h : Ends n' n'' c s k session later outcome) :
    Ends n n'' c s k session (parcels ++ later) outcome := by
  match outcome, h with
  | none, h => exact Awaits.after hQuiet hSends h
  | some (.error _), h => exact Failed.after hQuiet hSends h
  | some (.ok _), h => exact Reached.after hQuiet hSends h

end After

theorem close_failed {connection : Connection}
    (hConnection : n.connections.find? c = some connection) :
    Failed n (n.modifyConnection c fun connection => { connection with stage := .closed }) c
      [] := by
  have hFind := n.find?_modifyConnection_self c
    fun connection => { connection with stage := .closed }
  rw [hConnection] at hFind
  exact ⟨quiet_modifyConnection _, sends_of_eq rfl, _, hFind, rfl⟩

/-- The session and the call of a handshake that failed are told so. -/
theorem Failed.told (h : Failed n n' c parcels) (s : SessionId) (k : CallId)
    (cause : HandshakeError) (result : Reply.Result) :
    Failed n ((((n'.fire s (.authenticationFailed cause)).emit (.hangUp c)).finish k
      result).release s) c parcels := by
  constructor
  case quiet =>
    have hFire : Quiet n' (n'.fire s (.authenticationFailed cause)) c :=
      quiet_fire fun _ h => nomatch h
    have hHangUp : Quiet (n'.fire s (.authenticationFailed cause))
        ((n'.fire s (.authenticationFailed cause)).emit (.hangUp c)) c :=
      quiet_emit fun _ _ h => nomatch h
    have hTold := (hFire.trans hHangUp).trans (quiet_finish k result)
    exact (h.quiet.trans hTold).trans (quiet_release s)
  case sends =>
    exact (((h.sends.next (sends_fire s _)).next (sends_emit rfl)).next
      (sends_finish k result)).next (sends_release s)
  case connection =>
    obtain ⟨connection, hFind, hStage⟩ := h.connection
    have hSteady := (steady_fire n' s (.authenticationFailed cause)).trans
      (steady_emit _ (.hangUp c))
    have hLast := (hSteady.trans (steady_finish _ k result)).trans (steady_release s)
    exact ⟨connection, by rw [hLast.connections, hFind], hStage⟩

/-- A connection is opened whose handshake succeeded, and its call goes on. -/
theorem opens_reached {connection : Connection}
    (hConnection : n.connections.find? c = some connection)
    (hPeer : connection.peer = some session.address.host)
    (hKnown : n.sessions.find? s = some session) (hConnects : session.isProxy = true) (k : CallId)
    (record? : Option PeerRecord) :
    Reached n (((n.openConnection c s record?).release s).transmit k c) c s session record? [] := by
  obtain ⟨hOthers, ⟨opened, hOpened, hAs⟩, hRoster, told, hTold, hHook⟩ :=
    openConnection_spec record? hConnection hKnown
  have hRelease : Steady (n.openConnection c s record?)
    ((n.openConnection c s record?).release s) := steady_release s
  have hRetains := (hRelease.retains c).trans (retains_transmit _ k c)
  constructor
  case connections =>
    intro c' hc'
    rw [hRetains.connections c' hc', hOthers c' hc']
  case roster => rw [hRetains.roster, hRoster]
  case connection =>
    obtain ⟨final, hFinal, hStage, hSame, hRecord⟩ := hRetains.connection opened hOpened
    have hOpenedPeer := hAs.peer
    rw [hPeer, Option.some_or] at hOpenedPeer
    exact ⟨final, hFinal, hRecord.trans hAs.record, hSame.trans hOpenedPeer,
      hStage.trans hAs.stage⟩
  case told =>
    obtain ⟨more, hMore⟩ := hRetains.effects
    refine ⟨[], told ++ more, ?_, rfl, List.mem_append_left _ ?_⟩
    · rw [hMore, hTold, List.append_nil, List.append_assoc]
    · simp only [Session.viewOn, hConnects, if_true] at hHook
      exact hHook

theorem converse_fails (h : Reaching n c s session) {d : Dialogue Handshake.Result}
    {cause : HandshakeError} (hOver : (d.advance n.authorizer true).2 = .over (.error cause)) :
    Failed n (n.converseConnecting c s k d) c (d.advance n.authorizer true).1 := by
  rw [converseConnecting_eq h]
  simp only [hOver]
  obtain ⟨connection, hConnection, -⟩ := (h.of_sendAll (d.advance n.authorizer true).1).connection
  have hFailed := (close_failed hConnection).after (quiet_sendAll _) (sends_sendAll n c _)
  rw [List.append_nil] at hFailed
  exact hFailed.told s k cause _

theorem converse_reaches (h : Reaching n c s session) {d : Dialogue Handshake.Result}
    (hOver : (d.advance n.authorizer true).2 = .over (.ok record?)) :
    Reached n (n.converseConnecting c s k d) c s session record?
      (d.advance n.authorizer true).1 := by
  rw [converseConnecting_eq h]
  simp only [hOver]
  have hSpoken := h.of_sendAll (d.advance n.authorizer true).1
  obtain ⟨connection, hConnection, -⟩ := hSpoken.connection
  have hNamed := (n.sendAll c (d.advance n.authorizer true).1).find?_modifyConnection_self c
    fun connection => { connection with peer := some session.address.host }
  rw [hConnection] at hNamed
  have hOpened := (opens_reached hNamed rfl hSpoken.known h.connects k record?).after
    (quiet_modifyConnection _) (sends_of_eq rfl)
  have hReached := hOpened.after (quiet_sendAll _) (sends_sendAll n c _)
  rwa [List.append_nil, List.append_nil] at hReached

/-- Where the node stands when the dialogue waits for a frame. -/
theorem converse_awaits (h : Reaching n c s session) {d : Dialogue Handshake.Result}
    {rest : Received → Dialogue Handshake.Result}
    (hWaiting : (d.advance n.authorizer true).2 = .waiting rest) :
    Awaits n (n.converseConnecting c s k d) c s k (d.advance n.authorizer true).1 ∧
      Reaching (n.converseConnecting c s k d) c s session ∧
      ∃ connection, (n.converseConnecting c s k d).connections.find? c = some connection ∧
        connection.stage = .connecting s k rest := by
  rw [converseConnecting_eq h]
  simp only [hWaiting]
  have hSpoken := h.of_sendAll (d.advance n.authorizer true).1
  obtain ⟨connection, hConnection, hReachable⟩ := hSpoken.connection
  have hFind := (n.sendAll c (d.advance n.authorizer true).1).find?_modifyConnection_self c
    fun connection => { connection with stage := .connecting s k rest }
  rw [hConnection] at hFind
  exact ⟨⟨(quiet_sendAll _).trans (quiet_modifyConnection _),
      (sends_sendAll n c _).next (sends_of_eq rfl), _, rest, hFind, rfl⟩,
    ⟨⟨_, hFind, hReachable⟩, hSpoken.known, hSpoken.connects⟩, ⟨_, hFind, rfl⟩⟩

/-- The node does with the frames what the connecting side does with them. -/
theorem converse_hear (h : Reaching n c s session) (d : Dialogue Handshake.Result)
    (frames : List Received) :
    Ends n ((n.converseConnecting c s k d).hear c frames) c s k session
      (d.spoken n.authorizer frames) (d.outcome n.authorizer frames) := by
  induction frames generalizing n d with
  | nil =>
    unfold Dialogue.outcome Dialogue.spoken
    cases hPause : (d.advance n.authorizer true).2 with
    | «over» result =>
      cases result with
      | error cause => exact converse_fails h hPause
      | ok record? => exact converse_reaches h hPause
    | waiting rest => exact (converse_awaits h hPause).1
  | cons frame frames ih =>
    unfold Dialogue.outcome Dialogue.spoken
    cases hPause : (d.advance n.authorizer true).2 with
    | «over» result =>
      cases result with
      | error cause =>
        have hFailed : Failed n (n.converseConnecting c s k d) c _ := converse_fails h hPause
        dsimp only
        rw [hear_of_decided (isConnecting_of_failed hFailed), List.append_nil]
        exact hFailed
      | ok record? =>
        have hReached : Reached n (n.converseConnecting c s k d) c s session record? _ :=
          converse_reaches h hPause
        dsimp only
        rw [hear_of_decided (isConnecting_of_reached hReached), List.append_nil]
        exact hReached
    | waiting rest =>
      obtain ⟨hAwaits, hReaching, connection, hConnection, hStage⟩ :=
        converse_awaits (k := k) h hPause
      have hRest := ih hReaching (rest frame)
      rw [authorizer_of_quiet hAwaits.quiet] at hRest
      rw [hear_cons (isConnecting_of_find? hConnection hStage),
        receive_connecting hConnection hStage]
      exact hRest.after hAwaits.quiet hAwaits.sends

end Conversations

/-! ## Whom the node connects to -/

section Reach

variable {n : Node} {k : CallId} {s : SessionId} {session : Session}

/-- The node when the host of a call was reached, before the handshake begins. -/
def reached (n : Node) (k : CallId) (s : SessionId) (c : ConnectionId) (issued : Challenge)
    (side : Dialogue Handshake.Result) : Node :=
  let n := n.modifyCall k fun call => { call with stage := .reached }
  let connection := Connection.create ⟨c, issued, true⟩ (.connecting s k fun _ => side)
  { n with connections := n.connections.insert c connection }.emit (.listen c)

theorem dialled_eq (h : n.Dials k s session) (c : ConnectionId) (issued : Challenge) :
    let side := (n.connectingSide session issued).run
    n.dialled k (.ok ⟨c, issued, true⟩) =
      (n.reached k s c issued side).converseConnecting c s k side := by
  obtain ⟨call, attempts, socket, hCall, rfl, hStage⟩ := h.call
  unfold dialled
  rw [hCall]
  simp only [hStage, h.known]
  rfl

theorem reached_reaching (h : n.Dials k s session) (c : ConnectionId) (issued : Challenge)
    (side : Dialogue Handshake.Result) :
    Reaching (n.reached k s c issued side) c s session where
  connection := ⟨_, SortedMap.find?_insert_self n.connections c _, rfl⟩
  known := h.known
  connects := h.connects

theorem reached_quiet (n : Node) (k : CallId) (s : SessionId) (c : ConnectionId)
    (issued : Challenge) (side : Dialogue Handshake.Result) :
    Quiet n (n.reached k s c issued side) c where
  connections _ hc' := SortedMap.find?_insert_of_ne hc' n.connections _
  roster := rfl
  effects := (quiet_emit (n := n) (c := c) (e := .listen c) fun _ _ h => nomatch h).effects
  directory := rfl
  credentials := rfl
  services := rfl

/-- The side of a handshake that connects names the service first. -/
theorem run_connectingSide (n : Node) (session : Session) (issued : Challenge) :
    (n.connectingSide session issued).run =
      .send (.service session.address.id) (Handshake.ifSent
        (Handshake.connecting n.credentials session.mode session.address.host issued).run) :=
  Handshake.run_send_bind _ _

/-- What becomes of the connection is decided by the connecting side of the handshake. -/
theorem reach_outcome (h : n.Dials k s session) (c : ConnectionId) (issued : Challenge)
    (frames : List Received) :
    let side := (Handshake.connecting n.credentials session.mode session.address.host issued).run
    Ends n (n.reach k c issued frames) c s k session
      (.service session.address.id :: side.spoken n.authorizer frames)
      (side.outcome n.authorizer frames) := by
  intro side
  have hQuiet := n.reached_quiet k s c issued (n.connectingSide session issued).run
  have hSends : Sends n (n.reached k s c issued (n.connectingSide session issued).run) c [] :=
    ⟨[.listen c], rfl, rfl⟩
  have hHear := converse_hear (k := k)
    (reached_reaching h c issued (n.connectingSide session issued).run)
    (n.connectingSide session issued).run frames
  have hSent := Parcel.sent_service session.address.id
  rw [authorizer_of_quiet hQuiet, ← dialled_eq h] at hHear
  rw [run_connectingSide] at hQuiet hSends hHear
  rw [Handshake.outcome_send hSent, Handshake.spoken_send hSent] at hHear
  exact hHear.after hQuiet hSends

/-- Whoever is reached at the host of a session has to prove to be that host. The handshake succeeds
if and only if the frames do so, and it signs nothing otherwise. The connection is opened with the
record that the frames settle. Without such frames it is not live, no session is told to be
connected, and no signature was sent; and it is closed as soon as the handshake fails. -/
theorem reach_spec (h : n.Dials k s session) (c : ConnectionId) (issued : Challenge)
    (frames : List Received) :
    let side := (Handshake.connecting n.credentials session.mode session.address.host issued).run
    let after := n.reach k c issued frames
    (∀ own view mode host,
      let d := (Handshake.connecting own mode host issued).run
      (∀ record?, d.outcome view frames = some (.ok record?) ↔
        Handshake.HostProves own view mode host issued record? frames) ∧
      ∀ signed, .proof signed ∈ d.spoken view frames →
        ∃ record?, d.outcome view frames = some (.ok record?)) ∧
    (∀ record?, n.HostProven session issued record? frames → Reached n after c s session record?
      (.service session.address.id :: side.spoken n.authorizer frames)) ∧
    ((¬∃ record?, n.HostProven session issued record? frames) →
      Quiet n after c ∧ c ∉ after.live ∧ Unsigned n after) ∧
    ∀ cause, side.outcome n.authorizer frames = some (.error cause) →
      ∃ connection, after.connections.find? c = some connection ∧ connection.stage = .closed := by
  intro side after
  have hReach := reach_outcome h c issued frames
  dsimp only at hReach
  refine ⟨fun own view mode host => ⟨fun _ => Handshake.outcome_connecting, fun _ hSigned => ?_⟩,
    fun record? hProves => ?_, fun hNot => ?_, fun cause hFailed => ?_⟩
  · obtain ⟨record?, hProves⟩ := Handshake.hostProves_of_signed hSigned
    exact ⟨record?, Handshake.outcome_connecting.mpr hProves⟩
  · rw [Handshake.outcome_connecting.mpr hProves] at hReach
    exact hReach
  · have hSaid : ∀ signed, Parcel.proof signed ∉
        .service session.address.id :: side.spoken n.authorizer frames := fun signed hSigned =>
      hNot (Handshake.hostProves_of_signed ((List.mem_cons.mp hSigned).resolve_left nofun))
    cases hOutcome : side.outcome n.authorizer frames with
    | none =>
      rw [hOutcome] at hReach
      exact ⟨Awaits.quiet hReach, Awaits.not_live hReach, (Awaits.sends hReach).unsigned hSaid⟩
    | some result =>
      rw [hOutcome] at hReach
      cases result with
      | error cause =>
        exact ⟨Failed.quiet hReach, Failed.not_live hReach, (Failed.sends hReach).unsigned hSaid⟩
      | ok record? => exact absurd ⟨record?, Handshake.outcome_connecting.mp hOutcome⟩ hNot
  · rw [hFailed] at hReach
    exact Failed.connection hReach

end Reach

end Node

/-! ## A client that reaches the middle -/

namespace Handshake.Relay

variable (r : Relay)

/-- The session of the client with a service of the middle. -/
def clientSession : Session :=
  { Session.create ⟨r.offered, r.middle.address⟩ .restricted true (.application [] false) with
    connecting := some 0 }

/-- The client, when it calls on the middle and knows it. -/
def clientNode : Node :=
  { Node.create r.client with
    directory := Directory.empty.store r.contact
    sessions := SortedMap.empty.insert 0 r.clientSession
    calls := SortedMap.empty.insert 0
      { session := 0, message := default, listeners := [], timeout := .ofSeconds 30
        resolved := none, stage := .dialling 0 (.v4 [127, 0, 0, 1] 80) } }

/-- The frames of the middle. -/
def middleFrames : List Received :=
  [.ok (Parcel.proof (r.middle.sign r.counter.octets.toList)).body, .ok (Serial.encode r.issued)]

variable {r}

theorem clientNode_dials : r.clientNode.Dials 0 0 r.clientSession where
  call := ⟨_, 0, _, SortedMap.find?_insert_self .empty 0 _, rfl, rfl⟩
  known := SortedMap.find?_insert_self .empty 0 _
  connects := rfl

theorem middleFrames_prove (hVerify : (r.middle.sign r.counter.octets.toList).verify = true) :
    HostProves r.clientNode.credentials r.clientNode.authorizer .restricted r.middle.address
      r.counter (some r.contact) r.middleFrames := by
  obtain ⟨body, hBody, hDecode⟩ := Frame.decode_eq_ok_iff.mp (Frame.decode_proof r.middle r.counter)
  refine ⟨body, [.ok (Serial.encode r.issued)], _, ?_, hDecode, rfl, hVerify, rfl, r.contact,
    r.issued, [], Directory.find?_store .empty r.contact, rfl, rfl⟩
  rw [← hBody]
  rfl

/-- The client of the sample relay reaches the middle, which proves who it is. -/
theorem sample_reached :
    sample.clientNode.Dials 0 0 sample.clientSession ∧
      Node.Reached sample.clientNode
        (sample.clientNode.reach 0 0 sample.counter sample.middleFrames) 0 0 sample.clientSession
        (some sample.contact)
        (.service sample.offered :: (connecting sample.clientNode.credentials .restricted
          sample.middle.address sample.counter).run.spoken sample.clientNode.authorizer
            sample.middleFrames) :=
  ⟨clientNode_dials,
    (Node.reach_spec clientNode_dials 0 sample.counter sample.middleFrames).2.1 _
      (middleFrames_prove sample_proofs.2)⟩

end Handshake.Relay

end PeerServices
