import PeerServices.Proofs.Handshake.Outcome
import PeerServices.Proofs.Handshake.Relay
import PeerServices.Proofs.Node.Opening

/-!
# Whom a node lets in

Somebody connects, sends frames until the node has decided, and has no more time after that. The
frames are arbitrary; a stream that breaks off is a frame that is none.

* `Node.converse_feed`: a node does with the frames what the accepting side of the handshake does.
* `Node.welcome_iff`: it lets in exactly those who name a service that it offers, issue a challenge
  and prove themselves as the mode of the service asks for; anybody else leaves no trace in the
  connections, and no session is told that it is connected.
-/

namespace PeerServices

namespace Node

/-! ## Frames until a decision -/

/-- The node has decided whether to let a connection in. -/
def hasDecided (n : Node) (c : ConnectionId) : Bool :=
  ((n.connections.find? c).bind (·.acceptance)).isSome

/-- What a node makes of frames until it has decided. -/
def feed (n : Node) (c : ConnectionId) (frames : List Received) : Node :=
  frames.foldl (fun n frame => if n.hasDecided c then n else n.receive c frame) n

/-- What a node makes of somebody who connects and sends these frames within the time limit. Every
parcel of the node gets through. -/
def welcome (n : Node) (c : ConnectionId) (issued : Challenge) (frames : List Received) : Node :=
  ((n.accept ⟨c, issued, true⟩).feed c frames).expire c

theorem feed_of_hasDecided {n : Node} {c : ConnectionId} (h : n.hasDecided c = true)
    (frames : List Received) : n.feed c frames = n := by
  induction frames with
  | nil => rfl
  | cons frame frames ih =>
    unfold feed
    rw [List.foldl_cons, if_pos h]
    exact ih

theorem feed_cons {n : Node} {c : ConnectionId} (h : n.hasDecided c = false) (frame : Received)
    (frames : List Received) : n.feed c (frame :: frames) = (n.receive c frame).feed c frames := by
  unfold feed
  rw [List.foldl_cons, if_neg (by rw [h]; decide)]

/-! ## How an acceptance can end -/

/-- Nothing happened but what concerns this one connection, and nobody was told to be connected. -/
structure Quiet (n n' : Node) (c : ConnectionId) : Prop where
  connections : ∀ c', c' ≠ c → n'.connections.find? c' = n.connections.find? c'
  roster : n'.roster = n.roster
  effects : ∃ new, n'.effects = n.effects ++ new ∧ ∀ s view, .hook s (.connected view) ∉ new
  directory : n'.directory = n.directory
  credentials : n'.credentials = n.credentials
  services : n'.services = n.services

theorem Quiet.refl (n : Node) (c : ConnectionId) : Quiet n n c where
  connections _ _ := rfl
  roster := rfl
  effects := ⟨[], (List.append_nil _).symm, fun _ _ h => nomatch h⟩
  directory := rfl
  credentials := rfl
  services := rfl

theorem Quiet.trans {n n' n'' : Node} {c : ConnectionId} (h : Quiet n n' c)
    (h' : Quiet n' n'' c) : Quiet n n'' c where
  connections c' hc' := (h'.connections c' hc').trans (h.connections c' hc')
  roster := h'.roster.trans h.roster
  effects := by
    obtain ⟨new, hNew, hNone⟩ := h.effects
    obtain ⟨new', hNew', hNone'⟩ := h'.effects
    refine ⟨new ++ new', by rw [hNew', hNew, List.append_assoc], fun s view hMem => ?_⟩
    rcases List.mem_append.mp hMem with hMem | hMem
    · exact hNone s view hMem
    · exact hNone' s view hMem
  directory := h'.directory.trans h.directory
  credentials := h'.credentials.trans h.credentials
  services := h'.services.trans h.services

/-- The connection was refused. The roster is as it was. -/
structure Refused (n n' : Node) (c : ConnectionId) : Prop where
  quiet : Quiet n n' c
  connection : ∃ connection cause, n'.connections.find? c = some connection ∧
    connection.stage = .closed ∧ connection.acceptance = some (.error cause)

/-- The connection was opened and its session was told so. It is on the roster, unless its session
hung up at once. -/
structure Opened (n n' : Node) (c : ConnectionId) (service : Service)
    (record? : Option PeerRecord) : Prop where
  connections : ∀ c', c' ≠ c → n'.connections.find? c' = n.connections.find? c'
  roster : n'.roster =
    if service.behaviour.closesAtOnce then n.roster.erase c else n.roster.insert c
  connection : ∃ connection, n'.connections.find? c = some connection ∧
    connection.acceptance = some (.ok ()) ∧ connection.record = record? ∧
    connection.peer = record?.map PeerRecord.address ∧
    connection.stage = if service.behaviour.closesAtOnce then .closed else .opened
  told : ∃ new s, n'.effects = n.effects ++ new ∧
    .hook s (.connected
      { address := service.address, mode := service.mode, isProxy := false, isOpen := true
        peer := record?.map PeerRecord.address, record := record? }) ∈ new

/-! ## Quiet steps -/

section Quiet

variable {n : Node} {c : ConnectionId}

theorem quiet_emit {e : Effect} (h : ∀ s view, e ≠ .hook s (.connected view)) :
    Quiet n (n.emit e) c where
  connections _ _ := rfl
  roster := rfl
  effects := by
    refine ⟨[e], rfl, fun s view hMem => h s view ?_⟩
    exact (List.mem_singleton.mp hMem).symm
  directory := rfl
  credentials := rfl
  services := rfl

theorem quiet_sendAll (parcels : List Parcel) : Quiet n (n.sendAll c parcels) c := by
  rw [sendAll_eq]
  refine ⟨fun _ _ => rfl, rfl, ⟨_, rfl, fun s view hMem => ?_⟩, rfl, rfl, rfl⟩
  obtain ⟨parcel, -, hEq⟩ := List.mem_map.mp hMem
  exact nomatch hEq

theorem quiet_modifyConnection (f : Connection → Connection) :
    Quiet n (n.modifyConnection c f) c where
  connections _ hc := n.find?_modifyConnection_of_ne hc f
  roster := rfl
  effects := (Quiet.refl n c).effects
  directory := rfl
  credentials := rfl
  services := rfl

theorem quiet_fire {s : SessionId} {hook : Session.Hook} (h : ∀ view, hook ≠ .connected view) :
    Quiet n (n.fire s hook) c := by
  cases hSession : n.sessions.find? s with
  | none =>
    rw [fire_none hSession]
    exact Quiet.refl n c
  | some session =>
    obtain ⟨kept, hKept⟩ := fire_eq hSession hook
    rw [hKept]
    refine ⟨fun _ _ => rfl, rfl, ⟨_, rfl, fun s' view hMem => ?_⟩, rfl, rfl, rfl⟩
    exact h view (Effect.hook.inj (List.mem_singleton.mp hMem)).2.symm

/-- The node refuses a connection that it keeps. -/
theorem refuse_refused {connection : Connection} (h : n.connections.find? c = some connection)
    (cause : WireError) : Refused n (n.refuse c cause) c where
  quiet := (quiet_modifyConnection _).trans (quiet_emit fun _ _ h => nomatch h)
  connection := by
    refine ⟨{ connection with stage := .closed, acceptance := some (.error cause) }, cause, ?_, rfl,
      rfl⟩
    change (n.modifyConnection c _).connections.find? c = _
    rw [find?_modifyConnection_self, h]
    rfl

theorem Quiet.trans_refused {n' n'' : Node} (h : Quiet n n' c) (h' : Refused n' n'' c) :
    Refused n n'' c :=
  ⟨h.trans h'.quiet, h'.connection⟩

theorem Quiet.trans_opened {n' n'' : Node} {service : Service} {record? : Option PeerRecord}
    (h : Quiet n n' c) (h' : Opened n' n'' c service record?) : Opened n n'' c service record? where
  connections c' hc' := (h'.connections c' hc').trans (h.connections c' hc')
  roster := by rw [h'.roster, h.roster]
  connection := h'.connection
  told := by
    obtain ⟨new, hNew, -⟩ := h.effects
    obtain ⟨new', s, hNew', hMem⟩ := h'.told
    exact ⟨new ++ new', s, by rw [hNew', hNew, List.append_assoc], List.mem_append_right _ hMem⟩

end Quiet

/-! ## Opening -/

/-- A handshake that succeeds opens the connection. -/
theorem openConnection_opened {n : Node} {c : ConnectionId} {s : SessionId} {service : Service}
    {connection : Connection} {record? : Option PeerRecord}
    (hConnection : n.connections.find? c = some connection)
    (hPeer : connection.peer = none) (hAcceptance : connection.acceptance = some (.ok ()))
    (hSession : n.sessions.find? s =
      some (.create service.address service.mode false service.behaviour)) :
    Opened n (n.openConnection c s record?) c service record? := by
  obtain ⟨hOthers, ⟨connection', hFind, hOpened⟩, hRoster, new, hNew, hHook⟩ :=
    openConnection_spec record? hConnection hSession
  have hPeerEq : connection.peer.or (record?.map PeerRecord.address) =
      record?.map PeerRecord.address := by rw [hPeer, Option.none_or]
  refine ⟨hOthers, hRoster, ⟨connection', hFind, ?_, hOpened.record, ?_, hOpened.stage⟩, new, s,
    hNew, ?_⟩
  · rw [hOpened.acceptance, hAcceptance]
  · rw [hOpened.peer, hPeerEq]
  · rw [← hPeerEq]
    exact hHook

/-! ## Conversations -/

/-- The handshake with somebody who named this service goes on. -/
structure Conversing (n : Node) (c : ConnectionId) (s : SessionId) (service : Service) : Prop where
  connection : ∃ connection, n.connections.find? c = some connection ∧
    connection.reachable = true ∧ connection.acceptance = none ∧ connection.peer = none
  session : n.sessions.find? s =
    some (.create service.address service.mode false service.behaviour)

/-- The connection waits for a frame of the handshake. -/
structure Waiting (n n' : Node) (c : ConnectionId) (s : SessionId) : Prop where
  quiet : Quiet n n' c
  connection : ∃ connection rest, n'.connections.find? c = some connection ∧
    connection.stage = .accepting s rest

section Conversations

variable {n : Node} {c : ConnectionId} {s : SessionId} {service : Service}

/-- What a step of the conversation comes to. -/
theorem converseAccepting_eq (h : Conversing n c s service) (d : Dialogue Handshake.Result) :
    n.converseAccepting c s d =
      let spoken := n.sendAll c (d.advance n.authorizer true).1
      match (d.advance n.authorizer true).2 with
      | .waiting rest =>
        spoken.modifyConnection c fun connection => { connection with stage := .accepting s rest }
      | .over (.ok record) =>
        (spoken.modifyConnection c fun connection =>
          { connection with acceptance := some (.ok ()) }).openConnection c s record
      | .over (.error cause) =>
        (spoken.fire s (.authenticationFailed cause)).refuse c (.handshakeFailed cause.message) := by
  obtain ⟨connection, hConnection, hReachable, -, -⟩ := h.connection
  unfold converseAccepting
  rw [hConnection, Option.map_some, Option.getD_some, hReachable]
  rfl

theorem Conversing.of_sendAll (h : Conversing n c s service) (parcels : List Parcel) :
    Conversing (n.sendAll c parcels) c s service := by
  rw [sendAll_eq]
  exact ⟨h.connection, h.session⟩

theorem hasDecided_of_refused {n' : Node} (h : Refused n n' c) : n'.hasDecided c = true := by
  obtain ⟨connection, cause, hConnection, -, hAcceptance⟩ := h.connection
  simp only [hasDecided, hConnection, Option.bind_some, hAcceptance, Option.isSome_some]

theorem hasDecided_of_opened {n' : Node} {record? : Option PeerRecord}
    (h : Opened n n' c service record?) : n'.hasDecided c = true := by
  obtain ⟨connection, hConnection, hAcceptance, -⟩ := h.connection
  simp only [hasDecided, hConnection, Option.bind_some, hAcceptance, Option.isSome_some]

theorem hasDecided_eq_false {connection : Connection}
    (hConnection : n.connections.find? c = some connection) (h : connection.acceptance = none) :
    n.hasDecided c = false := by
  simp only [hasDecided, hConnection, Option.bind_some, h, Option.isSome_none]

/-- The next frame goes to the dialogue that waits for it. -/
theorem receive_accepting {connection : Connection} {rest : Received → Dialogue Handshake.Result}
    (hConnection : n.connections.find? c = some connection)
    (hStage : connection.stage = .accepting s rest) (frame : Received) :
    n.receive c frame = n.converseAccepting c s (rest frame) := by
  unfold receive
  rw [hConnection]
  simp only [hStage]

theorem converse_refused (h : Conversing n c s service) {d : Dialogue Handshake.Result}
    {cause : HandshakeError} (hOver : (d.advance n.authorizer true).2 = .over (.error cause)) :
    Refused n (n.converseAccepting c s d) c := by
  rw [converseAccepting_eq h]
  simp only [hOver]
  have hSpoken := h.of_sendAll (d.advance n.authorizer true).1
  have hFire : Quiet (n.sendAll c (d.advance n.authorizer true).1)
      ((n.sendAll c (d.advance n.authorizer true).1).fire s (.authenticationFailed cause)) c :=
    quiet_fire fun _ h => nomatch h
  obtain ⟨connection, hConnection, -⟩ := hSpoken.connection
  have hSteady := steady_fire (n.sendAll c (d.advance n.authorizer true).1) s
    (.authenticationFailed cause)
  exact ((quiet_sendAll _).trans hFire).trans_refused
    (refuse_refused (hSteady.connections ▸ hConnection) _)

theorem converse_opened (h : Conversing n c s service) {d : Dialogue Handshake.Result}
    {record? : Option PeerRecord} (hOver : (d.advance n.authorizer true).2 = .over (.ok record?)) :
    Opened n (n.converseAccepting c s d) c service record? := by
  rw [converseAccepting_eq h]
  simp only [hOver]
  have hSpoken := h.of_sendAll (d.advance n.authorizer true).1
  obtain ⟨connection, hConnection, -, -, hPeer⟩ := hSpoken.connection
  have hFind := (n.sendAll c (d.advance n.authorizer true).1).find?_modifyConnection_self c
    fun connection => { connection with acceptance := some (.ok ()) }
  rw [hConnection] at hFind
  exact ((quiet_sendAll _).trans (quiet_modifyConnection _)).trans_opened
    (openConnection_opened hFind hPeer rfl hSpoken.session)

/-- Where the node stands when the dialogue waits for a frame. -/
theorem converse_waiting (h : Conversing n c s service) {d : Dialogue Handshake.Result}
    {rest : Received → Dialogue Handshake.Result}
    (hWaiting : (d.advance n.authorizer true).2 = .waiting rest) :
    Quiet n (n.converseAccepting c s d) c ∧ Conversing (n.converseAccepting c s d) c s service ∧
      ∃ connection, (n.converseAccepting c s d).connections.find? c = some connection ∧
        connection.stage = .accepting s rest ∧ connection.acceptance = none := by
  rw [converseAccepting_eq h]
  simp only [hWaiting]
  have hSpoken := h.of_sendAll (d.advance n.authorizer true).1
  obtain ⟨connection, hConnection, hReachable, hAcceptance, hPeer⟩ := hSpoken.connection
  have hFind := (n.sendAll c (d.advance n.authorizer true).1).find?_modifyConnection_self c
    fun connection => { connection with stage := .accepting s rest }
  rw [hConnection] at hFind
  exact ⟨(quiet_sendAll _).trans (quiet_modifyConnection _),
    ⟨⟨_, hFind, hReachable, hAcceptance, hPeer⟩, hSpoken.session⟩, ⟨_, hFind, rfl, hAcceptance⟩⟩

theorem authorizer_of_quiet {n' : Node} (h : Quiet n n' c) : n'.authorizer = n.authorizer := by
  simp only [authorizer, h.directory]

/-- The node does with the frames what the accepting side does with them. -/
theorem converse_feed (h : Conversing n c s service) (d : Dialogue Handshake.Result)
    (frames : List Received) :
    match d.outcome n.authorizer frames with
    | none => Waiting n ((n.converseAccepting c s d).feed c frames) c s
    | some (.error _) => Refused n ((n.converseAccepting c s d).feed c frames) c
    | some (.ok record?) =>
      Opened n ((n.converseAccepting c s d).feed c frames) c service record? := by
  induction frames generalizing n d with
  | nil =>
    unfold Dialogue.outcome
    cases hPause : (d.advance n.authorizer true).2 with
    | «over» result =>
      cases result with
      | error cause => exact converse_refused h hPause
      | ok record? => exact converse_opened h hPause
    | waiting rest =>
      obtain ⟨hQuiet, -, connection, hConnection, hStage, -⟩ := converse_waiting h hPause
      exact ⟨hQuiet, connection, rest, hConnection, hStage⟩
  | cons frame frames ih =>
    unfold Dialogue.outcome
    cases hPause : (d.advance n.authorizer true).2 with
    | «over» result =>
      cases result with
      | error cause =>
        have hRefused := converse_refused h hPause
        dsimp only
        rw [feed_of_hasDecided (hasDecided_of_refused hRefused)]
        exact hRefused
      | ok record? =>
        have hOpened := converse_opened h hPause
        dsimp only
        rw [feed_of_hasDecided (hasDecided_of_opened hOpened)]
        exact hOpened
    | waiting rest =>
      obtain ⟨hQuiet, hConversing, connection, hConnection, hStage, hAcceptance⟩ :=
        converse_waiting h hPause
      have hRest := ih hConversing (rest frame)
      rw [authorizer_of_quiet hQuiet] at hRest
      rw [feed_cons (hasDecided_eq_false hConnection hAcceptance),
        receive_accepting hConnection hStage]
      dsimp only
      split at hRest
      · exact ⟨hQuiet.trans hRest.quiet, hRest.connection⟩
      · exact hQuiet.trans_refused hRest
      · exact hQuiet.trans_opened hRest

end Conversations

/-! ## Whom the node lets in -/

/-- These frames name a service, issue a challenge and prove what the mode of the service asks
for. -/
def Entitled (n : Node) (issued : Challenge) (frames : List Received) (service : Service)
    (record? : Option PeerRecord) : Prop :=
  ∃ (id : ServiceId) (challenge : Challenge) (more : List Received),
    frames = .ok (Serial.encode id) :: .ok (Serial.encode challenge) :: more ∧
    n.services.find? id = some service ∧
    Handshake.Proves n.credentials n.authorizer service.mode id issued record? more

section Admission

variable {n : Node} {c : ConnectionId} {issued : Challenge}

theorem accept_quiet (n : Node) (c : ConnectionId) (issued : Challenge) :
    Quiet n (n.accept ⟨c, issued, true⟩) c where
  connections c' hc' := SortedMap.find?_insert_of_ne hc' n.connections _
  roster := rfl
  effects := by
    refine ⟨_, List.append_assoc .., fun s view hMem => ?_⟩
    simp only [List.singleton_append, List.mem_cons, List.not_mem_nil, or_false] at hMem
    rcases hMem with hMem | hMem <;> exact nomatch hMem
  directory := rfl
  credentials := rfl
  services := rfl

theorem accept_connection (n : Node) (c : ConnectionId) (issued : Challenge) :
    (n.accept ⟨c, issued, true⟩).connections.find? c =
      some (.create ⟨c, issued, true⟩ (.naming issued)) :=
  SortedMap.find?_insert_self n.connections c _

/-- Once a decision was made the time limit is of no effect. -/
theorem expire_of_refused {n' : Node} (h : Refused n n' c) : n'.expire c = n' := by
  obtain ⟨connection, cause, hConnection, hStage, -⟩ := h.connection
  unfold expire
  rw [hConnection, Option.map_some, hStage]

theorem expire_of_opened {n' : Node} {service : Service} {record? : Option PeerRecord}
    (h : Opened n n' c service record?) : n'.expire c = n' := by
  obtain ⟨connection, hConnection, -, -, -, hStage⟩ := h.connection
  unfold expire
  rw [hConnection, Option.map_some, hStage]
  cases service.behaviour.closesAtOnce <;> rfl

theorem expire_of_waiting {n' : Node} {s : SessionId} (h : Waiting n n' c s) :
    Refused n (n'.expire c) c := by
  obtain ⟨connection, rest, hConnection, hStage⟩ := h.connection
  unfold expire
  rw [hConnection, Option.map_some, hStage]
  exact h.quiet.trans_refused (refuse_refused hConnection _)

theorem hasDecided_accept (n : Node) (c : ConnectionId) (issued : Challenge) :
    (n.accept ⟨c, issued, true⟩).hasDecided c = false := by
  simp only [hasDecided, accept_connection, Option.bind_some]
  rfl

theorem receive_accept (n : Node) (c : ConnectionId) (issued : Challenge) (frame : Received) :
    (n.accept ⟨c, issued, true⟩).receive c frame =
      (n.accept ⟨c, issued, true⟩).nameService c issued frame := by
  unfold receive
  rw [accept_connection]
  rfl

/-- The node after somebody named one of its services: there is a session for it. -/
def named (n : Node) (c : ConnectionId) (issued : Challenge) (service : Service) : Node :=
  ((n.accept ⟨c, issued, true⟩).newSession
    (.create service.address service.mode false service.behaviour)).2

theorem named_quiet (n : Node) (c : ConnectionId) (issued : Challenge) (service : Service) :
    Quiet n (n.named c issued service) c :=
  (accept_quiet n c issued).trans ⟨fun _ _ => rfl, rfl, (Quiet.refl _ c).effects, rfl, rfl, rfl⟩

theorem named_conversing (n : Node) (c : ConnectionId) (issued : Challenge) (service : Service) :
    Conversing (n.named c issued service) c n.nextSession service where
  connection := ⟨_, accept_connection n c issued, rfl, rfl, rfl⟩
  session := SortedMap.find?_insert_self n.sessions n.nextSession _

theorem nameService_of_listed {id : ServiceId} {service : Service}
    (h : n.services.find? id = some service) :
    (n.accept ⟨c, issued, true⟩).nameService c issued (.ok (Serial.encode id)) =
      (n.named c issued service).converseAccepting c n.nextSession
        (Handshake.accepting n.credentials service.mode id issued).run := by
  unfold nameService
  rw [Frame.decode_serviceId_eq_ok_iff.mpr rfl]
  have hServices : (n.accept ⟨c, issued, true⟩).services.find? id = some service := h
  simp only [hServices]
  rfl

/-- A first frame that names no service of the node is refused. -/
theorem nameService_refused {frame : Received}
    (h : ¬∃ id service, frame = .ok (Serial.encode id) ∧ n.services.find? id = some service) :
    Refused n ((n.accept ⟨c, issued, true⟩).nameService c issued frame) c := by
  have hConnection := accept_connection n c issued
  unfold nameService
  split
  · exact (accept_quiet n c issued).trans_refused (refuse_refused hConnection _)
  next id hDecode =>
    split
    · exact (accept_quiet n c issued).trans_refused (refuse_refused hConnection _)
    next service hService =>
      exact absurd ⟨id, service, Frame.decode_serviceId_eq_ok_iff.mp hDecode, hService⟩ h

/-- Being entitled is what makes the accepting side succeed. -/
theorem entitled_iff_outcome {id : ServiceId} {service service' : Service} {frames : List Received}
    {record? : Option PeerRecord} (hService : n.services.find? id = some service) :
    n.Entitled issued (.ok (Serial.encode id) :: frames) service' record? ↔
      service' = service ∧
        (Handshake.accepting n.credentials service.mode id issued).run.outcome n.authorizer frames =
          some (.ok record?) := by
  rw [Handshake.outcome_accepting]
  constructor
  · rintro ⟨id', challenge, more, hFrames, hService', hProves⟩
    obtain ⟨hId, rfl⟩ := List.cons.inj hFrames
    obtain rfl := ServiceId.encode_inj (Except.ok.inj hId)
    obtain rfl := Option.some.inj (hService.symm.trans hService')
    exact ⟨rfl, challenge, more, rfl, hProves⟩
  · rintro ⟨rfl, challenge, more, rfl, hProves⟩
    exact ⟨id, challenge, more, rfl, hService, hProves⟩

theorem Entitled.listed {frame : Received} {frames : List Received} {service : Service}
    {record? : Option PeerRecord} (h : n.Entitled issued (frame :: frames) service record?) :
    ∃ id service, frame = .ok (Serial.encode id) ∧ n.services.find? id = some service := by
  obtain ⟨id, challenge, more, hFrames, hService, -⟩ := h
  exact ⟨id, service, (List.cons.inj hFrames).1, hService⟩

theorem welcome_nil (n : Node) (c : ConnectionId) (issued : Challenge) :
    Refused n (n.welcome c issued []) c := by
  have hConnection := accept_connection n c issued
  unfold welcome expire feed
  rw [List.foldl_nil, hConnection]
  exact (accept_quiet n c issued).trans_refused (refuse_refused hConnection _)

theorem welcome_cons (n : Node) (c : ConnectionId) (issued : Challenge) (frame : Received)
    (frames : List Received) :
    n.welcome c issued (frame :: frames) =
      (((n.accept ⟨c, issued, true⟩).nameService c issued frame).feed c frames).expire c := by
  unfold welcome
  rw [feed_cons (hasDecided_accept n c issued), receive_accept]

theorem welcome_unlisted {frame : Received}
    (h : ¬∃ id service, frame = .ok (Serial.encode id) ∧ n.services.find? id = some service)
    (frames : List Received) : Refused n (n.welcome c issued (frame :: frames)) c := by
  have hRefused : Refused n ((n.accept ⟨c, issued, true⟩).nameService c issued frame) c :=
    nameService_refused h
  rw [welcome_cons, feed_of_hasDecided (hasDecided_of_refused hRefused),
    expire_of_refused hRefused]
  exact hRefused

/-- When a service was named the outcome of the accepting side decides. -/
theorem welcome_listed {id : ServiceId} {service : Service}
    (hService : n.services.find? id = some service) (frames : List Received) :
    (∀ service' record?, n.Entitled issued (.ok (Serial.encode id) :: frames) service' record? →
      Opened n (n.welcome c issued (.ok (Serial.encode id) :: frames)) c service' record?) ∧
    ((¬∃ service' record?, n.Entitled issued (.ok (Serial.encode id) :: frames) service' record?) →
      Refused n (n.welcome c issued (.ok (Serial.encode id) :: frames)) c) := by
  have hQuiet := named_quiet n c issued service
  have hFeed := converse_feed (named_conversing n c issued service)
    (Handshake.accepting n.credentials service.mode id issued).run frames
  rw [authorizer_of_quiet hQuiet] at hFeed
  rw [welcome_cons, nameService_of_listed hService]
  simp only [entitled_iff_outcome hService]
  split at hFeed
  next hOutcome =>
    refine ⟨fun _ _ h => (nomatch hOutcome.symm.trans h.2), fun _ => ?_⟩
    exact hQuiet.trans_refused (expire_of_waiting hFeed)
  next hOutcome =>
    refine ⟨fun _ _ h => (nomatch hOutcome.symm.trans h.2), fun _ => ?_⟩
    rw [expire_of_refused hFeed]
    exact hQuiet.trans_refused hFeed
  next record? hOutcome =>
    rw [expire_of_opened hFeed]
    refine ⟨fun service' record?' h => ?_, fun h => ?_⟩
    · obtain ⟨rfl, hOther⟩ := h
      obtain rfl := Except.ok.inj (Option.some.inj (hOutcome.symm.trans hOther))
      exact hQuiet.trans_opened hFeed
    · exact absurd ⟨service, record?, rfl, hOutcome⟩ h

/-- The node lets in whoever is entitled to it, and refuses everybody else. -/
theorem welcome_spec (n : Node) (c : ConnectionId) (issued : Challenge) (frames : List Received) :
    (∀ service record?, n.Entitled issued frames service record? →
      Opened n (n.welcome c issued frames) c service record?) ∧
    ((¬∃ service record?, n.Entitled issued frames service record?) →
      Refused n (n.welcome c issued frames) c) := by
  cases frames with
  | nil =>
    refine ⟨fun service record? h => ?_, fun _ => welcome_nil n c issued⟩
    obtain ⟨_, _, _, hFrames, -⟩ := h
    exact nomatch hFrames
  | cons frame frames =>
    by_cases hNamed : ∃ id service, frame = .ok (Serial.encode id) ∧
        n.services.find? id = some service
    · obtain ⟨id, service, rfl, hService⟩ := hNamed
      exact welcome_listed hService frames
    · exact ⟨fun _ _ h => absurd h.listed hNamed, fun _ => welcome_unlisted hNamed frames⟩

/-- The open connections are the live ones. -/
theorem mem_live_iff : c ∈ n.live ↔ n.isOpen c = true := by
  unfold live isOpen
  rw [List.mem_map]
  constructor
  · rintro ⟨⟨c, connection⟩, hMem, rfl⟩
    obtain ⟨hMem, hOpen⟩ := List.mem_filter.mp hMem
    rw [SortedMap.mem_toList_iff.mp hMem]
    exact hOpen
  · intro hOpen
    cases hConnection : n.connections.find? c with
    | none =>
      rw [hConnection] at hOpen
      exact nomatch hOpen
    | some connection =>
      rw [hConnection] at hOpen
      exact ⟨(c, connection),
        List.mem_filter.mpr ⟨SortedMap.mem_toList_iff.mpr hConnection, hOpen⟩, rfl⟩

/-- A refusal adds no live connection. -/
theorem Refused.live_subset {n' : Node} (h : Refused n n' c) {c' : ConnectionId}
    (hLive : c' ∈ n'.live) : c' ∈ n.live := by
  rw [mem_live_iff] at hLive ⊢
  by_cases hc : c' = c
  · subst hc
    obtain ⟨connection, cause, hConnection, hStage, -⟩ := h.connection
    unfold isOpen Connection.isOpen at hLive
    rw [hConnection, Option.map_some, hStage] at hLive
    exact nomatch hLive
  · unfold isOpen at hLive ⊢
    rw [h.quiet.connections c' hc] at hLive
    exact hLive

/-- A connection is let in if and only if it is entitled to that. Whoever is let in is known by the
record that its frames prove and by the address of that record. Anybody else opens nothing, and no
session is told to be connected. -/
theorem welcome_iff (n : Node) (c : ConnectionId) (issued : Challenge) (frames : List Received) :
    ((∃ connection, (n.welcome c issued frames).connections.find? c = some connection ∧
        connection.acceptance = some (.ok ())) ↔
      ∃ service record?, n.Entitled issued frames service record?) ∧
    (∀ service record?, n.Entitled issued frames service record? →
      Opened n (n.welcome c issued frames) c service record?) ∧
    ((¬∃ service record?, n.Entitled issued frames service record?) →
      Refused n (n.welcome c issued frames) c ∧
        ∀ c' ∈ (n.welcome c issued frames).live, c' ∈ n.live) := by
  obtain ⟨hOpened, hRefused⟩ := n.welcome_spec c issued frames
  refine ⟨⟨fun hAccepted => ?_, fun hEntitled => ?_⟩, hOpened, fun h =>
    ⟨hRefused h, fun _ => (hRefused h).live_subset⟩⟩
  · refine Classical.byContradiction fun hNot => ?_
    obtain ⟨connection, cause, hConnection, -, hAcceptance⟩ := (hRefused hNot).connection
    obtain ⟨connection', hConnection', hAcceptance'⟩ := hAccepted
    obtain rfl := Option.some.inj (hConnection.symm.trans hConnection')
    exact nomatch hAcceptance.symm.trans hAcceptance'
  · obtain ⟨service, record?, hEntitled⟩ := hEntitled
    obtain ⟨connection, hConnection, hAcceptance, -⟩ := (hOpened service record? hEntitled).connection
    exact ⟨connection, hConnection, hAcceptance⟩

end Admission

end Node

/-! ## A client that comes itself -/

namespace Handshake.Relay

variable (r : Relay)

/-- The service that the host grants to the client. -/
def granted : Service where
  address := ⟨r.service, r.host.address⟩
  mode := .restricted
  descriptor := none
  behaviour := .application [] false

/-- What the host knows of the client when it has granted the service. -/
def grantedRecord : PeerRecord := r.record.grant [r.service] []

/-- The host. -/
def hostNode : Node :=
  { (Node.create r.host).activate r.granted with
    directory := (Directory.empty.add r.grantedRecord).1 }

/-- The frames of the client. -/
def clientFrames : List Received :=
  [.ok (Serial.encode r.service), .ok (Serial.encode r.counter), .ok (Parcel.proof r.proof).body]

variable {r}

theorem hostNode_authorizes :
    r.hostNode.authorizer.authorized r.proof.signer r.service = some r.grantedRecord := by
  have hFind : r.hostNode.directory.find? r.proof.signer = some r.grantedRecord :=
    Directory.find?_store .empty r.grantedRecord
  have hGranted : r.grantedRecord.granted r.service = true := by
    simp [grantedRecord, PeerRecord.granted, PeerRecord.grant, GrantSet.ofLists, GrantSet.grants,
      SortedSet.ofList, SortedSet.insert, SortedSet.insertList, SortedSet.empty]
  change (r.hostNode.directory.find? _).filter _ = _
  rw [hFind, Option.filter_some, hGranted, Bool.or_true, if_pos rfl]

theorem hostNode_entitles (hVerify : r.proof.verify = true) :
    r.hostNode.Entitled r.issued r.clientFrames r.granted (some r.grantedRecord) := by
  have hService : r.hostNode.services.find? r.service = some r.granted := by
    change (SortedMap.empty.insert r.service r.granted).find? r.service = _
    rw [SortedMap.find?_insert, if_pos Std.ReflCmp.compare_self]
  obtain ⟨body, hBody, hDecode⟩ :=
    Frame.decode_eq_ok_iff.mp (Frame.decode_proof r.client.keypair r.issued)
  exact ⟨r.service, r.counter, [.ok body], by rw [← hBody]; rfl, hService, body, [], r.proof,
    r.grantedRecord, rfl, hDecode, rfl, hVerify, hostNode_authorizes, rfl⟩

/-- The client of the sample relay is let in when it comes itself. -/
theorem sample_admitted :
    sample.hostNode.Entitled sample.issued sample.clientFrames sample.granted
        (some sample.grantedRecord) ∧
      Node.Opened sample.hostNode (sample.hostNode.welcome 0 sample.issued sample.clientFrames) 0
        sample.granted (some sample.grantedRecord) :=
  ⟨hostNode_entitles sample_proofs.1,
    (Node.welcome_iff sample.hostNode 0 sample.issued sample.clientFrames).2.1 _ _
      (hostNode_entitles sample_proofs.1)⟩

end Handshake.Relay

end PeerServices
