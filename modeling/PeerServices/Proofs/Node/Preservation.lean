import PeerServices.Proofs.Node.Telling

/-!
# Every step keeps a node sound

One lemma for each thing that a node does, from the smallest up to what it makes of an event, in the
order in which they are built from each other.
-/

namespace PeerServices

/-- Does an effect neither tell a session anything nor let a call go on? -/
def Effect.isPlain : Effect → Bool
  | .hook .. | .later (.proceed _) => false
  | _ => true

namespace Node

variable {n : Node}

theorem goes_plain (n : Node) {e : Effect} (h : e.isPlain = true) : Goes n (n.emit e) := by
  apply goes_emit
  intro _
  constructor
  · rintro s hook rfl
    cases h
  · rintro k rfl
    cases h

/-- What may become of a connection that stays where it is. -/
theorem goes_sameStage {c : ConnectionId} {f : Connection → Connection}
    (hStage : ∀ old, (f old).stage = old.stage) (hSession : ∀ old, (f old).session = old.session)
    (hPeer : ∀ old, n.connections.find? c = some old → old.isSettled = true →
      (f old).peer = old.peer)
    (hOutstanding : ∀ old, n.connections.find? c = some old → old.outstanding.isSome = true →
      (f old).outstanding.isSome = true) :
    Goes n (n.modifyConnection c f) := by
  apply goes_modifyConnection
  intro hSound old hOld
  have hOpen : (f old).isOpen = old.isOpen := by
    unfold Connection.isOpen
    rw [hStage]
  have hSettled : (f old).isSettled = old.isSettled := by
    unfold Connection.isSettled
    rw [hStage]
  constructor
  · intro s k rest hConnecting
    rw [hStage] at hConnecting
    exact hSound.linked.connecting c old s k rest hOld hConnecting
  · intro s rest hAccepting
    rw [hStage] at hAccepting
    exact hSound.linked.accepting c old s rest hOld hAccepting
  · intro hWas
    rw [hSettled, hOpen]
    exact ⟨hWas, fun hIsOpen => ⟨hIsOpen, hPeer old hOld hWas⟩⟩
  · intro s hSome
    rwa [hSession] at hSome
  · intro hIsOpen
    rw [hOpen] at hIsOpen
    exact hOutstanding old hOld (hSound.linked.outstanding c old hOld hIsOpen)

/-- A connection can always be closed. -/
theorem goes_close {c : ConnectionId} {f : Connection → Connection}
    (hStage : ∀ old, (f old).stage = .closed)
    (hSession : ∀ old s, (f old).session = some s → old.session = some s) :
    Goes n (n.modifyConnection c f) := by
  apply goes_modifyConnection
  intro _ old _
  have hShut : (f old).isOpen = false := by
    unfold Connection.isOpen
    rw [hStage]
  constructor
  · intro s k rest hConnecting
    cases (hStage old).symm.trans hConnecting
  · intro s rest hAccepting
    cases (hStage old).symm.trans hAccepting
  · intro _
    refine ⟨?_, fun hIsOpen => ?_⟩
    · unfold Connection.isSettled
      rw [hStage]
    · cases hShut.symm.trans hIsOpen
  · exact hSession old
  · intro hIsOpen
    cases hShut.symm.trans hIsOpen

theorem goes_sendAll (n : Node) (c : ConnectionId) (parcels : List Parcel) :
    Goes n (n.sendAll c parcels) := goes_foldl (fun n _ => goes_plain n rfl) parcels n

/-! ## Closing -/

theorem goes_abandon (n : Node) (listeners : List (Listener Target)) :
    Goes n (n.abandon listeners) := goes_foldl (fun n k => goes_finish n k _) _ n

theorem finish_sessions (n : Node) (k : CallId) (result : Reply.Result) :
    (n.finish k result).sessions = n.sessions := by
  unfold finish
  split <;> rfl

theorem abandon_sessions (n : Node) (listeners : List (Listener Target)) :
    (n.abandon listeners).sessions = n.sessions := by
  unfold abandon
  generalize listeners.filterMap _ = ks
  induction ks generalizing n with
  | nil => rfl
  | cons k ks ih =>
    rw [List.foldl_cons, ih]
    exact finish_sessions n k _

theorem goes_detach (n : Node) (s : SessionId) (c : ConnectionId) : Goes n (n.detach s c) := by
  apply goes_modifySession
  intro hSound old hOld
  have hWaiters := fun k => hSound.calling.waiting s old k hOld
  split
  · exact ⟨⟨rfl, rfl, rfl⟩, fun _ => nofun, hWaiters⟩
  · exact ⟨.refl old, fun _ h => h, hWaiters⟩

theorem goes_unlink (n : Node) (s : SessionId) : Goes n (n.unlink s) := by
  apply goes_modifySession
  exact fun hSound old hOld =>
    ⟨⟨rfl, rfl, rfl⟩, fun _ => nofun, fun k => hSound.calling.waiting s old k hOld⟩

/-- A session that accepted its one connection has nobody at the other side without it. -/
theorem peerOf?_detach {s : SessionId} {c : ConnectionId} {session : Session}
    (hSession : n.sessions.find? s = some session) (hServing : session.isProxy = false)
    (hOnly : ∀ c', session.current = some c' → c' = c) : (n.detach s c).peerOf? s = none := by
  have hDetached := n.find?_modifySession_self s fun session =>
    if session.current = some c then { session with current := none } else session
  rw [hSession, Option.map_some] at hDetached
  by_cases hCurrent : session.current = some c
  · rw [if_pos hCurrent] at hDetached
    exact peerOf?_of_current hDetached hServing rfl
  · rw [if_neg hCurrent] at hDetached
    apply peerOf?_of_current hDetached hServing
    rw [Option.eq_none_iff_forall_ne_some]
    intro c' hSome
    exact hCurrent (hOnly c' hSome ▸ hSome)

theorem goes_terminate (n : Node) (c : ConnectionId) (reason : Option WireError) :
    Goes n (n.terminate c reason) := by
  unfold terminate
  cases hConnection : n.connections.find? c with
  | none => exact Goes.refl n
  | some connection =>
    dsimp only
    split
    · exact Goes.refl n
    · have hClosed : Goes n (n.modifyConnection c Connection.afterClosing) :=
        goes_close (fun _ => rfl) (fun _ _ => nofun)
      have hAbandoned := hClosed.trans (goes_abandon _ connection.listeners)
      have hSame := abandon_sessions (n.modifyConnection c Connection.afterClosing)
        connection.listeners
      generalize hMiddle : (if connection.reading = true then _ else _ : Node) = middle
      have hMiddleGoes : Goes n middle := by
        subst hMiddle
        split
        · exact hAbandoned.trans (goes_plain _ rfl)
        · exact hAbandoned
      have hSessions : middle.sessions = n.sessions := by
        subst hMiddle
        split <;> exact hSame
      have hStruck : Goes n (middle.strike c) :=
        hMiddleGoes.trans (.of_eq rfl rfl rfl rfl rfl rfl rfl)
      cases hSession : connection.session with
      | none => exact hStruck
      | some s =>
        intro hSound
        have hDetached := hStruck.trans (goes_detach (middle.strike c) s c)
        refine hDetached.trans (goes_fire ?_ fun _ _ => ?_) hSound
        · intro view h
          cases h
        obtain ⟨session, hFind, hOnly⟩ := hSound.linked.attached c connection s hConnection hSession
        rw [← hSessions] at hFind
        cases hProxy : session.isProxy with
        | true => exact .inl (Proxies.mono ⟨session, hFind, hProxy⟩
            ((goes_detach middle s c) (hMiddleGoes hSound).1).2.sessions)
        | false => exact .inr (peerOf?_detach hFind hProxy (hOnly hProxy))

theorem goes_closeSession (n : Node) (s : SessionId) : Goes n (n.closeSession s) := by
  unfold closeSession
  split
  · exact Goes.refl n
  · exact (goes_unlink n s).trans (goes_terminate _ _ _)

theorem goes_closeAll (n : Node) : Goes n n.closeAll := by
  have hDrained : Goes n { n with roster := .empty } := .of_eq rfl rfl rfl rfl rfl rfl rfl
  exact hDrained.trans (goes_foldl (fun n c => goes_terminate n c none) _ _)

theorem goes_stopReading (n : Node) (c : ConnectionId) (reason : WireError) :
    Goes n (n.stopReading c reason) := by
  unfold stopReading
  split
  · exact goes_terminate n c _
  · apply Goes.trans _ (goes_plain _ rfl)
    exact goes_sameStage (fun _ => rfl) (fun _ => rfl) (fun _ _ _ => rfl) fun _ _ h => h

/-! ## Opening -/

theorem view?_peer {s : SessionId} {view : Session.View} (h : n.view? s = some view) :
    view.peer = n.peerOf? s := by
  unfold view? at h
  simp only [Option.bind_eq_bind, Option.bind_eq_some_iff, Option.pure_def, Option.some.injEq] at h
  obtain ⟨session, _, rfl⟩ := h
  rfl

theorem goes_configure (n : Node) (s : SessionId) :
    Goes n ((n.modifySession s fun session => { session with configured := true }).fire s
      .configured) := by
  have hModified : Goes n (n.modifySession s fun session => { session with configured := true }) := by
    apply goes_modifySession
    intro hSound old hOld
    exact ⟨⟨rfl, rfl, rfl⟩, fun _ h => h, fun k => hSound.calling.waiting s old k hOld⟩
  apply hModified.trans
  apply goes_fire
  · intro view h
    cases h
  · intro _ h
    cases h

theorem goes_fireConnected (n : Node) (s : SessionId) : Goes n (n.fireConnected s) := by
  unfold fireConnected
  cases hSession : n.sessions.find? s with
  | none => exact Goes.refl n
  | some session =>
    dsimp only
    generalize hConfigured : (if session.configured = true then n else _ : Node) = configured
    have hFirst : Goes n configured := by
      subst hConfigured
      split
      · exact Goes.refl n
      · exact goes_configure n s
    cases hView : configured.view? s with
    | none =>
      dsimp only
      split
      · exact hFirst.trans (goes_closeSession _ s)
      · exact hFirst
    | some view =>
      have hTold : Goes n (configured.fire s (.connected view)) := by
        apply hFirst.trans
        apply goes_fire
        · intro view' h
          cases h
          exact view?_peer hView
        · intro _ h
          cases h
      dsimp only
      split
      · exact hTold.trans (goes_closeSession _ s)
      · exact hTold

theorem goes_openConnection {c : ConnectionId} {s : SessionId} {connection : Connection}
    (h : n.Joins c s connection) (record? : Option PeerRecord) :
    Goes n (n.openConnection c s record?) := by
  rw [openConnection_eq]
  apply Goes.trans _ (goes_plain _ rfl)
  apply (goes_attach h record?).trans
  apply (goes_fireConnected _ s).trans
  exact goes_sameStage (fun _ => rfl) (fun _ => rfl) (fun _ _ _ => rfl) fun _ _ h => h

/-! ## Messages -/

theorem goes_expect {c : ConnectionId} (outstanding : Connection → Outstanding Target) :
    Goes n (n.modifyConnection c fun connection =>
      { connection with outstanding := some (outstanding connection) }) :=
  goes_sameStage (fun _ => rfl) (fun _ => rfl) (fun _ _ _ => rfl) fun _ _ _ => rfl

theorem goes_sendRequest (n : Node) (c : ConnectionId) (m : Message)
    (listeners : List (Listener Target)) : Goes n (n.sendRequest c m listeners).2 := by
  unfold sendRequest
  split
  · exact Goes.refl n
  · split
    · exact Goes.refl n
    · exact Goes.refl n
    · exact (goes_expect _).trans (goes_plain _ rfl)

theorem goes_forget (n : Node) (c : ConnectionId) (uid : Int64) : Goes n (n.forget c uid).2 := by
  unfold forget
  split
  · exact Goes.refl n
  · exact (goes_expect _).trans (goes_abandon _ _)

theorem goes_respond (n : Node) (c : ConnectionId) (m : Message) : Goes n (n.respond c m) := by
  unfold respond
  split
  · exact Goes.refl n
  · split
    · exact goes_plain n rfl
    · exact Goes.refl n

theorem goes_takeResponse (n : Node) (c : ConnectionId) (m : Message) :
    Goes n (n.takeResponse c m) := by
  unfold takeResponse
  split
  · exact Goes.refl n
  · dsimp only
    split
    · exact (goes_expect _).trans (goes_plain _ rfl)
    · exact (goes_expect _).trans (goes_abandon _ _)

/-! ## Calls -/

theorem goes_newCall (n : Node) (s : SessionId) (timeout : Duration) (message : Message → Message)
    (code : UInt8) (listeners : CallId → List (Listener Target)) (resolved : Option Reply.Result) :
    Goes n (n.newCall s timeout message code listeners resolved).2 := by
  apply goes_calls (Nat.le_succ n.nextCall)
  intro hSound k call hFind
  rcases SortedMap.find?_insert_eq_some hFind with ⟨rfl, rfl⟩ | ⟨_, hFind⟩
  · exact ⟨Nat.lt_succ_self _, fun _ => nofun, .inr (Nat.le_refl _)⟩
  · exact ⟨Nat.lt_succ_of_lt (hSound.numbered.call k call hFind),
      fun attempts socket => hSound.calling.dialling k call attempts socket hFind,
      .inl ⟨call, hFind, rfl⟩⟩

theorem goes_skipCall (n : Node) : Goes n { n with nextCall := n.nextCall + 1 } := by
  apply goes_calls (Nat.le_succ n.nextCall)
  intro hSound k call hFind
  exact ⟨Nat.lt_succ_of_lt (hSound.numbered.call k call hFind),
    fun attempts socket => hSound.calling.dialling k call attempts socket hFind,
    .inl ⟨call, hFind, rfl⟩⟩

theorem goes_request (n : Node) (s : SessionId) (timeout : Duration) (code : UInt8)
    (payload : Bytes) (forms : List (UInt8 × Reply.Form)) (resolved : Option Reply.Result) :
    Goes n (n.request s timeout code payload forms resolved).2 := by
  have hMade := goes_newCall n s timeout (·.write payload) code
    (fun k => forms.map fun f => ⟨f.1, .reply k f.2⟩) resolved
  exact hMade.trans (goes_plain _ rfl)

theorem goes_lapse (n : Node) (k : CallId) (cause : Call → ServiceError) :
    Goes n (n.lapse k cause) := by
  unfold lapse
  split
  · exact Goes.refl n
  · split
    · exact (goes_finish n k _).trans (goes_forget _ _ _)
    · exact Goes.refl n

theorem goes_transmit (n : Node) (k : CallId) (c : ConnectionId) : Goes n (n.transmit k c) := by
  unfold transmit
  cases hCall : n.calls.find? k with
  | none => exact Goes.refl n
  | some call =>
    have hSent := goes_sendRequest n c call.message call.listeners
    dsimp only
    generalize n.sendRequest c call.message call.listeners = sent at hSent ⊢
    obtain ⟨result, n'⟩ := sent
    cases result with
    | error e => exact hSent.trans (goes_finish n' k _)
    | ok done =>
      dsimp only
      split
      · exact hSent.trans (goes_finish n' k _)
      · split
        · exact hSent.trans (goes_finish n' k _)
        · have hWaiting : Goes n' (n'.modifyCall k fun call => { call with stage := .waiting c }) :=
            goes_modifyCall fun _ _ _ => ⟨rfl, fun _ => nofun⟩
          split
          · exact (hSent.trans hWaiting).trans (goes_lapse _ k _)
          · exact (hSent.trans hWaiting).trans (goes_plain _ rfl)

theorem goes_release (n : Node) (s : SessionId) : Goes n (n.release s) := by
  unfold release
  cases hSession : n.sessions.find? s with
  | none => exact Goes.refl n
  | some session =>
    have hNext : Goes n (n.modifySession s fun session =>
        { session with connecting := session.waiters.head?, waiters := session.waiters.tail }) := by
      apply goes_modifySession
      intro hSound old hOld
      refine ⟨⟨rfl, rfl, rfl⟩, fun _ h => h, fun k hMem => ?_⟩
      exact hSound.calling.waiting s old k hOld (List.mem_of_mem_tail hMem)
    dsimp only
    cases hHead : session.waiters.head? with
    | none => exact hNext
    | some k =>
      apply hNext.next
      intro hSound _ hChanges
      apply goes_emit
      intro _
      refine ⟨fun _ _ => nofun, fun k' hEq => ?_⟩
      cases hEq
      obtain ⟨hMade, hCall⟩ := hSound.calling.waiting s session k hSession (List.mem_of_head? hHead)
      exact ⟨hMade, fun call hFind => (hCall call hFind).mono hChanges.sessions⟩

theorem goes_failToConnect {s : SessionId} (h : n.Proxies s) (k : CallId) (cause : ServiceError) :
    Goes n (n.failToConnect s k cause) := by
  have hTold : Goes n (n.fire s (.connectionFailed cause)) := by
    apply goes_fire
    · intro view hEq
      cases hEq
    · exact fun _ _ => .inl h
  exact (hTold.trans (goes_finish _ k _)).trans (goes_release _ s)

theorem goes_dialAt {s : SessionId} {k : CallId} (h : n.Proxies s)
    (hCall : ∀ call, n.calls.find? k = some call → n.Proxies call.session) (host : PeerAddress)
    (socket : SocketAddress) (attempts : Nat) : Goes n (n.dialAt s k host socket attempts) := by
  unfold dialAt
  split
  · exact goes_failToConnect h k _
  · have hDialling : Goes n (n.modifyCall k fun call =>
        { call with stage := .dialling attempts socket }) :=
      goes_modifyCall fun _ call hFind => ⟨rfl, fun _ _ _ => hCall call hFind⟩
    exact hDialling.trans (goes_plain _ rfl)

theorem goes_dial {s : SessionId} {k : CallId} (h : n.Proxies s)
    (hCall : ∀ call, n.calls.find? k = some call → n.Proxies call.session) (host : PeerAddress) :
    Goes n (n.dial s k host) := by
  unfold dial
  split
  · exact goes_failToConnect h k _
  · exact goes_dialAt h hCall host _ 0

theorem goes_connect {s : SessionId} {k : CallId} (h : n.Proxies s)
    (hCall : ∀ call, n.calls.find? k = some call → n.Proxies call.session) (host : PeerAddress) :
    Goes n (n.connect s k host) := by
  unfold connect
  split
  · exact (goes_release n s).trans (goes_transmit _ k _)
  · split
    · exact goes_dial h hCall host
    · exact goes_failToConnect h k _

theorem goes_begin (n : Node) (k : CallId) : Goes n (n.begin k) := by
  unfold begin
  cases hCall : n.calls.find? k with
  | none => exact Goes.refl n
  | some call =>
    dsimp only
    split
    · exact goes_transmit n k _
    · exact Goes.refl n
    · next session hOpen hSession =>
      split
      · exact goes_finish n k _
      · next hProxy =>
        have hProxies : n.Proxies call.session := ⟨session, hSession, by simpa using hProxy⟩
        have hOnly : ∀ call', n.calls.find? k = some call' → n.Proxies call'.session := by
          intro call' hCall'
          obtain rfl := Option.some.inj (hCall.symm.trans hCall')
          exact hProxies
        split
        · apply goes_modifySession
          intro hSound old hOld
          refine ⟨⟨rfl, rfl, rfl⟩, fun _ h => h, fun k' hMem => ?_⟩
          rcases List.mem_append.mp hMem with hMem | hMem
          · exact hSound.calling.waiting call.session old k' hOld hMem
          · obtain rfl := List.mem_singleton.mp hMem
            exact ⟨hSound.numbered.call k' call hCall, hOnly⟩
        · have hConnecting : Goes n (n.modifySession call.session fun session =>
              { session with connecting := some k }) := by
            apply goes_modifySession
            intro hSound old hOld
            exact ⟨⟨rfl, rfl, rfl⟩, fun _ h => h,
              fun k' => hSound.calling.waiting call.session old k' hOld⟩
          apply hConnecting.next
          intro _ _ hChanges
          exact goes_connect (hProxies.mono hChanges.sessions)
            (fun call' hCall' => (hOnly call' hCall').mono hChanges.sessions) _

theorem goes_proceed {k : CallId} (h : n.Cleared k) : Goes n (n.proceed k) := by
  unfold proceed
  cases hCall : n.calls.find? k with
  | none => exact Goes.refl n
  | some call =>
    dsimp only
    split
    · exact Goes.refl n
    · exact goes_connect (h.2 call hCall) h.2 _

/-! ## Reaching a host -/

theorem goes_refuse (n : Node) (c : ConnectionId) (cause : WireError) :
    Goes n (n.refuse c cause) := by
  apply Goes.trans _ (goes_plain _ rfl)
  exact goes_close (fun _ => rfl) fun _ _ h => h

section Conversing

variable {c : ConnectionId} {s : SessionId} {connection : Connection}

/-- A handshake waits for its next frame. -/
theorem goes_wait {stage : Connection.Stage} (hConnection : n.connections.find? c = some connection)
    (hUnsettled : connection.isSettled = false)
    (hConnecting : ∀ s k rest, stage = .connecting s k rest → n.Proxies s)
    (hAccepting : ∀ s rest, stage = .accepting s rest → n.Reserved c s)
    (hShut : ({ connection with stage } : Connection).isOpen = false) :
    Goes n (n.modifyConnection c fun connection => { connection with stage }) := by
  apply goes_modifyConnection
  intro _ old hOld
  obtain rfl := Option.some.inj (hOld.symm.trans hConnection)
  refine ⟨hConnecting, hAccepting, fun hSettled => ?_, fun _ h => h, fun hOpen => ?_⟩
  · cases hSettled.symm.trans hUnsettled
  · cases hShut.symm.trans hOpen

/-- The side that connects knows who the other side is before the connection is opened. -/
theorem goes_nameHost (hConnection : n.connections.find? c = some connection)
    (hUnsettled : connection.isSettled = false) (host? : Option PeerAddress) :
    Goes n (n.modifyConnection c fun connection => { connection with peer := host? }) := by
  refine goes_sameStage (fun _ => rfl) (fun _ => rfl) ?_ fun _ _ h => h
  intro old hOld hSettled
  obtain rfl := Option.some.inj (hOld.symm.trans hConnection)
  cases hSettled.symm.trans hUnsettled

theorem goes_opensConnecting (hConnection : n.connections.find? c = some connection)
    (hUnsettled : connection.isSettled = false) (hProxies : n.Proxies s) (k : CallId)
    (host? : Option PeerAddress) (record? : Option PeerRecord) :
    Goes n ((((n.modifyConnection c fun connection =>
      { connection with peer := host? }).openConnection c s record?).release s).transmit k c) := by
  have hFound := (n.find?_modifyConnection_self c fun connection =>
    { connection with peer := host? }).trans (congrArg (Option.map _) hConnection)
  have hOpened := (goes_nameHost hConnection hUnsettled host?).trans
    (goes_openConnection ⟨hFound, hUnsettled, .inl hProxies⟩ record?)
  exact (hOpened.trans (goes_release _ s)).trans (goes_transmit _ k c)

theorem goes_failsConnecting (hProxies : n.Proxies s) (k : CallId) (cause : HandshakeError)
    (result : Reply.Result) :
    Goes n (((((n.modifyConnection c fun connection => { connection with stage := .closed }).fire s
      (.authenticationFailed cause)).emit (.hangUp c)).finish k result).release s) := by
  have hClosed : Goes n (n.modifyConnection c fun connection =>
      { connection with stage := .closed }) :=
    goes_close (fun _ => rfl) fun _ _ h => h
  have hTold := goes_fire
    (n := n.modifyConnection c fun connection => { connection with stage := .closed }) (s := s)
    (h := .authenticationFailed cause) (fun _ => nofun) fun _ _ => .inl hProxies
  have hHungUp := (hClosed.trans hTold).trans (goes_plain _ (e := .hangUp c) rfl)
  exact (hHungUp.trans (goes_finish _ k _)).trans (goes_release _ s)

theorem goes_converseConnecting (hConnection : n.connections.find? c = some connection)
    (hUnsettled : connection.isSettled = false) (hProxies : n.Proxies s) (k : CallId)
    (dialogue : Dialogue Handshake.Result) : Goes n (n.converseConnecting c s k dialogue) := by
  unfold converseConnecting
  dsimp only
  generalize dialogue.advance n.authorizer _ = progress
  obtain ⟨sent, pause⟩ := progress
  apply (goes_sendAll n c sent).trans
  have hFind : (n.sendAll c sent).connections.find? c = some connection := by
    rw [sendAll_eq]
    exact hConnection
  have hSession : (n.sendAll c sent).Proxies s := by
    rw [sendAll_eq]
    exact hProxies
  cases pause with
  | waiting rest =>
    refine goes_wait hFind hUnsettled ?_ (fun _ _ => nofun) rfl
    intro s' k' rest' hStage
    cases hStage
    exact hSession
  | «over» result =>
    cases result with
    | ok record? => exact goes_opensConnecting hFind hUnsettled hSession k _ record?
    | error cause => exact goes_failsConnecting hSession k cause _

theorem goes_opensAccepting (hConnection : n.connections.find? c = some connection)
    (hUnsettled : connection.isSettled = false) (hReserved : n.Reserved c s)
    (record? : Option PeerRecord) :
    Goes n ((n.modifyConnection c fun connection =>
      { connection with acceptance := some (.ok ()) }).openConnection c s record?) := by
  have hAccepted : Goes n (n.modifyConnection c fun connection =>
      { connection with acceptance := some (.ok ()) }) :=
    goes_sameStage (fun _ => rfl) (fun _ => rfl) (fun _ _ _ => rfl) fun _ _ h => h
  have hFound := (n.find?_modifyConnection_self c fun connection =>
    { connection with acceptance := some (.ok ()) }).trans (congrArg (Option.map _) hConnection)
  have hStill : (n.modifyConnection c fun connection =>
      { connection with acceptance := some (.ok ()) }).Reserved c s :=
    hReserved.modifyConnection (fun _ _ _ h => h) fun _ _ _ _ => rfl
  exact hAccepted.trans (goes_openConnection ⟨hFound, hUnsettled, .inr hStill⟩ record?)

/-- The session of a connection that is accepted either waits for it, or is connected by it. -/
theorem goes_converseAccepting (hConnection : n.connections.find? c = some connection)
    (hUnsettled : connection.isSettled = false) (hReserved : n.Reserved c s)
    (dialogue : Dialogue Handshake.Result) : Goes n (n.converseAccepting c s dialogue) := by
  unfold converseAccepting
  dsimp only
  generalize dialogue.advance n.authorizer _ = progress
  obtain ⟨sent, pause⟩ := progress
  apply (goes_sendAll n c sent).trans
  have hFind : (n.sendAll c sent).connections.find? c = some connection := by
    rw [sendAll_eq]
    exact hConnection
  have hSession : (n.sendAll c sent).Reserved c s := by
    rw [sendAll_eq]
    exact ⟨hReserved.serving, hReserved.alone, hReserved.unattached, hReserved.unkept⟩
  cases pause with
  | waiting rest =>
    refine goes_wait hFind hUnsettled (fun _ _ _ => nofun) ?_ rfl
    intro s' rest' hStage
    cases hStage
    exact hSession
  | «over» result =>
    cases result with
    | ok record? => exact goes_opensAccepting hFind hUnsettled hSession record?
    | error cause =>
      have hTold := goes_fire (n := n.sendAll c sent) (s := s) (h := .authenticationFailed cause)
        (fun _ => nofun) fun _ _ => .inr hSession.peerOf?
      exact hTold.trans (goes_refuse _ c _)

end Conversing

theorem goes_decline (n : Node) (outcome : Except ServiceError Line) :
    Goes n (n.decline outcome) := by
  unfold decline
  split
  · exact goes_plain n rfl
  · exact Goes.refl n

theorem goes_dialled (n : Node) (k : CallId) (outcome : Except ServiceError Line)
    (hNew : ∀ line, outcome = .ok line → n.connections.find? line.id = none) :
    Goes n (n.dialled k outcome) := by
  unfold dialled
  cases hCall : n.calls.find? k with
  | none => exact goes_decline n outcome
  | some call =>
    dsimp only
    split
    · next attempts socket session hStage hSession =>
      intro hSound
      have hProxies := hSound.calling.dialling k call attempts socket hCall hStage
      suffices hGoes : Goes n _ from hGoes hSound
      have hOnly : ∀ call', n.calls.find? k = some call' → n.Proxies call'.session := by
        intro call' hCall'
        obtain rfl := Option.some.inj (hCall.symm.trans hCall')
        exact hProxies
      split
      · next line =>
        have hReached : Goes n (n.modifyCall k fun call => { call with stage := .reached }) :=
          goes_modifyCall fun _ _ _ => ⟨rfl, fun _ => nofun⟩
        let stage : Connection.Stage :=
          .connecting call.session k fun _ => (n.connectingSide session line.issued).run
        have hBegins : n.Begins stage := .inr ⟨call.session, k, _, rfl, hProxies⟩
        have hInserted := hReached.trans (goes_insertConnection (hNew line rfl) hBegins)
        have hListening := hInserted.trans (goes_plain _ (e := .listen line.id) rfl)
        have hFound := SortedMap.find?_insert_self n.connections line.id
          (Connection.create line stage)
        have hUnsettled : (Connection.create line stage).isSettled = false := rfl
        apply hListening.trans
        refine goes_converseConnecting ?_ hUnsettled ?_ k _
        · exact hFound
        · exact hProxies
      · split
        · have hAgain : Goes n (n.modifyCall k fun call =>
              { call with stage := .dialling (attempts + 1) socket }) :=
            goes_modifyCall fun _ call' hCall' => ⟨rfl, fun _ _ _ => hOnly call' hCall'⟩
          exact hAgain.trans (goes_plain _ rfl)
        · exact goes_failToConnect hProxies k _
    · exact goes_decline n outcome

theorem goes_endDial (n : Node) (k : CallId) (outcome : Except ServiceError Line)
    (hNew : ∀ line, outcome = .ok line → n.connections.find? line.id = none) :
    Goes n (n.endDial k outcome) := by
  unfold endDial
  split
  · split
    · exact goes_decline n outcome
    · exact (goes_decline n outcome).trans (goes_dialled _ k _ fun _ => nofun)
  · exact goes_dialled n k outcome hNew

theorem goes_redial (n : Node) (k : CallId) : Goes n (n.redial k) := by
  unfold redial
  cases hCall : n.calls.find? k with
  | none => exact Goes.refl n
  | some call =>
    dsimp only
    split
    · next attempts socket session hStage hSession =>
      intro hSound
      have hProxies := hSound.calling.dialling k call attempts socket hCall hStage
      have hOnly : ∀ call', n.calls.find? k = some call' → n.Proxies call'.session := by
        intro call' hCall'
        obtain rfl := Option.some.inj (hCall.symm.trans hCall')
        exact hProxies
      exact goes_dialAt hProxies hOnly _ socket attempts hSound
    · exact Goes.refl n

theorem goes_cancelDials (n : Node) : Goes n n.cancelDials := by
  have hCancelled : Goes n { n with dialsCancelled := true } :=
    Goes.of_eq rfl rfl rfl rfl rfl rfl rfl
  apply hCancelled.trans
  apply goes_foldl
  intro n' e
  split
  · exact Goes.refl n'
  · exact goes_plain n' rfl

/-! ## Exchanges -/

theorem goes_commit (n : Node) (change : Directory.Change) : Goes n (n.commit change) := by
  have hChanged : Goes n { n with directory := change.1 } := Goes.of_eq rfl rfl rfl rfl rfl rfl rfl
  exact hChanged.trans (goes_foldl (fun n' _ => goes_plain n' rfl) _ _)

theorem goes_fail (n : Node) (cause : ServiceError) : Goes n (n.fail cause).2 :=
  (goes_skipCall n).trans (goes_plain _ rfl)

theorem goes_exchangeSession? {p : PeerAddress} {s : SessionId} {n' : Node}
    (h : n.exchangeSession? p = some (s, n')) : Goes n n' := by
  unfold exchangeSession? at h
  split at h
  · cases h
    exact Goes.refl n
  · next hNone =>
    split at h
    · cases h
      let session : Session := .create ⟨.exchange, p⟩ .restricted true .exchange
      have hUnused : session.Unused := ⟨rfl, rfl⟩
      apply (goes_newSession hUnused).next
      intro hSound _ _
      have hMade : (n.newSession session).2.sessions.find? n.nextSession = some session :=
        SortedMap.find?_insert_self n.sessions n.nextSession session
      have hUnheard : (n.newSession session).2.hasEnded n.nextSession = false :=
        hSound.numbered.unheard n.nextSession (Nat.le_refl _)
      exact goes_keep hNone hMade rfl rfl rfl hUnheard
    · cases h

theorem goes_exchange (n : Node) (p : PeerAddress) : Goes n (n.exchange p).2 := by
  unfold exchange
  split
  · exact goes_fail n _
  · next record _ =>
    split
    · exact goes_fail n _
    · next s n' hSession =>
      have hMade := goes_newCall n' s n'.exchangeTimeout (·.put record.exported) exchangeCode
        (fun k => [⟨exchangeCode, .exchange k p⟩]) none
      exact ((goes_exchangeSession? hSession).trans hMade).trans (goes_begin _ _)

theorem goes_takeExchange (n : Node) (k : CallId) (p : PeerAddress) (m : Message) :
    Goes n (n.takeExchange k p m) := by
  unfold takeExchange
  split
  · exact goes_finish n k _
  · split
    · exact goes_finish n k _
    · exact (goes_commit n _).trans (goes_finish _ k _)

theorem goes_answerExchange (n : Node) (p : Option PeerAddress) (m : Message) :
    Goes n (n.answerExchange p m).2 := by
  unfold answerExchange
  split
  · exact Goes.refl n
  · exact Goes.refl n
  · split
    · exact Goes.refl n
    · exact goes_commit n _

theorem goes_exchangeSoon (n : Node) (p : PeerAddress) : Goes n (n.exchangeSoon p) :=
  goes_plain n rfl

theorem goes_add (n : Node) (r : PeerRecord) : Goes n (n.add r) :=
  (goes_commit n _).trans (goes_exchangeSoon _ _)

theorem goes_update {n n' : Node} {r : PeerRecord} (h : n.update r = .ok n') : Goes n n' := by
  unfold update at h
  cases hUpdate : n.directory.update r with
  | error e =>
    rw [hUpdate] at h
    cases h
  | ok change =>
    rw [hUpdate] at h
    cases h
    exact (goes_commit n change).trans (goes_exchangeSoon _ _)

theorem goes_grant {n n' : Node} {p : PeerAddress} {ids : List ServiceId}
    {descriptors : List Descriptor} (h : n.grant p ids descriptors = .ok n') : Goes n n' := by
  unfold grant at h
  cases hGrant : n.directory.grant p ids descriptors with
  | error e =>
    rw [hGrant] at h
    cases h
  | ok change =>
    rw [hGrant] at h
    cases h
    exact (goes_commit n change).trans (goes_exchangeSoon _ _)

theorem goes_deleteService (n : Node) (side : GrantSide) (service : ServiceAddress) :
    Goes n (n.deleteService side service) := goes_commit n _

theorem goes_purge (n : Node) (service : ServiceAddress) : Goes n (n.purge service) :=
  goes_commit n _

/-! ## Accepting -/

theorem goes_accept {line : Line} (hNew : n.connections.find? line.id = none) :
    Goes n (n.accept line) := by
  have hBegins : n.Begins (.naming line.issued) := .inl ⟨line.issued, rfl⟩
  have hInserted := goes_insertConnection hNew hBegins
  have hListening := hInserted.trans (goes_plain _ (e := .listen line.id) rfl)
  exact hListening.trans (goes_plain _ rfl)

theorem goes_nameService {c : ConnectionId} {connection : Connection}
    (hConnection : n.connections.find? c = some connection)
    (hUnsettled : connection.isSettled = false) (issued : Challenge) (frame : Received) :
    Goes n (n.nameService c issued frame) := by
  unfold nameService
  split
  · exact goes_refuse n c _
  · split
    · exact goes_refuse n c _
    · next service _ =>
      let session : Session := .create service.address service.mode false service.behaviour
      have hUnused : session.Unused := ⟨rfl, rfl⟩
      apply (goes_newSession hUnused).next
      intro hSound _ _
      exact goes_converseAccepting (n := (n.newSession session).2) hConnection hUnsettled
        (newSession_reserved hSound hUnused rfl c) _

theorem goes_expire (n : Node) (c : ConnectionId) : Goes n (n.expire c) := by
  unfold expire
  split
  · exact goes_refuse n c _
  · exact goes_refuse n c _
  · exact Goes.refl n

/-! ## Events -/

theorem goes_dispatch (n : Node) (c : ConnectionId) (m : Message) : Goes n (n.dispatch c m) := by
  unfold dispatch
  split
  · exact Goes.refl n
  · next s _ =>
    dsimp only
    split
    · exact goes_respond n c _
    · split
      · have hAnswered := goes_answerExchange n (n.peerOf? s) m
        generalize n.answerExchange (n.peerOf? s) m = answered at hAnswered ⊢
        obtain ⟨answer, n'⟩ := answered
        cases answer with
        | ok response => exact hAnswered.trans (goes_respond n' c _)
        | error text => exact hAnswered.trans (goes_respond n' c _)
      · exact goes_respond n c _
    · split
      · exact goes_respond n c _
      · next handler _ =>
        generalize handler _ m = reaction
        generalize hClosed : (if reaction.closes = true then _ else _ : Node) = closed
        have hCloses : Goes n closed := by
          subst hClosed
          split
          · exact goes_closeSession n s
          · exact Goes.refl n
        split
        · exact hCloses.trans (goes_respond closed c _)
        · exact hCloses
        · exact hCloses.trans (goes_respond closed c _)

theorem goes_takeMessage (n : Node) (c : ConnectionId) (frame : Received) :
    Goes n (n.takeMessage c frame) := by
  unfold takeMessage
  split
  · split
    · exact goes_dispatch n c _
    · exact goes_takeResponse n c _
  · exact Goes.refl n
  · exact goes_stopReading n c _

theorem goes_receive (n : Node) (c : ConnectionId) (frame : Received) :
    Goes n (n.receive c frame) := by
  unfold receive
  cases hConnection : n.connections.find? c with
  | none => exact Goes.refl n
  | some connection =>
    intro hSound
    suffices hGoes : Goes n _ from hGoes hSound
    dsimp only
    cases hStage : connection.stage with
    | naming issued =>
      have hUnsettled : connection.isSettled = false := by
        unfold Connection.isSettled
        rw [hStage]
      exact goes_nameService hConnection hUnsettled issued frame
    | accepting s rest =>
      have hUnsettled : connection.isSettled = false := by
        unfold Connection.isSettled
        rw [hStage]
      have hReserved := hSound.linked.accepting c connection s rest hConnection hStage
      exact goes_converseAccepting hConnection hUnsettled hReserved _
    | connecting s k rest =>
      have hUnsettled : connection.isSettled = false := by
        unfold Connection.isSettled
        rw [hStage]
      have hProxies := hSound.linked.connecting c connection s k rest hConnection hStage
      exact goes_converseConnecting hConnection hUnsettled hProxies k _
    | opened | closed =>
      dsimp only
      split
      · exact goes_takeMessage n c frame
      · exact Goes.refl n

theorem goes_deliver (n : Node) (listener : Listener Target) (m : Message) :
    Goes n (n.deliver listener m) := by
  unfold deliver
  split
  · exact goes_finish n _ _
  · exact goes_takeExchange n _ _ m
  · exact goes_plain n rfl

/-- What may happen to a node: a connection that is new has an id of its own, and a call goes on
after another one only if the node said so. -/
def Allows (n : Node) : Event → Prop
  | .accept line => n.connections.find? line.id = none
  | .dialled _ (.ok line) => n.connections.find? line.id = none
  | .proceed k => .later (.proceed k) ∈ n.effects
  | _ => True

theorem goes_handle {e : Event} (h : n.Allows e) : Goes n (n.handle e) := by
  cases e with
  | accept line => exact goes_accept h
  | receive c frame => exact goes_receive n c frame
  | lose c => exact goes_sameStage (fun _ => rfl) (fun _ => rfl) (fun _ _ _ => rfl) fun _ _ h => h
  | expire c => exact goes_expire n c
  | «begin» k => exact goes_begin n k
  | proceed k =>
    intro hSound
    exact goes_proceed (hSound.calling.released k h) hSound
  | dialled k outcome =>
    apply goes_endDial
    rintro line rfl
    exact h
  | redial k => exact goes_redial n k
  | deliver listener m => exact goes_deliver n listener m
  | overdue k => exact goes_lapse n k _
  | unwritten k => exact goes_lapse n k _
  | exchange p => exact goes_exchange n p

/-! ## The owner -/

theorem goes_post (n : Node) (c : ConnectionId) (code : UInt8) (payload : Bytes)
    (codes : List UInt8) : Goes n (n.post c code payload codes).2.2 :=
  (goes_skipCall n).trans (goes_sendRequest _ c _ _)

theorem goes_deactivate (n : Node) (id : ServiceId) : Goes n (n.deactivate id) := by
  unfold deactivate
  split
  · exact Goes.refl n
  · have hUnlisted : Goes n (n.unlist id) := Goes.of_eq rfl rfl rfl rfl rfl rfl rfl
    exact hUnlisted.trans (goes_purge _ _)

end Node

end PeerServices
