import PeerServices.Proofs.Node.Turns

/-!
# Steps without a turn

Most of what a node does opens and closes no connection. One lemma for each thing that it does in
this way: it sends messages, ends calls, reaches for hosts, changes its directory, and begins and
fails handshakes.
-/

namespace PeerServices.Node

variable {n n' : Node} {c : ConnectionId} {s : SessionId}

/-! ## Single changes -/

theorem rests_emit (n : Node) {e : Effect} (h : e.isQuiet n.dialsCancelled = true) :
    Rests n (n.emit e) := by
  refine .of_same rfl rfl rfl ⟨id, id, id⟩ ⟨[e], rfl, fun e' hMem => ?_⟩
  obtain rfl := List.mem_singleton.mp hMem
  exact h

theorem rests_foldl {α : Type} {f : Node → α → Node} (h : ∀ n a, Rests n (f n a)) (l : List α)
    (n : Node) : Rests n (l.foldl f n) := by
  induction l generalizing n with
  | nil => exact .refl n
  | cons a l ih => exact (h n a).trans (ih (f n a))

theorem rests_sendAll (n : Node) (c : ConnectionId) (parcels : List Parcel) :
    Rests n (n.sendAll c parcels) := rests_foldl (fun n _ => rests_emit n rfl) parcels n

theorem rests_modifyConnection {f : Connection → Connection}
    (h : ∀ old, n.connections.find? c = some old → old.Keeps (f old) ∧
      ∀ s, (f old).awaited? = some s → old.awaited? = some s ∨ n.Knows s) :
    Rests n (n.modifyConnection c f) where
  connections c' old hOld := by
    by_cases hc : c' = c
    · subst hc
      refine ⟨f old, ?_, h old hOld⟩
      rw [find?_modifyConnection_self, hOld]
      rfl
    · exact ⟨old, (n.find?_modifyConnection_of_ne hc f).trans hOld, .refl old, fun _ => .inl⟩
  joined c' hNone := by
    by_cases hc : c' = c
    · subst hc
      rw [find?_modifyConnection_self, hNone]
      rfl
    · exact (n.find?_modifyConnection_of_ne hc f).trans hNone
  roster := rfl
  known _ := id
  current s new _ hNew hCurrent := ⟨new, hNew, hCurrent⟩
  lasts := ⟨id, id, id⟩
  effects := quiet_of_effects_eq rfl

/-- What does not tell how far a connection is may change. -/
theorem rests_adjustConnection {f : Connection → Connection}
    (hStage : ∀ old, (f old).stage = old.stage) (hSession : ∀ old, (f old).session = old.session)
    (hOutstanding : ∀ old, n.connections.find? c = some old →
      (f old).outstanding.isSome = old.outstanding.isSome)
    (hReading : ∀ old, n.connections.find? c = some old → old.isOpen = true →
      old.reading = true → (f old).reading = true) :
    Rests n (n.modifyConnection c f) := by
  apply rests_modifyConnection
  intro old hOld
  have hOpen : (f old).isOpen = old.isOpen := by
    unfold Connection.isOpen
    rw [hStage]
  refine ⟨⟨hOpen, fun h => (hStage old).trans h, hSession old, hOutstanding old hOld,
    fun h => hReading old hOld (hOpen ▸ h)⟩, fun s hAwaited => .inl ?_⟩
  unfold Connection.awaited? at hAwaited ⊢
  rwa [hStage] at hAwaited

theorem rests_modifySession {f : Session → Session}
    (h : ∀ old c, (f old).current = some c → old.current = some c) :
    Rests n (n.modifySession s f) where
  connections _ old hOld := ⟨old, hOld, .refl old, fun _ => .inl⟩
  joined _ := id
  roster := rfl
  known s' hKnown := by
    obtain ⟨session, hSession⟩ := hKnown
    by_cases hs : s' = s
    · subst hs
      refine ⟨f session, ?_⟩
      rw [find?_modifySession_self, hSession]
      rfl
    · exact ⟨session, (n.find?_modifySession_of_ne hs f).trans hSession⟩
  current s' new c hNew hCurrent := by
    rcases SortedMap.find?_modify_eq_some hNew with ⟨rfl, old, hOld, rfl⟩ | ⟨-, hOld⟩
    · exact ⟨old, hOld, h old c hCurrent⟩
    · exact ⟨new, hOld, hCurrent⟩
  lasts := ⟨id, id, id⟩
  effects := quiet_of_effects_eq rfl

theorem rests_newSession (n : Node) {session : Session} (h : session.current = none) :
    Rests n (n.newSession session).2 where
  connections _ old hOld := ⟨old, hOld, .refl old, fun _ => .inl⟩
  joined _ := id
  roster := rfl
  known s hKnown := by
    by_cases hs : s = n.nextSession
    · subst hs
      exact ⟨session, SortedMap.find?_insert_self n.sessions n.nextSession session⟩
    · obtain ⟨old, hOld⟩ := hKnown
      exact ⟨old, (SortedMap.find?_insert_of_ne hs n.sessions session).trans hOld⟩
  current s new c hNew hCurrent := by
    rcases SortedMap.find?_insert_eq_some hNew with ⟨-, rfl⟩ | ⟨-, hOld⟩
    · cases h.symm.trans hCurrent
    · exact ⟨new, hOld, hCurrent⟩
  lasts := ⟨id, id, id⟩
  effects := quiet_of_effects_eq rfl

theorem knows_newSession (n : Node) (session : Session) :
    (n.newSession session).2.Knows n.nextSession :=
  ⟨session, SortedMap.find?_insert_self n.sessions n.nextSession session⟩

/-- Connections, sessions and what was given up are as they were, and nothing is told. -/
theorem rests_of_eq (hConnections : n'.connections = n.connections) (hRoster : n'.roster = n.roster)
    (hSessions : n'.sessions = n.sessions) (hLasts : Lasts n n') (hEffects : n'.effects = n.effects) :
    Rests n n' :=
  .of_same hConnections hRoster hSessions hLasts (quiet_of_effects_eq hEffects)

theorem rests_modifyCall (n : Node) (k : CallId) (f : Call → Call) : Rests n (n.modifyCall k f) :=
  rests_of_eq rfl rfl rfl ⟨id, id, id⟩ rfl

/-! ## Telling -/

/-- A session may be told anything but that it is connected or was closed. -/
theorem rests_fire (n : Node) (s : SessionId) (hook : Session.Hook)
    (h : (Effect.hook s hook).isQuiet n.dialsCancelled = true) : Rests n (n.fire s hook) := by
  cases hSession : n.sessions.find? s with
  | none =>
    rw [fire_none hSession]
    exact .refl n
  | some session =>
    obtain ⟨kept, hKept⟩ := fire_eq hSession hook
    rw [hKept]
    refine .of_same rfl rfl rfl ⟨id, id, id⟩ ⟨_, rfl, fun e hMem => ?_⟩
    obtain rfl := List.mem_singleton.mp hMem
    exact h

theorem rests_finish (n : Node) (k : CallId) (result : Reply.Result) :
    Rests n (n.finish k result) := by
  unfold finish
  split
  · have hErased : Rests n { n with calls := n.calls.erase k } :=
      rests_of_eq rfl rfl rfl ⟨id, id, id⟩ rfl
    exact hErased.trans (rests_emit _ rfl)
  · exact .refl n

theorem rests_abandon (n : Node) (listeners : List (Listener Target)) :
    Rests n (n.abandon listeners) := rests_foldl (fun n k => rests_finish n k _) _ n

theorem rests_detach (n : Node) (s : SessionId) (c : ConnectionId) : Rests n (n.detach s c) := by
  apply rests_modifySession
  intro old c' hCurrent
  split at hCurrent
  · cases hCurrent
  · exact hCurrent

theorem rests_unlink (n : Node) (s : SessionId) : Rests n (n.unlink s) :=
  rests_modifySession fun _ _ hCurrent => nomatch hCurrent

/-! ## Messages -/

/-- An open connection has room for requests, so this does not make any. -/
theorem rests_expect {t : Outstanding Target}
    (h : ∀ old, n.connections.find? c = some old → old.outstanding.isSome = true) :
    Rests n (n.modifyConnection c fun connection => { connection with outstanding := some t }) :=
  rests_adjustConnection (fun _ => rfl) (fun _ => rfl) (fun old hOld => (h old hOld).symm)
    fun _ _ _ => id

theorem rests_sendRequest (n : Node) (c : ConnectionId) (m : Message)
    (listeners : List (Listener Target)) : Rests n (n.sendRequest c m listeners).2 := by
  unfold sendRequest
  split
  · exact .refl n
  next connection hConnection =>
    split
    · exact .refl n
    · exact .refl n
    next outstanding hOutstanding _ =>
      refine Rests.trans (rests_expect fun old hOld => ?_) (rests_emit _ rfl)
      obtain rfl := Option.some.inj (hOld.symm.trans hConnection)
      rw [hOutstanding]
      rfl

theorem rests_withdraw {uid : Int64} {t : Outstanding Target} {ls : List (Listener Target)}
    (h : (((n.connections.find? c).bind (·.outstanding)).bind fun t =>
      (t.find? uid).map (t, ·)) = some (t, ls)) (t' : Outstanding Target) :
    Rests n (n.modifyConnection c fun connection => { connection with outstanding := some t' }) := by
  apply rests_expect
  intro old hOld
  rw [outstanding_of_find? h old hOld]
  rfl

theorem rests_forget (n : Node) (c : ConnectionId) (uid : Int64) : Rests n (n.forget c uid).2 := by
  unfold forget
  split
  · exact .refl n
  next hFound => exact (rests_withdraw hFound _).trans (rests_abandon _ _)

theorem rests_respond (n : Node) (c : ConnectionId) (m : Message) : Rests n (n.respond c m) := by
  unfold respond
  split
  · exact .refl n
  · split
    · exact rests_emit n rfl
    · exact .refl n

theorem rests_takeResponse (n : Node) (c : ConnectionId) (m : Message) :
    Rests n (n.takeResponse c m) := by
  unfold takeResponse
  split
  · exact .refl n
  next hFound =>
    dsimp only
    split
    · exact (rests_withdraw hFound _).trans (rests_emit _ rfl)
    · exact (rests_withdraw hFound _).trans (rests_abandon _ _)

/-! ## Calls -/

theorem rests_newCall (n : Node) (s : SessionId) (timeout : Duration) (message : Message → Message)
    (code : UInt8) (listeners : CallId → List (Listener Target)) (resolved : Option Reply.Result) :
    Rests n (n.newCall s timeout message code listeners resolved).2 :=
  rests_of_eq rfl rfl rfl ⟨id, id, id⟩ rfl

theorem rests_skipCall (n : Node) : Rests n { n with nextCall := n.nextCall + 1 } :=
  rests_of_eq rfl rfl rfl ⟨id, id, id⟩ rfl

theorem rests_request (n : Node) (s : SessionId) (timeout : Duration) (code : UInt8)
    (payload : Bytes) (forms : List (UInt8 × Reply.Form)) (resolved : Option Reply.Result) :
    Rests n (n.request s timeout code payload forms resolved).2 := by
  have hMade := rests_newCall n s timeout (·.write payload) code
    (fun k => forms.map fun f => ⟨f.1, .reply k f.2⟩) resolved
  exact hMade.trans (rests_emit _ rfl)

theorem rests_post (n : Node) (c : ConnectionId) (code : UInt8) (payload : Bytes)
    (codes : List UInt8) : Rests n (n.post c code payload codes).2.2 :=
  (rests_skipCall n).trans (rests_sendRequest _ c _ _)

theorem rests_lapse (n : Node) (k : CallId) (cause : Call → ServiceError) :
    Rests n (n.lapse k cause) := by
  unfold lapse
  split
  · exact .refl n
  · split
    · exact (rests_finish n k _).trans (rests_forget _ _ _)
    · exact .refl n

theorem rests_transmit (n : Node) (k : CallId) (c : ConnectionId) : Rests n (n.transmit k c) := by
  unfold transmit
  split
  · exact .refl n
  next call _ =>
    have hSent := rests_sendRequest n c call.message call.listeners
    dsimp only
    generalize n.sendRequest c call.message call.listeners = sent at hSent ⊢
    obtain ⟨result, n'⟩ := sent
    cases result with
    | error e => exact hSent.trans (rests_finish n' k _)
    | ok done =>
      dsimp only
      split
      · exact hSent.trans (rests_finish n' k _)
      · split
        · exact hSent.trans (rests_finish n' k _)
        · have hWaiting := hSent.trans
            (rests_modifyCall n' k fun call => { call with stage := .waiting c })
          split
          · exact hWaiting.trans (rests_lapse _ k _)
          · exact hWaiting.trans (rests_emit _ rfl)

theorem rests_release (n : Node) (s : SessionId) : Rests n (n.release s) := by
  unfold release
  split
  · exact .refl n
  next session _ =>
    have hNext : Rests n (n.modifySession s fun session =>
        { session with connecting := session.waiters.head?, waiters := session.waiters.tail }) :=
      rests_modifySession fun _ _ hCurrent => hCurrent
    dsimp only
    split
    · exact hNext
    · exact hNext.trans (rests_emit _ rfl)

theorem rests_failToConnect (n : Node) (s : SessionId) (k : CallId) (cause : ServiceError) :
    Rests n (n.failToConnect s k cause) :=
  ((rests_fire n s (.connectionFailed cause) rfl).trans (rests_finish _ k _)).trans (rests_release _ s)

/-- A host is reached for only if that is not cancelled. -/
theorem rests_dialAt (n : Node) (s : SessionId) (k : CallId) (host : PeerAddress)
    (socket : SocketAddress) (attempts : Nat) : Rests n (n.dialAt s k host socket attempts) := by
  unfold dialAt
  split
  · exact rests_failToConnect n s k _
  next hGoesOn =>
    refine (rests_modifyCall n k _).trans (rests_emit _ ?_)
    change (!n.dialsCancelled) = true
    rw [Bool.not_eq_true] at hGoesOn
    rw [hGoesOn]
    rfl

theorem rests_dial (n : Node) (s : SessionId) (k : CallId) (host : PeerAddress) :
    Rests n (n.dial s k host) := by
  unfold dial
  split
  · exact rests_failToConnect n s k _
  · exact rests_dialAt n s k host _ 0

theorem rests_connect (n : Node) (s : SessionId) (k : CallId) (host : PeerAddress) :
    Rests n (n.connect s k host) := by
  unfold connect
  split
  · exact (rests_release n s).trans (rests_transmit _ k _)
  · split
    · exact rests_dial n s k host
    · exact rests_failToConnect n s k _

theorem rests_begin (n : Node) (k : CallId) : Rests n (n.begin k) := by
  unfold «begin»
  split
  · exact .refl n
  next call _ =>
    split
    · exact rests_transmit n k _
    · exact .refl n
    · split
      · exact rests_finish n k _
      · split
        · exact rests_modifySession fun _ _ hCurrent => hCurrent
        · have hConnecting : Rests n (n.modifySession call.session fun session =>
              { session with connecting := some k }) :=
            rests_modifySession fun _ _ hCurrent => hCurrent
          exact hConnecting.trans (rests_connect _ _ k _)

theorem rests_proceed (n : Node) (k : CallId) : Rests n (n.proceed k) := by
  unfold proceed
  split
  · exact .refl n
  · split
    · exact .refl n
    · exact rests_connect n _ k _

theorem rests_decline (n : Node) (outcome : Except ServiceError Line) :
    Rests n (n.decline outcome) := by
  unfold decline
  split
  · exact rests_emit n rfl
  · exact .refl n

theorem rests_redial (n : Node) (k : CallId) : Rests n (n.redial k) := by
  unfold redial
  split
  · exact .refl n
  · split
    · exact rests_dialAt n _ k _ _ _
    · exact .refl n

/-- The calls that are reaching for hosts are told that this is over. -/
theorem rests_tellDials (n : Node) : Rests { n with dialsCancelled := true } n.cancelDials := by
  apply rests_foldl
  intro n' e
  split
  · exact .refl n'
  · exact rests_emit n' rfl

theorem rests_cancelDials (n : Node) : Rests n n.cancelDials := by
  have hCancelled : Rests n { n with dialsCancelled := true } :=
    rests_of_eq rfl rfl rfl ⟨fun _ => rfl, id, id⟩ rfl
  exact hCancelled.trans (rests_tellDials n)

/-! ## Exchanges -/

theorem rests_commit (n : Node) (change : Directory.Change) : Rests n (n.commit change) := by
  have hChanged : Rests n { n with directory := change.1 } :=
    rests_of_eq rfl rfl rfl ⟨id, id, id⟩ rfl
  exact hChanged.trans (rests_foldl (fun n' _ => rests_emit n' rfl) _ _)

theorem rests_fail (n : Node) (cause : ServiceError) : Rests n (n.fail cause).2 :=
  (rests_skipCall n).trans (rests_emit _ rfl)

theorem rests_exchangeSession? {p : PeerAddress} (h : n.exchangeSession? p = some (s, n')) :
    Rests n n' := by
  unfold exchangeSession? at h
  split at h
  · cases h
    exact .refl n
  · split at h
    · cases h
      have hMade : Rests n (n.proxy ⟨.exchange, p⟩ .restricted .exchange).2 :=
        rests_newSession n rfl
      exact hMade.trans (rests_of_eq rfl rfl rfl ⟨id, id, id⟩ rfl)
    · cases h

theorem rests_exchange (n : Node) (p : PeerAddress) : Rests n (n.exchange p).2 := by
  unfold exchange
  split
  · exact rests_fail n _
  next record _ =>
    split
    · exact rests_fail n _
    next s n' hSession =>
      have hMade := rests_newCall n' s n'.exchangeTimeout (·.put record.exported) exchangeCode
        (fun k => [⟨exchangeCode, .exchange k p⟩]) none
      exact ((rests_exchangeSession? hSession).trans hMade).trans (rests_begin _ _)

theorem rests_takeExchange (n : Node) (k : CallId) (p : PeerAddress) (m : Message) :
    Rests n (n.takeExchange k p m) := by
  unfold takeExchange
  split
  · exact rests_finish n k _
  · split
    · exact rests_finish n k _
    · exact (rests_commit n _).trans (rests_finish _ k _)

theorem rests_answerExchange (n : Node) (p : Option PeerAddress) (m : Message) :
    Rests n (n.answerExchange p m).2 := by
  unfold answerExchange
  split
  · exact .refl n
  · exact .refl n
  · split
    · exact .refl n
    · exact rests_commit n _

theorem rests_exchangeSoon (n : Node) (p : PeerAddress) : Rests n (n.exchangeSoon p) :=
  rests_emit n rfl

theorem rests_add (n : Node) (r : PeerRecord) : Rests n (n.add r) :=
  (rests_commit n _).trans (rests_exchangeSoon _ _)

theorem rests_update {r : PeerRecord} (h : n.update r = .ok n') : Rests n n' := by
  unfold update at h
  cases hUpdate : n.directory.update r with
  | error e =>
    rw [hUpdate] at h
    cases h
  | ok change =>
    rw [hUpdate] at h
    cases h
    exact (rests_commit n change).trans (rests_exchangeSoon _ _)

theorem rests_grant {p : PeerAddress} {ids : List ServiceId} {descriptors : List Descriptor}
    (h : n.grant p ids descriptors = .ok n') : Rests n n' := by
  unfold grant at h
  cases hGrant : n.directory.grant p ids descriptors with
  | error e =>
    rw [hGrant] at h
    cases h
  | ok change =>
    rw [hGrant] at h
    cases h
    exact (rests_commit n change).trans (rests_exchangeSoon _ _)

theorem rests_deactivate (n : Node) (service : ServiceId) : Rests n (n.deactivate service) := by
  unfold deactivate
  split
  · exact .refl n
  · have hUnlisted : Rests n (n.unlist service) := rests_of_eq rfl rfl rfl ⟨id, id, id⟩ rfl
    exact hUnlisted.trans (rests_commit _ _)

/-! ## Handshakes -/

/-- A handshake waits for its next frame. -/
theorem rests_wait {connection : Connection} {stage : Connection.Stage}
    (hConnection : n.connections.find? c = some connection)
    (hUnsettled : connection.isSettled = false)
    (hStage : ({ connection with stage } : Connection).isSettled = false)
    (hAwaited : ∀ s, ({ connection with stage } : Connection).awaited? = some s → n.Knows s) :
    Rests n (n.modifyConnection c fun connection => { connection with stage }) := by
  apply rests_modifyConnection
  intro old hOld
  obtain rfl := Option.some.inj (hOld.symm.trans hConnection)
  have hShut := Connection.isOpen_of_unsettled hUnsettled
  have hStillShut := Connection.isOpen_of_unsettled hStage
  refine ⟨⟨hStillShut.trans hShut.symm, fun hClosed => ?_, rfl, rfl, fun hOpen => ?_⟩,
    fun s hSome => .inr (hAwaited s hSome)⟩
  · unfold Connection.isSettled at hUnsettled
    rw [hClosed] at hUnsettled
    cases hUnsettled
  · cases hStillShut.symm.trans hOpen

/-- A handshake that failed, or never began, is given up. -/
theorem rests_giveUp {f : Connection → Connection}
    (hShut : n.isOpen c = false) (hStage : ∀ old, (f old).stage = .closed)
    (hSession : ∀ old, (f old).session = old.session)
    (hOutstanding : ∀ old, (f old).outstanding = old.outstanding) :
    Rests n (n.modifyConnection c f) := by
  apply rests_modifyConnection
  intro old hOld
  have hOldShut : old.isOpen = false := by
    unfold isOpen at hShut
    rwa [hOld] at hShut
  have hNewShut := Connection.isOpen_of_closed (hStage old)
  refine ⟨⟨hNewShut.trans hOldShut.symm, fun _ => hStage old, hSession old,
    congrArg Option.isSome (hOutstanding old), fun hOpen => ?_⟩, fun s hSome => ?_⟩
  · cases hNewShut.symm.trans hOpen
  · unfold Connection.awaited? at hSome
    rw [hStage] at hSome
    cases hSome

theorem rests_refuse (hShut : n.isOpen c = false) (cause : WireError) :
    Rests n (n.refuse c cause) := by
  apply Rests.trans _ (rests_emit _ rfl)
  exact rests_giveUp hShut (fun _ => rfl) (fun _ => rfl) fun _ => rfl

theorem rests_expire (n : Node) (c : ConnectionId) : Rests n (n.expire c) := by
  have hShut : ∀ stage, (n.connections.find? c).map Connection.stage = some stage →
      stage ≠ .opened → n.isOpen c = false := by
    intro stage hStage hNot
    obtain ⟨connection, hConnection, rfl⟩ := Option.map_eq_some_iff.mp hStage
    rw [← Bool.not_eq_true, isOpen_iff]
    rintro ⟨connection', hConnection', hOpen⟩
    obtain rfl := Option.some.inj (hConnection.symm.trans hConnection')
    unfold Connection.isOpen at hOpen
    split at hOpen
    next hOpened => exact hNot hOpened
    · cases hOpen
  unfold expire
  split
  next hStage => exact rests_refuse (hShut _ hStage nofun) _
  next hStage => exact rests_refuse (hShut _ hStage nofun) _
  · exact .refl n

/-- Nobody took messages from a connection that is not open, and nobody will. -/
theorem rests_stopReading (hShut : n.isOpen c = false) (reason : WireError) :
    Rests n (n.stopReading c reason) := by
  unfold stopReading
  rw [if_neg (by rw [hShut]; decide)]
  apply Rests.trans _ (rests_emit _ rfl)
  refine rests_adjustConnection (fun _ => rfl) (fun _ => rfl) (fun _ _ => rfl) ?_
  intro old hOld hOpen
  unfold isOpen at hShut
  rw [hOld] at hShut
  cases hShut.symm.trans hOpen

theorem rests_deliver (n : Node) (listener : Listener Target) (m : Message) :
    Rests n (n.deliver listener m) := by
  unfold deliver
  split
  · exact rests_finish n _ _
  · exact rests_takeExchange n _ _ m
  · exact rests_emit n rfl

end PeerServices.Node
