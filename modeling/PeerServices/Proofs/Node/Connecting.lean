import PeerServices.Proofs.Node.Attempts

/-!
# How a call connects its session

The call that holds a session reaches for the host, goes through the handshake and opens the
connection, and then its request is passed to that connection. If it fails, the owner of the session
is told why, and the call ends.

* `Node.Fate`: what becomes of a call that sent nothing yet.
* `Node.calm_transmit`: a request is passed to a connection.
* `Node.concerns_openConnection`: the connection is opened.
* `Node.endeavours_converseConnecting`, `Node.endeavours_dial`: the handshake and what comes before
  it.
-/

namespace PeerServices

/-- A session could not be connected. -/
def Session.Hook.isFailure : Session.Hook → Bool
  | .authenticationFailed _ | .connectionFailed _ => true
  | _ => false

namespace Node

variable {n m n' : Node} {c : ConnectionId} {s : SessionId} {k : CallId} {taken : List Cue}
  {told : List (SessionId × Session.Hook)}

/-- A call is about the same request, however far it is. -/
def SameRequest (n : Node) (k : CallId) (n' : Node) : Prop :=
  ∀ call, n.calls.find? k = some call → ∃ stage, n'.calls.find? k = some { call with stage }

/-- What becomes of a call that sent nothing yet, if its session connects. -/
inductive Fate (n : Node) (s : SessionId) (k : CallId) (told : List (SessionId × Session.Hook))
    (n' : Node) : Prop
  /-- It connects its session, or waits. -/
  | stays {stage : Call.Stage} (hAt : n'.CallAt k s stage) (hUnsent : ∀ c, stage ≠ .waiting c)
  /-- Its session could not be connected. -/
  | fails {hook : Session.Hook} {cause : ServiceError} (hTold : (s, hook) ∈ told)
      (hFailure : hook.isFailure = true) (hEnded : n'.calls.find? k = none)
      (hFinished : .finished k (.error cause) ∈ n'.effects)
  /-- Its session was connected, and its owner closed the connection when it was told so. -/
  | shut {view : Session.View} (hTold : (s, .connected view) ∈ told) (hShut : n'.Unattached s)
      (hEnded : n'.calls.find? k = none)
      (hFinished : .finished k (.error (.ofWire .notConnected)) ∈ n'.effects)
  /-- Its request is passed to the open connection of its session, which stays open then. -/
  | passed {c : ConnectionId} {m : Node} {stage : Call.Stage} (hOpen : m.openConnection? s = some c)
      (hAt : m.CallAt k s stage) (hUnsent : ∀ c, stage ≠ .waiting c)
      (hSame : n.SameRequest k m) (hPassed : n' = m.transmit k c)
      (hStill : n'.openConnection? s = some c)
      (hWaits : ∀ s' c', n'.CallAt k s' (.waiting c') → s' = s ∧ c' = c)

/-- A call goes on with the attempt to connect its session. -/
def Endeavours (n : Node) (taken : List Cue) (s : SessionId) (k : CallId) (n' : Node) : Prop :=
  ∃ told, n.Concerns taken s k told n' ∧ n.Pursues s told n' ∧ n.Fate s k told n'

/-! ## What follows -/

theorem Holds.not_accepts (h : n.Holds s k) : ¬n.Accepts s := by
  rintro ⟨holder, ws', hLineup'⟩
  obtain ⟨ws, hLineup⟩ := h
  cases hLineup.symm.trans hLineup'

/-- Nobody connects a session if the call that holds it does not. -/
theorem Paced.not_trying (h : n.Paced taken) (hHolds : n.Holds s k) (hIdle : ¬n.Attempts s k) :
    ¬n.Trying s := by
  rintro (⟨j, hDialling⟩ | ⟨c, k?, hHandshake⟩)
  · obtain rfl := h.holder_of_attempts hHolds (.inl hDialling)
    exact hIdle (.inl hDialling)
  · cases k? with
    | none => exact hHolds.not_accepts (h.serving c s hHandshake).1
    | some j =>
      obtain rfl := h.holder_of_attempts hHolds (.inr ⟨c, hHandshake⟩)
      exact hIdle (.inr ⟨c, hHandshake⟩)

theorem openConnection?_of_attached (hOpen : n.OpenFor c s) (hAttached : n.Attached s c) :
    n.openConnection? s = some c := by
  obtain ⟨session, hSession, hCurrent⟩ := hAttached
  obtain ⟨connection, hFind, hIsOpen, -⟩ := hOpen
  exact openConnection?_eq_some.mpr
    ⟨session, hSession, hCurrent, isOpen_iff.mpr ⟨connection, hFind, hIsOpen⟩⟩

/-- No open connection is attached to a session that is told to have none. -/
theorem unattached_of_none (hNone : n.openConnection? s = none) : n.Unattached s := by
  intro c hOpen hAttached
  cases hNone.symm.trans (openConnection?_of_attached hOpen hAttached)

/-- A call that reached its host is free once no attempt is under way for its session. -/
theorem Paced.free_of_over (h : n.Paced taken) {stage : Call.Stage} (hAt : n.CallAt k s stage)
    (hBegun : stage ≠ .pending) (hOver : ¬n.Trying s) : n.Free taken k := by
  refine h.free_of_begun hAt hBegun fun c s' hHandshake => ?_
  obtain ⟨rfl, -⟩ := hAt.unique (h.reached c s' k hHandshake)
  exact hOver (.inr ⟨c, some k, hHandshake⟩)

/-- A handshake for which a call connects is the only attempt for its session. -/
theorem Paced.ready_of_connecting (h : n.Paced taken)
    (hHandshake : n.handshake? c = some (s, some k)) : n.Ready c s := by
  obtain ⟨hHolds, hUnattached⟩ := h.lock s k (.inr ⟨c, hHandshake⟩)
  refine ⟨?_, fun j hDialling => ?_, fun c' k? hSome => ?_, fun p hSome => ?_, hUnattached⟩
  · obtain ⟨ws, hLineup⟩ := hHolds
    obtain ⟨session, hSession, -⟩ := Option.map_eq_some_iff.mp hLineup
    exact ⟨session, hSession⟩
  · obtain rfl := h.holder_of_attempts hHolds (.inl hDialling)
    obtain ⟨attempts, socket, hAt⟩ := hDialling
    cases ((h.reached c s j hHandshake).unique hAt).2
  · cases k? with
    | none => exact absurd (h.serving c' s hSome).1 hHolds.not_accepts
    | some j =>
      obtain rfl := h.holder_of_attempts hHolds (.inr ⟨c', hSome⟩)
      exact h.single c c' _ hHandshake hSome
  · cases hHandshake.symm.trans hSome
    rfl

theorem SameRequest.of_find? (h : n'.calls.find? k = n.calls.find? k) : n.SameRequest k n' :=
  fun call hCall => ⟨call.stage, h.trans hCall⟩

theorem SameRequest.trans (h : n.SameRequest k m) (h' : m.SameRequest k n') :
    n.SameRequest k n' := by
  intro call hCall
  obtain ⟨_, hMiddle⟩ := h call hCall
  obtain ⟨stage, hCall'⟩ := h' _ hMiddle
  exact ⟨stage, hCall'⟩

theorem SameRequest.restage (n : Node) (k : CallId) (stage : Call.Stage) :
    n.SameRequest k (n.modifyCall k fun call => { call with stage }) := by
  intro call hCall
  refine ⟨stage, ?_⟩
  change (n.calls.modify k _).find? k = _
  rw [SortedMap.find?_modify_self, hCall]
  rfl

/-- Before that nothing came of the call. -/
theorem Fate.after (h : m.Fate s k told n') (hSame : n.SameRequest k m) : n.Fate s k told n' := by
  cases h with
  | stays hAt hUnsent => exact .stays hAt hUnsent
  | fails hTold hFailure hEnded hFinished => exact .fails hTold hFailure hEnded hFinished
  | shut hTold hShut hEnded hFinished => exact .shut hTold hShut hEnded hFinished
  | passed hOpen hAt hUnsent hSame' hPassed hStill hWaits =>
    exact .passed hOpen hAt hUnsent (hSame.trans hSame') hPassed hStill hWaits

/-- Before that the attempt went on, or began. -/
theorem Concerns.endeavours (h : n.Concerns taken s k [] m) (hSame : n.SameRequest k m)
    (h' : m.Endeavours taken s k n') : n.Endeavours taken s k n' := by
  obtain ⟨told, hConcerns, hPursues, hFate⟩ := h'
  exact ⟨told, h.after hConcerns, hPursues.imp_right fun ⟨hOver, hOutcome⟩ =>
    ⟨hOver, hOutcome.of_tells h.tells⟩, hFate.after hSame⟩

/-- A call whose session is connected by now, or is not connected yet, is as far as it was. -/
theorem Fate.of_calm (h : n.Paced taken) (hCalm : n.Calm told n') {stage : Call.Stage}
    (hAt : n.CallAt k s stage) (hUnsent : ∀ c, stage ≠ .waiting c)
    {told' : List (SessionId × Session.Hook)} : n.Fate s k told' n' :=
  .stays (h.callAt_of_calm hCalm hAt hUnsent) hUnsent

/-! ## Requests that are sent -/

theorem sendRequest_modifyCall (n : Node) (k : CallId) (f : Call → Call) (c : ConnectionId)
    (message : Message) (ls : List (Listener Target)) :
    (n.modifyCall k f).sendRequest c message ls =
      ((n.sendRequest c message ls).1, (n.sendRequest c message ls).2.modifyCall k f) := by
  unfold sendRequest modifyCall
  dsimp only
  cases n.connections.find? c with
  | none => rfl
  | some connection =>
    dsimp only
    cases connection.outstanding with
    | none => rfl
    | some outstanding => cases (Parcel.message message).sent connection.reachable <;> rfl

/-- What a call was about does not matter when it ends. -/
theorem finish_modifyCall (n : Node) (k : CallId) (f : Call → Call) (result : Reply.Result) :
    (n.modifyCall k f).finish k result = n.finish k result := by
  have hFind := SortedMap.find?_modify_self n.calls k f
  have hErased : (n.calls.modify k f).erase k = n.calls.erase k := by
    apply SortedMap.ext_find?
    intro j
    by_cases hj : j = k
    · subst hj
      rw [SortedMap.find?_erase_self, SortedMap.find?_erase_self]
    · rw [SortedMap.find?_erase_of_ne hj, SortedMap.find?_erase_of_ne hj,
        SortedMap.find?_modify_of_ne hj]
  cases hCall : n.calls.find? k with
  | none =>
    have hNone : (n.calls.modify k f) = n.calls := SortedMap.modify_eq_self fun v hSome => by
      cases hCall.symm.trans hSome
    unfold modifyCall
    rw [hNone]
  | some call =>
    unfold Node.finish SortedMap.contains modifyCall
    simp only [hFind, hCall, Option.map_some, Option.isSome_some, if_true, hErased]

/-- Once it is settled that a request will be sent, sending it concerns nobody but its call. -/
theorem calm_transmit {call : Call} (hCall : n.calls.find? k = some call)
    (hOwn : ∀ l ∈ call.listeners, ∀ j, l.target.call? = some j → j = k) :
    (n.modifyCall k fun call => { call with stage := .waiting c }).Calm [] (n.transmit k c) := by
  have hFound : (n.modifyCall k fun call => { call with stage := .waiting c }).calls.find? k =
      some { call with stage := .waiting c } := by
    change (n.calls.modify k _).find? k = _
    rw [SortedMap.find?_modify_self, hCall]
    rfl
  have hExposed : (n.modifyCall k fun call => { call with stage := .waiting c }).Exposed k :=
    .inr ⟨_, c, hFound, rfl⟩
  have hSent : (n.modifyCall k fun call => { call with stage := .waiting c }).Calm []
      ((n.modifyCall k fun call => { call with stage := .waiting c }).sendRequest c call.message
        call.listeners).2 := by
    refine calm_sendRequest fun l hMem j hTarget => ?_
    rw [hOwn l hMem j hTarget]
    exact hExposed
  rw [sendRequest_modifyCall] at hSent
  unfold transmit
  rw [hCall]
  dsimp only
  generalize n.sendRequest c call.message call.listeners = sent at hSent ⊢
  obtain ⟨outcome, n'⟩ := sent
  have hEnds : ∀ result, (n.modifyCall k fun call => { call with stage := .waiting c }).Calm []
      (n'.finish k result) := by
    intro result
    rw [← finish_modifyCall n' k (fun call => { call with stage := .waiting c }) result]
    exact hSent.finish result fun _ => hExposed
  cases outcome with
  | error e => exact hEnds _
  | ok done =>
    dsimp only
    split
    · exact hEnds _
    · split
      · exact hEnds _
      · split
        · exact hSent.next (calm_lapse _ k _)
        · exact hSent.next (calm_emit _ rfl rfl)

/-- The request of a free call is sent. -/
theorem idles_transmit (h : n.Paced taken) (hFree : n.Free taken k) {stage : Call.Stage}
    (hAt : n.CallAt k s stage) (hUnsent : ∀ c, stage ≠ .waiting c)
    (hStage : ∀ attempts socket, stage ≠ .dialling attempts socket) (c : ConnectionId) :
    n.Idles taken k (n.transmit k c) := by
  have hSettled := idles_restage h hFree hAt hUnsent hStage (.waiting c) fun _ => nofun
  obtain ⟨call, hCall, -, -⟩ := hAt
  exact hSettled.calm (calm_transmit hCall fun l hMem j => h.own k call l j hCall hMem)

/-- A request waits on the connection that it was passed to. -/
theorem waiting_of_transmit (h : n.Paced taken) {stage : Call.Stage} (hAt : n.CallAt k s stage)
    {s' : SessionId} {c' : ConnectionId} (hWaiting : (n.transmit k c).CallAt k s' (.waiting c')) :
    s' = s ∧ c' = c := by
  have hSettled := hAt.restage (.waiting c)
  obtain ⟨call, hCall, -, -⟩ := hAt
  have hCalm := calm_transmit (c := c) hCall fun l hMem j => h.own k call l j hCall hMem
  obtain ⟨rfl, hSame⟩ := hSettled.unique (hCalm.callAt hWaiting)
  cases hSame
  exact ⟨rfl, rfl⟩

theorem sendRequest_sessions (n : Node) (c : ConnectionId) (message : Message)
    (ls : List (Listener Target)) : (n.sendRequest c message ls).2.sessions = n.sessions := by
  unfold sendRequest
  split
  · rfl
  · split <;> rfl

theorem lapse_sessions (n : Node) (k : CallId) (cause : Call → ServiceError) :
    (n.lapse k cause).sessions = n.sessions := by
  unfold lapse
  split
  · rfl
  · split
    · unfold forget
      split
      · exact finish_sessions n k _
      · exact (abandon_sessions _ _).trans (finish_sessions n k _)
    · rfl

theorem transmit_sessions (n : Node) (k : CallId) (c : ConnectionId) :
    (n.transmit k c).sessions = n.sessions := by
  unfold transmit
  split
  · rfl
  next call _ =>
    have hSent := sendRequest_sessions n c call.message call.listeners
    generalize n.sendRequest c call.message call.listeners = sent at hSent ⊢
    obtain ⟨outcome, n'⟩ := sent
    cases outcome with
    | error e => exact (finish_sessions n' k _).trans hSent
    | ok done =>
      dsimp only
      split
      · exact (finish_sessions n' k _).trans hSent
      · split
        · exact (finish_sessions n' k _).trans hSent
        · split
          · exact (lapse_sessions _ k _).trans hSent
          · exact hSent

/-- A session keeps its connection when a request is passed to one. -/
theorem openConnection?_transmit (n : Node) (k : CallId) (c : ConnectionId) (s : SessionId) :
    (n.transmit k c).openConnection? s = n.openConnection? s := by
  unfold Node.openConnection?
  rw [transmit_sessions]
  simp only [(rests_transmit n k c).isOpen]

/-- On a session that is connected, a request is sent as soon as it begins. -/
theorem begin_of_open {call : Call} (hCall : n.calls.find? k = some call)
    (hOpen : n.openConnection? call.session = some c) : n.begin k = n.transmit k c := by
  unfold begin
  rw [hCall]
  dsimp only
  rw [hOpen]

/-- A request that is passed to a closed connection fails. -/
theorem transmit_of_shut {stage : Call.Stage} (hAt : n.CallAt k s stage) {connection : Connection}
    (hConnection : n.connections.find? c = some connection)
    (hShut : connection.outstanding = none) :
    n.transmit k c = n.finish k (.error (.ofWire .notConnected)) := by
  obtain ⟨call, hCall, -, -⟩ := hAt
  unfold transmit sendRequest
  rw [hCall]
  simp only [hConnection, hShut]

/-- So does a request that no frame holds. -/
theorem transmit_of_large {call : Call} (hCall : n.calls.find? k = some call)
    {connection : Connection} (hConnection : n.connections.find? c = some connection)
    (hTable : connection.outstanding.isSome = true)
    (hLarge : Frame.maxSize < (Serial.encode call.message).length) :
    n.transmit k c = n.finish k (.error (.ofWire
      (.frameTooLarge (min (Serial.encode call.message).length Frame.maxHeader)
        Frame.maxSize))) := by
  obtain ⟨t, hSome⟩ := Option.isSome_iff_exists.mp hTable
  have hRefused := Parcel.sent_of_length_gt (p := .message call.message) hLarge connection.reachable
  unfold transmit sendRequest
  rw [hCall]
  simp only [hConnection, hSome, hRefused]
  rfl

/-! ## Attempts that fail -/

theorem finish_of_isSome (h : (n.calls.find? k).isSome = true) (result : Reply.Result) :
    n.finish k result = { n with calls := n.calls.erase k }.emit (.finished k result) := by
  unfold Node.finish SortedMap.contains
  rw [if_pos h]

/-- A call that holds its session ends and gives it up. -/
theorem concerns_giveUp (h : n.Paced taken) (hHolds : n.Holds s k) (hFree : n.Free taken k)
    {stage : Call.Stage} (hAt : n.CallAt k s stage) (result : Reply.Result) :
    n.Concerns taken s k [] ((n.finish k result).release s) ∧
      ¬((n.finish k result).release s).Trying s ∧
      ((n.finish k result).release s).calls.find? k = none ∧
      .finished k result ∈ ((n.finish k result).release s).effects := by
  obtain ⟨hEnded, hGone⟩ := concerns_finish h hFree hAt result
  have hSaid : .finished k result ∈ (n.finish k result).effects := by
    rw [finish_of_isSome hAt.isSome]
    exact List.mem_append_right _ (List.mem_singleton_self _)
  have hSame : (n.finish k result).sessions = n.sessions ∧
      (n.finish k result).connections = n.connections := by
    rw [finish_of_isSome hAt.isSome]
    exact ⟨rfl, rfl⟩
  have hStillHolds : (n.finish k result).Holds s k := by
    unfold Holds lineup?
    rw [hSame.1]
    exact hHolds
  have hDone : ¬(n.finish k result).Attempts s k := by
    rintro (⟨attempts, socket, call, hCall, -⟩ | ⟨c, hHandshake⟩)
    · cases hGone.symm.trans hCall
    · unfold handshake? at hHandshake
      rw [hSame.2] at hHandshake
      exact hFree.idle c s hHandshake
  have hUndue : ¬(n.finish k result).Due taken (.proceed k) := by
    intro hDue
    obtain ⟨s', ⟨call, hCall, -⟩, -⟩ := hEnded.paced.proceeds k hDue
    cases hGone.symm.trans hCall
  have hReleased := idles_release hEnded.paced hStillHolds hDone hUndue
  refine ⟨hEnded.next (hReleased.concerns s), ?_, ?_, ?_⟩
  · rw [hReleased.trying]
    exact hEnded.paced.not_trying hStillHolds hDone
  all_goals
    obtain ⟨sessions, effects, hEq⟩ := (n.finish k result).release_eq s
    rw [hEq]
  · exact hGone
  · exact List.mem_append_left _ hSaid

/-- The owner of a session is told why a call could not connect it. -/
theorem endeavours_giveUp (h : n.Paced taken) (hHolds : n.Holds s k) (hFree : n.Free taken k)
    {stage : Call.Stage} (hAt : n.CallAt k s stage) (hUnsent : ∀ c, stage ≠ .waiting c)
    {hook : Session.Hook} (hTold : n.Outcome s [(s, hook)]) (hFailure : hook.isFailure = true)
    (hCalm : n.Calm [(s, hook)] m) (cause : ServiceError) :
    n.Endeavours taken s k ((m.finish k (.error cause)).release s) := by
  obtain ⟨hConcerns, hOver, hGone, hSaid⟩ := concerns_giveUp (h.calm hCalm)
    (hCalm.holds.mpr hHolds) (hCalm.free hFree) (h.callAt_of_calm hCalm hAt hUnsent)
    (.error cause)
  exact ⟨[(s, hook)], (h.concerns hCalm s k).next hConcerns, .inr ⟨hOver, hTold⟩,
    .fails (List.mem_singleton_self _) hFailure hGone hSaid⟩

theorem Holds.exists_session (h : n.Holds s k) :
    ∃ session, n.sessions.find? s = some session ∧ session.isProxy = true := by
  obtain ⟨ws, hLineup⟩ := h
  obtain ⟨session, hSession, hOf⟩ := Option.map_eq_some_iff.mp hLineup
  exact ⟨session, hSession, congrArg Prod.fst hOf⟩

theorem endeavours_failToConnect (h : n.Paced taken) (hHolds : n.Holds s k)
    (hFree : n.Free taken k) {stage : Call.Stage} (hAt : n.CallAt k s stage)
    (hUnsent : ∀ c, stage ≠ .waiting c) (cause : ServiceError) :
    n.Endeavours taken s k (n.failToConnect s k cause) := by
  obtain ⟨session, hSession, -⟩ := hHolds.exists_session
  have hNotFirst : Session.Hook.connectionFailed cause ≠ .configured := nofun
  have hTold := calm_fire hSession hNotFirst
  exact endeavours_giveUp h hHolds hFree hAt hUnsent (.unconnected cause) rfl hTold cause

/-! ## Reaching for a host -/

/-- From now on, or still, a call reaches for the host of its session. -/
theorem endeavours_dialling (h : n.Paced taken) (hHolds : n.Holds s k)
    (hUnattached : n.Unattached s) (hFree : n.Free taken k) {stage : Call.Stage}
    (hAt : n.CallAt k s stage) (hUnsent : ∀ c, stage ≠ .waiting c) (attempts : Nat)
    (socket : SocketAddress) {e : Effect} (hCalm : e.isCalm = true) (hNotice : e.notice? = none) :
    n.Endeavours taken s k
      ((n.modifyCall k fun call => { call with stage := .dialling attempts socket }).emit e) := by
  have hDialling := concerns_restage h hFree hAt hUnsent (.dialling attempts socket) fun _ _ _ =>
    ⟨hHolds, hUnattached⟩
  have hAt' := hAt.restage (.dialling attempts socket)
  exact ⟨[], hDialling.next (hDialling.paced.concerns (calm_emit _ hCalm hNotice) s k),
    .inl ⟨.inl ⟨k, attempts, socket, hAt'⟩, rfl⟩, .stays hAt' fun _ => nofun⟩

theorem endeavours_dialAt (h : n.Paced taken) (hHolds : n.Holds s k)
    (hUnattached : n.Unattached s) (hFree : n.Free taken k) {stage : Call.Stage}
    (hAt : n.CallAt k s stage) (hUnsent : ∀ c, stage ≠ .waiting c) (host : PeerAddress)
    (socket : SocketAddress) (attempts : Nat) :
    n.Endeavours taken s k (n.dialAt s k host socket attempts) := by
  unfold dialAt
  split
  · exact endeavours_failToConnect h hHolds hFree hAt hUnsent _
  · exact endeavours_dialling h hHolds hUnattached hFree hAt hUnsent attempts socket rfl rfl

theorem endeavours_dial (h : n.Paced taken) (hHolds : n.Holds s k) (hUnattached : n.Unattached s)
    (hFree : n.Free taken k) {stage : Call.Stage} (hAt : n.CallAt k s stage)
    (hUnsent : ∀ c, stage ≠ .waiting c) (host : PeerAddress) :
    n.Endeavours taken s k (n.dial s k host) := by
  unfold dial
  split
  · exact endeavours_failToConnect h hHolds hFree hAt hUnsent _
  · exact endeavours_dialAt h hHolds hUnattached hFree hAt hUnsent host _ 0

/-! ## Opening -/

/-- Who connects a session makes no difference to its connection. -/
theorem openConnection?_modifySession {f : Session → Session}
    (hCurrent : ∀ old, (f old).current = old.current) (s' : SessionId) :
    (n.modifySession s f).openConnection? s' = n.openConnection? s' := by
  unfold openConnection?
  by_cases hs : s' = s
  · subst hs
    rw [find?_modifySession_self]
    cases n.sessions.find? s' with
    | none => rfl
    | some session =>
      simp only [Option.map_some, Option.bind_eq_bind, Option.bind_some, hCurrent]
      rfl
  · rw [n.find?_modifySession_of_ne hs]
    rfl

theorem openConnection?_release (n : Node) (s s' : SessionId) :
    (n.release s).openConnection? s' = n.openConnection? s' := by
  unfold Node.release
  split
  · rfl
  next session _ =>
    have hSame := openConnection?_modifySession (n := n) (s := s)
      (f := fun session =>
        { session with connecting := session.waiters.head?, waiters := session.waiters.tail })
      (fun _ => rfl) s'
    dsimp only
    split <;> exact hSame

/-- A session is told that it will be connected if it never was, and nobody is told anything
else. -/
theorem calm_prepare {session : Session} (hSession : n.sessions.find? s = some session) :
    n.Calm (if session.configured then [] else [(s, .configured)]) (n.prepare s session) := by
  unfold prepare
  split
  · exact .refl n
  · exact calm_configure hSession

/-- Once a connection is attached to its session, the owner is told so. -/
theorem calm_openConnection {connection : Connection} {session : Session}
    (hConnection : n.connections.find? c = some connection)
    (hSession : n.sessions.find? s = some session) (record? : Option PeerRecord) :
    ∃ told view, (n.attach c s record?).Calm told (n.openConnection c s record?) ∧
      n.Outcome s told ∧ (s, .connected view) ∈ told := by
  have hAttached : (n.attach c s record?).sessions.find? s =
      some { session with current := some c } := attach_session_self hSession
  obtain ⟨hPrepared, hSteady⟩ := prepare_spec hAttached
  have hKept : ((n.attach c s record?).prepare s
      { session with current := some c }).connections.find? c =
        some (connection.afterOpening s record?) := by
    rw [hSteady.connections]
    exact find?_attach_self hConnection
  have hBody := fireConnected_eq hAttached (view?_of_current hKept rfl hPrepared rfl)
  generalize Session.viewOn _ _ = view at hBody
  have hNotFirst : Session.Hook.connected view ≠ .configured := nofun
  have hFired := (calm_prepare hAttached).trans (calm_fire hPrepared hNotFirst)
  have hConnected : (n.attach c s record?).Calm
      ((if session.configured then [] else [(s, .configured)]) ++ [(s, .connected view)])
      ((n.attach c s record?).fireConnected s) := by
    rw [hBody]
    by_cases hCloses : session.behaviour.closesAtOnce = true
    · rw [if_pos (c := Behaviour.closesAtOnce _ = true) hCloses]
      exact hFired.next (calm_closeSession _ s)
    · rw [if_neg (c := Behaviour.closesAtOnce _ = true) hCloses]
      exact hFired
  have hRead := hConnected.next (calm_adjustConnection (c := c)
    (f := fun connection => { connection with reading := true }) (fun _ => rfl) (fun _ => rfl)
    fun _ => rfl)
  refine ⟨_, view, hRead.next (calm_emit _ rfl rfl), ?_, List.mem_append_right _ ?_⟩
  · cases hConfigured : session.configured with
    | true => exact .again view ⟨session, hSession, hConfigured⟩
    | false =>
      refine .first view ?_
      rintro ⟨other, hOther, hTrue⟩
      obtain rfl := Option.some.inj (hSession.symm.trans hOther)
      cases hConfigured.symm.trans hTrue
  · exact List.mem_singleton_self _

theorem tells_attach (n : Node) (c : ConnectionId) (s : SessionId) (record? : Option PeerRecord) :
    n.Tells [] (n.attach c s record?) := by
  have hOpened : n.Tells [] ((n.modifyConnection c (Connection.afterOpening s record?)).enlist c) :=
    .of_same rfl rfl
  exact hOpened.trans (tells_modifySession
    (f := fun session => { session with current := some c }) fun _ => rfl)

/-- A connection is opened, and the only attempt for its session is over. -/
theorem concerns_openConnection (h : n.Paced taken) (hReady : n.Ready c s)
    {connection : Connection} (hConnection : n.connections.find? c = some connection)
    (record? : Option PeerRecord) :
    ∃ told view, (∀ k, n.Concerns taken s k told (n.openConnection c s record?)) ∧
      ¬(n.openConnection c s record?).Trying s ∧ n.Outcome s told ∧
      (s, .connected view) ∈ told ∧
      (n.attach c s record?).Calm told (n.openConnection c s record?) := by
  obtain ⟨session, hSession⟩ := hReady.known
  obtain ⟨told, view, hCalm, hOutcome, hTold⟩ := calm_openConnection hConnection hSession record?
  have hAttached := h.attach hReady record?
  have hTrying : ∀ {s'}, (n.openConnection c s record?).Trying s' ↔
      (n.attach c s record?).Trying s' :=
    trying_congr (fun _ => hAttached.dialling_of_calm hCalm) hCalm.handshake
  refine ⟨told, view, fun k =>
    ⟨hAttached.calm hCalm, ?_, fun s' hs => ?_, fun c' s' hOpen => ?_, ?_⟩,
    ?_, hOutcome, hTold, hCalm⟩
  · have hSame : n.Leaves k (n.attach c s record?) := .of_others fun _ _ => rfl
    exact hSame.trans (hAttached.leaves_of_calm hCalm)
  · rw [hTrying]
    refine or_congr Iff.rfl (exists_congr fun c' => exists_congr fun k? => ?_)
    rw [handshake?_attach]
    refine and_iff_right_of_imp fun hHandshake => ?_
    rintro rfl
    exact hs (hReady.own _ hHandshake)
  · have hStill := hCalm.attached c' s' hOpen
    rcases openFor_attach (hCalm.openFor c' s' hOpen) with ⟨rfl, rfl⟩ | ⟨hc, hWasOpen⟩
    · exact .inr ⟨rfl, hStill.mpr ((attached_attach_self hSession).mpr rfl), view, hTold⟩
    · refine .inl ⟨hWasOpen, hStill.trans ?_⟩
      by_cases hs : s' = s
      · subst hs
        exact iff_of_false (mt (attached_attach_self hSession).mp hc)
          (hReady.unattached c' hWasOpen)
      · exact attached_attach hs
  · exact (tells_attach n c s record?).trans hCalm.tells
  · rw [hTrying]
    rintro (⟨k, hDialling⟩ | ⟨c', k?, hHandshake⟩)
    · exact hReady.undialled k hDialling
    · obtain ⟨hOther, hHandshake⟩ := handshake?_attach.mp hHandshake
      exact hOther (hReady.alone c' k? hHandshake)

/-- A connection that is opened is open for its session then, unless that closes it at once. -/
theorem openFor_or_shut {connection : Connection} {session : Session}
    (hConnection : n.connections.find? c = some connection)
    (hSession : n.sessions.find? s = some session) (record? : Option PeerRecord) :
    (n.openConnection c s record?).OpenFor c s ∨ ∃ connection',
      (n.openConnection c s record?).connections.find? c = some connection' ∧
        connection'.isOpen = false ∧ connection'.outstanding = none := by
  have hAttached : (n.attach c s record?).connections.find? c =
      some (connection.afterOpening s record?) := find?_attach_self hConnection
  obtain ⟨hConnections, -⟩ :=
    fireConnected_spec hAttached rfl (attach_session_self hSession) rfl
  have hFound : (n.openConnection c s record?).connections.find? c =
      (((n.attach c s record?).fireConnected s).connections.find? c).map fun connection =>
        { connection with reading := true } := find?_modifyConnection_self _ c _
  rw [hConnections] at hFound
  unfold OpenFor
  rw [hFound]
  split
  · rw [find?_modifyConnection_self, hAttached]
    exact .inr ⟨_, rfl, rfl, rfl⟩
  · rw [hAttached]
    exact .inl ⟨_, rfl, rfl, rfl⟩

/-! ## The handshake -/

/-- A connection is given up before it is opened, and the only attempt for its session is over. -/
theorem concerns_shut (h : n.Paced taken) (hReady : n.Ready c s) {f : Connection → Connection}
    (hStage : ∀ old, (f old).stage = .closed)
    (hOutstanding : ∀ old, (f old).outstanding = old.outstanding) :
    (∀ k, n.Concerns taken s k [] (n.modifyConnection c f)) ∧
      ¬(n.modifyConnection c f).Trying s := by
  refine ⟨fun k => ⟨h.shut hStage hOutstanding, .of_others fun _ _ => rfl, fun s' hs => ?_,
    fun c' s' hOpen => .inl ?_, .of_same rfl rfl⟩, ?_⟩
  · refine or_congr Iff.rfl (exists_congr fun c' => exists_congr fun k? => ?_)
    refine ⟨fun hHandshake => (handshake?_of_closed hStage hHandshake).2, fun hHandshake => ?_⟩
    rw [handshake?_modifyConnection_of_ne]
    · exact hHandshake
    · rintro rfl
      exact hs (hReady.own _ hHandshake)
  · exact ⟨openFor_of_shut (fun old => Connection.isOpen_of_closed (hStage old)) hOpen, .rfl⟩
  · rintro (⟨k, hDialling⟩ | ⟨c', k?, hHandshake⟩)
    · exact hReady.undialled k hDialling
    · obtain ⟨hOther, hHandshake⟩ := handshake?_of_closed hStage hHandshake
      exact hOther (hReady.alone c' k? hHandshake)

/-- The handshake of a call succeeds, and its request is passed to the connection. -/
theorem endeavours_openConnection (h : n.Paced taken)
    (hHandshake : n.handshake? c = some (s, some k)) (record? : Option PeerRecord) :
    n.Endeavours taken s k (((n.openConnection c s record?).release s).transmit k c) := by
  have hReady := h.ready_of_connecting hHandshake
  obtain ⟨connection, hConnection, -⟩ := handshake?_eq_some.mp hHandshake
  obtain ⟨session, hKnown⟩ := hReady.known
  have hHolds := (h.lock s k (.inr ⟨c, hHandshake⟩)).1
  obtain ⟨call, hCall, hSession, hStage⟩ := h.reached c s k hHandshake
  have hUnsent : ∀ c, call.stage ≠ .waiting c := by
    rw [hStage]
    exact fun _ => nofun
  obtain ⟨told, view, hConcerns, hOver, hOutcome, hTold, hCalm⟩ :=
    concerns_openConnection h hReady hConnection record?
  have hEither := openFor_or_shut hConnection hKnown record?
  have hOpened := (hConcerns k).paced
  have hKept : (n.openConnection c s record?).calls.find? k = some call :=
    (h.attach hReady record?).find?_of_calm hCalm hCall hUnsent
  have hFree := hOpened.free_of_over ⟨call, hKept, hSession, hStage⟩ nofun hOver
  have hStillHolds : (n.openConnection c s record?).Holds s k := by
    rw [hCalm.holds]
    unfold Holds
    rw [lineup?_attach]
    exact hHolds
  have hReleased := idles_release hOpened hStillHolds (fun hAttempts => hOver hAttempts.trying)
    hFree.proceed
  have hOver' := mt (hReleased.trying s).mp hOver
  obtain ⟨sessions, effects, hEq⟩ := (n.openConnection c s record?).release_eq s
  have hKept' : ((n.openConnection c s record?).release s).calls.find? k = some call := by
    rw [hEq]
    exact hKept
  have hAt : ((n.openConnection c s record?).release s).CallAt k s .reached :=
    ⟨call, hKept', hSession, hStage⟩
  have hFree' := hReleased.paced.free_of_over hAt nofun hOver'
  have hSent := idles_transmit hReleased.paced hFree' hAt (fun _ => nofun) (fun _ => nofun) c
  refine ⟨told, ((hConcerns k).next (hReleased.concerns s)).next (hSent.concerns s),
    .inr ⟨mt (hSent.trying s).mp hOver', hOutcome⟩, ?_⟩
  rcases hEither with hOpen | ⟨connection', hFound, hShut, hNobody⟩
  · have hObtained : ((n.openConnection c s record?).release s).openConnection? s = some c := by
      rw [openConnection?_release]
      exact openConnection?_of_attached hOpen
        ((hCalm.attached c s hOpen).mpr ((attached_attach_self hKnown).mpr rfl))
    exact .passed hObtained hAt (fun _ => nofun) (.of_find? (hKept'.trans hCall.symm)) rfl
      ((openConnection?_transmit ..).trans hObtained) fun _ _ =>
        waiting_of_transmit hReleased.paced hAt
  · have hRefused := transmit_of_shut (c := c) hAt (by rw [hEq]; exact hFound) hNobody
    refine .shut hTold (fun c' hOpen hAttached => ?_) ?_ ?_
    · -- Only this connection was attached, and it is closed by now.
      have hWasOpen := hReleased.openFor c' s (hSent.openFor c' s hOpen).1
      have hLinked := hWasOpen.2.mp ((hSent.openFor c' s hOpen).2.mp hAttached)
      obtain rfl := (attached_attach_self hKnown).mp ((hCalm.attached c' s hWasOpen.1).mp hLinked)
      obtain ⟨found, hSame, hIsOpen, -⟩ := hWasOpen.1
      obtain rfl := Option.some.inj (hFound.symm.trans hSame)
      cases hShut.symm.trans hIsOpen
    · rw [hRefused]
      exact (concerns_finish hReleased.paced hFree' hAt _).2
    · rw [hRefused, finish_of_isSome hAt.isSome]
      exact List.mem_append_right _ (List.mem_singleton_self _)

/-- The handshake of a call fails, and the connection is given up. -/
theorem endeavours_authenticationFailed (h : n.Paced taken)
    (hHandshake : n.handshake? c = some (s, some k)) (hook : HandshakeError)
    (cause : ServiceError) :
    n.Endeavours taken s k (((((n.modifyConnection c fun connection =>
      { connection with stage := .closed }).fire s (.authenticationFailed hook)).emit
        (.hangUp c)).finish k (.error cause)).release s) := by
  have hReady := h.ready_of_connecting hHandshake
  have hHolds := (h.lock s k (.inr ⟨c, hHandshake⟩)).1
  have hAt := h.reached c s k hHandshake
  obtain ⟨session, hSession, -⟩ := hHolds.exists_session
  obtain ⟨hShut, hOver⟩ := concerns_shut h hReady
    (f := fun connection => { connection with stage := .closed }) (fun _ => rfl) fun _ => rfl
  have hNotFirst : Session.Hook.authenticationFailed hook ≠ .configured := nofun
  have hTold := calm_fire (n := n.modifyConnection c fun connection =>
    { connection with stage := .closed }) hSession hNotFirst
  have hHungUp := hTold.next (calm_emit (e := .hangUp c) _ rfl rfl)
  have hPaced := (hShut k).paced
  have hGivenUp := endeavours_giveUp hPaced hHolds (hPaced.free_of_over hAt nofun hOver) hAt
    (fun _ => nofun) (.unauthenticated hook) rfl hHungUp cause
  exact (hShut k).endeavours (.of_find? rfl) hGivenUp

/-- The handshake by which a call connects its session goes on. -/
theorem endeavours_converseConnecting (h : n.Paced taken)
    (hHandshake : n.handshake? c = some (s, some k)) (dialogue : Dialogue Handshake.Result) :
    n.Endeavours taken s k (n.converseConnecting c s k dialogue) := by
  unfold converseConnecting
  dsimp only
  generalize dialogue.advance n.authorizer _ = progress
  obtain ⟨sent, pause⟩ := progress
  have hSpoken := calm_sendAll n c sent
  have hSame : n.SameRequest k (n.sendAll c sent) := by
    rw [sendAll_eq]
    exact .of_find? rfl
  refine (h.concerns hSpoken s k).endeavours hSame ?_
  have hPaced := h.calm hSpoken
  rw [← hSpoken.handshake] at hHandshake
  obtain ⟨connection, hConnection, hStage⟩ := handshake?_eq_some.mp hHandshake
  cases pause with
  | waiting rest =>
    have hWaits : (n.sendAll c sent).Calm []
        ((n.sendAll c sent).modifyConnection c fun connection =>
          { connection with stage := .connecting s k rest }) := by
      refine calm_modifyConnection (fun old hOld => ?_) (fun _ _ => nofun) fun _ _ _ => .inl
      obtain rfl := Option.some.inj (hConnection.symm.trans hOld)
      exact hStage.symm
    exact ⟨[], hPaced.concerns hWaits s k,
      .inl ⟨.inr ⟨c, some k, (hWaits.handshake c).trans hHandshake⟩, rfl⟩,
      .of_calm hPaced hWaits (hPaced.reached c s k hHandshake) fun _ => nofun⟩
  | «over» result =>
    cases result with
    | ok record? =>
      have hNamed : (n.sendAll c sent).Calm []
          ((n.sendAll c sent).modifyConnection c fun connection =>
            { connection with
              peer := ((n.sendAll c sent).sessions.find? s).map
                fun session => session.address.host }) :=
        calm_adjustConnection (fun _ => rfl) (fun _ => rfl) fun _ => rfl
      refine (hPaced.concerns hNamed s k).endeavours (.of_find? rfl) ?_
      rw [← hNamed.handshake] at hHandshake
      exact endeavours_openConnection (hPaced.calm hNamed) hHandshake record?
    | error cause => exact endeavours_authenticationFailed hPaced hHandshake cause _

/-! ## The call that connects -/

/-- A call that holds its session connects it if no connection is open. -/
theorem endeavours_connect (h : n.Paced taken) (hHolds : n.Holds s k) (hFree : n.Free taken k)
    (hAt : n.CallAt k s .pending) (hNone : n.openConnection? s = none) (host : PeerAddress) :
    n.Endeavours taken s k (n.connect s k host) := by
  unfold connect
  rw [hNone]
  dsimp only
  split
  · exact endeavours_dial h hHolds (unattached_of_none hNone) hFree hAt (fun _ => nofun) host
  · exact endeavours_failToConnect h hHolds hFree hAt (fun _ => nofun) _

/-- A call that has not begun makes no attempt. -/
theorem Free.not_attempts (h : n.Free taken k) (hAt : n.CallAt k s .pending) :
    ¬n.Attempts s k := by
  rintro (⟨attempts, socket, hDialling⟩ | ⟨c, hHandshake⟩)
  · cases (hAt.unique hDialling).2
  · exact h.idle c s hHandshake

/-- If a connection is open by now, the request is passed to it. -/
theorem idles_connect (h : n.Paced taken) (hHolds : n.Holds s k) (hFree : n.Free taken k)
    (hAt : n.CallAt k s .pending) (hOpen : n.openConnection? s = some c) (host : PeerAddress) :
    n.Idles taken k (n.connect s k host) ∧ n.Fate s k [] (n.connect s k host) := by
  have hReleased := idles_release h hHolds (hFree.not_attempts hAt) hFree.proceed
  obtain ⟨sessions, effects, hEq⟩ := n.release_eq s
  have hAt' : (n.release s).CallAt k s .pending := by
    rw [hEq]
    exact hAt
  obtain ⟨session, hSession, hProxy⟩ := hHolds.exists_session
  have hFree' : (n.release s).Free taken k := hFree.release hSession hProxy
  unfold connect
  rw [hOpen]
  have hSent := idles_transmit hReleased.paced hFree' hAt' (fun _ => nofun) (fun _ => nofun) c
  have hObtained := (openConnection?_release n s s).trans hOpen
  refine ⟨hReleased.trans hSent, .passed hObtained hAt' (fun _ => nofun) ?_ rfl
    ((openConnection?_transmit ..).trans hObtained) fun _ _ =>
      waiting_of_transmit hReleased.paced hAt'⟩
  rw [hEq]
  exact .of_find? rfl

end Node

end PeerServices
