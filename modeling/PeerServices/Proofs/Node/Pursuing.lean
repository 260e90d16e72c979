import PeerServices.Proofs.Node.Connecting
import PeerServices.Proofs.Node.Exchanges

/-!
# Every step goes on with at most one attempt

An attempt to connect begins when a call begins or goes on that finds no connection and nobody who
connects, or when somebody names a service that the node offers. Each later step leaves it as far as
it is, goes on with it and tells the owner if it ends, or cuts it off because the time for it is
over.

* `Node.begun?`, `Node.overrun?`: the session for which an occasion begins an attempt, or cuts one
  off. `Node.unlinked?`: the session that only gives up its connection by it.
* `Node.Settles`: what a step does to calls that sent nothing yet.
* `Node.Passes`: the four things that a step can be for attempts to connect.
* `Node.passes_meet`: every other occasion that comes in time is one of them.
-/

namespace PeerServices.Node

variable {n m n' : Node} {c : ConnectionId} {s : SessionId} {k : CallId} {taken : List Cue}
  {told : List (SessionId × Session.Hook)}

/-! ## Where attempts begin and where they are cut off -/

/-- The session that a call connects when it begins. -/
def begins? (n : Node) (k : CallId) : Option SessionId := do
  let call ← n.calls.find? k
  let session ← n.sessions.find? call.session
  if n.isConnected call.session || !session.isProxy || session.connecting.isSome then none
  else some call.session

/-- The session that a call connects when it goes on after another one. -/
def proceeds? (n : Node) (k : CallId) : Option SessionId := do
  let call ← n.calls.find? k
  let _ ← n.sessions.find? call.session
  if n.isConnected call.session then none else some call.session

/-- The session that the call of an exchange connects. -/
def exchanges? (n : Node) (p : PeerAddress) : Option SessionId := do
  let record ← n.directory.find? p
  let (s, n') ← n.exchangeSession? p
  (n'.exchangeCall p record s).2.begins? n'.nextCall

/-- The session that is made for somebody who names a service. -/
def names? (n : Node) (c : ConnectionId) (frame : Received) : Option SessionId := do
  match (← n.connections.find? c).stage with
  | .naming _ =>
    let id ← (Frame.decode ServiceId frame).toOption
    let _ ← n.services.find? id
    some n.nextSession
  | _ => none

/-- The session whose handshake is cut off when the time for it is over. -/
def expires? (n : Node) (c : ConnectionId) : Option SessionId := do
  match (← n.connections.find? c).stage with
  | .accepting s _ => some s
  | _ => none

/-- The session for which an occasion begins an attempt to connect. -/
def begun? (n : Node) : Occasion → Option SessionId
  | .move (.event (.begin k)) => n.begins? k
  | .move (.event (.proceed k)) => n.proceeds? k
  | .move (.event (.exchange p)) => n.exchanges? p
  | .move (.event (.receive c frame)) => n.names? c frame
  | _ => none

/-- The session for which an occasion cuts an attempt off. -/
def overrun? (n : Node) : Occasion → Option SessionId
  | .move (.event (.expire c)) => n.expires? c
  | _ => none

/-- The session that gives up its connection by an occasion. -/
def unlinked? : Occasion → Option SessionId
  | .unlink s => some s
  | _ => none

/-! ## What a step can be -/

/-- What a step does to calls that sent nothing yet, and whose request is sent. -/
structure Settles (n : Node) (told : List (SessionId × Session.Hook)) (n' : Node) : Prop where
  asked : ∀ s k stage, n.CallAt k s stage → (∀ c, stage ≠ .waiting c) → ¬n.Accepts s →
    n.Fate s k told n'
  sent : ∀ s k c, n'.CallAt k s (.waiting c) →
    n.CallAt k s (.waiting c) ∨ ∃ m : Node, m.openConnection? s = some c ∧ n' = m.transmit k c

/-- What a step is for attempts to connect. -/
inductive Passes (n : Node) (taken : List Cue) (k : CallId) :
    Option SessionId → Option SessionId → Node → Prop
  | idles {n' : Node} (h : n.Idles taken k n') (hSettles : n.Settles [] n') :
      Passes n taken k none none n'
  | begins {s : SessionId} {told : List (SessionId × Session.Hook)} {n' : Node}
      (hIdle : ¬n.Trying s) (hUnattached : n.Unattached s) (h : n.Concerns taken s k told n')
      (hPursues : n.Pursues s told n') (hSettles : n.Settles told n') :
      Passes n taken k (some s) none n'
  | goesOn {s : SessionId} {told : List (SessionId × Session.Hook)} {n' : Node}
      (hTrying : n.Trying s) (hUnattached : n.Unattached s) (h : n.Concerns taken s k told n')
      (hPursues : n.Pursues s told n') (hSettles : n.Settles told n') :
      Passes n taken k none none n'
  /-- The owner is told nothing. -/
  | overruns {s : SessionId} {n' : Node} (hTrying : n.Trying s) (hAccepts : n.Accepts s)
      (h : n.Concerns taken s k [] n') (hOver : ¬n'.Trying s) (hSettles : n.Settles [] n') :
      Passes n taken k none (some s) n'

/-- If the request of the one call that goes on is passed to a connection, then to an open one of
its session. -/
theorem Fate.sent (h : n.Fate s k told n') {s' : SessionId}
    (hWaiting : n'.CallAt k s' (.waiting c)) :
    ∃ m : Node, m.openConnection? s' = some c ∧ n' = m.transmit k c := by
  have hNotEnded : n'.calls.find? k ≠ none := by
    obtain ⟨call, hCall, -⟩ := hWaiting
    rw [hCall]
    nofun
  cases h with
  | stays hAt hUnsent =>
    obtain ⟨-, rfl⟩ := hAt.unique hWaiting
    exact absurd rfl (hUnsent c)
  | fails _ _ hEnded _ => exact absurd hEnded hNotEnded
  | shut _ _ hEnded _ => exact absurd hEnded hNotEnded
  | passed hOpen _ _ _ hPassed _ hWaits =>
    obtain ⟨rfl, rfl⟩ := hWaits s' c hWaiting
    exact ⟨_, hOpen, hPassed⟩

theorem Settles.of_calm (h : n.Paced taken) {told' : List (SessionId × Session.Hook)}
    (hCalm : n.Calm told' n') : n.Settles told n' where
  asked _ _ _ hAt hUnsent _ := .of_calm h hCalm hAt hUnsent
  sent _ _ _ hAt := .inl (hCalm.callAt hAt)

/-- One call goes on. -/
theorem Settles.of_leaves (hLeaves : n.Leaves k n')
    (hAsked : ∀ s stage, n.CallAt k s stage → ¬n.Accepts s → n.Fate s k told n')
    (hSent : ∀ s c, n'.CallAt k s (.waiting c) →
      ∃ m : Node, m.openConnection? s = some c ∧ n' = m.transmit k c) : n.Settles told n' where
  asked s j stage hAt hUnsent hConnects := by
    by_cases hj : j = k
    · subst hj
      exact hAsked s stage hAt hConnects
    · obtain ⟨call, hCall, hSession, rfl⟩ := hAt
      exact .stays ⟨call, hLeaves.unsent j call hj hCall hUnsent, hSession, rfl⟩ hUnsent
  sent s j c hAt := by
    by_cases hj : j = k
    · subst hj
      exact .inr (hSent s c hAt)
    · exact .inl (hLeaves.sent j s c hj hAt)

theorem Settles.of_fate (hLeaves : n.Leaves k n') {stage : Call.Stage} (hAt : n.CallAt k s stage)
    (hFate : n.Fate s k told n') : n.Settles told n' := by
  refine .of_leaves hLeaves (fun s' stage' hAt' _ => ?_) fun s' c => hFate.sent
  obtain ⟨rfl, -⟩ := hAt.unique hAt'
  exact hFate

/-- No call goes on. -/
theorem Settles.of_nobody (hLeaves : ∀ k, n.Leaves k n') : n.Settles told n' where
  asked s k stage hAt hUnsent _ := by
    obtain ⟨call, hCall, hSession, rfl⟩ := hAt
    exact .stays ⟨call, (hLeaves (k + 1)).unsent k call (Nat.succ_ne_self k).symm hCall hUnsent,
      hSession, rfl⟩ hUnsent
  sent s k c hAt := .inl ((hLeaves (k + 1)).sent k s c (Nat.succ_ne_self k).symm hAt)

/-- Before a step its call, or the session of that call, was made, or nothing of that was
touched. -/
theorem Passes.after {begun overrun : Option SessionId} (hIdles : n.Idles taken k m)
    (hOpenFor : ∀ c s, n.OpenFor c s → m.OpenFor c s)
    (hCalls : ∀ j call, n.calls.find? j = some call → m.calls.find? j = some call)
    (hSent : ∀ s j c, m.CallAt j s (.waiting c) → n.CallAt j s (.waiting c))
    (hAccepts : ∀ s, m.Accepts s → n.Accepts s) (h : m.Passes taken k begun overrun n') :
    n.Passes taken k begun overrun n' := by
  have hUnattached : ∀ {s}, m.Unattached s → n.Unattached s := by
    intro s hNone c hOpen hAttached
    have hLater := hOpenFor c s hOpen
    exact hNone c hLater ((hIdles.openFor c s hLater).2.mpr hAttached)
  have hSettles : ∀ {told}, m.Settles told n' → n.Settles told n' := by
    refine fun hSettles => ⟨fun s j stage hAt hUnsent hConnects => ?_, fun s j c hAt => ?_⟩
    · obtain ⟨call, hCall, hOf⟩ := hAt
      have hFate := hSettles.asked s j stage ⟨call, hCalls j call hCall, hOf⟩ hUnsent
        (mt (hAccepts s) hConnects)
      exact hFate.after (.of_find? ((hCalls j call hCall).trans hCall.symm))
    · exact (hSettles.sent s j c hAt).imp_left (hSent s j c)
  cases h with
  | idles h hSettled => exact .idles (hIdles.trans h) (hSettles hSettled)
  | @begins s told _ hIdle hNone h hPursues hSettled =>
    exact .begins (mt (hIdles.trying s).mpr hIdle) (hUnattached hNone)
      ((hIdles.concerns s).after h) (hPursues.imp_right fun ⟨hOver, hOutcome⟩ =>
        ⟨hOver, hOutcome.of_tells hIdles.tells⟩) (hSettles hSettled)
  | @goesOn s told _ hTrying hNone h hPursues hSettled =>
    exact .goesOn ((hIdles.trying s).mp hTrying) (hUnattached hNone)
      ((hIdles.concerns s).after h) (hPursues.imp_right fun ⟨hOver, hOutcome⟩ =>
        ⟨hOver, hOutcome.of_tells hIdles.tells⟩) (hSettles hSettled)
  | @overruns s _ hTrying hAccepting h hOver hSettled =>
    exact .overruns ((hIdles.trying s).mp hTrying) (hAccepts s hAccepting)
      ((hIdles.concerns s).after h) hOver (hSettles hSettled)

theorem Paced.passes_of_calm (h : n.Paced taken) (hCalm : n.Calm [] n') (k : CallId) :
    n.Passes taken k none none n' := .idles (h.idles hCalm k) (.of_calm h hCalm)

/-- An attempt begins with a call. -/
theorem Endeavours.begins (h : n.Endeavours taken s k n') {stage : Call.Stage}
    (hAt : n.CallAt k s stage) (hIdle : ¬n.Trying s) (hUnattached : n.Unattached s) :
    n.Passes taken k (some s) none n' := by
  obtain ⟨told, hConcerns, hPursues, hFate⟩ := h
  exact .begins hIdle hUnattached hConcerns hPursues (.of_fate hConcerns.leaves hAt hFate)

/-- A call goes on with the attempt that it makes. -/
theorem Endeavours.goesOn (h : n.Endeavours taken s k n') (hPaced : n.Paced taken)
    {stage : Call.Stage} (hAt : n.CallAt k s stage) (hAttempts : n.Attempts s k) :
    n.Passes taken k none none n' := by
  obtain ⟨told, hConcerns, hPursues, hFate⟩ := h
  exact .goesOn hAttempts.trying (hPaced.lock s k hAttempts).2 hConcerns hPursues
    (.of_fate hConcerns.leaves hAt hFate)

/-! ## Calls -/

theorem passes_begin (h : n.Paced taken) (hFree : n.Free taken k) (hAt : n.CallAt k s .pending)
    (hNotHolder : ¬n.Holds s k) : n.Passes taken k (n.begins? k) none (n.begin k) := by
  have hStays : n.Fate s k [] n := .stays hAt fun _ => nofun
  obtain ⟨call, hCall, rfl, hStage⟩ := id hAt
  unfold «begin» begins? isConnected
  simp only [hCall, Option.bind_eq_bind, Option.bind_some]
  cases hOpen : n.openConnection? call.session with
  | some c =>
    have hNone : ((n.sessions.find? call.session).bind fun session =>
        if ((some c).isSome || !session.isProxy || session.connecting.isSome) = true then none
        else some call.session) = none := by
      cases n.sessions.find? call.session <;> rfl
    rw [hNone]
    have hSent := idles_transmit h hFree hAt (fun _ => nofun) (fun _ => nofun) c
    refine .idles hSent (.of_fate hSent.leaves hAt ?_)
    exact .passed hOpen hAt (fun _ => nofun) (.of_find? rfl) rfl
      ((openConnection?_transmit ..).trans hOpen) fun _ _ => waiting_of_transmit h hAt
  | none =>
    cases hSession : n.sessions.find? call.session with
    | none => exact .idles (.refl h k) (.of_fate (Idles.refl h k).leaves hAt hStays)
    | some session =>
      simp only [Option.bind_some, Option.isSome_none, Bool.false_or]
      cases hProxy : session.isProxy with
      | false =>
        have hAccepts := (accepts_iff hSession).mpr hProxy
        have hEnded := idles_finish h hFree hAt (fun _ => nofun)
          (.error (.io ⟨.notConnected, WireError.notConnected.message⟩))
        refine .idles hEnded (.of_leaves hEnded.leaves (fun s' stage hAt' hConnects => ?_)
          fun s' c hWaiting => ?_)
        · obtain ⟨rfl, -⟩ := hAt.unique hAt'
          exact absurd hAccepts hConnects
        · obtain ⟨call', hCall', -⟩ := hWaiting
          cases (concerns_finish h hFree hAt _).2.symm.trans hCall'
      | true =>
        cases hHolder : session.connecting with
        | some holder =>
          have hQueued := idles_modifySession (k := k)
            (h.enqueue hSession hProxy hFree hAt hNotHolder) (fun _ => rfl) fun _ => rfl
          exact .idles hQueued (.of_fate hQueued.leaves hAt (.stays hAt fun _ => nofun))
        | none =>
          -- From here on the call holds its session.
          have hHeld := h.hold hSession hProxy hHolder hFree hAt.isSome
          have hHold := idles_modifySession (k := k) hHeld (fun _ => rfl) fun _ => rfl
          have hFree' : (n.modifySession call.session fun session =>
              { session with connecting := some k }).Free taken k :=
            hFree.modifySession (fun _ => rfl) fun _ _ => id
          have hNone := openConnection?_connecting call.session k hOpen
          have hConnects := endeavours_connect hHeld (holds_hold hSession hProxy) hFree' hAt hNone
            session.address.host
          have hIdle := hHeld.not_trying (holds_hold hSession hProxy) (hFree'.not_attempts hAt)
          exact ((hHold.concerns call.session).endeavours (.of_find? rfl) hConnects).begins hAt
            (mt (hHold.trying _).mpr hIdle) (unattached_of_none hOpen)

theorem passes_proceed (h : n.Paced taken) (hFree : n.Free taken k) (hAt : n.CallAt k s .pending)
    (hHolds : n.Holds s k) : n.Passes taken k (n.proceeds? k) none (n.proceed k) := by
  obtain ⟨session, hSession, -⟩ := hHolds.exists_session
  obtain ⟨call, hCall, rfl, hStage⟩ := id hAt
  unfold proceed proceeds? isConnected
  simp only [hCall, hSession, Option.bind_eq_bind, Option.bind_some]
  cases hOpen : n.openConnection? call.session with
  | some c =>
    obtain ⟨hSent, hFate⟩ := idles_connect h hHolds hFree hAt hOpen session.address.host
    exact .idles hSent (.of_fate hSent.leaves hAt hFate)
  | none =>
    exact (endeavours_connect h hHolds hFree hAt hOpen session.address.host).begins hAt
      (h.not_trying hHolds (hFree.not_attempts hAt)) (unattached_of_none hOpen)

/-- The host of a call was reached, and the handshake begins on the new connection. -/
theorem endeavours_reach (h : n.Paced taken) {line : Line} (hAt : n.CallAt k s .reached)
    (hIdle : ∀ c s', n.handshake? c ≠ some (s', some k)) (hHolds : n.Holds s k)
    (hUnattached : n.Unattached s) (hNew : n.connections.find? line.id = none)
    (dialogue : Dialogue Handshake.Result) :
    n.Endeavours taken s k (((n.join line (.connecting s k fun _ => dialogue)).emit
      (.listen line.id)).converseConnecting line.id s k dialogue) := by
  have hFound : (n.join line (.connecting s k fun _ => dialogue)).handshake? line.id =
      some (s, some k) := by
    unfold handshake? join
    rw [SortedMap.find?_insert_self]
    rfl
  have hOther : ∀ {c}, c ≠ line.id →
      (n.join line (.connecting s k fun _ => dialogue)).handshake? c = n.handshake? c := by
    intro c hc
    unfold handshake? join
    rw [SortedMap.find?_insert_of_ne hc]
  have hJoined : n.Concerns taken s k [] (n.join line (.connecting s k fun _ => dialogue)) := by
    refine ⟨h.reach line hAt hIdle hHolds hUnattached _, .of_others fun _ _ => rfl,
      fun s' hs => or_congr Iff.rfl (exists_congr fun c => exists_congr fun k? => ?_),
      fun c s' hOpen => .inl ⟨openFor_join hOpen, .rfl⟩, .of_same rfl rfl⟩
    by_cases hc : c = line.id
    · subst hc
      refine iff_of_false (fun hSome => ?_) fun hSome => ?_
      · cases hFound.symm.trans hSome
        exact hs rfl
      · unfold handshake? at hSome
        rw [hNew] at hSome
        cases hSome
    · rw [hOther hc]
  have hListens := hJoined.paced.concerns (calm_emit (e := .listen line.id) _ rfl rfl) s k
  exact (hJoined.next hListens).endeavours (.of_find? rfl)
    (endeavours_converseConnecting hListens.paced hFound dialogue)

/-- What a call makes of its host once it was reached, or of a failed attempt to reach it. -/
theorem passes_dialled (h : n.Paced taken) (k : CallId) {outcome : Except ServiceError Line}
    (hNew : ∀ line, outcome = .ok line → n.connections.find? line.id = none) :
    n.Passes taken k none none (n.dialled k outcome) := by
  unfold dialled
  split
  · exact h.passes_of_calm (calm_decline n outcome) k
  next call hCall =>
    split
    next attempts socket session hStage hSession =>
      have hAt : n.CallAt k call.session (.dialling attempts socket) := ⟨call, hCall, rfl, hStage⟩
      have hAttempts : n.Attempts call.session k := .inl ⟨attempts, socket, hAt⟩
      obtain ⟨hHolds, hUnattached⟩ := h.lock call.session k hAttempts
      have hIdle := h.idle_of_unreached hAt nofun
      have hFree := h.free_of_begun hAt nofun hIdle
      split
      next line =>
        have hReached := concerns_restage h hFree hAt (fun _ => nofun) .reached fun _ _ => nofun
        exact (hReached.endeavours (.restage n k .reached) (endeavours_reach hReached.paced
          (hAt.restage .reached) hIdle hHolds hUnattached (hNew line rfl) _)).goesOn h hAt hAttempts
      next e =>
        dsimp only
        split
        next delay _ =>
          exact (endeavours_dialling h hHolds hUnattached hFree hAt (fun _ => nofun) (attempts + 1)
            socket rfl rfl).goesOn h hAt hAttempts
        · exact (endeavours_failToConnect h hHolds hFree hAt (fun _ => nofun) e).goesOn h hAt
            hAttempts
    · exact h.passes_of_calm (calm_decline n outcome) k

theorem passes_redial (h : n.Paced taken) (k : CallId) :
    n.Passes taken k none none (n.redial k) := by
  unfold redial
  split
  · exact h.passes_of_calm (.refl n) k
  next call hCall =>
    split
    next attempts socket session hStage hSession =>
      have hAt : n.CallAt k call.session (.dialling attempts socket) := ⟨call, hCall, rfl, hStage⟩
      have hAttempts : n.Attempts call.session k := .inl ⟨attempts, socket, hAt⟩
      obtain ⟨hHolds, hUnattached⟩ := h.lock call.session k hAttempts
      have hFree := h.free_of_begun hAt nofun (h.idle_of_unreached hAt nofun)
      exact (endeavours_dialAt h hHolds hUnattached hFree hAt (fun _ => nofun) _ socket
        attempts).goesOn h hAt hAttempts
    · exact h.passes_of_calm (.refl n) k

theorem decline_connections (n : Node) (outcome : Except ServiceError Line) :
    (n.decline outcome).connections = n.connections := by
  unfold decline
  split <;> rfl

theorem passes_endDial (h : n.Paced taken) (k : CallId) {outcome : Except ServiceError Line}
    (hNew : ∀ line, outcome = .ok line → n.connections.find? line.id = none) :
    n.Passes taken k none none (n.endDial k outcome) := by
  unfold endDial
  split
  · split
    · exact h.passes_of_calm (calm_decline n outcome) k
    next session _ =>
      -- The connection that nobody needs is hung up first.
      have hDeclined := calm_decline n outcome
      obtain ⟨hCalls, -⟩ := decline_calls n outcome
      refine Passes.after (h.idles hDeclined k) (fun c s hOpen => ?_) (fun j call hCall => ?_)
        (fun s j c => hDeclined.callAt) (fun s => hDeclined.accepts.mp)
        (passes_dialled (h.calm hDeclined) k fun _ => nofun)
      · unfold OpenFor
        rw [decline_connections]
        exact hOpen
      · rwa [hCalls]
  · exact passes_dialled h k hNew

/-! ## Accepting -/

theorem Ready.calm (h : n.Ready c s) (hPaced : n.Paced taken) (hCalm : n.Calm told n') :
    n'.Ready c s where
  known := by
    obtain ⟨session, hSession⟩ := h.known
    rw [Knows, ← Option.isSome_iff_exists, ← lineup?_isSome, hCalm.lineup, lineup?_isSome,
      hSession]
    rfl
  undialled k hDialling := h.undialled k ((hPaced.dialling_of_calm hCalm).mp hDialling)
  alone c' k? hHandshake := h.alone c' k? ((hCalm.handshake c').symm.trans hHandshake)
  own p hHandshake := h.own p ((hCalm.handshake c).symm.trans hHandshake)
  unattached := hCalm.unattached h.unattached

theorem Accepts.known (h : n.Accepts s) : n.Knows s := by
  obtain ⟨holder, ws, hLineup⟩ := h
  obtain ⟨session, hSession, -⟩ := Option.map_eq_some_iff.mp hLineup
  exact ⟨session, hSession⟩

/-- The handshake of somebody who connects is the only attempt for its session. -/
theorem Paced.ready_of_accepting (h : n.Paced taken)
    (hHandshake : n.handshake? c = some (s, none)) : n.Ready c s := by
  obtain ⟨hAccepts, hUnattached⟩ := h.serving c s hHandshake
  refine ⟨hAccepts.known, fun k hDialling => (h.lock s k (.inl hDialling)).1.not_accepts hAccepts,
    fun c' k? hSome => ?_, fun p hSome => ?_, hUnattached⟩
  · cases k? with
    | none => exact h.single c c' _ hHandshake hSome
    | some k => exact absurd hAccepts (h.lock s k (.inr ⟨c', hSome⟩)).1.not_accepts
  · cases hHandshake.symm.trans hSome
    rfl

/-- Somebody is asked for the next frame of a handshake. -/
theorem concerns_await (h : n.Paced taken) (hReady : n.Ready c s) (hAccepts : n.Accepts s)
    (rest : Received → Dialogue Handshake.Result) (k : CallId) :
    n.Concerns taken s k [] (n.modifyConnection c fun connection =>
      { connection with stage := .accepting s rest }) := by
  refine ⟨?_, .of_others fun _ _ => rfl, fun s' hs =>
    or_congr Iff.rfl (exists_congr fun c' => exists_congr fun k? => ?_),
    fun c' s' hOpen => .inl ⟨openFor_of_shut (fun _ => rfl) hOpen, .rfl⟩, .of_same rfl rfl⟩
  · refine h.engage (some (s, none)) (fun _ _ => rfl) (fun _ => rfl) (fun _ => rfl)
      (fun _ _ => nofun) (fun s' hNew => ?_) fun c' p hNew hSome => ?_
    · cases hNew
      exact ⟨hAccepts, hReady.unattached⟩
    · cases hNew
      exact hReady.alone c' none hSome
  · by_cases hc : c' = c
    · subst hc
      refine iff_of_false (fun hSome => ?_) fun hSome => hs (hReady.own _ hSome)
      obtain ⟨connection, hFind, hStage⟩ := handshake?_eq_some.mp hSome
      rw [find?_modifyConnection_self] at hFind
      obtain ⟨old, -, rfl⟩ := Option.map_eq_some_iff.mp hFind
      cases hStage
      exact hs rfl
    · rw [handshake?_modifyConnection_of_ne hc]

/-- The handshake of somebody who connects goes on. -/
theorem pursues_converseAccepting (h : n.Paced taken) (hReady : n.Ready c s)
    (hAccepts : n.Accepts s) {connection : Connection}
    (hConnection : n.connections.find? c = some connection)
    (dialogue : Dialogue Handshake.Result) :
    ∃ told, (∀ k, n.Concerns taken s k told (n.converseAccepting c s dialogue)) ∧
      n.Pursues s told (n.converseAccepting c s dialogue) := by
  unfold converseAccepting
  dsimp only
  generalize dialogue.advance n.authorizer _ = progress
  obtain ⟨sent, pause⟩ := progress
  have hSpoken := calm_sendAll n c sent
  have hPaced := h.calm hSpoken
  have hReady' := hReady.calm h hSpoken
  have hConnection' : (n.sendAll c sent).connections.find? c = some connection := by
    rw [sendAll_eq]
    exact hConnection
  cases pause with
  | waiting rest =>
    have hAwaits := concerns_await hPaced hReady' (hSpoken.accepts.mpr hAccepts) rest
    have hFound := (find?_modifyConnection_self (n.sendAll c sent) c fun connection =>
      { connection with stage := .accepting s rest }).trans (congrArg (Option.map _) hConnection')
    have hHandshake := handshake?_eq_some.mpr ⟨_, hFound, rfl⟩
    exact ⟨[], fun k => (h.concerns hSpoken s k).after (hAwaits k),
      .inl ⟨.inr ⟨c, none, hHandshake⟩, rfl⟩⟩
  | «over» result =>
    cases result with
    | ok record? =>
      have hAccepted : (n.sendAll c sent).Calm [] ((n.sendAll c sent).modifyConnection c
          fun connection => { connection with acceptance := some (.ok ()) }) :=
        calm_adjustConnection (fun _ => rfl) (fun _ => rfl) fun _ => rfl
      obtain ⟨told, -, hConcerns, hOver, hOutcome, -⟩ := concerns_openConnection
        (hPaced.calm hAccepted) (hReady'.calm hPaced hAccepted)
        ((find?_modifyConnection_self _ c _).trans (congrArg (Option.map _) hConnection')) record?
      have hBefore := hSpoken.next hAccepted
      exact ⟨told, fun k => (h.concerns hBefore s k).after (hConcerns k),
        .inr ⟨hOver, hOutcome.of_tells hBefore.tells⟩⟩
    | error cause =>
      obtain ⟨session, hSession⟩ := hReady'.known
      have hNotFirst : Session.Hook.authenticationFailed cause ≠ .configured := nofun
      have hTold := hSpoken.trans (calm_fire hSession hNotFirst)
      obtain ⟨hShut, hOver⟩ := concerns_shut (h.calm hTold) (hReady.calm h hTold)
        (f := fun connection =>
          { connection with
            stage := .closed
            acceptance := some (.error (.handshakeFailed cause.message)) })
        (fun _ => rfl) fun _ => rfl
      exact ⟨_, fun k => ((h.concerns hTold s k).next (hShut k)).next
        ((hShut k).paced.concerns (calm_emit (e := .hangUp c) _ rfl rfl) s k),
        .inr ⟨hOver, .unauthenticated cause⟩⟩

theorem Tracked.unattached_of_new (h : n.Tracked) : n.Unattached n.nextSession :=
  fun _ _ ⟨_, hOld, _⟩ => Nat.lt_irrefl _ (h.sessions _ (by rw [hOld]; rfl))

/-- No attempt is made for a session that is made only now. -/
theorem Paced.ready_of_new (h : n.Paced taken) (hIdle : n.handshake? c = none) {session : Session}
    (hCurrent : session.current = none) : (n.newSession session).2.Ready c n.nextSession := by
  have hUnknown : ¬n.Knows n.nextSession := fun ⟨old, hOld⟩ =>
    Nat.lt_irrefl _ (h.sessions _ (by rw [hOld]; rfl))
  have hNobody : ∀ {k}, ¬n.Attempts n.nextSession k := by
    intro k hAttempts
    obtain ⟨old, hOld, -⟩ := (h.lock _ k hAttempts).1.exists_session
    exact hUnknown ⟨old, hOld⟩
  refine ⟨⟨session, SortedMap.find?_insert_self ..⟩, fun k hDialling => hNobody (.inl hDialling),
    fun c' k? hSome => ?_, fun p hSome => ?_, fun c' _ ⟨new, hNew, hLinked⟩ => ?_⟩
  · cases k? with
    | none => exact absurd (h.serving c' _ hSome).1.known hUnknown
    | some k => exact absurd (.inr ⟨c', hSome⟩) hNobody
  · cases hIdle.symm.trans hSome
  · cases (SortedMap.find?_insert_self ..).symm.trans hNew
    cases hCurrent.symm.trans hLinked

/-- Somebody who connects names a service. -/
theorem passes_nameService (h : n.Paced taken) {connection : Connection} {issued : Challenge}
    (hConnection : n.connections.find? c = some connection)
    (hStage : connection.stage = .naming issued) (frame : Received) (k : CallId) :
    n.Passes taken k (n.names? c frame) none (n.nameService c issued frame) := by
  have hIdle := handshake?_of_naming hConnection hStage
  unfold nameService names?
  simp only [hConnection, hStage, Option.bind_eq_bind, Option.bind_some]
  cases hDecode : Frame.decode ServiceId frame with
  | error e => exact h.passes_of_calm (calm_refuse hIdle e) k
  | ok id =>
    simp only [Except.toOption, Option.bind_some]
    cases hService : n.services.find? id with
    | none => exact h.passes_of_calm (calm_refuse hIdle _) k
    | some service =>
      let session : Session := .create service.address service.mode false service.behaviour
      have hMade : ∀ k, n.Idles taken k (n.newSession session).2 :=
        fun k => idles_newSession h rfl rfl rfl rfl
      have hReady : (n.newSession session).2.Ready c n.nextSession := h.ready_of_new hIdle rfl
      have hAccepts := (accepts_iff (n := (n.newSession session).2)
        (SortedMap.find?_insert_self n.sessions n.nextSession session)).mpr rfl
      obtain ⟨told, hConcerns, hPursues⟩ := pursues_converseAccepting (hMade k).paced hReady
        hAccepts hConnection (Handshake.accepting n.credentials service.mode id issued).run
      have hAll : ∀ k, n.Concerns taken n.nextSession k told _ :=
        fun k => ((hMade k).concerns n.nextSession).after (hConcerns k)
      refine .begins ?_ h.unattached_of_new (hAll k) (hPursues.imp_right fun ⟨hOver, hOutcome⟩ =>
        ⟨hOver, hOutcome.of_tells (hMade k).tells⟩) (.of_nobody fun k => (hAll k).leaves)
      rintro (⟨j, hDialling⟩ | ⟨c', k?, hSome⟩)
      · exact hReady.undialled j hDialling
      · obtain rfl := hReady.alone c' k? hSome
        cases hIdle.symm.trans hSome

theorem passes_receive (h : n.Paced taken) (c : ConnectionId) (frame : Received) :
    ∃ k, n.Passes taken k (n.names? c frame) none (n.receive c frame) := by
  have hNone : ∀ connection, n.connections.find? c = some connection →
      (∀ issued, connection.stage ≠ .naming issued) → n.names? c frame = none := by
    intro connection hConnection hStage
    unfold names?
    simp only [hConnection, Option.bind_eq_bind, Option.bind_some]
  unfold receive
  split
  next hFind =>
    have hUnknown : n.names? c frame = none := by
      unfold names?
      rw [hFind]
      rfl
    rw [hUnknown]
    exact ⟨0, h.passes_of_calm (.refl n) 0⟩
  next connection hConnection =>
    split
    next issued hStage => exact ⟨0, passes_nameService h hConnection hStage frame 0⟩
    next s rest hStage =>
      rw [hNone connection hConnection (by rw [hStage]; exact fun _ => nofun)]
      have hHandshake := handshake?_of_accepting hConnection hStage
      obtain ⟨hAccepts, hUnattached⟩ := h.serving c s hHandshake
      obtain ⟨told, hConcerns, hPursues⟩ := pursues_converseAccepting h
        (h.ready_of_accepting hHandshake) hAccepts hConnection (rest frame)
      exact ⟨0, .goesOn (.inr ⟨c, none, hHandshake⟩) hUnattached (hConcerns 0) hPursues
        (.of_nobody fun k => (hConcerns k).leaves)⟩
    next s k rest hStage =>
      rw [hNone connection hConnection (by rw [hStage]; exact fun _ => nofun)]
      have hHandshake := handshake?_of_connecting hConnection hStage
      exact ⟨k, (endeavours_converseConnecting h hHandshake (rest frame)).goesOn h
        (h.reached c s k hHandshake) (.inr ⟨c, hHandshake⟩)⟩
    all_goals
      next hStage =>
        rw [hNone connection hConnection (by rw [hStage]; exact fun _ => nofun)]
        split
        · exact ⟨0, h.passes_of_calm (calm_takeMessage n c frame) 0⟩
        · exact ⟨0, h.passes_of_calm (.refl n) 0⟩

/-- The time for an acceptance is over. If a service was named by then, nobody is told so. -/
theorem passes_expire (h : n.Paced taken) (c : ConnectionId) (k : CallId) :
    n.Passes taken k none (n.expires? c) (n.expire c) := by
  unfold expire expires?
  cases hFind : n.connections.find? c with
  | none => exact h.passes_of_calm (.refl n) k
  | some connection =>
    simp only [Option.map_some, Option.bind_eq_bind, Option.bind_some]
    cases hStage : connection.stage with
    | naming issued =>
      exact h.passes_of_calm (calm_refuse (handshake?_of_naming hFind hStage) _) k
    | accepting s rest =>
      have hHandshake := handshake?_of_accepting hFind hStage
      obtain ⟨hShut, hOver⟩ := concerns_shut h (h.ready_of_accepting hHandshake)
        (f := fun connection =>
          { connection with
            stage := .closed
            acceptance := some (.error (.handshakeTimeout n.handshakeLimit)) })
        (fun _ => rfl) fun _ => rfl
      have hRefused : ∀ k, n.Concerns taken s k []
          (n.refuse c (.handshakeTimeout n.handshakeLimit)) := fun k =>
        (hShut k).next ((hShut k).paced.concerns (calm_emit (e := .hangUp c) _ rfl rfl) s k)
      exact .overruns (.inr ⟨c, none, hHandshake⟩) (h.serving c s hHandshake).1 (hRefused k) hOver
        (.of_nobody fun k => (hRefused k).leaves)
    | connecting s k' rest => exact h.passes_of_calm (.refl n) k
    | opened => exact h.passes_of_calm (.refl n) k
    | closed => exact h.passes_of_calm (.refl n) k

/-! ## New calls -/

/-- The owner makes a request, which will begin soon. -/
theorem passes_request (h : n.Paced taken) (s : SessionId) (timeout : Duration) (code : UInt8)
    (payload : Bytes) (forms : List (UInt8 × Reply.Form)) (resolved : Option Reply.Result) :
    ∃ k, n.Passes taken k none none (n.request s timeout code payload forms resolved).2 := by
  obtain ⟨hMade, hAt, hFree, hNotHolder⟩ := idles_newCall h s timeout (·.write payload) code
    (fun k => forms.map fun f => ⟨f.1, .reply k f.2⟩) resolved
    fun k l hMem j hTarget => by
      obtain ⟨f, -, rfl⟩ := List.mem_map.mp hMem
      exact (Option.some.inj hTarget).symm
  have hCued := hMade.paced.cue (e := .begin n.nextCall) rfl rfl hFree.start
    (fun k hStart => by
      obtain rfl := Cue.start.inj hStart
      exact ⟨s, hAt, hNotHolder, hFree.unqueued s⟩) fun _ => nofun
  have hIdles := hMade.trans (idles_emit hCued rfl)
  refine ⟨n.nextCall, .idles hIdles (.of_leaves hIdles.leaves (fun s' stage hOld _ => ?_)
    fun s' c hWaiting => ?_)⟩
  · exact absurd (h.calls _ hOld.isSome) (Nat.lt_irrefl _)
  · cases (hAt.unique hWaiting).2

/-- The session for an exchange is there, or it is made. -/
theorem idles_exchangeSession (h : n.Paced taken) {p : PeerAddress}
    (hSession : n.exchangeSession? p = some (s, n')) :
    (∀ k, n.Idles taken k n') ∧ n'.connections = n.connections ∧ n'.calls = n.calls ∧
      ∀ s, n'.Accepts s → n.Accepts s := by
  unfold exchangeSession? at hSession
  split at hSession
  · cases hSession
    exact ⟨.refl h, rfl, rfl, fun _ => id⟩
  · split at hSession
    · cases hSession
      have hMade : ∀ k, n.Idles taken k
          (n.newSession (.create ⟨.exchange, p⟩ .restricted true .exchange)).2 :=
        fun k => idles_newSession h rfl rfl rfl rfl
      refine ⟨fun k => (hMade k).calm (.of_eq rfl rfl rfl (Nat.le_refl _) rfl rfl), rfl, rfl, ?_⟩
      rintro s ⟨holder, ws, hLineup⟩
      refine ⟨holder, ws, ?_⟩
      unfold lineup? at hLineup ⊢
      by_cases hs : s = n.nextSession
      · subst hs
        change ((n.sessions.insert n.nextSession _).find? n.nextSession).map _ = _ at hLineup
        rw [SortedMap.find?_insert_self] at hLineup
        cases hLineup
      · change ((n.sessions.insert n.nextSession _).find? s).map _ = _ at hLineup
        rwa [SortedMap.find?_insert_of_ne hs] at hLineup
    · cases hSession

/-- The call of an exchange is made and begins at once. -/
theorem passes_exchange (h : n.Paced taken) (p : PeerAddress) :
    ∃ k, n.Passes taken k (n.exchanges? p) none (n.exchange p).2 := by
  unfold exchanges?
  cases hRecord : n.directory.find? p with
  | none =>
    unfold exchange
    rw [hRecord]
    exact ⟨0, h.passes_of_calm (calm_fail n _) 0⟩
  | some record =>
    simp only [Option.bind_eq_bind, Option.bind_some]
    cases hSession : n.exchangeSession? p with
    | none =>
      unfold exchange
      rw [hRecord]
      simp only [hSession]
      exact ⟨0, h.passes_of_calm (calm_fail n _) 0⟩
    | some made =>
      obtain ⟨s, n'⟩ := made
      obtain ⟨hReady, hConnections, hCalls, hAccepts⟩ := idles_exchangeSession h hSession
      obtain ⟨hMade, hAt, hFree, hNotHolder⟩ := idles_newCall (hReady n'.nextCall).paced s
        n'.exchangeTimeout (·.put record.exported) exchangeCode
        (fun k => [⟨exchangeCode, .exchange k p⟩]) none fun k l hMem j hTarget => by
          obtain rfl := List.mem_singleton.mp hMem
          exact (Option.some.inj hTarget).symm
      rw [exchange_eq hRecord hSession]
      have hOther : ∀ {j}, j ≠ n'.nextCall →
          (n'.exchangeCall p record s).2.calls.find? j = n.calls.find? j := by
        intro j hj
        rw [← hCalls]
        exact SortedMap.find?_insert_of_ne hj _ _
      refine ⟨n'.nextCall, Passes.after ((hReady n'.nextCall).trans hMade) (fun c s' hOpen => ?_)
        (fun j call hCall => ?_) (fun s' j c hWaiting => ?_) hAccepts
        (passes_begin hMade.paced hFree hAt hNotHolder)⟩
      · unfold OpenFor at hOpen ⊢
        rwa [← hConnections] at hOpen
      · refine (hOther ?_).trans hCall
        rintro rfl
        exact Nat.lt_irrefl _ ((hReady n'.nextCall).paced.calls _ (by rw [hCalls, hCall]; rfl))
      · have hj : j ≠ n'.nextCall := by
          rintro rfl
          cases (hAt.unique hWaiting).2
        obtain ⟨call, hCall, hOf⟩ := hWaiting
        exact ⟨call, (hOther hj).symm.trans hCall, hOf⟩

/-! ## Everything that can happen -/

theorem passes_handle (h : n.Paced taken) {e : Event} (hAllows : n.Allows e)
    (hInTime : n.InTime taken (.move (.event e))) :
    ∃ k, n.Passes (taken ++ e.cue?.toList) k (n.begun? (.move (.event e)))
      (n.overrun? (.move (.event e))) (n.handle e) := by
  have hTaken := h.take e.cue?.toList
  cases e with
  | accept line => exact ⟨0, hTaken.passes_of_calm (calm_accept hAllows) 0⟩
  | receive c frame => exact passes_receive hTaken c frame
  | lose c =>
    have hLost : n.Calm [] (n.modifyConnection c fun connection =>
        { connection with reachable := false }) :=
      calm_adjustConnection (fun _ => rfl) (fun _ => rfl) fun _ => rfl
    exact ⟨0, hTaken.passes_of_calm hLost 0⟩
  | expire c => exact ⟨0, passes_expire hTaken c 0⟩
  | «begin» k =>
    obtain ⟨hFree, s, hAt, hNotHolder⟩ := h.free_of_start (hInTime.cue _ rfl)
    exact ⟨k, passes_begin hTaken hFree hAt hNotHolder⟩
  | proceed k =>
    obtain ⟨hFree, s, hAt, hHolds⟩ := h.free_of_proceed (hInTime.cue _ rfl)
    exact ⟨k, passes_proceed hTaken hFree hAt hHolds⟩
  | dialled k outcome =>
    refine ⟨k, passes_endDial hTaken k ?_⟩
    rintro line rfl
    exact hAllows
  | redial k => exact ⟨k, passes_redial hTaken k⟩
  | deliver l m =>
    have hHanded : (l, m) ∈ n.deliveries :=
      List.mem_filterMap.mpr ⟨_, hInTime.response l m rfl, rfl⟩
    exact ⟨0, hTaken.passes_of_calm (calm_deliver m fun k => .inl ∘ .takes hHanded) 0⟩
  | overdue k => exact ⟨0, hTaken.passes_of_calm (calm_lapse n k _) 0⟩
  | unwritten k => exact ⟨0, hTaken.passes_of_calm (calm_lapse n k _) 0⟩
  | exchange p => exact passes_exchange hTaken p

/-- A move that can touch an attempt to connect: something happens, or a session or a request is
made. -/
inductive Stirs : Move → Prop
  | event (e : Event) : Stirs (.event e)
  | proxy (address : ServiceAddress) (mode : Mode) (behaviour : Behaviour) :
      Stirs (.proxy address mode behaviour)
  | request (s : SessionId) (timeout : Duration) (code : UInt8) (payload : Bytes)
      (forms : List (UInt8 × Reply.Form)) (resolved : Option Reply.Result) :
      Stirs (.request s timeout code payload forms resolved)

/-- Every other move is calm. -/
theorem calm_make {m : Move} (h : ¬Stirs m) : n.Calm [] (n.make m) := by
  cases m with
  | event e => exact absurd (.event e) h
  | proxy address mode behaviour => exact absurd (.proxy address mode behaviour) h
  | request s timeout code payload forms resolved =>
    exact absurd (.request s timeout code payload forms resolved) h
  | add r => exact calm_add n r
  | update r =>
    cases hUpdate : n.update r with
    | ok n' =>
      simp only [make, hUpdate]
      exact calm_update hUpdate
    | error e =>
      simp only [make, hUpdate]
      exact .refl n
  | grant peer ids descriptors =>
    cases hGrant : n.grant peer ids descriptors with
    | ok n' =>
      simp only [make, hGrant]
      exact calm_grant hGrant
    | error e =>
      simp only [make, hGrant]
      exact .refl n
  | delete peer => exact calm_delete n peer
  | deleteService side service => exact calm_commit n _
  | purge service => exact calm_commit n _
  | post c code payload codes => exact calm_post n c code payload codes
  | close s => exact calm_closeSession n s
  | activate service | unlist service | restrict connects exchangeConnects =>
    exact .of_eq rfl rfl rfl (Nat.le_refl _) rfl rfl
  | deactivate service => exact calm_deactivate n service
  | route peer socket => cases socket <;> exact .of_eq rfl rfl rfl (Nat.le_refl _) rfl rfl
  | cancelDials => exact calm_cancelDials n
  | closeExchanges => exact calm_closeExchanges n
  | leave => exact calm_leave n
  | shutdown => exact calm_shutdown n

theorem passes_make (h : n.Paced taken) {m : Move} (hPermits : n.Permits m)
    (hInTime : n.InTime taken (.move m)) :
    ∃ k, n.Passes (taken ++ (Occasion.move m).cue?.toList) k (n.begun? (.move m))
      (n.overrun? (.move m)) (n.make m) := by
  cases m with
  | event e => exact passes_handle h hPermits hInTime
  | proxy address mode behaviour =>
    have hMade : ∀ k, n.Idles (taken ++ []) k (n.proxy address mode behaviour).2 :=
      fun k => idles_newSession (h.take []) rfl rfl rfl rfl
    exact ⟨0, .idles (hMade 0) (.of_nobody fun k => (hMade k).leaves)⟩
  | request s timeout code payload forms resolved =>
    exact passes_request (h.take []) s timeout code payload forms resolved
  | _ => exact ⟨0, (h.take []).passes_of_calm (calm_make (by nofun)) 0⟩

/-- Every occasion that comes in time goes on with at most one attempt, if it is not that a session
gives up its connection. -/
theorem passes_meet (h : n.Paced taken) {o : Occasion} (hAdmits : n.Admits o)
    (hInTime : n.InTime taken o) (hKeeps : ∀ s, o ≠ .unlink s) :
    ∃ k, n.Passes (taken ++ o.cue?.toList) k (n.begun? o) (n.overrun? o) (n.meet o) := by
  cases o with
  | move m => exact passes_make h hAdmits hInTime
  | unlink s => exact absurd rfl (hKeeps s)
  | close c => exact ⟨0, (h.take []).passes_of_calm (calm_terminate n c none) 0⟩
  | closeAll => exact ⟨0, (h.take []).passes_of_calm (calm_closeAll n) 0⟩

theorem Passes.paced {begun overrun : Option SessionId} (h : n.Passes taken k begun overrun n') :
    n'.Paced taken := by
  cases h with
  | idles h => exact h.paced
  | begins _ _ h => exact h.paced
  | goesOn _ _ h => exact h.paced
  | overruns _ _ h => exact h.paced

theorem Paced.meet (h : n.Paced taken) {o : Occasion} (hAdmits : n.Admits o)
    (hInTime : n.InTime taken o) : (n.meet o).Paced (taken ++ o.cue?.toList) := by
  cases o with
  | unlink s => exact (h.take []).unlink s
  | _ =>
    obtain ⟨k, hPasses⟩ := passes_meet h hAdmits hInTime nofun
    exact hPasses.paced

/-! ## Runs -/

section Blank

variable (h : n.Blank)
include h

theorem Blank.handshake?_eq_none (c : ConnectionId) : n.handshake? c = none := by
  simp [handshake?, h.connections]

theorem Blank.lineup?_eq_none (s : SessionId) : n.lineup? s = none := by
  simp [lineup?, h.sessions]

theorem Blank.not_callAt {stage : Call.Stage} : ¬n.CallAt k s stage := by
  simp [CallAt, h.calls]

theorem Blank.not_due {q : Cue} : ¬n.Due [] q := by
  simp [Due, cues, h.effects]

theorem Blank.locked : n.Locked where
  lock := by
    rintro s k (⟨attempts, socket, hAt⟩ | ⟨c, hSome⟩)
    · exact absurd hAt h.not_callAt
    · cases (h.handshake?_eq_none c).symm.trans hSome
  reached c s k hSome := nomatch (h.handshake?_eq_none c).symm.trans hSome
  serving c s hSome := nomatch (h.handshake?_eq_none c).symm.trans hSome
  single c _ _ hSome := nomatch (h.handshake?_eq_none c).symm.trans hSome

theorem Blank.lined : n.Lined [] where
  starts _ hDue := absurd hDue h.not_due
  proceeds _ hDue := absurd hDue h.not_due
  queue := by
    rintro s k ⟨holder, ws, hSome, -⟩
    cases (h.lineup?_eq_none s).symm.trans hSome
  line s _ _ hSome := nomatch (h.lineup?_eq_none s).symm.trans hSome
  once q := by simp [cues, h.effects]

theorem Blank.tracked : n.Tracked where
  holder := by
    rintro s k ⟨ws, hSome⟩
    cases (h.lineup?_eq_none s).symm.trans hSome
  targets k hTargeted := by
    cases hTargeted with
    | listens hFind _ _ => simp [h.connections] at hFind
    | takes hMem _ => simp [deliveries, h.effects] at hMem
  own := by simp [h.calls]
  calls := by simp [h.calls]
  sessions := by simp [h.sessions]

/-- Nothing is under way in the beginning. -/
theorem Blank.paced : n.Paced [] := ⟨h.locked, h.lined, h.tracked⟩

end Blank

/-- At every time of a timely run at most one call connects a session. -/
theorem Timely.paced {start : Node} {past : List Occasion} (h : Timely start past) :
    (start.meetAll past).Paced (cuesOf past) := by
  induction h with
  | nil h => exact h.paced
  | concat _ hAdmits hInTime ih =>
    rw [meetAll_concat, cuesOf_concat]
    exact ih.meet hAdmits hInTime

end PeerServices.Node
