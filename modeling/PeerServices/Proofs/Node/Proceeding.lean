import PeerServices.Proofs.Node.Course
import PeerServices.Proofs.Node.Opening
import PeerServices.Proofs.Node.Resting
import PeerServices.Proofs.Node.Story
import PeerServices.Proofs.Wire.Stream

/-!
# Every step is a path of turns

One lemma for each thing that a node does, up to what it makes of an event: the turns that it takes
are those that the event can bring about, and afterwards messages are taken from every open
connection if they were before.

* `Node.closeAll_eq`: that the roster is emptied first makes no difference.
* `Node.Proceeds`: a path whose turns are of some kind.
* `Event.Brings`: the turns that an event can bring about.
* `Node.proceeds_handle`, `Node.proceeds_make`: events and moves.
-/

namespace PeerServices

/-- A connection is closed by this side. -/
inductive Turn.IsLocal : Turn → Prop
  | closed (c : ConnectionId) (s : SessionId) : IsLocal (.closed c s none)

namespace Node

variable {n n' n'' : Node} {P : Turn → Prop} {c : ConnectionId} {s : SessionId}

/-- A path whose turns are of some kind. Afterwards messages are taken from every open connection if
they were before. -/
def Proceeds (P : Turn → Prop) (n n' : Node) : Prop :=
  n.Fit → ∃ ts, Path n ts n' ∧ (∀ t ∈ ts, P t) ∧ ∀ c, n'.Unread c → n.Unread c

theorem Rests.unread (h : Rests n n') (hUnread : n'.Unread c) : n.Unread c := by
  rcases (Tick.rests h).unread hUnread with hBefore | ⟨s, hMem⟩
  · exact hBefore
  · cases hMem

theorem Rests.proceeds (h : Rests n n') : Proceeds P n n' := fun _ =>
  ⟨[], .single (.rests h), nofun, fun _ => h.unread⟩

/-- A turn after which messages are taken from as many connections as before. -/
theorem Tick.proceeds {t : Turn} (h : Tick n [t] n') (hKind : P t)
    (hOther : ∀ c s, t ≠ .opened c s) : Proceeds P n n' := by
  refine fun _ => ⟨[t], .single h, fun t' hMem => ?_, fun c hUnread => ?_⟩
  · rw [List.mem_singleton.mp hMem]
    exact hKind
  · rcases h.unread hUnread with hBefore | ⟨s, hMem⟩
    · exact hBefore
    · exact absurd (List.mem_singleton.mp hMem).symm (hOther c s)

theorem Proceeds.refl (n : Node) : Proceeds P n n := (Rests.refl n).proceeds

theorem Proceeds.next (h : Proceeds P n n') (h' : n.Fit → n'.Fit → Proceeds P n' n'') :
    Proceeds P n n'' := by
  intro hFit
  obtain ⟨ts, hPath, hKind, hUnread⟩ := h hFit
  have hFit' := hPath.fit hFit
  obtain ⟨ts', hPath', hKind', hUnread'⟩ := h' hFit hFit' hFit'
  refine ⟨ts ++ ts', hPath.trans hPath', fun t hMem => ?_, fun c => hUnread c ∘ hUnread' c⟩
  rcases List.mem_append.mp hMem with hMem | hMem
  · exact hKind t hMem
  · exact hKind' t hMem

theorem Proceeds.trans (h : Proceeds P n n') (h' : Proceeds P n' n'') : Proceeds P n n'' :=
  h.next fun _ _ => h'

theorem Proceeds.mono {Q : Turn → Prop} (h : Proceeds P n n') (hKind : ∀ t, P t → Q t) :
    Proceeds Q n n' := by
  intro hFit
  obtain ⟨ts, hPath, hAll, hUnread⟩ := h hFit
  exact ⟨ts, hPath, fun t hMem => hKind t (hAll t hMem), hUnread⟩

theorem proceeds_foldl {α : Type} {f : Node → α → Node} (h : ∀ n a, Proceeds P n (f n a))
    (l : List α) (n : Node) : Proceeds P n (l.foldl f n) := by
  induction l generalizing n with
  | nil => exact .refl n
  | cons a l ih => exact (h n a).trans (ih (f n a))

/-! ## Closing -/

theorem Fit.serves (h : n.Fit) (hOpen : n.isOpen c = true) :
    ∃ s connection session, n.Serves c s connection session := by
  obtain ⟨connection, hFind, hIsOpen⟩ := isOpen_iff.mp hOpen
  obtain ⟨⟨s, hSession, session, hKnown⟩, -⟩ := h.bound c connection hFind hIsOpen
  exact ⟨s, connection, session, hFind, hIsOpen, hSession, hKnown⟩

theorem proceeds_terminate (n : Node) (c : ConnectionId) {reason : Option WireError}
    (hKind : ∀ s, P (.closed c s reason)) : Proceeds P n (n.terminate c reason) := by
  cases hOpen : n.isOpen c with
  | false =>
    rw [terminate_of_not_open hOpen]
    exact .refl n
  | true =>
    intro hFit
    obtain ⟨s, connection, session, hServes⟩ := hFit.serves hOpen
    exact (Tick.closes hServes reason).proceeds (hKind s) (fun _ _ => nofun) hFit

theorem proceeds_closeSession (n : Node) (s : SessionId) :
    Proceeds Turn.IsLocal n (n.closeSession s) := by
  unfold closeSession
  split
  · exact .refl n
  next c hCurrent => exact (rests_unlink n s).proceeds.trans (proceeds_terminate _ c (.closed c))

/-! ### The roster -/

/-- Closing a connection makes no other one shut, and does nothing if it is not open. -/
theorem isOpen_terminate (hFit : n.Fit) (c : ConnectionId) (reason : Option WireError)
    (c' : ConnectionId) :
    (n.terminate c reason).isOpen c' = true ↔ c' ≠ c ∧ n.isOpen c' = true := by
  cases hOpen : n.isOpen c with
  | false =>
    rw [terminate_of_not_open hOpen]
    refine ⟨fun h => ⟨?_, h⟩, And.right⟩
    rintro rfl
    cases hOpen.symm.trans h
  | true =>
    obtain ⟨s, connection, session, hServes⟩ := hFit.serves hOpen
    exact hServes.isOpen_terminate reason c'

theorem proceeds_terminateAll (n : Node) (cs : List ConnectionId) :
    Proceeds Turn.IsLocal n (n.terminateAll cs) :=
  proceeds_foldl (fun n c => proceeds_terminate n c (.closed c)) cs n

theorem Proceeds.fit (h : Proceeds P n n') (hFit : n.Fit) : n'.Fit := by
  obtain ⟨ts, hPath, -⟩ := h hFit
  exact hPath.fit hFit

theorem isOpen_terminateAll (hFit : n.Fit) (cs : List ConnectionId) (c : ConnectionId) :
    (n.terminateAll cs).isOpen c = true ↔ c ∉ cs ∧ n.isOpen c = true := by
  induction cs generalizing n with
  | nil => simp [terminateAll]
  | cons c' cs ih =>
    have hFit' : (n.terminate c' none).Fit := (proceeds_terminate n c' (Turn.IsLocal.closed c')).fit hFit
    have hRest : n.terminateAll (c' :: cs) = (n.terminate c' none).terminateAll cs := rfl
    rw [hRest, ih hFit', isOpen_terminate hFit, List.mem_cons, not_or]
    constructor
    · rintro ⟨hNotIn, hNe, hOpen⟩
      exact ⟨⟨hNe, hNotIn⟩, hOpen⟩
    · rintro ⟨⟨hNe, hNotIn⟩, hOpen⟩
      exact ⟨hNotIn, hNe, hOpen⟩

/-- Every open connection is closed, one after another. That the roster is emptied before makes no
difference. -/
theorem closeAll_eq (hFit : n.Fit) : n.closeAll = n.terminateAll n.roster.toList := by
  have hFit' := (proceeds_terminateAll n n.roster.toList).fit hFit
  have hNobody : (n.terminateAll n.roster.toList).roster = .empty := by
    apply SortedSet.ext_toList
    apply List.eq_nil_iff_forall_not_mem.mpr
    intro c hMem
    obtain ⟨hNotIn, hOpen⟩ := (isOpen_terminateAll hFit _ c).mp ((hFit'.roster c).mp hMem)
    exact hNotIn ((hFit.roster c).mpr hOpen)
  calc n.closeAll = (n.enroll .empty).terminateAll n.roster.toList := rfl
    _ = (n.terminateAll n.roster.toList).enroll .empty := terminateAll_enroll n _
    _ = n.terminateAll n.roster.toList := by rw [← hNobody]; rfl

theorem proceeds_closeAll (n : Node) : Proceeds Turn.IsLocal n n.closeAll := by
  intro hFit
  rw [closeAll_eq hFit]
  exact proceeds_terminateAll n _ hFit

theorem isOpen_closeAll (hFit : n.Fit) (c : ConnectionId) : n.closeAll.isOpen c = false := by
  rw [closeAll_eq hFit, ← Bool.not_eq_true, isOpen_terminateAll hFit]
  rintro ⟨hNotIn, hOpen⟩
  exact hNotIn ((hFit.roster c).mpr hOpen)

theorem proceeds_stopReading (n : Node) (c : ConnectionId) {reason : WireError}
    (hKind : ∀ s, P (.closed c s (some reason))) : Proceeds P n (n.stopReading c reason) := by
  cases hOpen : n.isOpen c with
  | false => exact (rests_stopReading hOpen reason).proceeds
  | true =>
    unfold stopReading
    rw [if_pos hOpen]
    exact proceeds_terminate n c hKind

/-! ## Opening -/

theorem rests_prepare (n : Node) (s : SessionId) (session : Session) :
    Rests n (n.prepare s session) := by
  unfold prepare
  split
  · exact .refl n
  · have hConfigured : Rests n (n.modifySession s fun session =>
        { session with configured := true }) := rests_modifySession fun _ _ hCurrent => hCurrent
    exact hConfigured.trans (rests_fire _ s .configured rfl)

/-- A connection that is attached to its session is open as soon as the owner is told. -/
theorem opens_fire {connection : Connection} {session : Session} (record? : Option PeerRecord)
    (hConnection : n.connections.find? c = some connection)
    (hUnsettled : connection.isSettled = false) (hSession : n.sessions.find? s = some session)
    (view : Session.View) :
    n.Opens c s (((n.attach c s record?).prepare s { session with current := some c }).fire s
      (.connected view)) := by
  have hAttached : (n.attach c s record?).sessions.find? s =
      some { session with current := some c } := attach_session_self hSession
  obtain ⟨hPrepared, hSteady⟩ := prepare_spec hAttached
  have hRests := rests_prepare (n.attach c s record?) s { session with current := some c }
  obtain ⟨kept, hFire⟩ := fire_eq hPrepared (.connected view)
  rw [hFire]
  generalize (n.attach c s record?).prepare s _ = prepared at hSteady hRests
  constructor
  case unsettled => exact ⟨connection, hConnection, hUnsettled⟩
  case self =>
    refine ⟨connection.afterOpening s record?, ?_, rfl, rfl, rfl⟩
    exact (congrArg (SortedMap.find? · c) hSteady.connections).trans (find?_attach_self hConnection)
  case others =>
    intro c' hc'
    exact (congrArg (SortedMap.find? · c') hSteady.connections).trans (find?_attach_of_ne hc')
  case roster => exact hRests.roster
  case known =>
    intro s' hKnown
    apply hRests.known
    rcases hKnown with rfl | ⟨old, hOld⟩
    · exact ⟨_, hAttached⟩
    · obtain ⟨new, hNew, -⟩ := remembers_attach c s record? s' old hOld
      exact ⟨new, hNew⟩
  case current =>
    intro s' new c' hNew hCurrent
    obtain ⟨middle, hMiddle, hCurrent'⟩ := hRests.current s' new c' hNew hCurrent
    obtain ⟨old, hOld, -, hSame⟩ := attach_session hMiddle
    rcases hSame with ⟨rfl, hNow⟩ | ⟨-, hStill⟩
    · exact .inl ⟨rfl, Option.some.inj (hCurrent'.symm.trans hNow)⟩
    · exact .inr ⟨old, hOld, hStill.symm.trans hCurrent'⟩
  case lasts => exact ⟨hRests.lasts.cancelled, hRests.lasts.shutDown, hRests.lasts.deaf⟩
  case effects =>
    obtain ⟨new, hNew, hQuiet⟩ := hRests.effects
    refine ⟨new ++ [.hook s (.connected view)], ?_, ?_, fun hCancelled => ?_⟩
    · change prepared.effects ++ _ = _
      rw [hNew, List.append_assoc]
      rfl
    · exact Effect.filterMap_word?_concat hQuiet _
    · have hAttachedCancelled : (n.attach c s record?).dialsCancelled = true := hCancelled
      rw [hAttachedCancelled] at hQuiet
      exact Effect.isDial_of_mem_concat hQuiet rfl

/-- A connection is opened for its session, which may hang up as soon as its owner is told. Nobody
takes messages from the connection yet. -/
theorem exists_path_fireConnected (hFit : n.Fit) {connection : Connection}
    (hConnection : n.connections.find? c = some connection)
    (hUnsettled : connection.isSettled = false) (hKnown : n.Knows s)
    (record? : Option PeerRecord) :
    ∃ ts, Path n (.opened c s :: ts) ((n.attach c s record?).fireConnected s) ∧
      (∀ t ∈ ts, t.IsLocal) ∧
      ∀ c', ((n.attach c s record?).fireConnected s).Unread c' → c' = c ∨ n.Unread c' := by
  obtain ⟨session, hSession⟩ := hKnown
  have hAttached : (n.attach c s record?).sessions.find? s =
      some { session with current := some c } := attach_session_self hSession
  obtain ⟨hPrepared, hSteady⟩ := prepare_spec hAttached
  have hKept : ((n.attach c s record?).prepare s { session with current := some c }).connections.find?
      c = some (connection.afterOpening s record?) := by
    rw [hSteady.connections]
    exact find?_attach_self hConnection
  have hBody := fireConnected_eq hAttached (view?_of_current hKept rfl hPrepared rfl)
  have hOpens := opens_fire record? hConnection hUnsettled hSession
    (Session.viewOn { session with current := some c, configured := true }
      (connection.afterOpening s record?))
  rw [hBody]
  -- From here on it does not matter how the turn was taken.
  generalize (Node.fire _ s (.connected _)) = told at hOpens ⊢
  have hTick := Tick.opens hOpens
  have hToldUnread : ∀ c', told.Unread c' → c' = c ∨ n.Unread c' := by
    intro c' hUnread
    rcases hTick.unread hUnread with hBefore | ⟨s', hMem⟩
    · exact .inr hBefore
    · cases List.mem_singleton.mp hMem
      exact .inl rfl
  split
  · obtain ⟨ts, hPath, hLocal, hUnread⟩ := proceeds_closeSession told s (hTick.fit hFit)
    exact ⟨ts, (Path.single hTick).trans hPath, hLocal,
      fun c' hUnread' => hToldUnread c' (hUnread c' hUnread')⟩
  · exact ⟨[], .single hTick, nofun, hToldUnread⟩

theorem proceeds_openConnection {connection : Connection}
    (hConnection : n.connections.find? c = some connection)
    (hUnsettled : connection.isSettled = false) (hKnown : n.Knows s) (record? : Option PeerRecord)
    (hOpened : P (.opened c s)) (hLocal : ∀ t, t.IsLocal → P t) :
    Proceeds P n (n.openConnection c s record?) := by
  intro hFit
  obtain ⟨ts, hPath, hKind, hUnread⟩ :=
    exists_path_fireConnected hFit hConnection hUnsettled hKnown record?
  rw [openConnection_eq]
  generalize (n.attach c s record?).fireConnected s = fired at hPath hUnread
  have hRead : Rests fired (fired.modifyConnection c fun connection =>
      { connection with reading := true }) :=
    rests_adjustConnection (fun _ => rfl) (fun _ => rfl) (fun _ _ => rfl) fun _ _ _ _ => rfl
  have hListens := hRead.trans (rests_emit _ (e := .listen c) rfl)
  refine ⟨.opened c s :: ts, ?_, fun t hMem => ?_, fun c' hUnread' => ?_⟩
  · have hEnd := hPath.tick (.rests hListens)
    rwa [List.append_nil] at hEnd
  · rcases List.mem_cons.mp hMem with rfl | hMem
    · exact hOpened
    · exact hLocal t (hKind t hMem)
  · rcases hUnread c' (hListens.unread hUnread') with rfl | hBefore
    · -- Messages are taken from the connection that was opened.
      obtain ⟨new, hNew, -, hNotReading⟩ := hUnread'
      change (fired.modifyConnection c' _).connections.find? c' = some new at hNew
      rw [find?_modifyConnection_self] at hNew
      obtain ⟨old, -, rfl⟩ := Option.map_eq_some_iff.mp hNew
      cases hNotReading
    · exact hBefore

/-! ## Handshakes -/

section Handshakes

variable {connection : Connection}

theorem knows_sendAll {parcels : List Parcel} (h : n.Knows s) : (n.sendAll c parcels).Knows s := by
  rw [sendAll_eq]
  exact h

theorem proceeds_converseConnecting (hConnection : n.connections.find? c = some connection)
    (hUnsettled : connection.isSettled = false) (hKnown : n.Knows s) (k : CallId)
    (dialogue : Dialogue Handshake.Result) (hOpened : P (.opened c s))
    (hLocal : ∀ t, t.IsLocal → P t) : Proceeds P n (n.converseConnecting c s k dialogue) := by
  unfold converseConnecting
  dsimp only
  generalize dialogue.advance n.authorizer _ = progress
  obtain ⟨sent, pause⟩ := progress
  apply (rests_sendAll n c sent).proceeds.trans
  have hFind : (n.sendAll c sent).connections.find? c = some connection := by
    rw [sendAll_eq]
    exact hConnection
  have hKnown' : (n.sendAll c sent).Knows s := knows_sendAll hKnown
  cases pause with
  | waiting rest =>
    apply Rests.proceeds
    refine rests_wait hFind hUnsettled rfl fun s' hAwaited => ?_
    cases hAwaited
    exact hKnown'
  | «over» result =>
    cases result with
    | ok record? =>
      have hNamed : Rests (n.sendAll c sent) ((n.sendAll c sent).modifyConnection c
          fun connection => { connection with
            peer := ((n.sendAll c sent).sessions.find? s).map fun session => session.address.host }) :=
        rests_adjustConnection (fun _ => rfl) (fun _ => rfl) (fun _ _ => rfl) fun _ _ _ => id
      have hNamedFind := (find?_modifyConnection_self (n.sendAll c sent) c fun connection =>
        { connection with peer := ((n.sendAll c sent).sessions.find? s).map fun session =>
          session.address.host }).trans (congrArg (Option.map _) hFind)
      have hOpens := proceeds_openConnection (P := P) hNamedFind hUnsettled (hNamed.known s hKnown')
        record? hOpened hLocal
      have hAfter := (rests_release (((n.sendAll c sent).modifyConnection c
        fun connection => { connection with
          peer := ((n.sendAll c sent).sessions.find? s).map fun session =>
            session.address.host }).openConnection c s record?) s).trans (rests_transmit _ k c)
      exact (hNamed.proceeds.trans hOpens).trans hAfter.proceeds
    | error cause =>
      apply Rests.proceeds
      have hGivenUp := rests_giveUp (f := fun connection => { connection with stage := .closed })
        (isOpen_of_unsettled hFind hUnsettled) (fun _ => rfl) (fun _ => rfl) fun _ => rfl
      have hTold := hGivenUp.trans (rests_fire _ s (.authenticationFailed cause) rfl)
      exact ((hTold.trans (rests_emit _ rfl)).trans (rests_finish _ k _)).trans (rests_release _ s)

theorem proceeds_converseAccepting (hConnection : n.connections.find? c = some connection)
    (hUnsettled : connection.isSettled = false) (hKnown : n.Knows s)
    (dialogue : Dialogue Handshake.Result) (hOpened : P (.opened c s))
    (hLocal : ∀ t, t.IsLocal → P t) : Proceeds P n (n.converseAccepting c s dialogue) := by
  unfold converseAccepting
  dsimp only
  generalize dialogue.advance n.authorizer _ = progress
  obtain ⟨sent, pause⟩ := progress
  apply (rests_sendAll n c sent).proceeds.trans
  have hFind : (n.sendAll c sent).connections.find? c = some connection := by
    rw [sendAll_eq]
    exact hConnection
  have hKnown' : (n.sendAll c sent).Knows s := knows_sendAll hKnown
  cases pause with
  | waiting rest =>
    apply Rests.proceeds
    refine rests_wait hFind hUnsettled rfl fun s' hAwaited => ?_
    cases hAwaited
    exact hKnown'
  | «over» result =>
    cases result with
    | ok record? =>
      have hAccepted : Rests (n.sendAll c sent) ((n.sendAll c sent).modifyConnection c
          fun connection => { connection with acceptance := some (.ok ()) }) :=
        rests_adjustConnection (fun _ => rfl) (fun _ => rfl) (fun _ _ => rfl) fun _ _ _ => id
      have hAcceptedFind := (find?_modifyConnection_self (n.sendAll c sent) c fun connection =>
        { connection with acceptance := some (.ok ()) }).trans (congrArg (Option.map _) hFind)
      exact hAccepted.proceeds.trans (proceeds_openConnection hAcceptedFind hUnsettled
        (hAccepted.known s hKnown') record? hOpened hLocal)
    | error cause =>
      apply Rests.proceeds
      have hTold := rests_fire (n.sendAll c sent) s (.authenticationFailed cause) rfl
      have hShut := (hTold.isOpen c).trans (isOpen_of_unsettled hFind hUnsettled)
      exact hTold.trans (rests_refuse hShut _)

theorem proceeds_nameService (hConnection : n.connections.find? c = some connection)
    (hUnsettled : connection.isSettled = false) (issued : Challenge) (frame : Received)
    (hOpened : ∀ s, P (.opened c s)) (hLocal : ∀ t, t.IsLocal → P t) :
    Proceeds P n (n.nameService c issued frame) := by
  have hShut := isOpen_of_unsettled hConnection hUnsettled
  unfold nameService
  split
  · exact (rests_refuse hShut _).proceeds
  · split
    · exact (rests_refuse hShut _).proceeds
    next service _ =>
      let session : Session := .create service.address service.mode false service.behaviour
      have hMade : Rests n (n.newSession session).2 := rests_newSession n rfl
      apply hMade.proceeds.trans
      exact proceeds_converseAccepting (n := (n.newSession session).2) hConnection hUnsettled
        (knows_newSession n session) _ (hOpened _) hLocal

/-- A host was reached, or an attempt to reach it failed. -/
theorem proceeds_dialled (n : Node) (k : CallId) (outcome : Except ServiceError Line)
    (hNew : ∀ line, outcome = .ok line → n.connections.find? line.id = none)
    (hJoined : ∀ line, outcome = .ok line → P (.joined line.id))
    (hOpened : ∀ line s, outcome = .ok line → P (.opened line.id s))
    (hLocal : ∀ t, t.IsLocal → P t) : Proceeds P n (n.dialled k outcome) := by
  unfold dialled
  split
  · exact (rests_decline n outcome).proceeds
  next call _ =>
    split
    next attempts session hStage hSession =>
      split
      next line =>
        let rest := (n.connectingSide session line.issued).run
        let stage : Connection.Stage := .connecting call.session k fun _ => rest
        have hReached := rests_modifyCall n k fun call => { call with stage := .reached }
        apply hReached.proceeds.trans
        let reached := n.modifyCall k fun call => { call with stage := .reached }
        let joined : Node := { reached with
          connections := reached.connections.insert line.id (Connection.create line stage) }
        have hJoins := Tick.joins (n := reached) (hNew line rfl)
          (.connecting k (fun _ => rest) ⟨session, hSession⟩)
        apply (hJoins.proceeds (hJoined line rfl) fun _ _ => nofun).trans
        have hListens : Rests joined (joined.emit (.listen line.id)) := rests_emit joined rfl
        apply hListens.proceeds.trans
        have hFound : (joined.emit (.listen line.id)).connections.find? line.id =
            some (Connection.create line stage) := SortedMap.find?_insert_self _ _ _
        exact proceeds_converseConnecting hFound rfl ⟨session, hSession⟩ k rest
          (hOpened line _ rfl) hLocal
      · dsimp only
        split
        · exact ((rests_modifyCall n k _).trans (rests_emit _ rfl)).proceeds
        · exact (rests_failToConnect n _ k _).proceeds
    · exact (rests_decline n outcome).proceeds

end Handshakes

/-! ## Messages -/

theorem proceeds_dispatch (n : Node) (c : ConnectionId) (m : Message) :
    Proceeds Turn.IsLocal n (n.dispatch c m) := by
  unfold dispatch
  split
  · exact .refl n
  next s _ =>
    dsimp only
    split
    · exact (rests_respond n c _).proceeds
    · split
      · have hAnswered := rests_answerExchange n (n.peerOf? s) m
        generalize n.answerExchange (n.peerOf? s) m = answered at hAnswered ⊢
        obtain ⟨answer, n'⟩ := answered
        cases answer with
        | ok response => exact (hAnswered.trans (rests_respond n' c _)).proceeds
        | error text => exact (hAnswered.trans (rests_respond n' c _)).proceeds
      · exact (rests_respond n c _).proceeds
    · split
      · exact (rests_respond n c _).proceeds
      next handler _ =>
        generalize handler _ m = reaction
        generalize hClosed : (if reaction.closes = true then _ else _ : Node) = closed
        have hCloses : Proceeds Turn.IsLocal n closed := by
          subst hClosed
          split
          · exact proceeds_closeSession n s
          · exact .refl n
        split
        · exact hCloses.trans (rests_respond closed c _).proceeds
        · exact hCloses
        · exact hCloses.trans (rests_respond closed c _).proceeds

end Node

/-! ## Events -/

/-- The turns that an event can bring about. A handshake begins with a new connection and succeeds
with a frame, or at once when a host was reached. A connection is closed by the other side when its
stream breaks, and by this side at any time. -/
inductive Event.Brings (n : Node) : Event → Turn → Prop
  | accepted (line : Line) : Brings n (.accept line) (.joined line.id)
  | reached (k : CallId) (line : Line) (hGoesOn : n.dialsCancelled = false) :
      Brings n (.dialled k (.ok line)) (.joined line.id)
  | openedAtOnce (k : CallId) (line : Line) (s : SessionId) (hGoesOn : n.dialsCancelled = false) :
      Brings n (.dialled k (.ok line)) (.opened line.id s)
  | opened (c : ConnectionId) (frame : Received) (s : SessionId) :
      Brings n (.receive c frame) (.opened c s)
  | broke (c : ConnectionId) (cause : WireError) (s : SessionId) :
      Brings n (.receive c (.error cause)) (.closed c s (some cause))
  | closed (e : Event) {t : Turn} (h : t.IsLocal) : Brings n e t

namespace Node

theorem proceeds_takeMessage (n : Node) (c : ConnectionId) (frame : Received) :
    Proceeds ((Event.receive c frame).Brings n) n (n.takeMessage c frame) := by
  unfold takeMessage
  split
  · split
    · exact (proceeds_dispatch n c _).mono fun t => .closed _
    · exact (rests_takeResponse n c _).proceeds
  · exact .refl n
  next e hNotCodec hDecode =>
    have hFrame : frame = .error e := by
      cases frame with
      | error cause =>
        cases hDecode
        rfl
      | ok body =>
        obtain ⟨cause, rfl⟩ := Frame.codec_of_decode hDecode
        exact (hNotCodec cause rfl).elim
    rw [hFrame]
    exact proceeds_stopReading n c fun s => .broke c e s

theorem proceeds_receive (n : Node) (c : ConnectionId) (frame : Received) :
    Proceeds ((Event.receive c frame).Brings n) n (n.receive c frame) := by
  intro hFit
  suffices hProceeds : Proceeds ((Event.receive c frame).Brings n) n (n.receive c frame) from
    hProceeds hFit
  have hLocal : ∀ t : Turn, t.IsLocal → (Event.receive c frame).Brings n t := fun t => .closed _
  unfold receive
  split
  · exact .refl n
  next connection hConnection =>
    split
    next issued hStage =>
      have hUnsettled : connection.isSettled = false := by
        unfold Connection.isSettled
        rw [hStage]
      exact proceeds_nameService hConnection hUnsettled issued frame (.opened c frame) hLocal
    next s rest hStage =>
      have hUnsettled : connection.isSettled = false := by
        unfold Connection.isSettled
        rw [hStage]
      have hAwaited : connection.awaited? = some s := by
        unfold Connection.awaited?
        rw [hStage]
      exact proceeds_converseAccepting hConnection hUnsettled
        (hFit.awaited c connection s hConnection hAwaited) _ (.opened c frame s) hLocal
    next s k rest hStage =>
      have hUnsettled : connection.isSettled = false := by
        unfold Connection.isSettled
        rw [hStage]
      have hAwaited : connection.awaited? = some s := by
        unfold Connection.awaited?
        rw [hStage]
      exact proceeds_converseConnecting hConnection hUnsettled
        (hFit.awaited c connection s hConnection hAwaited) k _ (.opened c frame s) hLocal
    all_goals
      split
      · exact proceeds_takeMessage n c frame
      · exact .refl n

theorem proceeds_endDial (n : Node) (k : CallId) (outcome : Except ServiceError Line)
    (hNew : ∀ line, outcome = .ok line → n.connections.find? line.id = none) :
    Proceeds ((Event.dialled k outcome).Brings n) n (n.endDial k outcome) := by
  have hLocal : ∀ t : Turn, t.IsLocal → (Event.dialled k outcome).Brings n t := fun t => .closed _
  unfold endDial
  split
  · split
    · exact (rests_decline n outcome).proceeds
    · exact (rests_decline n outcome).proceeds.trans
        (proceeds_dialled _ k _ (fun _ => nofun) (fun _ => nofun) (fun _ _ => nofun) hLocal)
  next hGoesOn =>
    rw [Bool.not_eq_true] at hGoesOn
    refine proceeds_dialled n k outcome hNew ?_ ?_ hLocal
    · rintro line rfl
      exact .reached k line hGoesOn
    · rintro line s rfl
      exact .openedAtOnce k line s hGoesOn

theorem proceeds_accept {line : Line} (hNew : n.connections.find? line.id = none) :
    Proceeds ((Event.accept line).Brings n) n (n.accept line) := by
  have hJoins := Tick.joins hNew (.naming line.issued)
  have hWaits : Rests { n with
        connections := n.connections.insert line.id (Connection.create line (.naming line.issued)) }
      (n.accept line) := by
    unfold accept
    exact (rests_emit _ rfl).trans (rests_emit _ rfl)
  exact (hJoins.proceeds (.accepted line) fun _ _ => nofun).trans hWaits.proceeds

/-- Every event is a path whose turns it can bring about. -/
theorem proceeds_handle {e : Event} (h : n.Allows e) : Proceeds (e.Brings n) n (n.handle e) := by
  cases e with
  | accept line => exact proceeds_accept h
  | receive c frame => exact proceeds_receive n c frame
  | lose c =>
    apply Rests.proceeds
    exact rests_adjustConnection (fun _ => rfl) (fun _ => rfl) (fun _ _ => rfl) fun _ _ _ => id
  | expire c => exact (rests_expire n c).proceeds
  | «begin» k => exact (rests_begin n k).proceeds
  | proceed k => exact (rests_proceed n k).proceeds
  | dialled k outcome =>
    apply proceeds_endDial
    rintro line rfl
    exact h
  | redial k => exact (rests_redial n k).proceeds
  | deliver listener m => exact (rests_deliver n listener m).proceeds
  | overdue k => exact (rests_lapse n k _).proceeds
  | unwritten k => exact (rests_lapse n k _).proceeds
  | exchange p => exact (rests_exchange n p).proceeds

/-! ## The owner -/

theorem proceeds_delete (n : Node) (p : PeerAddress) : Proceeds Turn.IsLocal n (n.delete p) := by
  have hDeleted : Rests n
      { n with directory := (n.directory.delete p).1, exchanges := n.exchanges.erase p } :=
    rests_of_eq rfl rfl rfl ⟨id, id, id⟩ rfl
  unfold delete
  cases n.exchanges.find? p with
  | none => exact (hDeleted.trans (rests_commit _ _)).proceeds
  | some s =>
    exact (hDeleted.proceeds.trans (proceeds_closeSession _ s)).trans (rests_commit _ _).proceeds

theorem proceeds_closeExchanges (n : Node) : Proceeds Turn.IsLocal n n.closeExchanges := by
  have hGivenUp : Rests n { n with exchanges := .empty } := rests_of_eq rfl rfl rfl ⟨id, id, id⟩ rfl
  exact hGivenUp.proceeds.trans (proceeds_foldl (fun n s => proceeds_closeSession n s) _ _)

theorem proceeds_leave (n : Node) : Proceeds Turn.IsLocal n n.leave := by
  have hDeaf : Rests n.closeExchanges
      { n.closeExchanges with listening := false, shutDown := true } :=
    rests_of_eq rfl rfl rfl ⟨id, fun _ => rfl, fun _ => rfl⟩ rfl
  exact ((proceeds_closeExchanges n).trans hDeaf.proceeds).trans (proceeds_closeAll _)

theorem proceeds_shutdown (n : Node) : Proceeds Turn.IsLocal n n.shutdown := by
  unfold shutdown
  split
  · exact .refl n
  · exact (rests_cancelDials n).proceeds.trans (proceeds_leave _)

/-- The turns that a move can bring about. The owner only ever closes connections. -/
def Move.Brings (n : Node) : Move → Turn → Prop
  | .event e => e.Brings n
  | _ => Turn.IsLocal

theorem proceeds_make {m : Move} (h : n.Permits m) : Proceeds (m.Brings n) n (n.make m) := by
  cases m with
  | event e => exact proceeds_handle h
  | add r => exact (rests_add n r).proceeds
  | update r =>
    cases hUpdate : n.update r with
    | ok n' =>
      simp only [make, hUpdate]
      exact (rests_update hUpdate).proceeds
    | error e =>
      simp only [make, hUpdate]
      exact .refl n
  | grant peer ids descriptors =>
    cases hGrant : n.grant peer ids descriptors with
    | ok n' =>
      simp only [make, hGrant]
      exact (rests_grant hGrant).proceeds
    | error e =>
      simp only [make, hGrant]
      exact .refl n
  | delete peer => exact proceeds_delete n peer
  | deleteService side service => exact (rests_commit n _).proceeds
  | purge service => exact (rests_commit n _).proceeds
  | proxy address mode behaviour =>
    have hUnused : (Session.create address mode true behaviour).current = none := rfl
    exact (rests_newSession n hUnused).proceeds
  | request s timeout code payload forms resolved =>
    exact (rests_request n s timeout code payload forms resolved).proceeds
  | post c code payload codes => exact (rests_post n c code payload codes).proceeds
  | close s => exact proceeds_closeSession n s
  | activate service | unlist service | restrict connects exchangeConnects =>
    apply Rests.proceeds
    exact rests_of_eq rfl rfl rfl ⟨id, id, id⟩ rfl
  | deactivate service => exact (rests_deactivate n service).proceeds
  | route peer socket =>
    apply Rests.proceeds
    cases socket <;> exact rests_of_eq rfl rfl rfl ⟨id, id, id⟩ rfl
  | cancelDials => exact (rests_cancelDials n).proceeds
  | closeExchanges => exact proceeds_closeExchanges n
  | leave => exact proceeds_leave n
  | shutdown => exact proceeds_shutdown n

end Node

end PeerServices
