import PeerServices.Node.Step
import PeerServices.Proofs.Directory.Lookup

/-!
# What telling a session changes

Hooks are effects, and sessions for exchanges are kept or dropped on them. Nothing else changes, so
what is kept for connections, sessions and calls stays as it is.

* `Node.fire_eq`: a hook of a session that exists.
* `Node.find?_modifyConnection_self`, `Node.find?_modifySession_self` and the same for other ones:
  look-ups after a change.
-/

namespace PeerServices

namespace Session.Hook

/-- A session has a connection, or has none, after its owner was told this. -/
def ended? : Session.Hook → Option Bool
  | .configured => none
  | .connected _ => some false
  | .closed _ | .authenticationFailed _ | .connectionFailed _ => some true

theorem eq_configured {hook : Session.Hook} (h : hook.ended? = none) : hook = .configured := by
  cases hook <;> first | rfl | cases h

theorem eq_connected {hook : Session.Hook} (h : hook.ended? = some false) :
    ∃ view, hook = .connected view := by
  cases hook <;> first | exact ⟨_, rfl⟩ | cases h

end Session.Hook

/-- What is kept for a connection that was open. -/
def Connection.afterClosing (connection : Connection) : Connection :=
  { connection with stage := .closed, outstanding := none, reading := false, session := none }

/-- What is kept for a connection that is open on behalf of a session. -/
def Connection.afterOpening (s : SessionId) (record? : Option PeerRecord)
    (connection : Connection) : Connection :=
  { connection with
    stage := .opened
    peer := connection.peer.or (record?.map PeerRecord.address)
    record := record?
    session := some s
    outstanding := some .empty }

namespace Node

/-! ## Look-ups -/

section Lookups

variable (n : Node)

theorem find?_modifyConnection_self (c : ConnectionId) (f : Connection → Connection) :
    (n.modifyConnection c f).connections.find? c = (n.connections.find? c).map f :=
  SortedMap.find?_modify_self n.connections c f

theorem find?_modifyConnection_of_ne {c c' : ConnectionId} (h : c' ≠ c)
    (f : Connection → Connection) :
    (n.modifyConnection c f).connections.find? c' = n.connections.find? c' :=
  SortedMap.find?_modify_of_ne h n.connections f

theorem find?_modifySession_self (s : SessionId) (f : Session → Session) :
    (n.modifySession s f).sessions.find? s = (n.sessions.find? s).map f :=
  SortedMap.find?_modify_self n.sessions s f

theorem find?_modifySession_of_ne {s s' : SessionId} (h : s' ≠ s) (f : Session → Session) :
    (n.modifySession s f).sessions.find? s' = n.sessions.find? s' :=
  SortedMap.find?_modify_of_ne h n.sessions f

end Lookups

/-! ## Who is at the other side -/

variable {n : Node}

theorem isOpen_iff {c : ConnectionId} : n.isOpen c = true ↔
    ∃ connection, n.connections.find? c = some connection ∧ connection.isOpen = true := by
  unfold isOpen
  cases n.connections.find? c <;> simp

theorem openConnection?_eq_some {s : SessionId} {c : ConnectionId} :
    n.openConnection? s = some c ↔ ∃ session, n.sessions.find? s = some session ∧
      session.current = some c ∧ n.isOpen c = true := by
  unfold openConnection?
  simp only [Option.bind_eq_bind, Option.bind_eq_some_iff, Option.ite_none_right_eq_some,
    Option.some.injEq]
  constructor
  · rintro ⟨session, hSession, c', hCurrent, hOpen, rfl⟩
    exact ⟨session, hSession, hCurrent, hOpen⟩
  · rintro ⟨session, hSession, hCurrent, hOpen⟩
    exact ⟨session, hSession, c, hCurrent, hOpen, rfl⟩

section Peer

variable {s : SessionId} {session : Session}

theorem peerOf?_of_isProxy (h : n.sessions.find? s = some session)
    (hProxy : session.isProxy = true) : n.peerOf? s = some session.address.host := by
  unfold peerOf?
  simp [h, hProxy]

theorem peerOf?_eq_some (h : n.sessions.find? s = some session)
    (hServing : session.isProxy = false) {p : PeerAddress} :
    n.peerOf? s = some p ↔ ∃ c connection, session.current = some c ∧
      n.connections.find? c = some connection ∧ connection.isOpen = true ∧
      connection.peer = some p := by
  unfold peerOf? currentConnection?
  simp only [h, hServing, Option.bind_eq_bind, Option.bind_some, Bool.false_eq_true, if_false,
    Option.bind_eq_some_iff, openConnection?_eq_some, isOpen_iff, Option.some.injEq]
  constructor
  · rintro ⟨connection, ⟨c, ⟨_, rfl, hCurrent, connection', hFind', hOpen⟩, hFind⟩, hPeer⟩
    obtain rfl := Option.some.inj (hFind.symm.trans hFind')
    exact ⟨c, connection, hCurrent, hFind, hOpen, hPeer⟩
  · rintro ⟨c, connection, hCurrent, hFind, hOpen, hPeer⟩
    exact ⟨connection, ⟨c, ⟨session, rfl, hCurrent, connection, hFind, hOpen⟩, hFind⟩, hPeer⟩

/-- A session that accepted its connection and lost it has nobody at the other side. -/
theorem peerOf?_of_current (h : n.sessions.find? s = some session)
    (hServing : session.isProxy = false) (hCurrent : session.current = none) :
    n.peerOf? s = none := by
  rw [Option.eq_none_iff_forall_ne_some]
  intro p hPeer
  obtain ⟨c, _, hSome, _⟩ := (peerOf?_eq_some h hServing).mp hPeer
  rw [hCurrent] at hSome
  cases hSome

end Peer

/-! ## Sessions for exchanges -/


theorem keepExchange_spec (n : Node) (s : SessionId) :
    ∃ kept, n.keepExchange s = { n with exchanges := kept } ∧ ∀ p s',
      (kept.find? p = some s' →
        n.exchanges.find? p = some s' ∨ (s' = s ∧ n.peerOf? s = some p)) ∧
      (n.exchanges.find? p = some s' →
        kept.find? p = some s' ∨ (s' ≠ s ∧ n.peerOf? s = some p)) := by
  have hInsert : ∀ peer, n.peerOf? s = some peer → ∀ p s',
      ((n.exchanges.insert peer s).find? p = some s' →
        n.exchanges.find? p = some s' ∨ (s' = s ∧ n.peerOf? s = some p)) := by
    intro peer hPeer p s' hFind
    rcases SortedMap.find?_insert_eq_some hFind with ⟨rfl, rfl⟩ | ⟨_, hFind⟩
    · exact .inr ⟨rfl, hPeer⟩
    · exact .inl hFind
  have hLost : ∀ peer, n.peerOf? s = some peer → ∀ p s', n.exchanges.find? p = some s' →
      (p = peer → s' ≠ s) →
        (n.exchanges.insert peer s).find? p = some s' ∨ (s' ≠ s ∧ n.peerOf? s = some p) := by
    intro peer hPeer p s' hFind hOther
    by_cases hKey : p = peer
    · exact .inr ⟨hOther hKey, hKey ▸ hPeer⟩
    · exact .inl ((SortedMap.find?_insert_of_ne hKey _ _).trans hFind)
  unfold keepExchange
  split
  · exact ⟨n.exchanges, rfl, fun p s' => ⟨.inl, .inl⟩⟩
  · next peer hPeer =>
    split
    · next hNone =>
      refine ⟨_, rfl, fun p s' => ⟨hInsert peer hPeer p s', fun hFind => ?_⟩⟩
      apply hLost peer hPeer p s' hFind
      rintro rfl
      rw [hNone] at hFind
      cases hFind
    · next kept hKept =>
      split
      · next hOther =>
        refine ⟨_, rfl, fun p s' => ⟨hInsert peer hPeer p s', fun hFind => ?_⟩⟩
        apply hLost peer hPeer p s' hFind
        rintro rfl
        rw [hKept] at hFind
        exact Option.some.inj hFind ▸ hOther.1
      · exact ⟨n.exchanges, rfl, fun p s' => ⟨.inl, .inl⟩⟩

theorem dropExchange_spec (n : Node) (s : SessionId) :
    ∃ kept, n.dropExchange s = { n with exchanges := kept } ∧ ∀ p s',
      (kept.find? p = some s' →
        n.exchanges.find? p = some s' ∧ ¬(s' = s ∧ n.peerOf? s = some p)) ∧
      (n.exchanges.find? p = some s' →
        kept.find? p = some s' ∨ (s' = s ∧ n.peerOf? s = some p)) := by
  unfold dropExchange
  split
  · next hNone =>
    refine ⟨n.exchanges, rfl, fun p s' => ⟨fun hFind => ⟨hFind, fun h => ?_⟩, .inl⟩⟩
    rw [hNone] at h
    cases h.2
  · next peer hPeer =>
    split
    · next hKept =>
      refine ⟨_, rfl, fun p s' => ⟨fun hFind => ?_, fun hFind => ?_⟩⟩
      · obtain ⟨hKey, hFind⟩ := SortedMap.find?_erase_eq_some hFind
        refine ⟨hFind, fun h => hKey ?_⟩
        exact Option.some.inj (h.2.symm.trans hPeer)
      · by_cases hKey : p = peer
        · subst hKey
          exact .inr ⟨Option.some.inj (hFind.symm.trans hKept), hPeer⟩
        · exact .inl ((SortedMap.find?_erase_of_ne hKey _).trans hFind)
    · next hKept =>
      refine ⟨n.exchanges, rfl, fun p s' => ⟨fun hFind => ⟨hFind, ?_⟩, .inl⟩⟩
      rintro ⟨rfl, hSame⟩
      obtain rfl := Option.some.inj (hSame.symm.trans hPeer)
      exact hKept hFind

/-! ## Hooks -/

variable {s : SessionId} {session : Session}

theorem fire_configured (h : n.sessions.find? s = some session) :
    n.fire s .configured = n.emit (.hook s .configured) := by
  unfold fire
  rw [h]
  cases hBehaviour : session.behaviour <;> simp only [hBehaviour]

/-- Only sessions that exchange grants are kept or dropped. -/
theorem fire_of_application (h : n.sessions.find? s = some session)
    (hBehaviour : session.behaviour ≠ .exchange) (hook : Session.Hook) :
    n.fire s hook = n.emit (.hook s hook) := by
  unfold fire
  rw [h]
  cases hKind : session.behaviour with
  | application handlers closes => simp only [hKind]
  | exchange => exact absurd hKind hBehaviour

theorem fire_connected (h : n.sessions.find? s = some session)
    (hBehaviour : session.behaviour = .exchange) (view : Session.View) :
    n.fire s (.connected view) = (n.emit (.hook s (.connected view))).keepExchange s := by
  unfold fire
  rw [h]
  simp only [hBehaviour]

theorem fire_ended (h : n.sessions.find? s = some session)
    (hBehaviour : session.behaviour = .exchange) {hook : Session.Hook}
    (hEnded : hook.ended? = some true) :
    n.fire s hook = (n.emit (.hook s hook)).dropExchange s := by
  unfold fire
  rw [h]
  cases hook with
  | configured => cases hEnded
  | connected view => cases hEnded
  | closed _ | authenticationFailed _ | connectionFailed _ => simp only [hBehaviour]

theorem fire_eq (h : n.sessions.find? s = some session) (hook : Session.Hook) :
    ∃ kept, n.fire s hook =
      { n with effects := n.effects ++ [.hook s hook], exchanges := kept } := by
  by_cases hBehaviour : session.behaviour = .exchange
  · cases hEnded : hook.ended? with
    | none =>
      obtain rfl := Session.Hook.eq_configured hEnded
      exact ⟨n.exchanges, fire_configured h⟩
    | some ended =>
      cases ended with
      | true =>
        obtain ⟨kept, hKept, _⟩ := (n.emit (.hook s hook)).dropExchange_spec s
        exact ⟨kept, (fire_ended h hBehaviour hEnded).trans hKept⟩
      | false =>
        obtain ⟨view, rfl⟩ := Session.Hook.eq_connected hEnded
        obtain ⟨kept, hKept, _⟩ := (n.emit (.hook s (.connected view))).keepExchange_spec s
        exact ⟨kept, (fire_connected h hBehaviour view).trans hKept⟩
  · exact ⟨n.exchanges, fire_of_application h hBehaviour hook⟩

/-- A session that does not exist is told nothing. -/
theorem fire_none (h : n.sessions.find? s = none) (hook : Session.Hook) : n.fire s hook = n := by
  unfold fire
  rw [h]

/-! ## Parcels of a dialogue -/

/-- The parcels of a dialogue go out. -/
def sendAll (n : Node) (c : ConnectionId) (parcels : List Parcel) : Node :=
  parcels.foldl (fun n parcel => n.emit (.send c parcel)) n

theorem sendAll_eq (n : Node) (c : ConnectionId) (parcels : List Parcel) :
    n.sendAll c parcels = { n with effects := n.effects ++ parcels.map (.send c) } := by
  induction parcels generalizing n with
  | nil => simp only [sendAll, List.foldl_nil, List.map_nil, List.append_nil]
  | cons parcel parcels ih =>
    change (n.emit (.send c parcel)).sendAll c parcels = _
    rw [ih]
    simp only [emit, List.map_cons, List.append_assoc, List.singleton_append]

/-! ## Steps that leave connections alone -/

/-- The connections and the roster are the same, and the effects were only added to. -/
structure Steady (n n' : Node) : Prop where
  connections : n'.connections = n.connections
  roster : n'.roster = n.roster
  effects : ∃ new, n'.effects = n.effects ++ new

section Steady

variable (n : Node)

theorem Steady.refl : Steady n n := ⟨rfl, rfl, [], (List.append_nil _).symm⟩

variable {n}

theorem Steady.trans {n' n'' : Node} (h : Steady n n') (h' : Steady n' n'') : Steady n n'' := by
  obtain ⟨new, hNew⟩ := h.effects
  obtain ⟨new', hNew'⟩ := h'.effects
  exact ⟨h'.connections.trans h.connections, h'.roster.trans h.roster, new ++ new', by
    rw [hNew', hNew, List.append_assoc]⟩

/-- What leaves the roster alone can be done before or after a connection is taken off it. -/
theorem Steady.strike {n' : Node} (h : Steady n n') (c : ConnectionId) :
    Steady (n.strike c) (n'.strike c) :=
  ⟨h.connections, congrArg (·.erase c) h.roster, h.effects⟩

variable (n)

theorem steady_emit (e : Effect) : Steady n (n.emit e) := ⟨rfl, rfl, [e], rfl⟩

theorem steady_modifySession (s : SessionId) (f : Session → Session) :
    Steady n (n.modifySession s f) := ⟨rfl, rfl, [], (List.append_nil _).symm⟩

theorem steady_fire (s : SessionId) (hook : Session.Hook) : Steady n (n.fire s hook) := by
  cases hSession : n.sessions.find? s with
  | none =>
    rw [fire_none hSession]
    exact Steady.refl n
  | some session =>
    obtain ⟨kept, hKept⟩ := fire_eq hSession hook
    rw [hKept]
    exact ⟨rfl, rfl, _, rfl⟩

theorem steady_finish (k : CallId) (result : Reply.Result) : Steady n (n.finish k result) := by
  unfold finish
  split
  · exact ⟨rfl, rfl, _, rfl⟩
  · exact Steady.refl n

theorem steady_abandon (listeners : List (Listener Target)) : Steady n (n.abandon listeners) := by
  unfold abandon
  generalize listeners.filterMap _ = ks
  induction ks generalizing n with
  | nil => exact Steady.refl n
  | cons k ks ih => exact (steady_finish n k _).trans (ih _)

end Steady

/-! ## Closing -/

/-- Closing an open connection changes what is kept for it and takes it off the roster; the rest
leaves connections alone. -/
theorem terminate_steady {c : ConnectionId} {connection : Connection}
    (h : n.connections.find? c = some connection) (hOpen : connection.isOpen = true)
    (reason : Option WireError) :
    Steady ((n.modifyConnection c Connection.afterClosing).strike c) (n.terminate c reason) := by
  unfold terminate
  rw [h]
  simp only [hOpen, Bool.not_true, Bool.false_eq_true, if_false]
  have hAbandon := steady_abandon (n.modifyConnection c Connection.afterClosing)
    connection.listeners
  generalize hMiddle : (if connection.reading = true then _ else _ : Node) = middle
  have hHangUp : Steady (n.modifyConnection c Connection.afterClosing) middle := by
    subst hMiddle
    split
    · exact hAbandon.trans (steady_emit _ _)
    · exact hAbandon
  have hStruck := hHangUp.strike c
  split
  · exact hStruck
  · exact (hStruck.trans (steady_modifySession _ _ _)).trans (steady_fire _ _ _)

/-! ## Opening -/

/-- A connection and a session belong to each other from now on. -/
def attach (n : Node) (c : ConnectionId) (s : SessionId) (record? : Option PeerRecord) : Node :=
  ((n.modifyConnection c (Connection.afterOpening s record?)).enlist c).modifySession s
    fun session => { session with current := some c }

section Attach

variable {n : Node} {c : ConnectionId} {s : SessionId} {record? : Option PeerRecord}

theorem find?_attach_self {connection : Connection}
    (h : n.connections.find? c = some connection) :
    (n.attach c s record?).connections.find? c = some (connection.afterOpening s record?) := by
  change (n.modifyConnection c _).connections.find? c = _
  rw [find?_modifyConnection_self, h]
  rfl

theorem find?_attach_of_ne {c' : ConnectionId} (hc' : c' ≠ c) :
    (n.attach c s record?).connections.find? c' = n.connections.find? c' :=
  n.find?_modifyConnection_of_ne hc' _

end Attach

theorem openConnection_eq (n : Node) (c : ConnectionId) (s : SessionId)
    (record? : Option PeerRecord) :
    n.openConnection c s record? =
      (((n.attach c s record?).fireConnected s).modifyConnection c fun connection =>
        { connection with reading := true }).emit (.listen c) := rfl

end Node

end PeerServices
