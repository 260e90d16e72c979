import PeerServices.Proofs.Node.Soundness

/-!
# Changes of connections and sessions

What may become of a connection or a session, and how new ones come about. A connection is opened
for a session that connects, or for the one session that waits for it.

* `Node.goes_modifyConnection`, `Node.goes_modifySession`: what is there already.
* `Node.goes_insertConnection`, `Node.goes_newSession`: what is new.
* `Node.goes_attach`: a connection is opened for a session.
-/

namespace PeerServices.Node

variable {n n' : Node}

/-! ## Connections -/

/-- What may become of a connection without being opened. -/
structure Becomes (n : Node) (c : ConnectionId) (old new : Connection) : Prop where
  connecting : ∀ s k rest, new.stage = .connecting s k rest → n.Proxies s
  accepting : ∀ s rest, new.stage = .accepting s rest → n.Reserved c s
  settled : old.isSettled = true → new.isSettled = true ∧
    (new.isOpen = true → old.isOpen = true ∧ new.peer = old.peer)
  session : ∀ s, new.session = some s → old.session = some s
  outstanding : new.isOpen = true → new.outstanding.isSome = true

theorem Reserved.modifyConnection {c c' : ConnectionId} {s : SessionId}
    {f : Connection → Connection} (h : n.Reserved c' s)
    (hSession : ∀ old, n.connections.find? c = some old → ∀ s, (f old).session = some s →
      old.session = some s)
    (hAlone : ∀ old rest, n.connections.find? c = some old → (f old).stage = .accepting s rest →
      c = c') : (n.modifyConnection c f).Reserved c' s := by
  refine ⟨h.serving, ?_, ?_, h.unkept⟩
  · intro c'' connection rest hFind hStage
    rcases SortedMap.find?_modify_eq_some hFind with ⟨rfl, old, hOld, rfl⟩ | ⟨_, hFind⟩
    · exact hAlone old rest hOld hStage
    · exact h.alone c'' connection rest hFind hStage
  · intro c'' connection hFind hSome
    rcases SortedMap.find?_modify_eq_some hFind with ⟨rfl, old, hOld, rfl⟩ | ⟨_, hFind⟩
    · exact h.unattached c'' old hOld (hSession old hOld s hSome)
    · exact h.unattached c'' connection hFind hSome

theorem Linked.modifyConnection (h : n.Linked) {c : ConnectionId} {f : Connection → Connection}
    (hBecomes : ∀ old, n.connections.find? c = some old → n.Becomes c old (f old)) :
    (n.modifyConnection c f).Linked := by
  have hSession := fun old hOld => (hBecomes old hOld).session
  constructor
  · intro c' connection s k rest hFind hStage
    rcases SortedMap.find?_modify_eq_some hFind with ⟨rfl, old, hOld, rfl⟩ | ⟨_, hFind⟩
    · exact (hBecomes old hOld).connecting s k rest hStage
    · exact h.connecting c' connection s k rest hFind hStage
  · intro c' connection s rest hFind hStage
    rcases SortedMap.find?_modify_eq_some hFind with ⟨rfl, old, hOld, rfl⟩ | ⟨hOther, hFind⟩
    · have hReserved := (hBecomes old hOld).accepting s rest hStage
      exact hReserved.modifyConnection hSession fun _ _ _ _ => rfl
    · apply (h.accepting c' connection s rest hFind hStage).modifyConnection hSession
      -- A session is never reserved for two connections.
      intro old rest' hOld hStage'
      have hReserved := (hBecomes old hOld).accepting s rest' hStage'
      exact absurd (hReserved.alone c' connection rest hFind hStage) hOther
  · intro s session c' hFind hCurrent
    obtain ⟨connection, hConnection, hSettled⟩ := h.current s session c' hFind hCurrent
    by_cases hKey : c' = c
    · subst hKey
      have hModified := n.find?_modifyConnection_self c' f
      rw [hConnection] at hModified
      exact ⟨f connection, hModified, ((hBecomes connection hConnection).settled hSettled).1⟩
    · exact ⟨connection, (n.find?_modifyConnection_of_ne hKey f).trans hConnection, hSettled⟩
  · intro c' connection s hFind hSome
    rcases SortedMap.find?_modify_eq_some hFind with ⟨rfl, old, hOld, rfl⟩ | ⟨_, hFind⟩
    · exact h.attached c' old s hOld (hSession old hOld s hSome)
    · exact h.attached c' connection s hFind hSome
  · intro c' connection hFind hOpen
    rcases SortedMap.find?_modify_eq_some hFind with ⟨rfl, old, hOld, rfl⟩ | ⟨_, hFind⟩
    · exact (hBecomes old hOld).outstanding hOpen
    · exact h.outstanding c' connection hFind hOpen

theorem goes_modifyConnection {c : ConnectionId} {f : Connection → Connection}
    (hBecomes : n.Sound → ∀ old, n.connections.find? c = some old → n.Becomes c old (f old)) :
    Goes n (n.modifyConnection c f) := by
  intro hSound
  have hBecomes := hBecomes hSound
  refine ⟨⟨⟨hSound.numbered.session, hSound.numbered.call, hSound.numbered.unheard⟩,
    ⟨hSound.calling.dialling, hSound.calling.released, hSound.calling.waiting⟩,
    hSound.linked.modifyConnection hBecomes, hSound.kept.of_remembers (.refl n) rfl rfl ?_⟩,
    .refl n, [], (List.append_nil _).symm, fun _ _ h => .inl h⟩
  intro p s session _ hSession hSuits
  refine ⟨session, hSession, hSuits.behaviour, hSuits.host, ?_⟩
  intro hServing c' connection hCurrent hConnection hOpen
  rcases SortedMap.find?_modify_eq_some hConnection with ⟨rfl, old, hOld, rfl⟩ | ⟨_, hConnection⟩
  · -- The connection of a session is settled, so nothing becomes of it but its end.
    obtain ⟨known, hKnown, hSettled⟩ := hSound.linked.current s session c' hSession hCurrent
    obtain rfl := Option.some.inj (hOld.symm.trans hKnown)
    obtain ⟨hWasOpen, hPeer⟩ := ((hBecomes old hOld).settled hSettled).2 hOpen
    exact hPeer.trans (hSuits.peer hServing c' old hCurrent hOld hWasOpen)
  · exact hSuits.peer hServing c' connection hCurrent hConnection hOpen

/-! ## Sessions -/

/-- What may become of a session without being attached to a connection. -/
structure Adjusts (n : Node) (old new : Session) : Prop where
  same : old.Same new
  current : ∀ c, new.current = some c → old.current = some c
  waiters : ∀ k, k ∈ new.waiters → n.Cleared k

theorem modifySession_back (h : n.Calling) {s s' : SessionId} {f : Session → Session}
    {new : Session} (hAdjusts : ∀ old, n.sessions.find? s = some old → n.Adjusts old (f old))
    (hFind : (n.modifySession s f).sessions.find? s' = some new) :
    ∃ old, n.sessions.find? s' = some old ∧ n.Adjusts old new := by
  rcases SortedMap.find?_modify_eq_some hFind with ⟨rfl, old, hOld, rfl⟩ | ⟨_, hFind⟩
  · exact ⟨old, hOld, hAdjusts old hOld⟩
  · exact ⟨new, hFind, .refl new, fun _ hCurrent => hCurrent, fun k => h.waiting s' new k hFind⟩

theorem modifySession_forth (h : n.Calling) {s s' : SessionId} {f : Session → Session}
    {old : Session} (hAdjusts : ∀ old, n.sessions.find? s = some old → n.Adjusts old (f old))
    (hFind : n.sessions.find? s' = some old) :
    ∃ new, (n.modifySession s f).sessions.find? s' = some new ∧ n.Adjusts old new := by
  by_cases hKey : s' = s
  · subst hKey
    have hModified := n.find?_modifySession_self s' f
    rw [hFind] at hModified
    exact ⟨f old, hModified, hAdjusts old hFind⟩
  · exact ⟨old, (n.find?_modifySession_of_ne hKey f).trans hFind, .refl old,
      fun _ hCurrent => hCurrent, fun k => h.waiting s' old k hFind⟩

theorem remembers_modifySession (h : n.Calling) {s : SessionId} {f : Session → Session}
    (hAdjusts : ∀ old, n.sessions.find? s = some old → n.Adjusts old (f old)) :
    Remembers n (n.modifySession s f) := by
  intro s' old hOld
  obtain ⟨new, hNew, hAdjusted⟩ := modifySession_forth h hAdjusts hOld
  exact ⟨new, hNew, hAdjusted.same⟩

theorem Linked.modifySession (h : n.Linked) (hCalling : n.Calling) {s : SessionId}
    {f : Session → Session}
    (hAdjusts : ∀ old, n.sessions.find? s = some old → n.Adjusts old (f old)) :
    (n.modifySession s f).Linked := by
  have hRemembers := remembers_modifySession hCalling hAdjusts
  refine ⟨?_, ?_, ?_, ?_, h.outstanding⟩
  · intro c connection s' k rest hFind hStage
    exact (h.connecting c connection s' k rest hFind hStage).mono hRemembers
  · intro c connection s' rest hFind hStage
    obtain ⟨⟨old, hOld, hServing, hCurrent⟩, hAlone, hUnattached, hUnkept⟩ :=
      h.accepting c connection s' rest hFind hStage
    obtain ⟨new, hNew, hAdjusted⟩ := modifySession_forth hCalling hAdjusts hOld
    refine ⟨⟨new, hNew, hAdjusted.same.isProxy.trans hServing, ?_⟩, hAlone, hUnattached, hUnkept⟩
    cases hAfter : new.current with
    | none => rfl
    | some c' =>
      rw [hAdjusted.current c' hAfter] at hCurrent
      cases hCurrent
  · intro s' new c hNew hCurrent
    obtain ⟨old, hOld, hAdjusted⟩ := modifySession_back hCalling hAdjusts hNew
    exact h.current s' old c hOld (hAdjusted.current c hCurrent)
  · intro c connection s' hFind hSome
    obtain ⟨old, hOld, hOnly⟩ := h.attached c connection s' hFind hSome
    obtain ⟨new, hNew, hAdjusted⟩ := modifySession_forth hCalling hAdjusts hOld
    refine ⟨new, hNew, fun hServing c' hCurrent => ?_⟩
    exact hOnly (hAdjusted.same.isProxy.symm.trans hServing) c' (hAdjusted.current c' hCurrent)

theorem goes_modifySession {s : SessionId} {f : Session → Session}
    (hAdjusts : n.Sound → ∀ old, n.sessions.find? s = some old → n.Adjusts old (f old)) :
    Goes n (n.modifySession s f) := by
  intro hSound
  have hAdjusts := hAdjusts hSound
  have hRemembers := remembers_modifySession hSound.calling hAdjusts
  refine ⟨⟨⟨?_, hSound.numbered.call, hSound.numbered.unheard⟩,
    hSound.calling.of_remembers hRemembers rfl rfl rfl ?_,
    hSound.linked.modifySession hSound.calling hAdjusts,
    hSound.kept.of_remembers hRemembers rfl rfl ?_⟩,
    hRemembers, [], (List.append_nil _).symm, fun _ _ h => .inl h⟩
  · intro s' new hNew
    obtain ⟨old, hOld, _⟩ := modifySession_back hSound.calling hAdjusts hNew
    exact hSound.numbered.session s' old hOld
  · intro s' new k hNew hMem
    obtain ⟨old, _, hAdjusted⟩ := modifySession_back hSound.calling hAdjusts hNew
    exact hAdjusted.waiters k hMem
  · intro p s' old _ hOld hSuits
    obtain ⟨new, hNew, hAdjusted⟩ := modifySession_forth hSound.calling hAdjusts hOld
    refine ⟨new, hNew, hAdjusted.same.behaviour.trans hSuits.behaviour, ?_, ?_⟩
    · intro hProxy
      rw [hAdjusted.same.address]
      exact hSuits.host (hAdjusted.same.isProxy.symm.trans hProxy)
    · intro hServing c connection hCurrent
      exact hSuits.peer (hAdjusted.same.isProxy.symm.trans hServing) c connection
        (hAdjusted.current c hCurrent)

theorem goes_newSession {session : Session} (hUnused : session.Unused) :
    Goes n (n.newSession session).2 := by
  intro hSound
  have hForth : ∀ s old, n.sessions.find? s = some old →
      (n.newSession session).2.sessions.find? s = some old := by
    intro s old hOld
    have hLt := hSound.numbered.session s old hOld
    exact (SortedMap.find?_insert_of_ne (Nat.ne_of_lt hLt) n.sessions session).trans hOld
  have hRemembers : Remembers n (n.newSession session).2 :=
    fun s old hOld => ⟨old, hForth s old hOld, .refl old⟩
  refine ⟨⟨⟨?_, hSound.numbered.call, ?_⟩, hSound.calling.of_remembers hRemembers rfl rfl rfl ?_,
    ⟨?_, ?_, ?_, ?_, hSound.linked.outstanding⟩, hSound.kept.of_remembers hRemembers rfl rfl ?_⟩, ?_⟩
  · intro s new hNew
    rcases SortedMap.find?_insert_eq_some hNew with ⟨rfl, _⟩ | ⟨_, hOld⟩
    · exact Nat.lt_succ_self n.nextSession
    · exact Nat.lt_succ_of_lt (hSound.numbered.session s new hOld)
  · intro s hLe
    exact hSound.numbered.unheard s (Nat.le_of_succ_le hLe)
  · intro s new k hNew hMem
    rcases SortedMap.find?_insert_eq_some hNew with ⟨_, rfl⟩ | ⟨_, hOld⟩
    · rw [hUnused.waiters] at hMem
      cases hMem
    · exact hSound.calling.waiting s new k hOld hMem
  · intro c connection s k rest hFind hStage
    exact (hSound.linked.connecting c connection s k rest hFind hStage).mono hRemembers
  · intro c connection s rest hFind hStage
    obtain ⟨⟨old, hOld, hServing⟩, hAlone, hUnattached, hUnkept⟩ :=
      hSound.linked.accepting c connection s rest hFind hStage
    exact ⟨⟨old, hForth s old hOld, hServing⟩, hAlone, hUnattached, hUnkept⟩
  · intro s new c hNew hCurrent
    rcases SortedMap.find?_insert_eq_some hNew with ⟨_, rfl⟩ | ⟨_, hOld⟩
    · rw [hUnused.current] at hCurrent
      cases hCurrent
    · exact hSound.linked.current s new c hOld hCurrent
  · intro c connection s hFind hSome
    obtain ⟨old, hOld, hOnly⟩ := hSound.linked.attached c connection s hFind hSome
    exact ⟨old, hForth s old hOld, hOnly⟩
  · exact fun p s old _ hOld hSuits => ⟨old, hForth s old hOld, hSuits⟩
  · exact ⟨hRemembers, [], (List.append_nil _).symm, fun _ _ h => .inl h⟩

/-- Nothing refers to a session that is new. -/
theorem newSession_reserved (hSound : n.Sound) {session : Session} (hUnused : session.Unused)
    (hServing : session.isProxy = false) (c : ConnectionId) :
    (n.newSession session).2.Reserved c n.nextSession := by
  have hFresh : ∀ old, n.sessions.find? n.nextSession ≠ some old :=
    fun old hOld => Nat.lt_irrefl _ (hSound.numbered.session _ old hOld)
  constructor
  · exact ⟨session, SortedMap.find?_insert_self n.sessions n.nextSession session, hServing,
      hUnused.current⟩
  · intro c' connection rest hFind hStage
    obtain ⟨old, hOld, _⟩ := (hSound.linked.accepting c' connection _ rest hFind hStage).serving
    exact absurd hOld (hFresh old)
  · intro c' connection hFind hSome
    obtain ⟨old, hOld, _⟩ := hSound.linked.attached c' connection _ hFind hSome
    exact hFresh old hOld
  · intro p hFind
    obtain ⟨old, hOld, _⟩ := hSound.kept.suits p _ hFind
    exact hFresh old hOld

/-! ## New connections -/

/-- How a connection begins: the other side has to name a service, or a session connects. -/
def Begins (n : Node) (stage : Connection.Stage) : Prop :=
  (∃ issued, stage = .naming issued) ∨ ∃ s k rest, stage = .connecting s k rest ∧ n.Proxies s

section Insert

variable {line : Line} {stage : Connection.Stage}

theorem Begins.connecting (h : n.Begins stage) {s : SessionId} {k : CallId}
    {rest : Received → Dialogue Handshake.Result} (hStage : stage = .connecting s k rest) :
    n.Proxies s := by
  rcases h with ⟨issued, rfl⟩ | ⟨s', k', rest', rfl, hProxies⟩
  · cases hStage
  · cases hStage
    exact hProxies

theorem Begins.not_accepting (h : n.Begins stage) {s : SessionId}
    {rest : Received → Dialogue Handshake.Result} : stage ≠ .accepting s rest := by
  intro hStage
  rcases h with ⟨issued, rfl⟩ | ⟨s', k', rest', rfl, _⟩ <;> cases hStage

theorem Begins.not_open (h : n.Begins stage) : (Connection.create line stage).isOpen ≠ true := by
  intro hOpen
  rcases h with ⟨issued, rfl⟩ | ⟨s', k', rest', rfl, _⟩ <;> cases hOpen

theorem Linked.insertConnection (h : n.Linked) (hNew : n.connections.find? line.id = none)
    (hBegins : n.Begins stage) :
    ({ n with
      connections := n.connections.insert line.id (Connection.create line stage) } : Node).Linked := by
  constructor
  · intro c connection s k rest hFind hConnecting
    rcases SortedMap.find?_insert_eq_some hFind with ⟨_, rfl⟩ | ⟨_, hFind⟩
    · exact hBegins.connecting hConnecting
    · exact h.connecting c connection s k rest hFind hConnecting
  · intro c connection s rest hFind hAccepting
    rcases SortedMap.find?_insert_eq_some hFind with ⟨_, rfl⟩ | ⟨_, hFind⟩
    · exact absurd hAccepting hBegins.not_accepting
    · obtain ⟨hServing, hAlone, hUnattached, hUnkept⟩ :=
        h.accepting c connection s rest hFind hAccepting
      refine ⟨hServing, ?_, ?_, hUnkept⟩
      · intro c' other rest' hFind' hAccepting'
        rcases SortedMap.find?_insert_eq_some hFind' with ⟨_, rfl⟩ | ⟨_, hFind'⟩
        · exact absurd hAccepting' hBegins.not_accepting
        · exact hAlone c' other rest' hFind' hAccepting'
      · intro c' other hFind' hSome
        rcases SortedMap.find?_insert_eq_some hFind' with ⟨_, rfl⟩ | ⟨_, hFind'⟩
        · cases hSome
        · exact hUnattached c' other hFind' hSome
  · intro s session c hFind hCurrent
    obtain ⟨connection, hConnection, hSettled⟩ := h.current s session c hFind hCurrent
    have hOther : c ≠ line.id := by
      rintro rfl
      rw [hNew] at hConnection
      cases hConnection
    exact ⟨connection, (SortedMap.find?_insert_of_ne hOther _ _).trans hConnection, hSettled⟩
  · intro c connection s hFind hSome
    rcases SortedMap.find?_insert_eq_some hFind with ⟨_, rfl⟩ | ⟨_, hFind⟩
    · cases hSome
    · exact h.attached c connection s hFind hSome
  · intro c connection hFind hOpen
    rcases SortedMap.find?_insert_eq_some hFind with ⟨_, rfl⟩ | ⟨_, hFind⟩
    · exact absurd hOpen hBegins.not_open
    · exact h.outstanding c connection hFind hOpen

theorem goes_insertConnection (hNew : n.connections.find? line.id = none)
    (hBegins : n.Begins stage) :
    Goes n { n with
      connections := n.connections.insert line.id (Connection.create line stage) } := by
  intro hSound
  refine ⟨⟨⟨hSound.numbered.session, hSound.numbered.call, hSound.numbered.unheard⟩,
    ⟨hSound.calling.dialling, hSound.calling.released, hSound.calling.waiting⟩,
    hSound.linked.insertConnection hNew hBegins,
    hSound.kept.of_remembers (.refl n) rfl rfl ?_⟩,
    .refl n, [], (List.append_nil _).symm, fun _ _ h => .inl h⟩
  intro p s session _ hSession hSuits
  refine ⟨session, hSession, hSuits.behaviour, hSuits.host, ?_⟩
  intro hServing c connection hCurrent hConnection hOpen
  rcases SortedMap.find?_insert_eq_some hConnection with ⟨_, rfl⟩ | ⟨_, hConnection⟩
  · exact absurd hOpen hBegins.not_open
  · exact hSuits.peer hServing c connection hCurrent hConnection hOpen

end Insert

/-! ## Opening -/

/-- A connection whose handshake is over, and the session that it is opened for: one that connects,
or the one that waits for this connection. -/
structure Joins (n : Node) (c : ConnectionId) (s : SessionId) (connection : Connection) : Prop where
  found : n.connections.find? c = some connection
  unsettled : connection.isSettled = false
  session : n.Proxies s ∨ n.Reserved c s

section Attach

variable {c : ConnectionId} {s : SessionId} {connection : Connection}

theorem attach_connection (hFound : n.connections.find? c = some connection)
    {record? : Option PeerRecord} {c' : ConnectionId} {connection' : Connection}
    (hFind : (n.attach c s record?).connections.find? c' = some connection') :
    (c' = c ∧ connection' = connection.afterOpening s record?) ∨
      (c' ≠ c ∧ n.connections.find? c' = some connection') := by
  rcases SortedMap.find?_modify_eq_some hFind with ⟨rfl, old, hOld, rfl⟩ | hOther
  · obtain rfl := Option.some.inj (hOld.symm.trans hFound)
    exact .inl ⟨rfl, rfl⟩
  · exact .inr hOther

theorem attach_session {record? : Option PeerRecord} {s' : SessionId} {new : Session}
    (hFind : (n.attach c s record?).sessions.find? s' = some new) :
    ∃ old, n.sessions.find? s' = some old ∧ new.waiters = old.waiters ∧
      ((s' = s ∧ new.current = some c) ∨ (s' ≠ s ∧ new.current = old.current)) := by
  rcases SortedMap.find?_modify_eq_some hFind with ⟨rfl, old, hOld, rfl⟩ | ⟨hOther, hFind⟩
  · exact ⟨old, hOld, rfl, .inl ⟨rfl, rfl⟩⟩
  · exact ⟨new, hFind, rfl, .inr ⟨hOther, rfl⟩⟩

theorem remembers_attach (c : ConnectionId) (s : SessionId) (record? : Option PeerRecord) :
    Remembers n (n.attach c s record?) := by
  intro s' session hSession
  by_cases hKey : s' = s
  · subst hKey
    refine ⟨{ session with current := some c }, ?_, rfl, rfl, rfl⟩
    exact (find?_modifySession_self _ s' _).trans (congrArg (Option.map _) hSession)
  · exact ⟨session, (find?_modifySession_of_ne _ hKey _).trans hSession, .refl session⟩

/-- Every session that has a connection has another one. -/
theorem Joins.current_ne (h : n.Joins c s connection) (hLinked : n.Linked) {s' : SessionId}
    {session : Session} {c' : ConnectionId} (hFind : n.sessions.find? s' = some session)
    (hCurrent : session.current = some c') : c' ≠ c := by
  rintro rfl
  obtain ⟨old, hOld, hSettled⟩ := hLinked.current s' session c' hFind hCurrent
  obtain rfl := Option.some.inj (hOld.symm.trans h.found)
  rw [h.unsettled] at hSettled
  cases hSettled

/-- A session that waits for another connection is another one. -/
theorem Joins.session_ne (h : n.Joins c s connection) {c' : ConnectionId} {s' : SessionId}
    {other : Connection} {rest : Received → Dialogue Handshake.Result} (hOther : c' ≠ c)
    (hFind : n.connections.find? c' = some other) (hStage : other.stage = .accepting s' rest)
    (hReserved : n.Reserved c' s') : s' ≠ s := by
  rintro rfl
  rcases h.session with ⟨session, hSession, hProxy⟩ | hAttached
  · obtain ⟨session', hSession', hServing, _⟩ := hReserved.serving
    obtain rfl := Option.some.inj (hSession.symm.trans hSession')
    rw [hProxy] at hServing
    cases hServing
  · exact hOther (hAttached.alone c' other rest hFind hStage)

/-- A session that accepted its connection is not attached a second time. -/
theorem Joins.serving_ne (h : n.Joins c s connection) {s' : SessionId} {session : Session}
    (hFind : n.sessions.find? s' = some session) (hServing : session.isProxy = false)
    (hUsed : ¬n.Reserved c s') : s' ≠ s := by
  rintro rfl
  rcases h.session with ⟨session', hSession', hProxy⟩ | hReserved
  · obtain rfl := Option.some.inj (hFind.symm.trans hSession')
    rw [hProxy] at hServing
    cases hServing
  · exact hUsed hReserved

theorem Joins.reserved (h : n.Joins c s connection) (record? : Option PeerRecord)
    {c' : ConnectionId} {s' : SessionId} (hNe : s' ≠ s) (hReserved : n.Reserved c' s') :
    (n.attach c s record?).Reserved c' s' := by
  obtain ⟨session, hSession, hServing⟩ := hReserved.serving
  have hSame := (find?_modifySession_of_ne (n.modifyConnection c (Connection.afterOpening s record?))
    hNe fun session => { session with current := some c }).trans hSession
  refine ⟨⟨session, hSame, hServing⟩, ?_, ?_, hReserved.unkept⟩
  · intro c'' other rest hFind hStage
    rcases attach_connection h.found hFind with ⟨_, rfl⟩ | ⟨_, hFind⟩
    · cases hStage
    · exact hReserved.alone c'' other rest hFind hStage
  · intro c'' other hFind hSome
    rcases attach_connection h.found hFind with ⟨_, rfl⟩ | ⟨_, hFind⟩
    · exact hNe (Option.some.inj hSome).symm
    · exact hReserved.unattached c'' other hFind hSome

theorem Joins.exists_session (h : n.Joins c s connection) :
    ∃ session, n.sessions.find? s = some session := by
  rcases h.session with ⟨session, hSession, _⟩ | hReserved
  · exact ⟨session, hSession⟩
  · obtain ⟨session, hSession, _⟩ := hReserved.serving
    exact ⟨session, hSession⟩

/-- A session that accepted its connection still has no other one. -/
theorem Joins.attached (h : n.Joins c s connection) (hLinked : n.Linked)
    (record? : Option PeerRecord) {c' : ConnectionId} {other : Connection} {s' : SessionId}
    (hFind : (n.attach c s record?).connections.find? c' = some other)
    (hSome : other.session = some s') :
    ∃ session, (n.attach c s record?).sessions.find? s' = some session ∧
      (session.isProxy = false → ∀ c'', session.current = some c'' → c'' = c') := by
  have hRemembers := remembers_attach (n := n) c s record?
  rcases attach_connection h.found hFind with ⟨rfl, rfl⟩ | ⟨_, hFind⟩
  · obtain rfl := Option.some.inj hSome
    obtain ⟨old, hOld⟩ := h.exists_session
    obtain ⟨new, hNew, _⟩ := hRemembers s old hOld
    refine ⟨new, hNew, fun _ c' hCurrent => ?_⟩
    obtain ⟨_, _, _, ⟨_, hAttached⟩ | ⟨hNe, _⟩⟩ := attach_session hNew
    · exact Option.some.inj (hCurrent.symm.trans hAttached)
    · exact absurd rfl hNe
  · obtain ⟨old, hOld, hOnly⟩ := hLinked.attached c' other s' hFind hSome
    obtain ⟨new, hNew, hSame⟩ := hRemembers s' old hOld
    refine ⟨new, hNew, fun hServing c'' hCurrent => ?_⟩
    have hWasServing := hSame.isProxy.symm.trans hServing
    have hNe := h.serving_ne hOld hWasServing fun hReserved =>
      hReserved.unattached c' other hFind hSome
    obtain ⟨old', hOld', _, ⟨hEq, _⟩ | ⟨_, hKept⟩⟩ := attach_session hNew
    · exact absurd hEq hNe
    · obtain rfl := Option.some.inj (hOld.symm.trans hOld')
      exact hOnly hWasServing c'' (hKept ▸ hCurrent)

theorem Joins.linked (h : n.Joins c s connection) (hLinked : n.Linked)
    (record? : Option PeerRecord) : (n.attach c s record?).Linked := by
  have hRemembers := remembers_attach (n := n) c s record?
  constructor
  · intro c' other s' k rest hFind hStage
    rcases attach_connection h.found hFind with ⟨_, rfl⟩ | ⟨_, hFind⟩
    · cases hStage
    · exact (hLinked.connecting c' other s' k rest hFind hStage).mono hRemembers
  · intro c' other s' rest hFind hStage
    rcases attach_connection h.found hFind with ⟨_, rfl⟩ | ⟨hOther, hFind⟩
    · cases hStage
    · have hReserved := hLinked.accepting c' other s' rest hFind hStage
      exact h.reserved record? (h.session_ne hOther hFind hStage hReserved) hReserved
  · intro s' new c' hFind hCurrent
    obtain ⟨old, hOld, _, hCase⟩ := attach_session hFind
    rcases hCase with ⟨_, hAttached⟩ | ⟨_, hSame⟩
    · obtain rfl := Option.some.inj (hAttached.symm.trans hCurrent)
      exact ⟨connection.afterOpening s record?, find?_attach_self h.found, rfl⟩
    · rw [hSame] at hCurrent
      obtain ⟨other, hOther, hSettled⟩ := hLinked.current s' old c' hOld hCurrent
      have hKey := h.current_ne hLinked hOld hCurrent
      exact ⟨other, (find?_attach_of_ne hKey).trans hOther, hSettled⟩
  · exact fun c' other s' => h.attached hLinked record?
  · intro c' other hFind hOpen
    rcases attach_connection h.found hFind with ⟨_, rfl⟩ | ⟨_, hFind⟩
    · rfl
    · exact hLinked.outstanding c' other hFind hOpen

theorem Joins.suits (h : n.Joins c s connection) (hLinked : n.Linked)
    (record? : Option PeerRecord) {p : PeerAddress} {s' : SessionId} {old : Session}
    (hKept : n.exchanges.find? p = some s') (hOld : n.sessions.find? s' = some old)
    (hSuits : old.Suits n.connections p) :
    ∃ new, (n.attach c s record?).sessions.find? s' = some new ∧
      new.Suits (n.attach c s record?).connections p := by
  obtain ⟨new, hNew, hSame⟩ := remembers_attach (n := n) c s record? s' old hOld
  refine ⟨new, hNew, hSame.behaviour.trans hSuits.behaviour, ?_, ?_⟩
  · intro hProxy
    rw [hSame.address]
    exact hSuits.host (hSame.isProxy.symm.trans hProxy)
  · intro hServing c' other hCurrent hFind hOpen
    have hWasServing := hSame.isProxy.symm.trans hServing
    have hNe := h.serving_ne hOld hWasServing fun hReserved => hReserved.unkept p hKept
    obtain ⟨old', hOld', _, ⟨hEq, _⟩ | ⟨_, hStays⟩⟩ := attach_session hNew
    · exact absurd hEq hNe
    · obtain rfl := Option.some.inj (hOld.symm.trans hOld')
      rw [hStays] at hCurrent
      rcases attach_connection h.found hFind with ⟨rfl, _⟩ | ⟨_, hFind⟩
      · exact absurd rfl (h.current_ne hLinked hOld hCurrent)
      · exact hSuits.peer hWasServing c' other hCurrent hFind hOpen

theorem goes_attach (hJoins : n.Joins c s connection) (record? : Option PeerRecord) :
    Goes n (n.attach c s record?) := by
  intro hSound
  have hRemembers := remembers_attach (n := n) c s record?
  refine ⟨⟨⟨?_, hSound.numbered.call, hSound.numbered.unheard⟩,
    hSound.calling.of_remembers hRemembers rfl rfl rfl ?_, hJoins.linked hSound.linked record?,
    hSound.kept.of_remembers hRemembers rfl rfl fun _ _ _ hKept hOld hSuits =>
      hJoins.suits hSound.linked record? hKept hOld hSuits⟩,
    hRemembers, [], (List.append_nil _).symm, fun _ _ h => .inl h⟩
  · intro s' new hFind
    obtain ⟨old, hOld, _⟩ := attach_session hFind
    exact hSound.numbered.session s' old hOld
  · intro s' new k hFind hMem
    obtain ⟨old, hOld, hWaiters, _⟩ := attach_session hFind
    exact hSound.calling.waiting s' old k hOld (hWaiters ▸ hMem)

end Attach

end PeerServices.Node
