import PeerServices.Proofs.Node.Hooks

/-!
# What holds of a running node

A node keeps sessions, connections, calls and the sessions for exchanges in maps that refer to each
other. What they say about each other is the invariant `Node.Sound`, and `Node.Goes` is the step
relation that carries it: a step from a sound node ends in a sound node, forgets no session, and
takes a session out of those for exchanges only for a reason that its effects show.

* `Node.hasEnded`: the last word that the owner of a session was given is that its connection is
  over.
* `Node.Sound`: the invariant, in four parts.
* `Node.Changes`, `Node.Goes`: what a step does besides.
-/

namespace PeerServices

/-- Is the connection of a session over after this effect, if it was before? -/
def Effect.ends (s : SessionId) (before : Bool) : Effect → Bool
  | .hook s' h => if s' = s then h.ended?.getD before else before
  | _ => before

/-- The same conversation, whatever became of its connections. -/
structure Session.Same (old new : Session) : Prop where
  address : new.address = old.address
  isProxy : new.isProxy = old.isProxy
  behaviour : new.behaviour = old.behaviour

theorem Session.Same.refl (session : Session) : session.Same session := ⟨rfl, rfl, rfl⟩

theorem Session.Same.trans {a b c : Session} (h : a.Same b) (h' : b.Same c) : a.Same c :=
  ⟨h'.address.trans h.address, h'.isProxy.trans h.isProxy, h'.behaviour.trans h.behaviour⟩

/-- A session that never had a connection. -/
structure Session.Unused (session : Session) : Prop where
  current : session.current = none
  waiters : session.waiters = []

/-- The handshake of a connection is over. -/
def Connection.isSettled (connection : Connection) : Bool :=
  match connection.stage with
  | .opened | .closed => true
  | _ => false

theorem Connection.isOpen_of_unsettled {connection : Connection}
    (h : connection.isSettled = false) : connection.isOpen = false := by
  unfold isSettled at h
  unfold isOpen
  cases hStage : connection.stage with
  | opened =>
    rw [hStage] at h
    cases h
  | _ => rfl

theorem Node.isOpen_of_unsettled {n : Node} {c : ConnectionId} {connection : Connection}
    (hConnection : n.connections.find? c = some connection)
    (hUnsettled : connection.isSettled = false) : n.isOpen c = false := by
  unfold isOpen
  rw [hConnection]
  exact Connection.isOpen_of_unsettled hUnsettled

/-- A session can be kept for exchanges with a peer. -/
structure Session.Suits (connections : SortedMap ConnectionId Connection) (p : PeerAddress)
    (session : Session) : Prop where
  behaviour : session.behaviour = .exchange
  host : session.isProxy = true → session.address.host = p
  peer : session.isProxy = false → ∀ c connection, session.current = some c →
    connections.find? c = some connection → connection.isOpen = true → connection.peer = some p

namespace Node

/-! ## Words about sessions and calls -/

/-- The owner of a session was told last that its connection is over. -/
def hasEnded (n : Node) (s : SessionId) : Bool := n.effects.foldl (Effect.ends s) false

/-- The owner of a session was told once that it is connected, with a peer at the other side. -/
def HasHeard (n : Node) (p : PeerAddress) (s : SessionId) : Prop :=
  ∃ view, .hook s (.connected view) ∈ n.effects ∧ view.peer = some p

/-- A session exists and connects. -/
def Proxies (n : Node) (s : SessionId) : Prop :=
  ∃ session, n.sessions.find? s = some session ∧ session.isProxy = true

/-- A call was made, and if it has not ended then its session connects. -/
def Cleared (n : Node) (k : CallId) : Prop :=
  k < n.nextCall ∧ ∀ call, n.calls.find? k = some call → n.Proxies call.session

/-- A session waits for the handshake of this one connection, and nothing else refers to it. -/
structure Reserved (n : Node) (c : ConnectionId) (s : SessionId) : Prop where
  serving : ∃ session, n.sessions.find? s = some session ∧ session.isProxy = false ∧
    session.current = none
  alone : ∀ c' connection rest, n.connections.find? c' = some connection →
    connection.stage = .accepting s rest → c' = c
  unattached : ∀ c' connection, n.connections.find? c' = some connection →
    connection.session ≠ some s
  unkept : ∀ p, n.exchanges.find? p ≠ some s

/-! ## The invariant -/

/-- Sessions and calls are numbered upwards. -/
structure Numbered (n : Node) : Prop where
  session : ∀ s session, n.sessions.find? s = some session → s < n.nextSession
  call : ∀ k call, n.calls.find? k = some call → k < n.nextCall
  unheard : ∀ s, n.nextSession ≤ s → n.hasEnded s = false

/-- Only sessions that connect are dialled for. -/
structure Calling (n : Node) : Prop where
  dialling : ∀ k call attempts socket, n.calls.find? k = some call →
    call.stage = .dialling attempts socket → n.Proxies call.session
  released : ∀ k, .later (.proceed k) ∈ n.effects → n.Cleared k
  waiting : ∀ s session k, n.sessions.find? s = some session → k ∈ session.waiters → n.Cleared k

/-- Connections and sessions refer to each other. -/
structure Linked (n : Node) : Prop where
  connecting : ∀ c connection s k rest, n.connections.find? c = some connection →
    connection.stage = .connecting s k rest → n.Proxies s
  accepting : ∀ c connection s rest, n.connections.find? c = some connection →
    connection.stage = .accepting s rest → n.Reserved c s
  current : ∀ s session c, n.sessions.find? s = some session → session.current = some c →
    ∃ connection, n.connections.find? c = some connection ∧ connection.isSettled = true
  attached : ∀ c connection s, n.connections.find? c = some connection →
    connection.session = some s → ∃ session, n.sessions.find? s = some session ∧
      (session.isProxy = false → ∀ c', session.current = some c' → c' = c)
  outstanding : ∀ c connection, n.connections.find? c = some connection →
    connection.isOpen = true → connection.outstanding.isSome = true

/-- The sessions for exchanges suit their peers. Those that connect have not ended; the others were
connected once. -/
structure Kept (n : Node) : Prop where
  suits : ∀ p s, n.exchanges.find? p = some s →
    ∃ session, n.sessions.find? s = some session ∧ session.Suits n.connections p
  lasting : ∀ p s, n.exchanges.find? p = some s → n.Proxies s → n.hasEnded s = false
  heard : ∀ p s, n.exchanges.find? p = some s → n.Proxies s ∨ n.HasHeard p s

/-- What holds of every node, whatever happened to it. -/
structure Sound (n : Node) : Prop where
  numbered : n.Numbered
  calling : n.Calling
  linked : n.Linked
  kept : n.Kept

/-! ## Steps -/

/-- A session is still the one for exchanges with a peer; or it connects and its owner was told that
its connection is over; or the owner of another session with that peer was told of a connection. -/
def Outlives (n n' : Node) (new : List Effect) (p : PeerAddress) (s : SessionId) : Prop :=
  n'.exchanges.find? p = some s ∨
    (n.Proxies s ∧ ∃ h, h.ended? = some true ∧ .hook s h ∈ new) ∨
    ∃ s' view, s' ≠ s ∧ .hook s' (.connected view) ∈ new ∧ view.peer = some p

/-- No session is forgotten. -/
def Remembers (n n' : Node) : Prop :=
  ∀ s session, n.sessions.find? s = some session →
    ∃ session', n'.sessions.find? s = some session' ∧ session.Same session'

/-- No session is forgotten, effects are only added to, and sessions for exchanges are only replaced
or dropped for a reason. -/
structure Changes (n n' : Node) : Prop where
  sessions : Remembers n n'
  effects : ∃ new, n'.effects = n.effects ++ new ∧
    ∀ p s, n.exchanges.find? p = some s → Outlives n n' new p s

/-- A step that keeps a node sound. -/
def Goes (n n' : Node) : Prop := n.Sound → n'.Sound ∧ Changes n n'

variable {n n' n'' : Node}

theorem Linked.of_eq (h : n.Linked) (hConnections : n'.connections = n.connections)
    (hSessions : n'.sessions = n.sessions) (hExchanges : n'.exchanges = n.exchanges) :
    n'.Linked := by
  cases n
  cases n'
  simp only at hConnections hSessions hExchanges
  subst hConnections hSessions hExchanges
  exact ⟨h.connecting, fun c connection s rest hFind hStage =>
    have h := h.accepting c connection s rest hFind hStage
    ⟨h.serving, h.alone, h.unattached, h.unkept⟩, h.current, h.attached, h.outstanding⟩

theorem Proxies.mono {s : SessionId} (hProxies : n.Proxies s) (h : Remembers n n') :
    n'.Proxies s := by
  obtain ⟨session, hSession, hProxy⟩ := hProxies
  obtain ⟨session', hSession', hSame⟩ := h s session hSession
  exact ⟨session', hSession', hSame.isProxy.trans hProxy⟩

/-- A session that exists connects afterwards only if it did before. -/
theorem Remembers.proxies_of {s : SessionId} {session : Session} (h : Remembers n n')
    (hSession : n.sessions.find? s = some session) (hProxies : n'.Proxies s) : n.Proxies s := by
  obtain ⟨session', hSession', hProxy⟩ := hProxies
  obtain ⟨session'', hSession'', hSame⟩ := h s session hSession
  obtain rfl := Option.some.inj (hSession'.symm.trans hSession'')
  exact ⟨session, hSession, hSame.isProxy.symm.trans hProxy⟩

theorem Remembers.refl (n : Node) : Remembers n n := fun _ session h => ⟨session, h, .refl session⟩

theorem Changes.refl (n : Node) : Changes n n where
  sessions := .refl n
  effects := ⟨[], (List.append_nil _).symm, fun _ _ h => .inl h⟩

theorem Changes.trans (hKept : n.Kept) (h : Changes n n') (h' : Changes n' n'') :
    Changes n n'' := by
  constructor
  · intro s session hSession
    obtain ⟨session', hSession', hSame⟩ := h.sessions s session hSession
    obtain ⟨session'', hSession'', hSame'⟩ := h'.sessions s session' hSession'
    exact ⟨session'', hSession'', hSame.trans hSame'⟩
  · obtain ⟨new, hNew, hOutlives⟩ := h.effects
    obtain ⟨new', hNew', hOutlives'⟩ := h'.effects
    refine ⟨new ++ new', by rw [hNew', hNew, List.append_assoc], ?_⟩
    intro p s hFind
    rcases hOutlives p s hFind with hSame | ⟨hProxies, hook, hEnded, hMem⟩ | ⟨s', view, hOther, hMem, hPeer⟩
    · rcases hOutlives' p s hSame with hSame | ⟨hProxies, hook, hEnded, hMem⟩ | ⟨s', view, hOther, hMem, hPeer⟩
      · exact .inl hSame
      · obtain ⟨session, hSession, _⟩ := hKept.suits p s hFind
        exact .inr (.inl ⟨h.sessions.proxies_of hSession hProxies, hook, hEnded,
          List.mem_append_right _ hMem⟩)
      · exact .inr (.inr ⟨s', view, hOther, List.mem_append_right _ hMem, hPeer⟩)
    · exact .inr (.inl ⟨hProxies, hook, hEnded, List.mem_append_left _ hMem⟩)
    · exact .inr (.inr ⟨s', view, hOther, List.mem_append_left _ hMem, hPeer⟩)

theorem Goes.refl (n : Node) : Goes n n := fun h => ⟨h, .refl n⟩

theorem Goes.trans (h : Goes n n') (h' : Goes n' n'') : Goes n n'' := by
  intro hSound
  obtain ⟨hSound', hChanges⟩ := h hSound
  obtain ⟨hSound'', hChanges'⟩ := h' hSound'
  exact ⟨hSound'', hChanges.trans hSound.kept hChanges'⟩

/-- The second step may use what is known after the first one. -/
theorem Goes.next (h : Goes n n') (h' : n.Sound → n'.Sound → Changes n n' → Goes n' n'') :
    Goes n n'' := by
  intro hSound
  obtain ⟨hSound', hChanges⟩ := h hSound
  exact h.trans (h' hSound hSound' hChanges) hSound

/-! ## Whatever else a node keeps -/

theorem Goes.of_eq (hConnections : n'.connections = n.connections)
    (hSessions : n'.sessions = n.sessions) (hCalls : n'.calls = n.calls)
    (hExchanges : n'.exchanges = n.exchanges) (hSession : n'.nextSession = n.nextSession)
    (hCall : n'.nextCall = n.nextCall) (hEffects : n'.effects = n.effects) : Goes n n' := by
  intro h
  have hLinked := h.linked.of_eq hConnections hSessions hExchanges
  cases n
  cases n'
  simp only at hConnections hSessions hCalls hExchanges hSession hCall hEffects
  subst hConnections hSessions hCalls hExchanges hSession hCall hEffects
  refine ⟨⟨⟨h.numbered.session, h.numbered.call, h.numbered.unheard⟩,
    ⟨h.calling.dialling, h.calling.released, h.calling.waiting⟩, hLinked,
    ⟨h.kept.suits, h.kept.lasting, h.kept.heard⟩⟩, ?_⟩
  exact ⟨fun s session hFind => ⟨session, hFind, .refl session⟩, [], (List.append_nil _).symm,
    fun _ _ h => .inl h⟩

theorem goes_foldl {α : Type} {f : Node → α → Node} (h : ∀ n a, Goes n (f n a)) (l : List α)
    (n : Node) : Goes n (l.foldl f n) := by
  induction l generalizing n with
  | nil => exact Goes.refl n
  | cons a l ih => exact (h n a).trans (ih (f n a))

/-! ## Effects -/

theorem HasHeard.append {p : PeerAddress} {s : SessionId} (new : List Effect) (h : n.HasHeard p s) :
    ∃ view, .hook s (.connected view) ∈ n.effects ++ new ∧ view.peer = some p := by
  obtain ⟨view, hMem, hPeer⟩ := h
  exact ⟨view, List.mem_append_left new hMem, hPeer⟩

/-- An effect that tells no session anything, and lets only calls go on whose session connects. -/
def Plain (n : Node) (e : Effect) : Prop :=
  (∀ s h, e ≠ .hook s h) ∧ ∀ k, e = .later (.proceed k) → n.Cleared k

theorem hasEnded_emit {e : Effect} (h : ∀ s h, e ≠ .hook s h) (s : SessionId) :
    (n.emit e).hasEnded s = n.hasEnded s := by
  unfold hasEnded emit
  rw [List.foldl_append]
  cases e with
  | hook s' hook => exact absurd rfl (h s' hook)
  | _ => rfl

theorem goes_emit {e : Effect} (h : n.Sound → n.Plain e) : Goes n (n.emit e) := by
  intro hSound
  obtain ⟨hPlain, hCleared⟩ := h hSound
  refine ⟨⟨?_, ?_, hSound.linked.of_eq rfl rfl rfl, ?_⟩, ?_⟩
  · exact ⟨hSound.numbered.session, hSound.numbered.call, fun s hs =>
      (hasEnded_emit hPlain s).trans (hSound.numbered.unheard s hs)⟩
  · refine ⟨hSound.calling.dialling, ?_, hSound.calling.waiting⟩
    intro k hMem
    rcases List.mem_append.mp hMem with hMem | hMem
    · exact hSound.calling.released k hMem
    · exact hCleared k (List.mem_singleton.mp hMem).symm
  · refine ⟨hSound.kept.suits, fun p s hFind hProxies =>
      (hasEnded_emit hPlain s).trans (hSound.kept.lasting p s hFind hProxies), ?_⟩
    intro p s hFind
    exact (hSound.kept.heard p s hFind).imp_right (HasHeard.append [e])
  · exact ⟨.refl n, [e], rfl,
      fun _ _ h => .inl h⟩

/-! ## Steps that forget no session -/

/-- A step that forgets no session and lets no call wait that may not leaves the calls sound. -/
theorem Calling.of_remembers (h : n.Calling) (hRemembers : Remembers n n')
    (hCalls : n'.calls = n.calls) (hNext : n'.nextCall = n.nextCall)
    (hEffects : n'.effects = n.effects)
    (hWaiters : ∀ s session k, n'.sessions.find? s = some session → k ∈ session.waiters →
      n.Cleared k) : n'.Calling := by
  have hCleared : ∀ k, n.Cleared k → n'.Cleared k := by
    intro k hCleared
    unfold Cleared
    rw [hNext, hCalls]
    exact ⟨hCleared.1, fun call hCall => (hCleared.2 call hCall).mono hRemembers⟩
  constructor
  · rw [hCalls]
    intro k call attempts socket hCall hStage
    exact (h.dialling k call attempts socket hCall hStage).mono hRemembers
  · rw [hEffects]
    exact fun k hMem => hCleared k (h.released k hMem)
  · exact fun s session k hSession hMem => hCleared k (hWaiters s session k hSession hMem)

/-- A step that forgets no session and leaves every session suited that is kept. -/
theorem Kept.of_remembers (h : n.Kept) (hRemembers : Remembers n n')
    (hExchanges : n'.exchanges = n.exchanges) (hEffects : n'.effects = n.effects)
    (hSuits : ∀ p s session, n.exchanges.find? p = some s → n.sessions.find? s = some session →
      session.Suits n.connections p →
        ∃ session', n'.sessions.find? s = some session' ∧ session'.Suits n'.connections p) :
    n'.Kept := by
  constructor
  · rw [hExchanges]
    intro p s hFind
    obtain ⟨session, hSession, hSuited⟩ := h.suits p s hFind
    exact hSuits p s session hFind hSession hSuited
  · rw [hExchanges]
    intro p s hFind hProxies
    obtain ⟨session, hSession, _⟩ := h.suits p s hFind
    unfold hasEnded
    rw [hEffects]
    exact h.lasting p s hFind (hRemembers.proxies_of hSession hProxies)
  · rw [hExchanges]
    intro p s hFind
    unfold HasHeard
    rw [hEffects]
    exact (h.heard p s hFind).imp_left fun hProxies => hProxies.mono hRemembers

end Node

end PeerServices
