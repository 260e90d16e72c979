import PeerServices.Proofs.Collection.SortedSet
import PeerServices.Proofs.Node.Waning

/-!
# Turns of connections

A connection comes about, is opened for a session after its handshake, and is closed. Between these
turns nothing of that changes: everything else that a node does leaves every connection as far as it
is.

* `Turn`: the turns. `Word`: what the owner of a session is told of them.
* `Node.Tick`: one turn, or a step without any. `Node.Path`: ticks one after another.
* `Node.Fit`: what holds before and after every tick. An open connection is on the roster, belongs
  to a session and has room for requests; any other one has nothing of that, and no session refers
  to it.
-/

namespace PeerServices

/-- What becomes of a connection. -/
inductive Turn
  /-- It comes about, and its handshake begins. -/
  | joined (c : ConnectionId)
  /-- It is opened for a session. -/
  | opened (c : ConnectionId) (s : SessionId)
  /-- It was open for a session and is closed; without a reason, by this side. -/
  | closed (c : ConnectionId) (s : SessionId) (reason : Option WireError)

/-- What the owner of a session is told of its connections. -/
inductive Word
  | connected (s : SessionId)
  | closed (s : SessionId) (reason : Option WireError)

namespace Turn

def connection : Turn → ConnectionId
  | .joined c | .opened c _ | .closed c _ _ => c

/-- Nobody is told of a connection before it is open. -/
def word? : Turn → Option Word
  | .joined _ => none
  | .opened _ s => some (.connected s)
  | .closed _ s reason => some (.closed s reason)

end Turn

namespace Effect

def word? : Effect → Option Word
  | .hook s (.connected _) => some (.connected s)
  | .hook s (.closed reason) => some (.closed s reason)
  | _ => none

/-- Reaches for a host. -/
def isDial : Effect → Bool
  | .dial .. => true
  | _ => false

/-- Tells nobody of a connection, and reaches for a host only if that is not cancelled. -/
def isQuiet (cancelled : Bool) : Effect → Bool
  | .hook _ (.connected _) | .hook _ (.closed _) => false
  | .dial .. => !cancelled
  | _ => true

theorem word?_of_isQuiet {e : Effect} {cancelled : Bool} (h : e.isQuiet cancelled = true) :
    e.word? = none := by
  cases e with
  | hook s hook => cases hook <;> first | rfl | cases h
  | _ => rfl

theorem isDial_of_isQuiet {e : Effect} (h : e.isQuiet true = true) : e.isDial = false := by
  cases e <;> first | rfl | cases h

theorem filterMap_word?_of_isQuiet {l : List Effect} {cancelled : Bool}
    (h : ∀ e ∈ l, e.isQuiet cancelled = true) : l.filterMap word? = [] :=
  List.filterMap_eq_nil_iff.mpr fun e hMem => word?_of_isQuiet (h e hMem)

/-- Quiet effects and one more are as much as that one. -/
theorem filterMap_word?_concat {l : List Effect} {cancelled : Bool}
    (h : ∀ e ∈ l, e.isQuiet cancelled = true) (last : Effect) :
    (l ++ [last]).filterMap word? = last.word?.toList := by
  rw [List.filterMap_append, filterMap_word?_of_isQuiet h, List.nil_append]
  cases hLast : last.word? <;> simp [hLast]

theorem isDial_of_mem_concat {l : List Effect} (h : ∀ e ∈ l, e.isQuiet true = true) {last : Effect}
    (hLast : last.isDial = false) : ∀ e ∈ l ++ [last], e.isDial = false := by
  intro e hMem
  rcases List.mem_append.mp hMem with hMem | hMem
  · exact isDial_of_isQuiet (h e hMem)
  · rw [List.mem_singleton.mp hMem]
    exact hLast

/-- What is quiet once everything is cancelled was quiet before. -/
theorem isQuiet_mono {e : Effect} {cancelled later : Bool} (hLater : cancelled = true → later = true)
    (h : e.isQuiet later = true) : e.isQuiet cancelled = true := by
  cases e with
  | dial k socket =>
    cases cancelled with
    | false => rfl
    | true =>
      rw [hLater rfl] at h
      cases h
  | hook s hook => cases hook <;> first | rfl | cases h
  | _ => rfl

end Effect

namespace Connection

/-- The session for which a handshake is under way. -/
def awaited? (connection : Connection) : Option SessionId :=
  match connection.stage with
  | .accepting s _ => some s
  | .connecting s _ _ => some s
  | _ => none

/-- A connection is as far as it was. -/
structure Keeps (old new : Connection) : Prop where
  isOpen : new.isOpen = old.isOpen
  closed : old.stage = .closed → new.stage = .closed
  session : new.session = old.session
  outstanding : new.outstanding.isSome = old.outstanding.isSome
  reading : new.isOpen = true → old.reading = true → new.reading = true

theorem Keeps.refl (connection : Connection) : connection.Keeps connection :=
  ⟨rfl, id, rfl, rfl, fun _ => id⟩

theorem Keeps.trans {a b c : Connection} (h : a.Keeps b) (h' : b.Keeps c) : a.Keeps c where
  isOpen := h'.isOpen.trans h.isOpen
  closed hClosed := h'.closed (h.closed hClosed)
  session := h'.session.trans h.session
  outstanding := h'.outstanding.trans h.outstanding
  reading hOpen hReading := h'.reading hOpen (h.reading (h'.isOpen ▸ hOpen) hReading)

theorem isOpen_of_closed {connection : Connection} (h : connection.stage = .closed) :
    connection.isOpen = false := by
  unfold isOpen
  rw [h]

theorem isSettled_of_closed {connection : Connection} (h : connection.stage = .closed) :
    connection.isSettled = true := by
  unfold isSettled
  rw [h]

theorem awaited?_of_isOpen {connection : Connection} (h : connection.isOpen = true) :
    connection.awaited? = none := by
  unfold isOpen at h
  unfold awaited?
  split at h <;> simp_all

end Connection

namespace Node

/-- A session exists. -/
def Knows (n : Node) (s : SessionId) : Prop := ∃ session, n.sessions.find? s = some session

/-- A connection is open, and nobody takes messages from it. -/
def Unread (n : Node) (c : ConnectionId) : Prop :=
  ∃ connection, n.connections.find? c = some connection ∧ connection.isOpen = true ∧
    connection.reading = false

/-! ## Steps without a turn -/

/-- No new connection refers to a session that is not its own. -/
def NoNewLinks (n n' : Node) : Prop :=
  ∀ s new c, n'.sessions.find? s = some new → new.current = some c →
    ∃ old, n.sessions.find? s = some old ∧ old.current = some c

/-- What was given up stays given up. -/
structure Lasts (n n' : Node) : Prop where
  cancelled : n.dialsCancelled = true → n'.dialsCancelled = true
  shutDown : n.shutDown = true → n'.shutDown = true
  deaf : n.listening = false → n'.listening = false

/-- Every connection is as far as it was, and nobody is told anything of it. -/
structure Rests (n n' : Node) : Prop where
  connections : ∀ c old, n.connections.find? c = some old →
    ∃ new, n'.connections.find? c = some new ∧ old.Keeps new ∧
      ∀ s, new.awaited? = some s → old.awaited? = some s ∨ n'.Knows s
  joined : ∀ c, n.connections.find? c = none → n'.connections.find? c = none
  roster : n'.roster = n.roster
  known : ∀ s, n.Knows s → n'.Knows s
  current : n.NoNewLinks n'
  lasts : Lasts n n'
  effects : ∃ new, n'.effects = n.effects ++ new ∧ ∀ e ∈ new, e.isQuiet n.dialsCancelled = true

variable {n n' n'' : Node}

theorem Lasts.refl (n : Node) : Lasts n n := ⟨id, id, id⟩

theorem Lasts.trans (h : Lasts n n') (h' : Lasts n' n'') : Lasts n n'' where
  cancelled hCancelled := h'.cancelled (h.cancelled hCancelled)
  shutDown hShut := h'.shutDown (h.shutDown hShut)
  deaf hDeaf := h'.deaf (h.deaf hDeaf)

theorem Rests.of_same (hConnections : n'.connections = n.connections) (hRoster : n'.roster = n.roster)
    (hSessions : n'.sessions = n.sessions) (hLasts : Lasts n n')
    (hEffects : ∃ new, n'.effects = n.effects ++ new ∧
      ∀ e ∈ new, e.isQuiet n.dialsCancelled = true) : Rests n n' where
  connections _ old hOld := ⟨old, hConnections ▸ hOld, .refl old, fun _ => .inl⟩
  joined _ hNone := hConnections ▸ hNone
  roster := hRoster
  known _ hKnown := by
    unfold Knows
    rw [hSessions]
    exact hKnown
  current s new _ hNew hCurrent := ⟨new, hSessions ▸ hNew, hCurrent⟩
  lasts := hLasts
  effects := hEffects

theorem quiet_of_effects_eq (h : n'.effects = n.effects) :
    ∃ new, n'.effects = n.effects ++ new ∧ ∀ e ∈ new, e.isQuiet n.dialsCancelled = true :=
  ⟨[], by rw [h, List.append_nil], List.forall_mem_nil _⟩

theorem Rests.refl (n : Node) : Rests n n :=
  .of_same rfl rfl rfl (.refl n) (quiet_of_effects_eq rfl)

theorem Rests.trans (h : Rests n n') (h' : Rests n' n'') : Rests n n'' := by
  constructor
  case connections =>
    intro c old hOld
    obtain ⟨middle, hMiddle, hKeeps, hAwaited⟩ := h.connections c old hOld
    obtain ⟨new, hNew, hKeeps', hAwaited'⟩ := h'.connections c middle hMiddle
    refine ⟨new, hNew, hKeeps.trans hKeeps', fun s hSome => ?_⟩
    rcases hAwaited' s hSome with hSome | hKnown
    · rcases hAwaited s hSome with hSome | hKnown
      · exact .inl hSome
      · exact .inr (h'.known s hKnown)
    · exact .inr hKnown
  case joined => exact fun c hNone => h'.joined c (h.joined c hNone)
  case roster => exact h'.roster.trans h.roster
  case known => exact fun s hKnown => h'.known s (h.known s hKnown)
  case current =>
    intro s new c hNew hCurrent
    obtain ⟨middle, hMiddle, hCurrent'⟩ := h'.current s new c hNew hCurrent
    exact h.current s middle c hMiddle hCurrent'
  case lasts => exact h.lasts.trans h'.lasts
  case effects =>
    obtain ⟨new, hNew, hQuiet⟩ := h.effects
    obtain ⟨new', hNew', hQuiet'⟩ := h'.effects
    refine ⟨new ++ new', by rw [hNew', hNew, List.append_assoc], fun e hMem => ?_⟩
    rcases List.mem_append.mp hMem with hMem | hMem
    · exact hQuiet e hMem
    · exact Effect.isQuiet_mono h.lasts.cancelled (hQuiet' e hMem)

/-! ## Turns -/

/-- A handshake has succeeded, and the connection is opened for its session. -/
structure Opens (n : Node) (c : ConnectionId) (s : SessionId) (n' : Node) : Prop where
  unsettled : ∃ old, n.connections.find? c = some old ∧ old.isSettled = false
  self : ∃ new, n'.connections.find? c = some new ∧ new.isOpen = true ∧ new.session = some s ∧
    new.outstanding.isSome = true
  others : ∀ c', c' ≠ c → n'.connections.find? c' = n.connections.find? c'
  roster : n'.roster = n.roster.insert c
  known : ∀ s', s' = s ∨ n.Knows s' → n'.Knows s'
  current : ∀ s' new c', n'.sessions.find? s' = some new → new.current = some c' →
    (s' = s ∧ c' = c) ∨ ∃ old, n.sessions.find? s' = some old ∧ old.current = some c'
  lasts : Lasts n n'
  effects : ∃ new, n'.effects = n.effects ++ new ∧ new.filterMap Effect.word? = [.connected s] ∧
    (n.dialsCancelled = true → ∀ e ∈ new, e.isDial = false)

/-- A connection is open for a session. -/
structure Serves (n : Node) (c : ConnectionId) (s : SessionId) (connection : Connection)
    (session : Session) : Prop where
  found : n.connections.find? c = some connection
  isOpen : connection.isOpen = true
  attached : connection.session = some s
  known : n.sessions.find? s = some session

/-- How a handshake begins: the other side has to name a service, or a session connects. -/
inductive Starts (n : Node) : Connection.Stage → Prop
  | naming (issued : Challenge) : Starts n (.naming issued)
  | connecting {s : SessionId} (k : CallId) (rest : Received → Dialogue Handshake.Result)
      (hKnown : n.Knows s) : Starts n (.connecting s k rest)

/-- One turn of a connection, or a step without any. -/
inductive Tick (n : Node) : List Turn → Node → Prop
  | rests {n' : Node} (h : Rests n n') : Tick n [] n'
  | joins {line : Line} {stage : Connection.Stage} (hNew : n.connections.find? line.id = none)
      (hStarts : n.Starts stage) :
      Tick n [.joined line.id]
        { n with connections := n.connections.insert line.id (Connection.create line stage) }
  | opens {n' : Node} {c : ConnectionId} {s : SessionId} (h : n.Opens c s n') :
      Tick n [.opened c s] n'
  | closes {c : ConnectionId} {s : SessionId} {connection : Connection} {session : Session}
      (h : n.Serves c s connection session) (reason : Option WireError) :
      Tick n [.closed c s reason] (n.terminate c reason)

/-- Ticks one after another. -/
inductive Path (n : Node) : List Turn → Node → Prop
  | refl : Path n [] n
  | tick {n' n'' : Node} {ts ts' : List Turn} (h : Path n ts n') (hTick : Tick n' ts' n'') :
      Path n (ts ++ ts') n''

theorem Path.single {ts : List Turn} (h : Tick n ts n') : Path n ts n' := Path.refl.tick h

theorem Path.trans {ts ts' : List Turn} (h : Path n ts n') (h' : Path n' ts' n'') :
    Path n (ts ++ ts') n'' := by
  induction h' with
  | refl =>
    rw [List.append_nil]
    exact h
  | tick _ hTick ih =>
    rw [← List.append_assoc]
    exact ih.tick hTick

/-! ## What holds before and after every turn -/

/-- An open connection is on the roster, belongs to a session and has room for requests. Any other
one has nothing of that, and no session refers to it. -/
structure Fit (n : Node) : Prop where
  shut : ∀ c connection, n.connections.find? c = some connection → connection.isOpen = false →
    connection.IsIdle
  bound : ∀ c connection, n.connections.find? c = some connection → connection.isOpen = true →
    (∃ s, connection.session = some s ∧ n.Knows s) ∧ connection.outstanding.isSome = true
  awaited : ∀ c connection s, n.connections.find? c = some connection →
    connection.awaited? = some s → n.Knows s
  current : ∀ s session c, n.sessions.find? s = some session → session.current = some c →
    ∃ connection, n.connections.find? c = some connection ∧ connection.isOpen = true ∧
      connection.session = some s
  roster : ∀ c, c ∈ n.roster.toList ↔ n.isOpen c = true

variable {c : ConnectionId} {s : SessionId} {ts : List Turn}

/-- What closing a connection leaves. -/
theorem Serves.terminate {connection : Connection} {session : Session}
    (h : n.Serves c s connection session) (reason : Option WireError) :
    (n.terminate c reason).connections = n.connections.modify c Connection.afterClosing ∧
      (n.terminate c reason).roster = n.roster.erase c ∧
      (n.terminate c reason).sessions = (n.detach s c).sessions ∧
      Lasts n (n.terminate c reason) ∧
      ∃ released, (n.terminate c reason).effects =
          n.effects ++ (released ++ [.hook s (.closed reason)]) ∧
        ∀ e ∈ released, e.isQuiet true = true := by
  obtain ⟨calls, exchanges, released, hEq, -, hAll, -⟩ :=
    terminate_eq h.found h.isOpen h.attached h.known reason
  rw [hEq]
  refine ⟨rfl, rfl, rfl, ⟨id, id, id⟩, released, List.append_assoc .., fun e hMem => ?_⟩
  rcases hAll e hMem with rfl | ⟨k, rfl⟩ <;> rfl

/-- A connection that is closed is not open, and every other one is as before. -/
theorem Serves.isOpen_terminate {connection : Connection} {session : Session}
    (h : n.Serves c s connection session) (reason : Option WireError) (c' : ConnectionId) :
    (n.terminate c reason).isOpen c' = true ↔ c' ≠ c ∧ n.isOpen c' = true := by
  unfold Node.isOpen
  rw [(h.terminate reason).1]
  by_cases hc : c' = c
  · subst hc
    rw [SortedMap.find?_modify_self, h.found]
    simp [Connection.isOpen, Connection.afterClosing]
  · rw [SortedMap.find?_modify_of_ne hc]
    simp [hc]

theorem Starts.isOpen {line : Line} {stage : Connection.Stage} (h : n.Starts stage) :
    (Connection.create line stage).isOpen = false := by
  cases h <;> rfl

theorem Starts.awaited {line : Line} {stage : Connection.Stage} (h : n.Starts stage)
    (hSome : (Connection.create line stage).awaited? = some s) : n.Knows s := by
  cases h with
  | naming issued => cases hSome
  | connecting k rest hKnown =>
    cases hSome
    exact hKnown

theorem knows_detach (n : Node) (s : SessionId) (c : ConnectionId) {s' : SessionId}
    (h : n.Knows s') : (n.detach s c).Knows s' := by
  obtain ⟨session, hSession⟩ := h
  unfold Knows
  rw [find?_detach, hSession]
  exact ⟨_, rfl⟩

/-- A session that still refers to a connection after another one is given up did so before. -/
theorem current_detach {s' : SessionId} {new : Session} {c' : ConnectionId}
    (hNew : (n.detach s c).sessions.find? s' = some new) (hCurrent : new.current = some c') :
    ∃ old, n.sessions.find? s' = some old ∧ old.current = some c' ∧ ¬(s' = s ∧ c' = c) := by
  rw [find?_detach] at hNew
  obtain ⟨old, hOld, rfl⟩ := Option.map_eq_some_iff.mp hNew
  split at hCurrent
  · cases hCurrent
  next hOther =>
    refine ⟨old, hOld, hCurrent, ?_⟩
    rintro ⟨rfl, rfl⟩
    exact hOther ⟨rfl, hCurrent⟩

theorem Rests.isOpen (h : Rests n n') (c : ConnectionId) : n'.isOpen c = n.isOpen c := by
  unfold Node.isOpen
  cases hOld : n.connections.find? c with
  | none => rw [h.joined c hOld]
  | some old =>
    obtain ⟨new, hNew, hKeeps, -⟩ := h.connections c old hOld
    rw [hNew]
    exact hKeeps.isOpen

/-- What was kept for a connection after a step without a turn. -/
theorem Rests.back (h : Rests n n') {new : Connection} (hNew : n'.connections.find? c = some new) :
    ∃ old, n.connections.find? c = some old ∧ old.Keeps new ∧
      ∀ s, new.awaited? = some s → old.awaited? = some s ∨ n'.Knows s := by
  cases hOld : n.connections.find? c with
  | none =>
    rw [h.joined c hOld] at hNew
    cases hNew
  | some old =>
    obtain ⟨new', hNew', hKept⟩ := h.connections c old hOld
    obtain rfl := Option.some.inj (hNew.symm.trans hNew')
    exact ⟨old, rfl, hKept⟩

theorem Rests.fit (h : Rests n n') (hFit : n.Fit) : n'.Fit := by
  constructor
  case shut =>
    intro c new hNew hShut
    obtain ⟨old, hOld, hKeeps, -⟩ := h.back hNew
    obtain ⟨hSession, hOutstanding⟩ := hFit.shut c old hOld (hKeeps.isOpen ▸ hShut)
    refine ⟨hKeeps.session.trans hSession, ?_⟩
    have hSame := hKeeps.outstanding
    rw [hOutstanding] at hSame
    simpa using hSame
  case bound =>
    intro c new hNew hOpen
    obtain ⟨old, hOld, hKeeps, -⟩ := h.back hNew
    obtain ⟨⟨s, hSession, hKnown⟩, hOutstanding⟩ := hFit.bound c old hOld (hKeeps.isOpen ▸ hOpen)
    exact ⟨⟨s, hKeeps.session.trans hSession, h.known s hKnown⟩,
      hKeeps.outstanding.trans hOutstanding⟩
  case awaited =>
    intro c new s hNew hAwaited
    obtain ⟨old, hOld, -, hBefore⟩ := h.back hNew
    rcases hBefore s hAwaited with hAwaited | hKnown
    · exact h.known s (hFit.awaited c old s hOld hAwaited)
    · exact hKnown
  case current =>
    intro s new c hNew hCurrent
    obtain ⟨before, hBefore, hCurrent'⟩ := h.current s new c hNew hCurrent
    obtain ⟨old, hOld, hOpen, hSession⟩ := hFit.current s before c hBefore hCurrent'
    obtain ⟨connection, hConnection, hKeeps, -⟩ := h.connections c old hOld
    exact ⟨connection, hConnection, hKeeps.isOpen.trans hOpen, hKeeps.session.trans hSession⟩
  case roster =>
    intro c
    rw [h.roster, h.isOpen]
    exact hFit.roster c

theorem fit_join {line : Line} {stage : Connection.Stage} (hFit : n.Fit)
    (hNew : n.connections.find? line.id = none) (hStarts : n.Starts stage) :
    ({ n with connections := n.connections.insert line.id (Connection.create line stage) } :
      Node).Fit := by
  have hOther : ∀ c old, n.connections.find? c = some old → c ≠ line.id := by
    rintro c old hOld rfl
    cases hNew.symm.trans hOld
  constructor
  case shut =>
    intro c connection hFind hShut
    rcases SortedMap.find?_insert_eq_some hFind with ⟨-, rfl⟩ | ⟨-, hFind⟩
    · exact ⟨rfl, rfl⟩
    · exact hFit.shut c connection hFind hShut
  case bound =>
    intro c connection hFind hOpen
    rcases SortedMap.find?_insert_eq_some hFind with ⟨-, rfl⟩ | ⟨-, hFind⟩
    · cases hStarts.isOpen.symm.trans hOpen
    · exact hFit.bound c connection hFind hOpen
  case awaited =>
    intro c connection s hFind hAwaited
    rcases SortedMap.find?_insert_eq_some hFind with ⟨-, rfl⟩ | ⟨-, hFind⟩
    · exact hStarts.awaited hAwaited
    · exact hFit.awaited c connection s hFind hAwaited
  case current =>
    intro s session c hFind hCurrent
    obtain ⟨connection, hConnection, hBound⟩ := hFit.current s session c hFind hCurrent
    have hStill := SortedMap.find?_insert_of_ne (hOther c connection hConnection) n.connections
      (Connection.create line stage)
    exact ⟨connection, hStill.trans hConnection, hBound⟩
  case roster =>
    intro c
    rw [hFit.roster c]
    unfold isOpen
    by_cases hc : c = line.id
    · subst hc
      rw [hNew, SortedMap.find?_insert_self]
      simp [hStarts.isOpen]
    · rw [SortedMap.find?_insert_of_ne hc]

theorem Opens.fit (h : n.Opens c s n') (hFit : n.Fit) : n'.Fit := by
  obtain ⟨old, hOld, hUnsettled⟩ := h.unsettled
  obtain ⟨new, hNew, hOpen, hSession, hOutstanding⟩ := h.self
  have hShut := Connection.isOpen_of_unsettled hUnsettled
  -- Every other connection is as it was.
  have hBack : ∀ c' connection, n'.connections.find? c' = some connection → c' ≠ c →
      n.connections.find? c' = some connection :=
    fun c' _ hFind hc' => (h.others c' hc').symm.trans hFind
  constructor
  case shut =>
    intro c' connection hFind hShut'
    by_cases hc' : c' = c
    · subst hc'
      obtain rfl := Option.some.inj (hNew.symm.trans hFind)
      cases hOpen.symm.trans hShut'
    · exact hFit.shut c' connection (hBack c' connection hFind hc') hShut'
  case bound =>
    intro c' connection hFind hOpen'
    by_cases hc' : c' = c
    · subst hc'
      obtain rfl := Option.some.inj (hNew.symm.trans hFind)
      exact ⟨⟨s, hSession, h.known s (.inl rfl)⟩, hOutstanding⟩
    · obtain ⟨⟨s', hSession', hKnown⟩, hOutstanding'⟩ :=
        hFit.bound c' connection (hBack c' connection hFind hc') hOpen'
      exact ⟨⟨s', hSession', h.known s' (.inr hKnown)⟩, hOutstanding'⟩
  case awaited =>
    intro c' connection s' hFind hAwaited
    by_cases hc' : c' = c
    · subst hc'
      obtain rfl := Option.some.inj (hNew.symm.trans hFind)
      cases (Connection.awaited?_of_isOpen hOpen).symm.trans hAwaited
    · exact h.known s' (.inr (hFit.awaited c' connection s' (hBack c' connection hFind hc')
        hAwaited))
  case current =>
    intro s' session c' hFind hCurrent
    rcases h.current s' session c' hFind hCurrent with ⟨rfl, rfl⟩ | ⟨before, hBefore, hCurrent'⟩
    · exact ⟨new, hNew, hOpen, hSession⟩
    · obtain ⟨connection, hConnection, hBound⟩ := hFit.current s' before c' hBefore hCurrent'
      have hc' : c' ≠ c := by
        rintro rfl
        obtain rfl := Option.some.inj (hOld.symm.trans hConnection)
        cases hShut.symm.trans hBound.1
      exact ⟨connection, (h.others c' hc').trans hConnection, hBound⟩
  case roster =>
    intro c'
    rw [h.roster, SortedSet.mem_insert_iff, hFit.roster]
    unfold isOpen
    by_cases hc' : c' = c
    · subst hc'
      simp [hNew, hOpen]
    · rw [h.others c' hc']
      simp [hc']

theorem Serves.fit {connection : Connection} {session : Session}
    (h : n.Serves c s connection session) (reason : Option WireError) (hFit : n.Fit) :
    (n.terminate c reason).Fit := by
  obtain ⟨hConnections, hRoster, hSessions, -, -⟩ := h.terminate reason
  have hKnown : ∀ s', n.Knows s' → (n.terminate c reason).Knows s' := by
    intro s' hKnown
    unfold Knows
    rw [hSessions]
    exact knows_detach n s c hKnown
  have hBack : ∀ c' new, (n.terminate c reason).connections.find? c' = some new →
      (c' = c ∧ new.stage = .closed ∧ new.IsIdle) ∨
        (c' ≠ c ∧ n.connections.find? c' = some new) := by
    intro c' new hNew
    rw [hConnections] at hNew
    rcases SortedMap.find?_modify_eq_some hNew with ⟨rfl, old, -, rfl⟩ | hOther
    · exact .inl ⟨rfl, rfl, rfl, rfl⟩
    · exact .inr hOther
  constructor
  case shut =>
    intro c' new hNew hShut
    rcases hBack c' new hNew with ⟨-, -, hIdle⟩ | ⟨-, hOld⟩
    · exact hIdle
    · exact hFit.shut c' new hOld hShut
  case bound =>
    intro c' new hNew hOpen
    rcases hBack c' new hNew with ⟨-, hClosed, -⟩ | ⟨-, hOld⟩
    · cases (Connection.isOpen_of_closed hClosed).symm.trans hOpen
    · obtain ⟨⟨s', hSession, hKnown'⟩, hOutstanding⟩ := hFit.bound c' new hOld hOpen
      exact ⟨⟨s', hSession, hKnown s' hKnown'⟩, hOutstanding⟩
  case awaited =>
    intro c' new s' hNew hAwaited
    rcases hBack c' new hNew with ⟨-, hClosed, -⟩ | ⟨-, hOld⟩
    · unfold Connection.awaited? at hAwaited
      rw [hClosed] at hAwaited
      cases hAwaited
    · exact hKnown s' (hFit.awaited c' new s' hOld hAwaited)
  case current =>
    intro s' new c' hNew hCurrent
    rw [hSessions] at hNew
    obtain ⟨before, hBefore, hCurrent', hOther⟩ := current_detach hNew hCurrent
    obtain ⟨old, hOld, hOpen, hSession⟩ := hFit.current s' before c' hBefore hCurrent'
    -- The connection that is closed was open for one session only.
    have hc' : c' ≠ c := by
      rintro rfl
      obtain rfl := Option.some.inj (hOld.symm.trans h.found)
      exact hOther ⟨Option.some.inj (hSession.symm.trans h.attached), rfl⟩
    refine ⟨old, ?_, hOpen, hSession⟩
    rw [hConnections, SortedMap.find?_modify_of_ne hc']
    exact hOld
  case roster =>
    intro c'
    rw [hRoster, SortedSet.mem_erase_iff, hFit.roster, h.isOpen_terminate]
    exact And.comm

theorem Tick.fit (h : Tick n ts n') (hFit : n.Fit) : n'.Fit := by
  cases h with
  | rests h => exact h.fit hFit
  | joins hNew hStarts => exact fit_join hFit hNew hStarts
  | opens h => exact h.fit hFit
  | closes h reason => exact h.fit reason hFit

theorem Path.fit (h : Path n ts n') (hFit : n.Fit) : n'.Fit := by
  induction h with
  | refl => exact hFit
  | tick _ hTick ih => exact hTick.fit ih

end Node

end PeerServices
