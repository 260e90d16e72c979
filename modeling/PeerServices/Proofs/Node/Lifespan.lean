import PeerServices.Proofs.Node.Exchanges
import PeerServices.Proofs.Node.Multiplexing
import PeerServices.Proofs.Node.Proceeding

/-!
# The lives of connections

Any number of connections comes about, is opened and is closed, in whatever order and for whatever
reason. The roster holds the open ones. A connection that was opened is closed at most once, and the
owner of its session is told so then; what was kept for it is given up together.

* `Occasion`, `Node.meet`: a move, or one or all connections are closed. `Node.Lived`: a node after
  any number of them.
* `Node.Orderly`: what holds of a node whose connections took some turns.
* `Node.GivesUp`: what is given up when a connection is closed.
* `Node.lifespan`: every node is orderly, and stays so.
-/

namespace PeerServices

namespace Node

variable {n : Node} {c : ConnectionId} {s : SessionId}

/-! ## Runs -/

/-- What can happen to the connections of a node. -/
inductive Occasion
  | move (m : Move)
  /-- A session gives up its connection, which somebody is about to close. -/
  | unlink (s : SessionId)
  /-- This side closes one connection. -/
  | close (c : ConnectionId)
  /-- This side closes every open connection. -/
  | closeAll

/-- What an occasion makes of a node. -/
def meet (n : Node) : Occasion → Node
  | .move m => n.make m
  | .unlink s => n.unlink s
  | .close c => n.terminate c none
  | .closeAll => n.closeAll

/-- Can an occasion come? -/
def Admits (n : Node) : Occasion → Prop
  | .move m => n.Permits m
  | .unlink _ | .close _ | .closeAll => True

/-- The turns that an occasion can bring about. -/
def Occasion.Brings (n : Node) : Occasion → Turn → Prop
  | .move m => m.Brings n
  | .unlink _ => fun _ => False
  | .close _ | .closeAll => Turn.IsLocal

/-- A node after any number of occasions. -/
inductive Lived : Node → Prop
  | blank {n : Node} (h : n.Blank) : Lived n
  | meet {n : Node} (h : Lived n) (o : Occasion) (hAdmits : n.Admits o) : Lived (n.meet o)

theorem Reachable.lived (h : n.Reachable) : n.Lived := by
  induction h with
  | blank h => exact .blank h
  | make _ m hPermits ih => exact ih.meet (.move m) hPermits

theorem proceeds_meet {o : Occasion} (h : n.Admits o) : Proceeds (o.Brings n) n (n.meet o) := by
  cases o with
  | move m => exact proceeds_make h
  | unlink s => exact (rests_unlink n s).proceeds
  | close c => exact proceeds_terminate n c (Turn.IsLocal.closed c)
  | closeAll => exact proceeds_closeAll n

theorem Blank.fit (h : n.Blank) : n.Fit := by
  have hConnection : ∀ c connection, n.connections.find? c ≠ some connection := by
    simp [h.connections]
  have hSession : ∀ s session, n.sessions.find? s ≠ some session := by
    simp [h.sessions]
  constructor
  · exact fun c connection hFind => absurd hFind (hConnection c connection)
  · exact fun c connection hFind => absurd hFind (hConnection c connection)
  · exact fun c connection _ hFind => absurd hFind (hConnection c connection)
  · exact fun s session _ hFind => absurd hFind (hSession s session)
  · intro c
    rw [h.roster, isOpen_iff]
    refine iff_of_false nofun ?_
    rintro ⟨connection, hFind, -⟩
    exact hConnection c connection hFind

theorem Lived.fit (h : n.Lived) : n.Fit := by
  induction h with
  | blank h => exact h.fit
  | meet _ o hAdmits ih => exact (proceeds_meet hAdmits).fit ih

/-- Messages are taken from every open connection. -/
theorem Lived.not_unread (h : n.Lived) (c : ConnectionId) : ¬n.Unread c := by
  induction h with
  | blank h =>
    rintro ⟨connection, hFind, -⟩
    rw [h.connections] at hFind
    cases hFind
  | meet h o hAdmits ih =>
    obtain ⟨ts, -, -, hUnread⟩ := proceeds_meet hAdmits h.fit
    exact fun hAfter => ih (hUnread c hAfter)

/-! ## Closed connections -/

/-- Nothing comes of a connection any more: nobody waits for a response on it, requests and messages
are refused, and whatever arrives is passed over. -/
structure IsOver (n : Node) (c : ConnectionId) : Prop where
  table : n.table? c = none
  request : ∀ m listeners, n.sendRequest c m listeners = (.error .notConnected, n)
  write : ∀ m, n.write c m = (.error .notConnected, n)
  respond : ∀ m, n.respond c m = n
  frame : ∀ body, n.receive c (.ok body) = n
  broken : ∀ e, n.receive c (.error e) = n ∨ n.receive c (.error e) =
    (n.modifyConnection c fun connection => { connection with reading := false }).emit (.hangUp c)
  close : ∀ reason, n.terminate c reason = n

theorem IsClosed.not_open (h : n.IsClosed c) : n.isOpen c = false := by
  obtain ⟨connection, hFind, hStage⟩ := h
  unfold isOpen
  rw [hFind]
  exact Connection.isOpen_of_closed hStage

theorem dispatch_of_idle {connection : Connection} (hFind : n.connections.find? c = some connection)
    (hIdle : connection.IsIdle) (m : Message) : n.dispatch c m = n := by
  have hNobody : (n.connections.find? c).bind (·.session) = none := by
    rw [hFind]
    exact hIdle.session
  unfold dispatch
  rw [hNobody]

theorem takeResponse_of_table? (h : n.table? c = none) (m : Message) : n.takeResponse c m = n := by
  rw [takeResponse_eq, waiting?_of_table?_none h]

/-- Nothing comes of a message on a connection that has no session and no room for requests. -/
theorem takeMessage_of_idle {connection : Connection}
    (hFind : n.connections.find? c = some connection) (hIdle : connection.IsIdle)
    (hTable : n.table? c = none) (body : Bytes) : n.takeMessage c (.ok body) = n := by
  unfold takeMessage
  split
  · split
    · exact dispatch_of_idle hFind hIdle _
    · exact takeResponse_of_table? hTable _
  · rfl
  next hNotCodec hDecode =>
    obtain ⟨cause, rfl⟩ := Frame.codec_of_decode hDecode
    exact (hNotCodec cause rfl).elim

/-- A stream that breaks is read no further. -/
theorem takeMessage_of_broken (hShut : n.isOpen c = false) (e : WireError) :
    n.takeMessage c (.error e) = n ∨ n.takeMessage c (.error e) =
      (n.modifyConnection c fun connection => { connection with reading := false }).emit
        (.hangUp c) := by
  cases e with
  | codec cause => exact .inl rfl
  | _ =>
    right
    unfold takeMessage stopReading
    simp only [Frame.decode, hShut]
    rfl

/-- A connection that is closed is over. -/
theorem Fit.isOver (hFit : n.Fit) (hClosed : n.IsClosed c) : n.IsOver c := by
  have hShut := hClosed.not_open
  obtain ⟨connection, hFind, hStage⟩ := hClosed
  have hConnectionShut := Connection.isOpen_of_closed hStage
  have hIdle := hFit.shut c connection hFind hConnectionShut
  have hTable : n.table? c = none := by
    rw [table?, hFind]
    exact hIdle.outstanding
  have hReceive : ∀ frame, n.receive c frame =
      if connection.reading then n.takeMessage c frame else n := by
    intro frame
    unfold receive
    rw [hFind]
    simp only [hStage]
  constructor
  case table => exact hTable
  case request =>
    intro m listeners
    unfold sendRequest
    rw [hFind]
    simp only [hIdle.outstanding]
  case write =>
    intro m
    have hSame : n.withdraw c m.uid = n := withdraw_of_none (waiting?_of_table?_none hTable m.uid)
    unfold write
    rw [hFind]
    simp only [hConnectionShut, hSame]
  case respond =>
    intro m
    unfold respond
    rw [hFind]
    simp only [hConnectionShut]
  case frame =>
    intro body
    rw [hReceive]
    split
    · exact takeMessage_of_idle hFind hIdle hTable body
    · rfl
  case broken =>
    intro e
    rw [hReceive]
    split
    · exact takeMessage_of_broken hShut e
    · exact .inl rfl
  case close => exact terminate_of_not_open hShut

/-- A broken stream closes a connection that is open, for that reason. -/
theorem Lived.receive_error (h : n.Lived) (hOpen : n.isOpen c = true) {e : WireError}
    (hCause : ∀ cause, e ≠ .codec cause) : n.receive c (.error e) = n.terminate c (some e) := by
  obtain ⟨connection, hFind, hIsOpen⟩ := isOpen_iff.mp hOpen
  have hReading : connection.reading = true := by
    rw [← Bool.not_eq_false]
    exact fun hNotReading => h.not_unread c ⟨connection, hFind, hIsOpen, hNotReading⟩
  have hStage : connection.stage = .opened := by
    unfold Connection.isOpen at hIsOpen
    split at hIsOpen
    next hStage => exact hStage
    · cases hIsOpen
  unfold receive
  rw [hFind]
  simp only [hStage, hReading, if_true]
  unfold takeMessage
  cases e with
  | codec cause => exact absurd rfl (hCause cause)
  | _ =>
    unfold stopReading
    simp only [Frame.decode, hOpen, if_true]

/-! ## Closing -/

/-- What is given up when a connection is closed. The calls that wait for a response on it are
released, and no others. Its session gives it up, but not another connection. The owner is told last,
and why. -/
structure GivesUp (n : Node) (c : ConnectionId) (s : SessionId) (reason : Option WireError) :
    Prop where
  closed : (n.terminate c reason).IsClosed c
  released : ∀ t, n.table? c = some t → ∀ k ∈ callers t.listeners,
    (n.calls.find? k).isSome = true → (n.terminate c reason).calls.find? k = none ∧
      releaseOf k ∈ (n.terminate c reason).effects
  others : ∀ k, (∀ t, n.table? c = some t → k ∉ callers t.listeners) →
    (n.terminate c reason).calls.find? k = n.calls.find? k
  session : ∀ s', (n.terminate c reason).sessions.find? s' = (n.sessions.find? s').map
    fun session =>
      if s' = s ∧ session.current = some c then { session with current := none } else session
  told : (n.terminate c reason).effects.getLast? = some (.hook s (.closed reason))

theorem Serves.givesUp {connection : Connection} {session : Session}
    (h : n.Serves c s connection session) (reason : Option WireError) : n.GivesUp c s reason := by
  obtain ⟨calls, exchanges, released, hEq, hCalls, -, hSaid⟩ :=
    terminate_eq h.found h.isOpen h.attached h.known reason
  have hListeners : ∀ t, n.table? c = some t → connection.listeners = t.listeners := by
    intro t hTable
    rw [table?, h.found] at hTable
    exact Connection.listeners_of_some hTable
  constructor
  case closed =>
    refine ⟨connection.afterClosing, ?_, rfl⟩
    rw [(h.terminate reason).1, SortedMap.find?_modify_self, h.found]
    rfl
  case released =>
    intro t hTable k hMem hSome
    rw [← hListeners t hTable] at hMem
    rw [hEq]
    refine ⟨?_, ?_⟩
    · rw [hCalls, if_pos hMem]
    · exact List.mem_append_left _ (List.mem_append_right _ (hSaid k hMem hSome))
  case others =>
    intro k hNotIn
    rw [hEq, hCalls, if_neg]
    cases hOutstanding : connection.outstanding with
    | none =>
      rw [Connection.listeners_of_none hOutstanding]
      exact List.not_mem_nil
    | some t =>
      have hTable : n.table? c = some t := by
        rw [table?, h.found]
        exact hOutstanding
      rw [hListeners t hTable]
      exact hNotIn t hTable
  case session =>
    intro s'
    rw [(h.terminate reason).2.2.1]
    exact find?_detach n s c s'
  case told =>
    rw [hEq]
    exact List.getLast?_concat

/-! ## Orderly nodes -/

/-- What holds of a node whose connections took some turns. The owners of sessions were told of these
turns and of nothing else, every connection is as far as its turns tell, the roster holds the open
ones, a session refers to none but an open one of its own, and a closed one is over. -/
structure Orderly (n : Node) (story : List Turn) : Prop where
  words : n.words = story.filterMap Turn.word?
  fits : ∀ c, n.Fits c (turnsOf c story)
  roster : ∀ c, c ∈ n.roster.toList ↔ n.isOpen c = true
  current : ∀ s session c, n.sessions.find? s = some session → session.current = some c →
    ∃ connection, n.connections.find? c = some connection ∧ connection.isOpen = true ∧
      connection.session = some s
  isOver : ∀ c, n.IsClosed c → n.IsOver c

/-- What an occasion does to a node. No closed connection is opened again, the turns are those that
the occasion can bring about, and whenever a connection is closed, everything is given up that was
kept for it then. -/
structure Advances (n : Node) (o : Occasion) (ts : List Turn) : Prop where
  stays : ∀ c, n.IsClosed c → (n.meet o).IsClosed c
  brings : ∀ t ∈ ts, o.Brings n t
  closing : ∀ c s reason, .closed c s reason ∈ ts → ∃ m : Node, m.isOpen c = true ∧
    m.GivesUp c s reason ∧ n.effects <+: m.effects ∧
      (m.terminate c reason).effects <+: (n.meet o).effects

theorem Fit.orderly {story : List Turn} (hFit : n.Fit)
    (hWords : n.words = story.filterMap Turn.word?) (hFits : ∀ c, n.Fits c (turnsOf c story)) :
    n.Orderly story where
  words := hWords
  fits := hFits
  roster := hFit.roster
  current := hFit.current
  isOver _ := hFit.isOver

theorem Orderly.path {n' : Node} {story ts : List Turn} (h : n.Orderly story) (hFit : n.Fit)
    (hPath : Path n ts n') : n'.Orderly (story ++ ts) := by
  apply (hPath.fit hFit).orderly
  · rw [hPath.words, h.words, List.filterMap_append]
  · intro c
    have hFits := hPath.fits (h.fits c)
    rwa [turnsOf, turnsOf, ← List.filter_append] at hFits

theorem Lived.advances (h : n.Lived) {o : Occasion} (hAdmits : n.Admits o) {story : List Turn}
    (hOrderly : n.Orderly story) :
    ∃ ts, (n.meet o).Orderly (story ++ ts) ∧ n.Advances o ts := by
  obtain ⟨ts, hPath, hBrings, -⟩ := proceeds_meet hAdmits h.fit
  refine ⟨ts, hOrderly.path h.fit hPath, fun c => hPath.isClosed, hBrings, ?_⟩
  intro c s reason hMem
  obtain ⟨m, connection, session, hServes, hBefore, hAfter⟩ := hPath.closing hMem
  exact ⟨m, isOpen_iff.mpr ⟨connection, hServes.found, hServes.isOpen⟩, hServes.givesUp reason,
    hBefore, hAfter⟩

theorem Lived.exists_orderly (h : n.Lived) : ∃ story, n.Orderly story := by
  induction h with
  | @blank n h =>
    refine ⟨[], h.fit.orderly ?_ fun c => .unknown ?_⟩
    · rw [words, h.effects]
      rfl
    · rw [h.connections]
      rfl
  | meet h o hAdmits ih =>
    obtain ⟨story, hOrderly⟩ := ih
    obtain ⟨ts, hNext, -⟩ := h.advances hAdmits hOrderly
    exact ⟨story ++ ts, hNext⟩

/-- Any number of connections on one node, through handshakes, broken streams, and closings of one or
all of them by this side, also from within a handler or as soon as a session is connected. After
every step the node is orderly. What happens next leaves it so, adds turns to its story that can come
of it, and opens no closed connection again. An open connection can be closed for any reason: its
session is told that reason once, which is the failure of the stream if that breaks, and what was
kept for the connection is given up together. -/
theorem lifespan (h : n.Lived) :
    (∃ story, n.Orderly story) ∧
    (∀ story, n.Orderly story →
      (∀ o, n.Admits o → ∃ ts, (n.meet o).Orderly (story ++ ts) ∧ n.Advances o ts) ∧
      ∀ c, n.isOpen c = true → ∃ s, ∀ reason, n.GivesUp c s reason ∧
        (n.terminate c reason).Orderly (story ++ [.closed c s reason])) ∧
    (∀ c e, n.isOpen c = true → (∀ cause, e ≠ .codec cause) →
      n.receive c (.error e) = n.terminate c (some e)) ∧
    ∀ c, n.closeAll.isOpen c = false := by
  refine ⟨h.exists_orderly, fun story hOrderly => ⟨fun o hAdmits => h.advances hAdmits hOrderly, ?_⟩,
    fun c e hOpen hCause => h.receive_error hOpen hCause, isOpen_closeAll h.fit⟩
  intro c hOpen
  obtain ⟨s, connection, session, hServes⟩ := h.fit.serves hOpen
  refine ⟨s, fun reason => ⟨hServes.givesUp reason, ?_⟩⟩
  exact hOrderly.path h.fit (.single (.closes hServes reason))

/-! ## A visit that ends -/

section Visit

open Handshake

/-- A guest has come to exchange grants, and was asked to prove itself. -/
def arriving : Node :=
  create Relay.sample.host
    |>.make (.activate (.exchange Relay.sample.host.address))
    |>.make (.add Relay.sample.record)
    |>.make (.event (.accept ⟨0, Relay.sample.issued, true⟩))
    |>.make (.event (.receive 0 (.ok (Parcel.service .exchange).body)))
    |>.make (.event (.receive 0 (.ok (Parcel.challenge Relay.sample.counter).body)))

/-- What the guest proves itself with. -/
def proving : Move := .event (.receive 0 (.ok (Parcel.proof Relay.sample.proof).body))

/-- The guest has proved itself. -/
def visiting : Node := arriving.make proving

theorem arriving_lived : arriving.Lived := by
  have hBlank : (create Relay.sample.host).Lived := .blank ⟨rfl, rfl, rfl, rfl, rfl, rfl⟩
  have hOffers := hBlank.meet (.move (.activate (.exchange Relay.sample.host.address))) trivial
  have hKnows := hOffers.meet (.move (.add Relay.sample.record)) trivial
  have hAccepts := hKnows.meet (.move (.event (.accept ⟨0, Relay.sample.issued, true⟩))) rfl
  have hHears : ∀ n : Node, n.Lived → ∀ frame, (n.make (.event (.receive 0 frame))).Lived :=
    fun n hLived frame => hLived.meet (.move (.event (.receive 0 frame))) trivial
  exact hHears _ (hHears _ hAccepts _) _

theorem visiting_lived : visiting.Lived := arriving_lived.meet (.move proving) trivial

set_option maxRecDepth 100000 in
theorem visiting_open : visiting.isOpen 0 = true := by decide +kernel

/-- The guest goes away, and the owner of the session is told so. -/
theorem visiting_ends : visiting.Lived ∧ visiting.isOpen 0 = true ∧
    ∃ story s, (visiting.receive 0 (.error .connectionClosed)).Orderly
      (story ++ [.closed 0 s (some .connectionClosed)]) := by
  obtain ⟨⟨story, hOrderly⟩, hSteps, hBreaks, -⟩ := lifespan visiting_lived
  obtain ⟨s, hEnds⟩ := (hSteps story hOrderly).2 0 visiting_open
  refine ⟨visiting_lived, visiting_open, story, s, ?_⟩
  rw [hBreaks 0 .connectionClosed visiting_open fun _ => nofun]
  exact (hEnds _).2

end Visit

end Node

end PeerServices
