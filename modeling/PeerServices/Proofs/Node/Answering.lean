import PeerServices.Proofs.Node.Closing
import PeerServices.Proofs.Node.Multiplexing
import PeerServices.Proofs.Node.Preservation
import PeerServices.Proofs.Node.Reaching
import PeerServices.Proofs.Wire.Stream

/-!
# Requests are answered in order

A stream of frames arrives on an open connection, in pieces of any size. Some frames hold requests,
some hold responses, and some hold no message.

* `Handler.answer?`: the response to a request that is sent, if there is one.
* `Node.Answers`: an open connection whose requests go to handlers that do not hang up.
* `Node.Answers.receive`: one frame sends what it is answered with, and changes nothing that later
  answers depend on.
* `Node.answers_in_order`: a whole stream is answered request by request, as if the frames that hold no
  message were not there, until it breaks.
-/

namespace PeerServices

namespace Message

/-- The message that a frame holds, if it holds one. -/
def ofBody? (body : Bytes) : Option Message := (Serial.decode Message body).toOption

/-- Can a message be sent in one frame? -/
def fits (m : Message) : Bool := (Serial.encode m).length ≤ Frame.maxSize

end Message

namespace Handler

/-- What a table of handlers makes of a request: the response of the handler, an error that tells
why it failed, or an error that tells that there is no handler. An error belongs to the request by
its uid, and carries nothing but the text. -/
def response? (handlers : Table) (caller : Caller) (m : Message) : Option Message :=
  match find? handlers m.code with
  | none => some
      { kind := .response, uid := m.uid, status := .error, code := 0, unread := []
        written := Codec.text ("Unknown request: " ++ toString m.code.toNat) }
  | some handler =>
    match (handler caller m).answer with
    | .ok response? => response?
    | .error text => some
        { kind := .response, uid := m.uid, status := .error, code := 0, unread := []
          written := Codec.text ("Remote error: " ++ text) }

/-- The response to a request that is sent. One that does not fit in a frame is not. -/
def answer? (handlers : Table) (caller : Caller) (m : Message) : Option Message :=
  (response? handlers caller m).filter Message.fits

end Handler

/-- Something arrives on a connection: more of the stream, or its end. -/
inductive Arrival
  | bytes (piece : Bytes)
  | ended

def Arrival.apply (s : Inbound) : Arrival → Inbound
  | .bytes piece => s.append piece
  | .ended => s.finish

theorem Arrival.grows (a : Arrival) : Inbound.Grows (Arrival.apply · a) := by
  cases a with
  | bytes piece => exact Inbound.grows_append piece
  | ended => exact Inbound.grows_finish

namespace Node

variable {n n' : Node} {c : ConnectionId} {s : SessionId} {handlers : Handler.Table}
  {caller : Handler.Caller}

/-- What a node makes of a stream of which some has arrived, and then more and more. -/
def attend (n : Node) (c : ConnectionId) (stream : Inbound) (arrivals : List Arrival) :
    Node × Inbound :=
  arrivals.foldl (fun state a => state.1.readStream c (a.apply state.2)) (n.readStream c stream)

/-- What a node makes of frames one after another. -/
def takeAll (n : Node) (c : ConnectionId) (bodies : List Bytes) : Node :=
  n.run (bodies.map fun body => .receive c (.ok body))

theorem takeAll_cons (n : Node) (c : ConnectionId) (body : Bytes) (bodies : List Bytes) :
    n.takeAll c (body :: bodies) = (n.receive c (.ok body)).takeAll c bodies := rfl

/-! ## Who asks -/

/-- What a handler is told about who is at the other end. -/
def callerOf (n : Node) (s : SessionId) : Handler.Caller :=
  { peer := n.peerOf? s, record := n.recordOf? s }

/-- The nodes differ at most in the requests that wait for responses. -/
structure UpToRequests (n n' : Node) : Prop where
  sessions : n'.sessions = n.sessions
  connections : ∀ c, ∃ f : Option (Outstanding Target) → Option (Outstanding Target),
    n'.connections.find? c = (n.connections.find? c).map fun connection =>
      { connection with outstanding := f connection.outstanding }

theorem upToRequests_withdraw (hSessions : n'.sessions = n.sessions) {uid : Int64}
    (hConnections : n'.connections = (n.withdraw c uid).connections) : UpToRequests n n' where
  sessions := hSessions
  connections c' := by
    rw [hConnections]
    by_cases hc : c' = c
    · subst hc
      exact ⟨Option.map (·.erase uid), n.find?_modifyConnection_self c' _⟩
    · refine ⟨id, (n.find?_modifyConnection_of_ne hc _).trans ?_⟩
      cases n.connections.find? c' <;> rfl

namespace UpToRequests

theorem isOpen (h : UpToRequests n n') (c : ConnectionId) : n'.isOpen c = n.isOpen c := by
  obtain ⟨f, hFind⟩ := h.connections c
  unfold Node.isOpen
  rw [hFind]
  cases n.connections.find? c <;> rfl

theorem openConnection? (h : UpToRequests n n') (s : SessionId) :
    n'.openConnection? s = n.openConnection? s := by
  simp [Node.openConnection?, h.sessions, h.isOpen]

/-- What is read off a session's connection, if it does not tell of requests. -/
theorem currentConnection? (h : UpToRequests n n') (s : SessionId) {α : Type}
    {read : Connection → Option α}
    (hRead : ∀ connection table, read { connection with outstanding := table } = read connection) :
    (n'.currentConnection? s).bind read = (n.currentConnection? s).bind read := by
  unfold Node.currentConnection?
  rw [h.openConnection?]
  cases n.openConnection? s with
  | none => rfl
  | some c =>
    obtain ⟨f, hFind⟩ := h.connections c
    change (n'.connections.find? c).bind read = (n.connections.find? c).bind read
    rw [hFind]
    cases n.connections.find? c with
    | none => rfl
    | some connection => exact hRead connection _

/-- Requests that wait make no difference to what is told about the other end. -/
theorem callerOf (h : UpToRequests n n') (s : SessionId) : n'.callerOf s = n.callerOf s := by
  have hPeer : n'.peerOf? s = n.peerOf? s := by
    unfold peerOf?
    rw [h.sessions]
    cases n.sessions.find? s with
    | none => rfl
    | some session =>
      change (if session.isProxy = true then some session.address.host
        else (n'.currentConnection? s).bind (·.peer)) = _
      rw [h.currentConnection? s fun _ _ => rfl]
      rfl
  have hRecord : n'.recordOf? s = n.recordOf? s := h.currentConnection? s fun _ _ => rfl
  unfold Node.callerOf
  rw [hPeer, hRecord]

end UpToRequests

/-! ## A connection that answers -/

/-- An open connection to somebody whose requests are answered by handlers. None of them hangs up,
and what is sent gets through. -/
structure Answers (n : Node) (c : ConnectionId) (handlers : Handler.Table)
    (caller : Handler.Caller) : Prop where
  serves : ∃ connection s session closes, n.connections.find? c = some connection ∧
    connection.stage = .opened ∧ connection.reading = true ∧ connection.reachable = true ∧
    connection.session = some s ∧ n.sessions.find? s = some session ∧
    session.behaviour = .application handlers closes ∧ n.callerOf s = caller
  stays : ∀ entry ∈ handlers, ∀ caller m, (entry.2 caller m).closes = false

theorem Answers.of_withdraw (h : n.Answers c handlers caller) (hSessions : n'.sessions = n.sessions)
    {uid : Int64} (hConnections : n'.connections = (n.withdraw c uid).connections) :
    n'.Answers c handlers caller := by
  obtain ⟨connection, s, session, closes, hFind, hStage, hReading, hReachable, hSession, hKnown,
    hBehaviour, hCaller⟩ := h.serves
  have hNew : n'.connections.find? c =
      some { connection with outstanding := connection.outstanding.map (·.erase uid) } := by
    rw [hConnections, withdraw, find?_modifyConnection_self, hFind]
    rfl
  refine ⟨⟨_, s, session, closes, hNew, hStage, hReading, hReachable, hSession, ?_, hBehaviour, ?_⟩,
    h.stays⟩
  · rw [hSessions]
    exact hKnown
  · rw [(upToRequests_withdraw hSessions hConnections).callerOf]
    exact hCaller

theorem Answers.emit (h : n.Answers c handlers caller) (e : Effect) :
    (n.emit e).Answers c handlers caller := ⟨h.serves, h.stays⟩

theorem Answers.listens (h : n.Answers c handlers caller) :
    ((n.connections.find? c).map Connection.listens).getD false = true := by
  obtain ⟨connection, s, session, closes, hFind, hStage, hReading, -⟩ := h.serves
  rw [hFind]
  simp [Connection.listens, hStage, hReading]

theorem stays_of_find? (h : ∀ entry ∈ handlers, ∀ caller m, (entry.2 caller m).closes = false)
    {code : UInt8} {handler : Handler} (hFind : Handler.find? handlers code = some handler)
    (caller : Handler.Caller) (m : Message) : (handler caller m).closes = false := by
  obtain ⟨entry, hEntry, rfl⟩ := Option.map_eq_some_iff.mp hFind
  exact h entry (List.mem_reverse.mp (List.mem_of_find?_eq_some hEntry)) caller m

theorem Answers.respond (h : n.Answers c handlers caller) (m : Message) :
    n.respond c m = if m.fits then n.emit (.send c (.message m)) else n := by
  obtain ⟨connection, s, session, closes, hFind, hStage, -, hReachable, -⟩ := h.serves
  have hOpen : connection.isOpen = true := by simp [Connection.isOpen, hStage]
  unfold Node.respond
  rw [hFind]
  simp only [hOpen, hReachable]
  by_cases hFits : m.fits = true
  · have hLength : (Parcel.message m).body.length ≤ Frame.maxSize := of_decide_eq_true hFits
    rw [Parcel.sent_of_length_le hLength, if_pos hFits]
  · have hLength : ¬(Parcel.message m).body.length ≤ Frame.maxSize := fun hLe =>
      hFits (decide_eq_true hLe)
    rw [if_neg hFits]
    simp [Parcel.sent, Parcel.frame, Frame.encode, hLength]

theorem Answers.dispatch_response (h : n.Answers c handlers caller) (m : Message) :
    n.dispatch c m =
      match Handler.response? handlers caller m with
      | some response => n.respond c response
      | none => n := by
  obtain ⟨connection, s, session, closes, hFind, -, -, -, hSession, hKnown, hBehaviour, hCaller⟩ :=
    h.serves
  have hTold : ({ peer := n.peerOf? s, record := n.recordOf? s } : Handler.Caller) = caller := hCaller
  unfold Node.dispatch Handler.response?
  rw [hFind]
  simp only [Option.bind_some, hSession, hKnown, Option.map_some, hBehaviour]
  cases hHandler : Handler.find? handlers m.code with
  | none => rfl
  | some handler =>
    have hStays := stays_of_find? h.stays hHandler caller m
    simp only [hTold, hStays, Bool.false_eq_true, if_false]
    cases (handler caller m).answer with
    | error text => rfl
    | ok response? => cases response? <;> rfl

/-- A request is answered with what its handler makes of it, if that can be sent. -/
theorem Answers.dispatch (h : n.Answers c handlers caller) (m : Message) :
    n.dispatch c m =
      match Handler.answer? handlers caller m with
      | some response => n.emit (.send c (.message response))
      | none => n := by
  rw [h.dispatch_response]
  unfold Handler.answer?
  cases Handler.response? handlers caller m with
  | none => rfl
  | some response =>
    dsimp only
    rw [h.respond]
    cases hFits : response.fits <;> simp [Option.filter, hFits]

/-! ## One frame -/

/-- What a frame is answered with. -/
def answers (handlers : Handler.Table) (caller : Handler.Caller) (bodies : List Bytes) :
    List Message :=
  ((bodies.filterMap Message.ofBody?).filter Message.isRequest).filterMap
    (Handler.answer? handlers caller)

section Single

variable {body : Bytes} {m : Message}

theorem answers_malformed (hBody : Message.ofBody? body = none) :
    answers handlers caller [body] = [] := by
  simp [answers, hBody]

theorem answers_response (hBody : Message.ofBody? body = some m) (hResponse : m.isRequest = false) :
    answers handlers caller [body] = [] := by
  simp [answers, hBody, hResponse]

theorem answers_request (hBody : Message.ofBody? body = some m) (hRequest : m.isRequest = true) :
    answers handlers caller [body] = (Handler.answer? handlers caller m).toList := by
  cases hAnswer : Handler.answer? handlers caller m <;> simp [answers, hBody, hRequest, hAnswer]

end Single

theorem receive_of_answers (h : n.Answers c handlers caller) (frame : Received) :
    n.receive c frame = n.takeMessage c frame := by
  obtain ⟨connection, s, session, closes, hFind, hStage, hReading, -⟩ := h.serves
  unfold receive
  rw [hFind]
  simp [hStage, hReading]

theorem decode_of_ofBody? {body : Bytes} {m : Message} (h : Message.ofBody? body = some m) :
    Frame.decode Message (.ok body) = .ok m := by
  unfold Message.ofBody? at h
  cases hDecode : Serial.decode Message body with
  | error e =>
    rw [hDecode] at h
    cases h
  | ok value =>
    rw [hDecode] at h
    cases h
    simp [Frame.decode, hDecode]

/-- A frame that holds no message is passed over. -/
theorem receive_malformed (h : n.Answers c handlers caller) {body : Bytes}
    (hBody : Message.ofBody? body = none) : n.receive c (.ok body) = n := by
  have hDecode : ∃ e, Frame.decode Message (.ok body) = .error (.codec e) := by
    unfold Message.ofBody? at hBody
    cases hDecode : Serial.decode Message body with
    | error e => exact ⟨e, by simp [Frame.decode, hDecode]⟩
    | ok value =>
      rw [hDecode] at hBody
      cases hBody
  obtain ⟨e, hDecode⟩ := hDecode
  rw [receive_of_answers h, takeMessage, hDecode]

theorem sends_abandon (n : Node) (c : ConnectionId) (listeners : List (Listener Target)) :
    Sends n (n.abandon listeners) c [] := by
  unfold abandon
  generalize listeners.filterMap _ = ks
  induction ks generalizing n with
  | nil => exact sends_of_eq rfl
  | cons k ks ih => exact (sends_finish (n := n) k _).next (ih _)

/-- A response sends nothing. -/
theorem takeResponse_spec (n : Node) (c : ConnectionId) (m : Message) :
    (n.takeResponse c m).sessions = n.sessions ∧ Sends n (n.takeResponse c m) c [] := by
  rw [takeResponse_eq]
  cases n.waiting? c m.uid with
  | none => exact ⟨rfl, sends_of_eq rfl⟩
  | some listeners =>
    dsimp only
    cases Outstanding.chosen? m listeners with
    | some listener => exact ⟨rfl, sends_emit (n := n.withdraw c m.uid) rfl⟩
    | none =>
      exact ⟨abandon_sessions _ _, (sends_of_eq rfl).trans (sends_abandon (n.withdraw c m.uid) c _)⟩

/-- A frame sends what it is answered with, and later frames are answered as before. -/
theorem Answers.receive (h : n.Answers c handlers caller) (body : Bytes) :
    (n.receive c (.ok body)).Answers c handlers caller ∧
      Sends n (n.receive c (.ok body)) c ((answers handlers caller [body]).map .message) := by
  cases hBody : Message.ofBody? body with
  | none =>
    rw [receive_malformed h hBody, answers_malformed hBody]
    exact ⟨h, sends_of_eq rfl⟩
  | some m =>
    rw [receive_of_answers h, takeMessage, decode_of_ofBody? hBody]
    dsimp only
    cases hRequest : m.isRequest with
    | true =>
      rw [if_pos rfl, h.dispatch, answers_request hBody hRequest]
      cases Handler.answer? handlers caller m with
      | none => exact ⟨h, sends_of_eq rfl⟩
      | some response => exact ⟨h.emit _, sends_sendAll n c [.message response]⟩
    | false =>
      rw [if_neg Bool.false_ne_true, answers_response hBody hRequest]
      obtain ⟨hSessions, hSends⟩ := takeResponse_spec n c m
      exact ⟨h.of_withdraw hSessions (takeResponse_connections n c m), hSends⟩

/-! ## The end of the stream -/

/-- When the stream breaks, the connection is closed for that reason. -/
theorem Answers.receive_error (h : n.Answers c handlers caller) {cause : WireError}
    (hCause : ∀ e, cause ≠ .codec e) :
    n.receive c (.error cause) = n.terminate c (some cause) := by
  obtain ⟨connection, s, session, closes, hFind, hStage, -⟩ := h.serves
  have hOpen : n.isOpen c = true := by
    rw [isOpen_iff]
    exact ⟨connection, hFind, by simp [Connection.isOpen, hStage]⟩
  have hStop : n.stopReading c cause = n.terminate c (some cause) := if_pos hOpen
  rw [receive_of_answers h, ← hStop]
  cases cause with
  | codec e => exact absurd rfl (hCause e)
  | _ => rfl

/-- A connection that is closed sends nothing, takes nothing, and its session is told why. -/
structure Ended (n n' : Node) (c : ConnectionId) (reason : Option WireError) : Prop where
  closed : n'.isOpen c = false
  deaf : ((n'.connections.find? c).map Connection.listens).getD false = false
  told : ∃ s, .hook s (.closed reason) ∈ n'.effects
  silent : Sends n n' c []

theorem Answers.terminate (h : n.Answers c handlers caller) (reason : Option WireError) :
    n.Ended (n.terminate c reason) c reason := by
  obtain ⟨connection, s, session, closes, hFind, hStage, -, -, hSession, hKnown, -⟩ := h.serves
  have hOpen : connection.isOpen = true := by simp [Connection.isOpen, hStage]
  obtain ⟨calls, exchanges, released, hEq, -, hReleased, -⟩ :=
    terminate_eq hFind hOpen hSession hKnown reason
  have hLeft : (n.terminate c reason).connections.find? c = some connection.afterClosing := by
    rw [hEq]
    change (n.connections.modify c Connection.afterClosing).find? c = _
    rw [SortedMap.find?_modify_self, hFind]
    rfl
  constructor
  case closed =>
    unfold isOpen
    rw [hLeft]
    rfl
  case deaf =>
    rw [hLeft]
    rfl
  case told =>
    refine ⟨s, ?_⟩
    rw [hEq]
    exact List.mem_append_right _ (List.mem_singleton.mpr rfl)
  case silent =>
    refine ⟨released ++ [.hook s (.closed reason)], ?_, ?_⟩
    · rw [hEq]
      exact List.append_assoc _ _ _
    · have hNone : released.filterMap Effect.sent? = [] := by
        rw [List.filterMap_eq_nil_iff]
        intro e hMem
        rcases hReleased e hMem with rfl | ⟨k, rfl⟩ <;> rfl
      rw [List.filterMap_append, hNone]
      rfl

/-! ## Many frames -/

theorem answers_cons (body : Bytes) (bodies : List Bytes) :
    answers handlers caller (body :: bodies) =
      answers handlers caller [body] ++ answers handlers caller bodies := by
  have hSplit : body :: bodies = [body] ++ bodies := rfl
  unfold answers
  rw [hSplit, List.filterMap_append, List.filter_append, List.filterMap_append]

theorem Answers.takeAll (h : n.Answers c handlers caller) (bodies : List Bytes) :
    (n.takeAll c bodies).Answers c handlers caller ∧
      Sends n (n.takeAll c bodies) c ((answers handlers caller bodies).map .message) := by
  induction bodies generalizing n with
  | nil => exact ⟨h, sends_of_eq rfl⟩
  | cons body bodies ih =>
    obtain ⟨hAnswers, hSends⟩ := h.receive body
    obtain ⟨hAnswers', hSends'⟩ := ih hAnswers
    rw [takeAll_cons, answers_cons, List.map_append]
    exact ⟨hAnswers', hSends.trans hSends'⟩

/-- Frames that hold no message might as well not be there. -/
theorem Answers.takeAll_filter (h : n.Answers c handlers caller) (bodies : List Bytes) :
    n.takeAll c bodies = n.takeAll c (bodies.filter fun body => (Message.ofBody? body).isSome) := by
  induction bodies generalizing n with
  | nil => rfl
  | cons body bodies ih =>
    rw [takeAll_cons, List.filter_cons]
    cases hBody : Message.ofBody? body with
    | none =>
      rw [receive_malformed h hBody, ih h]
      rfl
    | some m =>
      rw [ih (h.receive body).1]
      rfl

/-! ## A whole stream -/

theorem readStream_of_deaf (h : ((n.connections.find? c).map Connection.listens).getD false = false)
    (stream : Inbound) : n.readStream c stream = (n, stream) := by
  rw [readStream, h]
  rfl

section Listening

variable {stream rest : Inbound} {body : Bytes} {cause : WireError}

theorem Answers.readStream_of_waiting (h : n.Answers c handlers caller)
    (hNext : stream.next = .waiting) : n.readStream c stream = (n, stream) := by
  rw [Node.readStream, h.listens, if_pos rfl]
  split <;> simp_all

theorem Answers.readStream_of_frame (h : n.Answers c handlers caller)
    (hNext : stream.next = .frame body rest) :
    n.readStream c stream = (n.receive c (.ok body)).readStream c rest := by
  rw [Node.readStream, h.listens, if_pos rfl]
  split <;> simp_all

theorem Answers.readStream_of_broken (h : n.Answers c handlers caller)
    (hNext : stream.next = .broken cause) :
    n.readStream c stream = (n.terminate c (some cause), stream) := by
  have hCause := Inbound.cause_ne_codec (congrArg Prod.snd (Inbound.contents_of_broken hNext))
  rw [← h.receive_error hCause, Node.readStream, h.listens, if_pos rfl]
  split <;> simp_all

end Listening

/-- What a node makes of the frames of a stream, and of what breaks it. -/
def outcome (n : Node) (c : ConnectionId) (contents : List Bytes × Option WireError) : Node :=
  match contents.2 with
  | none => n.takeAll c contents.1
  | some cause => (n.takeAll c contents.1).terminate c (some cause)

theorem Answers.readStream (h : n.Answers c handlers caller) (stream : Inbound) :
    (n.readStream c stream).1 = n.outcome c stream.contents := by
  induction hLength : stream.bytes.length using Nat.strongRecOn generalizing n stream with
  | ind length ih =>
    cases hNext : stream.next with
    | waiting =>
      rw [h.readStream_of_waiting hNext, Inbound.contents_of_waiting hNext]
      rfl
    | frame body rest =>
      rw [h.readStream_of_frame hNext, Inbound.contents_of_frame hNext,
        ih _ (hLength ▸ Inbound.length_of_next hNext) (h.receive body).1 rest rfl]
      rfl
    | broken cause =>
      rw [h.readStream_of_broken hNext, Inbound.contents_of_broken hNext]
      rfl

/-- It makes no difference whether the stream is read before more of it arrives. -/
theorem Answers.readStream_grows (h : n.Answers c handlers caller) {f : Inbound → Inbound}
    (hGrows : Inbound.Grows f) (stream : Inbound) :
    (n.readStream c stream).1.readStream c (f (n.readStream c stream).2) =
      n.readStream c (f stream) := by
  induction hLength : stream.bytes.length using Nat.strongRecOn generalizing n stream with
  | ind length ih =>
    cases hNext : stream.next with
    | waiting => rw [h.readStream_of_waiting hNext]
    | frame body rest =>
      rw [h.readStream_of_frame hNext, h.readStream_of_frame (hGrows.frame hNext)]
      exact ih _ (hLength ▸ Inbound.length_of_next hNext) (h.receive body).1 rest rfl
    | broken cause =>
      rw [h.readStream_of_broken hNext, h.readStream_of_broken (hGrows.broken hNext)]
      exact readStream_of_deaf (h.terminate (some cause)).deaf _

/-- However a stream arrives, in the end it is read as if it had been there at once. -/
theorem Answers.attend (h : n.Answers c handlers caller) (stream : Inbound)
    (arrivals : List Arrival) :
    n.attend c stream arrivals = n.readStream c (arrivals.foldl Arrival.apply stream) := by
  unfold Node.attend
  induction arrivals generalizing stream with
  | nil => rfl
  | cons a arrivals ih =>
    rw [List.foldl_cons, List.foldl_cons, h.readStream_grows a.grows, ih]

/-- A stream arrives on an open connection whose requests are answered, in whatever pieces.

All of its frames are read. What is sent is, in the order of the requests, what they are answered
with, and nothing else. Frames that hold no message make no difference. As long as no frame is
refused and the stream has not ended, the connection goes on as before; otherwise it is closed for
that reason, and nothing that arrives later is read. -/
theorem answers_in_order (h : n.Answers c handlers caller) (stream : Inbound)
    (arrivals : List Arrival) :
    let arrived := arrivals.foldl Arrival.apply stream
    let contents := arrived.contents
    let after := (n.attend c stream arrivals).1
    let before := n.takeAll c (contents.1.filter fun body => (Message.ofBody? body).isSome)
    arrived.Holds contents.1 contents.2 ∧
      Sends n after c ((((contents.1.filterMap Message.ofBody?).filter Message.isRequest).filterMap
        (Handler.answer? handlers caller)).map .message) ∧
      match contents.2 with
      | none => after = before ∧ after.Answers c handlers caller
      | some cause => after = before.terminate c (some cause) ∧ before.Ended after c (some cause) := by
  intro arrived contents after before
  have hHolds := arrived.holds_contents
  obtain ⟨hAnswers, hSends⟩ := h.takeAll contents.1
  have hBefore : before = n.takeAll c contents.1 := (h.takeAll_filter contents.1).symm
  have hAfter : after = n.outcome c contents := by
    change (n.attend c stream arrivals).1 = _
    rw [h.attend]
    exact h.readStream _
  refine ⟨hHolds, ?_⟩
  rw [hBefore, hAfter]
  unfold outcome
  cases contents.2 with
  | none => exact ⟨hSends, rfl, hAnswers⟩
  | some cause =>
    have hEnded := hAnswers.terminate (some cause)
    exact ⟨hSends.next hEnded.silent, rfl, hEnded⟩

/-! ## A stream with a frame that holds no message -/

def sampleHandlers : Handler.Table := [(1, .echo 2), (3, .fail "not now")]

/-- A node with one open connection and a session that answers on it. -/
def sampleServer : Node :=
  { (default : Node) with
    connections := SortedMap.empty.insert 0
      { Connection.create ⟨0, default, true⟩ .opened with
        session := some 0
        outstanding := some .empty
        reading := true }
    sessions := SortedMap.empty.insert 0
      { Session.create ⟨.exchange, .null⟩ .restricted false (.application sampleHandlers false) with
        current := some 0 } }

/-- A request to repeat a byte, a frame that holds no message, and two more requests. -/
def sampleBodies : List Bytes :=
  [Serial.encode ((Message.request 7 1).write [5]), [9], Serial.encode (Message.request 8 4),
    Serial.encode (Message.request 9 3)]

def sampleArrivals : List Arrival :=
  [.bytes ((sampleBodies.flatMap Inbound.framed).take 5),
    .bytes ((sampleBodies.flatMap Inbound.framed).drop 5), .ended]

theorem sampleServer_answers : sampleServer.Answers 0 sampleHandlers ⟨none, none⟩ where
  serves := ⟨_, 0, _, false, rfl, rfl, rfl, rfl, rfl, rfl, rfl, rfl⟩
  stays entry hMem caller m := by
    simp only [sampleHandlers, List.mem_cons, List.not_mem_nil, or_false] at hMem
    rcases hMem with rfl | rfl <;> rfl

theorem sampleServer_answers_in_order :
    sampleServer.Answers 0 sampleHandlers ⟨none, none⟩ ∧
      Sends sampleServer (sampleServer.attend 0 .empty sampleArrivals).1 0
        [.message
            { kind := .response, uid := 7, status := .ok, code := 2, unread := [], written := [5] },
          .message
            { kind := .response, uid := 8, status := .error, code := 0, unread := []
              written := Codec.text "Unknown request: 4" },
          .message
            { kind := .response, uid := 9, status := .error, code := 0, unread := []
              written := Codec.text "Remote error: not now" }] ∧
      (sampleServer.attend 0 .empty sampleArrivals).1.isOpen 0 = false := by
  have hStream : sampleArrivals.foldl Arrival.apply .empty =
      { ended := true, bytes := sampleBodies.flatMap Inbound.framed ++ [] } := rfl
  have hContents : (sampleArrivals.foldl Arrival.apply .empty).contents =
      (sampleBodies, some .connectionClosed) := by
    have hRest : Inbound.contents ⟨[], true⟩ = ([], some .connectionClosed) :=
      Inbound.contents_of_broken rfl
    have hBodies : ∀ body ∈ sampleBodies, body.length ≤ Frame.maxSize := by decide
    rw [hStream, Inbound.contents_append hBodies ⟨[], true⟩, hRest]
    rfl
  obtain ⟨-, hSends, hEnd⟩ := answers_in_order sampleServer_answers .empty sampleArrivals
  rw [hContents] at hSends hEnd
  exact ⟨sampleServer_answers, hSends, hEnd.2.closed⟩

end Node

end PeerServices
