import PeerServices.Node.Connection

/-!
# Calls of a node

A call sends one request of a session and ends with its response, with a failure, or when its time
is over. A session that is not connected is connected first, by one call at a time; the others wait
for it in order. The other end takes the request when it reads; the call waits from the sending on,
and fails if the other end is gone before it has taken the request.

* `Node.request` makes a call, `Node.begin` begins it.
* `Node.connect`, `Node.dial`, `Node.dialled`, `Node.redial`: the call that connects.
* `Node.transmit`: the session is connected and the request is sent.
* `Node.deliver`, `Node.overdue`, `Node.unwritten`: how a call ends.
-/

namespace PeerServices.Node

/-! ## Requests -/

/-- Calls draw the uids of their requests upwards from here. -/
def firstUid : Nat := Nat.pow 2 61

/-- The uid of a call's request. -/
def uidOf (k : CallId) : Int64 := Int64.ofNat (firstUid + k)

def newCall (n : Node) (s : SessionId) (timeout : Duration) (message : Message → Message)
    (code : UInt8) (listeners : CallId → List (Listener Target))
    (resolved : Option Reply.Result) : CallId × Node :=
  let k := n.nextCall
  let call : Call :=
    { session := s, message := message (.request (uidOf k) code), listeners := listeners k, timeout
      resolved, stage := .pending }
  (k, { n with calls := n.calls.insert k call, nextCall := k + 1 })

/-- A request with a payload, and the forms in which its responses are read. -/
def request (n : Node) (s : SessionId) (timeout : Duration) (code : UInt8) (payload : Bytes)
    (forms : List (UInt8 × Reply.Form)) (resolved : Option Reply.Result) : CallId × Node :=
  let (k, n) := n.newCall s timeout (·.write payload) code
    (fun k => forms.map fun f => ⟨f.1, .reply k f.2⟩) resolved
  (k, n.emit (.later (.begin k)))

/-! ## Sending -/

/-- The call waits no longer for responses. -/
def lapse (n : Node) (k : CallId) (cause : Call → ServiceError) : Node :=
  match n.calls.find? k with
  | none => n
  | some call =>
    match call.stage with
    | .waiting c => ((n.finish k (.error (cause call))).forget c call.message.uid).2
    | _ => n

def overdue (n : Node) (k : CallId) : Node := n.lapse k fun call => .timeout call.timeout

def unwritten (n : Node) (k : CallId) : Node := n.lapse k fun _ => .ofWire (.io .brokenPipe)

/-- Sends a call's request on an open connection. A call that was settled before, or that nobody can
settle, or that has no time, ends at once. -/
def transmit (n : Node) (k : CallId) (c : ConnectionId) : Node :=
  match n.calls.find? k with
  | none => n
  | some call =>
    match n.sendRequest c call.message call.listeners with
    | (.error e, n) => n.finish k (.error (.ofWire e))
    | (.ok (), n) =>
      match call.resolved with
      | some result => n.finish k result
      | none =>
        if call.listeners.isEmpty then n.finish k (.error Reply.dropped)
        else
          let n := n.modifyCall k fun call => { call with stage := .waiting c }
          if call.timeout.nanoseconds = 0 then n.overdue k
          else n.emit (.timer call.timeout (.overdue k))

/-! ## Connecting -/

/-- The failure to reach a host when every attempt is cancelled. -/
def cancelledDial (host : PeerAddress) : ServiceError :=
  .interrupted ("Connecting to " ++ host.text ++ " was cancelled")

/-- The call that connects a session is done with that; the next one goes on. -/
def release (n : Node) (s : SessionId) : Node :=
  match n.sessions.find? s with
  | none => n
  | some session =>
    let n := n.modifySession s fun session =>
      { session with connecting := session.waiters.head?, waiters := session.waiters.tail }
    match session.waiters.head? with
    | none => n
    | some k => n.emit (.later (.proceed k))

/-- A call could not connect its session. -/
def failToConnect (n : Node) (s : SessionId) (k : CallId) (cause : ServiceError) : Node :=
  ((n.fire s (.connectionFailed cause)).finish k (.error cause)).release s

/-- Reaches for the host of a call at a socket, after a number of failed attempts. -/
def dialAt (n : Node) (s : SessionId) (k : CallId) (host : PeerAddress) (socket : SocketAddress)
    (attempts : Nat) : Node :=
  if n.dialsCancelled then n.failToConnect s k (cancelledDial host)
  else
    (n.modifyCall k fun call => { call with stage := .dialling attempts socket }).emit
      (.dial k socket)

/-- Reaches for the host of a call where it is known to be. Every later attempt is made there. -/
def dial (n : Node) (s : SessionId) (k : CallId) (host : PeerAddress) : Node :=
  match n.routes.find? host with
  | none => n.failToConnect s k (.unregistered host)
  | some socket => n.dialAt s k host socket 0

/-- A call connects its session, unless that is connected by now. -/
def connect (n : Node) (s : SessionId) (k : CallId) (host : PeerAddress) : Node :=
  match n.openConnection? s with
  | some c => (n.release s).transmit k c
  | none =>
    if n.connects then n.dial s k host
    else n.failToConnect s k (.io ⟨.notConnected, "Peer shut down"⟩)

def begin (n : Node) (k : CallId) : Node :=
  match n.calls.find? k with
  | none => n
  | some call =>
    match n.openConnection? call.session, n.sessions.find? call.session with
    | some c, _ => n.transmit k c
    | none, none => n
    | none, some session =>
      if !session.isProxy then
        n.finish k (.error (.io ⟨.notConnected, WireError.notConnected.message⟩))
      else if session.connecting.isSome then
        n.modifySession call.session fun session =>
          { session with waiters := session.waiters ++ [k] }
      else
        (n.modifySession call.session fun session => { session with connecting := some k }).connect
          call.session k session.address.host

/-- A call goes on after the one before it. -/
def proceed (n : Node) (k : CallId) : Node :=
  match n.calls.find? k with
  | none => n
  | some call =>
    match n.sessions.find? call.session with
    | none => n
    | some session => n.connect call.session k session.address.host

/-- The side of a handshake that connects, from its first parcel on. -/
def connectingSide (n : Node) (session : Session) (issued : Challenge) :
    Handshake.Side (Option PeerRecord) := do
  Handshake.send (.service session.address.id)
  Handshake.connecting n.credentials session.mode session.address.host issued

/-- Goes on with the handshake of a connection that a call opens. -/
def converseConnecting (n : Node) (c : ConnectionId) (s : SessionId) (k : CallId)
    (dialogue : Dialogue Handshake.Result) : Node :=
  let reachable := ((n.connections.find? c).map (·.reachable)).getD false
  let (sent, pause) := dialogue.advance n.authorizer reachable
  let n := sent.foldl (fun n parcel => n.emit (.send c parcel)) n
  match pause with
  | .waiting rest =>
    n.modifyConnection c fun connection => { connection with stage := .connecting s k rest }
  | .over (.ok record) =>
    let host := (n.sessions.find? s).map fun session => session.address.host
    let n := n.modifyConnection c fun connection => { connection with peer := host }
    ((n.openConnection c s record).release s).transmit k c
  | .over (.error cause) =>
    let n := n.modifyConnection c fun connection => { connection with stage := .closed }
    let n := (n.fire s (.authenticationFailed cause)).emit (.hangUp c)
    (n.finish k (.error (.io ⟨.connectionAborted, "Authentication failed"⟩))).release s

/-- A connection that nobody needs any more. -/
def decline (n : Node) (outcome : Except ServiceError Line) : Node :=
  match outcome with
  | .ok line => n.emit (.hangUp line.id)
  | .error _ => n

/-- The host of a call was reached, or an attempt to reach it failed. Only failures of the transport
are worth another attempt. -/
def dialled (n : Node) (k : CallId) (outcome : Except ServiceError Line) : Node :=
  match n.calls.find? k with
  | none => n.decline outcome
  | some call =>
    match call.stage, n.sessions.find? call.session with
    | .dialling attempts socket, some session =>
      match outcome with
      | .ok line =>
        let n := n.modifyCall k fun call => { call with stage := .reached }
        let side := n.connectingSide session line.issued
        let connection := Connection.create line (.connecting call.session k fun _ => side.run)
        let n := { n with connections := n.connections.insert line.id connection }
        (n.emit (.listen line.id)).converseConnecting line.id call.session k side.run
      | .error e =>
        let plan : Retry.Plan ServiceError := ⟨n.connectRetry, fun e => e matches .io _⟩
        match (plan.next (attempts + 1) (.error e) : Retry.Next Unit ServiceError) with
        | .again delay =>
          (n.modifyCall k fun call => { call with stage := .dialling (attempts + 1) socket }).emit
            (.timer delay (.redial k))
        | .stop _ => n.failToConnect call.session k e
    | _, _ => n.decline outcome

/-- An attempt to reach a host is over. If every attempt is cancelled, it counts as cancelled,
whatever came of it. -/
def endDial (n : Node) (k : CallId) (outcome : Except ServiceError Line) : Node :=
  if n.dialsCancelled then
    match (n.calls.find? k).bind fun call => n.sessions.find? call.session with
    | none => n.decline outcome
    | some session =>
      (n.decline outcome).dialled k (.error (cancelledDial session.address.host))
  else n.dialled k outcome

/-- Tries again to reach the host of a call, where it was tried before. -/
def redial (n : Node) (k : CallId) : Node :=
  match n.calls.find? k with
  | none => n
  | some call =>
    match call.stage, n.sessions.find? call.session with
    | .dialling attempts socket, some session =>
      n.dialAt call.session k session.address.host socket attempts
    | _, _ => n

/-- Cancels every attempt to reach a host, now and later. -/
def cancelDials (n : Node) : Node :=
  let dialling := n.calls.toList.filter fun e => e.2.stage matches .dialling ..
  dialling.foldl
    (fun n e =>
      match n.sessions.find? e.2.session with
      | none => n
      | some session =>
        n.emit (.later (.dialled e.1 (.error (cancelledDial session.address.host)))))
    { n with dialsCancelled := true }

end PeerServices.Node
