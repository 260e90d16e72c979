import PeerServices.Node.Basic

/-!
# Connections of a node

* `Node.fire` tells the owner of a session what happened. A session that exchanges grants is kept
  for later exchanges while it is connected, and dropped when it fails or is closed.
* `Node.openConnection`: a handshake succeeded.
* `Node.terminate`: an open connection is closed, by either side and only once. Every request that
  waits for a response on it fails.
* `Node.sendRequest`, `Node.respond`: messages go out on open connections only.
-/

namespace PeerServices.Node

/-! ## Sessions for exchanges -/

/-- Keeps a connected session for exchanges with its peer, unless another one is connected. -/
def keepExchange (n : Node) (s : SessionId) : Node :=
  match n.peerOf? s with
  | none => n
  | some peer =>
    match n.exchanges.find? peer with
    | none => { n with exchanges := n.exchanges.insert peer s }
    | some kept =>
      if kept ≠ s ∧ ¬ n.isConnected kept then
        { n with exchanges := n.exchanges.insert peer s }
      else n

/-- Keeps a session no longer for exchanges. -/
def dropExchange (n : Node) (s : SessionId) : Node :=
  match n.peerOf? s with
  | none => n
  | some peer =>
    if n.exchanges.find? peer = some s then { n with exchanges := n.exchanges.erase peer } else n

/-- Tells what happened to a session. -/
def fire (n : Node) (s : SessionId) (h : Session.Hook) : Node :=
  match n.sessions.find? s with
  | none => n
  | some session =>
    let n := n.emit (.hook s h)
    match session.behaviour, h with
    | .application .., _ | .exchange, .configured => n
    | .exchange, .connected _ => n.keepExchange s
    | .exchange, _ => n.dropExchange s

/-! ## Calls that end -/

/-- Ends a call. A call that ended before is not affected. -/
def finish (n : Node) (k : CallId) (result : Reply.Result) : Node :=
  if n.calls.contains k then
    { n with calls := n.calls.erase k }.emit (.finished k result)
  else n

/-- Nobody will ever give these listeners a response. -/
def abandon (n : Node) (listeners : List (Listener Target)) : Node :=
  (listeners.filterMap (·.target.call?)).foldl
    (fun n k => n.finish k (.error Reply.dropped)) n

/-! ## Closing -/

/-- A session has no connection any more, if it was this one. -/
def detach (n : Node) (s : SessionId) (c : ConnectionId) : Node :=
  n.modifySession s fun session =>
    if session.current = some c then { session with current := none } else session

/-- Closes an open connection. -/
def terminate (n : Node) (c : ConnectionId) (reason : Option WireError) : Node :=
  match n.connections.find? c with
  | none => n
  | some connection =>
    if !connection.isOpen then n
    else
      let n := n.modifyConnection c fun connection =>
        { connection with stage := .closed, outstanding := none, reading := false, session := none }
      let n := n.abandon connection.listeners
      let n := if connection.reading then n.emit (.hangUp c) else n
      let n := n.strike c
      match connection.session with
      | none => n
      | some s => (n.detach s c).fire s (.closed reason)

/-- A session gives up its connection, if it has one. -/
def unlink (n : Node) (s : SessionId) : Node :=
  n.modifySession s fun session => { session with current := none }

/-- Closes the connection of a session, which gives it up before. -/
def closeSession (n : Node) (s : SessionId) : Node :=
  match (n.sessions.find? s).bind (·.current) with
  | none => n
  | some c => (n.unlink s).terminate c none

/-- Closes every open connection. -/
def closeAll (n : Node) : Node :=
  n.roster.toList.foldl (fun n c => n.terminate c none) { n with roster := .empty }

/-- Somebody who took messages from a connection stops, because the stream broke. -/
def stopReading (n : Node) (c : ConnectionId) (reason : WireError) : Node :=
  if n.isOpen c then n.terminate c (some reason)
  else (n.modifyConnection c fun connection => { connection with reading := false }).emit (.hangUp c)

/-! ## Opening -/

/-- Tells a session that it is connected; the first time it is told before that it will be. -/
def fireConnected (n : Node) (s : SessionId) : Node :=
  match n.sessions.find? s with
  | none => n
  | some session =>
    let n :=
      if session.configured then n
      else (n.modifySession s fun session => { session with configured := true }).fire s .configured
    let n :=
      match n.view? s with
      | none => n
      | some view => n.fire s (.connected view)
    match session.behaviour with
    | .application _ true => n.closeSession s
    | _ => n

/-- Opens a connection after its handshake, attaches it to its session and starts to take messages
from it. -/
def openConnection (n : Node) (c : ConnectionId) (s : SessionId) (record : Option PeerRecord) :
    Node :=
  let n := n.modifyConnection c fun connection =>
    { connection with
      stage := .opened
      peer := connection.peer.or (record.map PeerRecord.address)
      record
      session := some s
      outstanding := some .empty }
  let n := n.enlist c
  let n := n.modifySession s fun session => { session with current := some c }
  let n := n.fireConnected s
  (n.modifyConnection c fun connection => { connection with reading := true }).emit (.listen c)

/-! ## Messages -/

/-- Sends a request and waits for its responses, if the connection is open and the request could be
sent. -/
def sendRequest (n : Node) (c : ConnectionId) (m : Message) (listeners : List (Listener Target)) :
    Except WireError Unit × Node :=
  match n.connections.find? c with
  | none => (.error .notConnected, n)
  | some connection =>
    match connection.outstanding, (Parcel.message m).sent connection.reachable with
    | none, _ => (.error .notConnected, n)
    | some _, .error e => (.error e, n)
    | some outstanding, .ok () =>
      let n := n.modifyConnection c fun connection =>
        { connection with outstanding := some (outstanding.insert m.uid listeners) }
      (.ok (), n.emit (.send c (.message m)))

/-- Waits no longer for responses to a request. Tells whether anybody did. -/
def forget (n : Node) (c : ConnectionId) (uid : Int64) : Bool × Node :=
  match ((n.connections.find? c).bind (·.outstanding)).bind fun t => (t.find? uid).map (t, ·) with
  | none => (false, n)
  | some (outstanding, listeners) =>
    let n := n.modifyConnection c fun connection =>
      { connection with outstanding := some (outstanding.erase uid) }
    (true, n.abandon listeners)

/-- Sends a response, if the connection is open and the response can be sent. -/
def respond (n : Node) (c : ConnectionId) (m : Message) : Node :=
  match n.connections.find? c with
  | none => n
  | some connection =>
    match connection.isOpen, (Parcel.message m).sent connection.reachable with
    | true, .ok () => n.emit (.send c (.message m))
    | _, _ => n

/-- Takes a response. -/
def takeResponse (n : Node) (c : ConnectionId) (m : Message) : Node :=
  match ((n.connections.find? c).bind (·.outstanding)).bind fun t => (t.find? m.uid).map (t, ·) with
  | none => n
  | some (outstanding, listeners) =>
    let n := n.modifyConnection c fun connection =>
      { connection with outstanding := some (outstanding.erase m.uid) }
    match Outstanding.chosen? m listeners with
    | some listener => n.emit (.later (.deliver listener m))
    | none => n.abandon listeners

end PeerServices.Node
