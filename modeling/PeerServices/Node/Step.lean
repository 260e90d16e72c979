import PeerServices.Node.Exchange

/-!
# Steps of a node

* `Node.accept`, `Node.converseAccepting`: somebody connects, names a service and goes through its
  handshake, for which there is a time limit.
* `Node.dispatch`: a request is answered by the session's handler for its code.
* `Node.handle`: what a node makes of an event.
* `Node.activate`, `Node.deactivate`, `Node.shutdown`: what the owner does with a node as a whole.
-/

namespace PeerServices.Node

/-! ## Accepting -/

/-- Somebody connects. -/
def accept (n : Node) (line : Line) : Node :=
  let connection := Connection.create line (.naming line.issued)
  let n := { n with connections := n.connections.insert line.id connection }
  (n.emit (.listen line.id)).emit (.timer n.handshakeLimit (.expire line.id))

/-- Refuses a connection. -/
def refuse (n : Node) (c : ConnectionId) (cause : WireError) : Node :=
  (n.modifyConnection c fun connection =>
    { connection with stage := .closed, acceptance := some (.error cause) }).emit (.hangUp c)

/-- Goes on with the handshake of somebody who connects. -/
def converseAccepting (n : Node) (c : ConnectionId) (s : SessionId)
    (dialogue : Dialogue Handshake.Result) : Node :=
  let reachable := ((n.connections.find? c).map (·.reachable)).getD false
  let (sent, pause) := dialogue.advance n.authorizer reachable
  let n := sent.foldl (fun n parcel => n.emit (.send c parcel)) n
  match pause with
  | .waiting rest =>
    n.modifyConnection c fun connection => { connection with stage := .accepting s rest }
  | .over (.ok record) =>
    (n.modifyConnection c fun connection =>
      { connection with acceptance := some (.ok ()) }).openConnection c s record
  | .over (.error cause) =>
    (n.fire s (.authenticationFailed cause)).refuse c (.handshakeFailed cause.message)

/-- Somebody who connects names a service. -/
def nameService (n : Node) (c : ConnectionId) (issued : Challenge) (frame : Received) : Node :=
  match Frame.decode ServiceId frame with
  | .error e => n.refuse c e
  | .ok id =>
    match n.services.find? id with
    | none => n.refuse c (.unknownService id)
    | some service =>
      let (s, n) := n.newSession (.create service.address service.mode false service.behaviour)
      n.converseAccepting c s (Handshake.accepting n.credentials service.mode id issued).run

/-- The time for an acceptance is over. -/
def expire (n : Node) (c : ConnectionId) : Node :=
  match (n.connections.find? c).map Connection.stage with
  | some (.naming _) | some (.accepting ..) => n.refuse c (.handshakeTimeout n.handshakeLimit)
  | _ => n

/-! ## Messages -/

def dispatch (n : Node) (c : ConnectionId) (m : Message) : Node :=
  match (n.connections.find? c).bind (·.session) with
  | none => n
  | some s =>
    let failed (n : Node) (text : String) : Node :=
      n.respond c (m.errorResponse ("Remote error: " ++ text))
    let unknown : Node :=
      n.respond c (m.errorResponse ("Unknown request: " ++ toString m.code.toNat))
    match (n.sessions.find? s).map Session.behaviour with
    | none => unknown
    | some .exchange =>
      if m.code = exchangeCode then
        match n.answerExchange (n.peerOf? s) m with
        | (.ok response, n) => n.respond c response
        | (.error text, n) => failed n text
      else unknown
    | some (.application handlers _) =>
      match Handler.find? handlers m.code with
      | none => unknown
      | some handler =>
        let reaction := handler { peer := n.peerOf? s, record := n.recordOf? s } m
        let n := if reaction.closes then n.closeSession s else n
        match reaction.answer with
        | .ok (some response) => n.respond c response
        | .ok none => n
        | .error text => failed n text

/-- Takes a message. A frame that holds no message is passed over. -/
def takeMessage (n : Node) (c : ConnectionId) (frame : Received) : Node :=
  match Frame.decode Message frame with
  | .ok m => if m.isRequest then n.dispatch c m else n.takeResponse c m
  | .error (.codec _) => n
  | .error e => n.stopReading c e

/-- Takes the next frame of a connection. -/
def receive (n : Node) (c : ConnectionId) (frame : Received) : Node :=
  match n.connections.find? c with
  | none => n
  | some connection =>
    match connection.stage with
    | .naming issued => n.nameService c issued frame
    | .accepting s rest => n.converseAccepting c s (rest frame)
    | .connecting s k rest => n.converseConnecting c s k (rest frame)
    | .opened | .closed => if connection.reading then n.takeMessage c frame else n

/-- Takes frames from what has arrived on a connection, as long as there are any and the node takes
them. Gives what is left. -/
def readStream (n : Node) (c : ConnectionId) (s : Inbound) : Node × Inbound :=
  if ((n.connections.find? c).map Connection.listens).getD false then
    match _ : s.next with
    | .waiting => (n, s)
    | .frame body rest => (n.receive c (.ok body)).readStream c rest
    | .broken cause => (n.receive c (.error cause), s)
  else (n, s)
termination_by s.bytes.length
decreasing_by exact Inbound.length_of_next ‹_›

def deliver (n : Node) (listener : Listener Target) (m : Message) : Node :=
  match listener.target with
  | .reply k form => n.finish k (Reply.ofResponse m form)
  | .exchange k peer => n.takeExchange k peer m
  | .report => n.emit (.answered listener.code m)

/-! ## Events -/

/-- What a node makes of an event. -/
def handle (n : Node) : Event → Node
  | .accept line => n.accept line
  | .receive c frame => n.receive c frame
  | .lose c => n.modifyConnection c fun connection => { connection with reachable := false }
  | .expire c => n.expire c
  | .begin k => n.begin k
  | .proceed k => n.proceed k
  | .dialled k outcome => n.endDial k outcome
  | .redial k => n.redial k
  | .deliver listener m => n.deliver listener m
  | .overdue k => n.overdue k
  | .unwritten k => n.unwritten k
  | .exchange peer => (n.exchange peer).2

def run (n : Node) (events : List Event) : Node := events.foldl handle n

/-! ## The owner -/

/-- Sends a request for the owner, who takes the responses with the given codes. Gives what came of
it and the request's uid. -/
def post (n : Node) (c : ConnectionId) (code : UInt8) (payload : Bytes) (codes : List UInt8) :
    Except WireError Unit × Int64 × Node :=
  let uid := uidOf n.nextCall
  let n := { n with nextCall := n.nextCall + 1 }
  let (sent, n) := n.sendRequest c ((Message.request uid code).write payload)
    (codes.map fun code => ⟨code, .report⟩)
  (sent, uid, n)

/-- Offers a service, instead of any with the same id. -/
def activate (n : Node) (service : Service) : Node :=
  { n with services := n.services.insert service.address.id service }

/-- Offers a service no longer. Its open sessions go on. -/
def unlist (n : Node) (id : ServiceId) : Node := { n with services := n.services.erase id }

/-- Offers a service no longer and drops it from every record. -/
def deactivate (n : Node) (id : ServiceId) : Node :=
  match n.services.find? id with
  | none => n
  | some service => (n.unlist id).purge service.address

/-- Can be reached no longer, and closes everything. -/
def leave (n : Node) : Node := { n.closeExchanges with listening := false, shutDown := true }.closeAll

/-- Stops a node for good: no attempt to reach somebody goes on, and everything is closed. -/
def shutdown (n : Node) : Node := if n.shutDown then n else n.cancelDials.leave

end PeerServices.Node
