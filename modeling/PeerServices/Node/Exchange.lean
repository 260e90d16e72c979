import PeerServices.Node.Call

/-!
# Exchanges of grants

An exchange is one request and its response. The request holds what the asking side grants. The
response tells whether the answering side's grants were still pending, and holds them if so.

* `Node.exchange` asks, `Node.answerExchange` answers, `Node.takeExchange` takes the answer.
* `Node.add`, `update`, `grant`: changes of the directory that are followed by an exchange. The
  others are not.
-/

namespace PeerServices.Node

/-- The code of an exchange, in the request and in the response. -/
def exchangeCode : UInt8 := 100

/-- Changes the directory and tells what happened. -/
def commit (n : Node) (change : Directory.Change) : Node :=
  change.2.foldl (fun n e => n.emit (.changed e)) { n with directory := change.1 }

/-! ## The asking side -/

/-- The session for exchanges with a peer: the one that is kept, or a new one. -/
def exchangeSession? (n : Node) (peer : PeerAddress) : Option (SessionId × Node) :=
  match n.exchanges.find? peer with
  | some s => some (s, n)
  | none =>
    if n.exchangeConnects then
      let (s, n) := n.proxy ⟨.exchange, peer⟩ .restricted .exchange
      some (s, { n with exchanges := n.exchanges.insert peer s })
    else none

/-- A call that ends before it begins. -/
def fail (n : Node) (cause : ServiceError) : CallId × Node :=
  (n.nextCall, { n with nextCall := n.nextCall + 1 }.emit (.finished n.nextCall (.error cause)))

def exchange (n : Node) (peer : PeerAddress) : CallId × Node :=
  match n.directory.find? peer with
  | none => n.fail (.unregistered peer)
  | some record =>
    match n.exchangeSession? peer with
    | none => n.fail (.io ⟨.notConnected, "No connector"⟩)
    | some (s, n) =>
      let (k, n) := n.newCall s n.exchangeTimeout (·.put record.exported) exchangeCode
        (fun k => [⟨exchangeCode, .exchange k peer⟩]) none
      (k, n.begin k)

/-- Exchanges grants with a peer some time soon. -/
def exchangeSoon (n : Node) (peer : PeerAddress) : Node := n.emit (.later (.exchange peer))

/-- What a response holds: the other side's grants, if they were pending. -/
def exchangeAnswer : Reader (Option GrantSet) := do
  if ← Reader.bool then return some (← Serial.read) else return none

/-- Takes the response to an exchange. -/
def takeExchange (n : Node) (k : CallId) (peer : PeerAddress) (m : Message) : Node :=
  match Reply.failure? m with
  | some e => n.finish k (.error e)
  | none =>
    match m.readWith exchangeAnswer with
    | .error e => n.finish k (.error (.ofCodec e))
    | .ok (data, _) => (n.commit (n.directory.exchanged peer data)).finish k (.ok .done)

/-! ## The answering side -/

/-- What a request that exchanges grants is answered with. -/
def answerExchange (n : Node) (peer : Option PeerAddress) (m : Message) :
    Except String Message × Node :=
  match peer, m.get GrantSet with
  | none, _ => (.error "Unauthenticated exchange", n)
  | some _, .error e => (.error e.message, n)
  | some peer, .ok (data, _) =>
    match n.directory.receiveExchange peer data with
    | .error e => (.error e.message, n)
    | .ok (reply, change) =>
      let response := (m.respond exchangeCode).write (boolBytes reply.isSome)
      let response := reply.elim response response.put
      (.ok response, n.commit change)

/-! ## The owner's changes of the directory -/

def add (n : Node) (r : PeerRecord) : Node := (n.commit (n.directory.add r)).exchangeSoon r.address

def update (n : Node) (r : PeerRecord) : Except NodeError Node := do
  return (n.commit (← n.directory.update r)).exchangeSoon r.address

/-- Grants a peer exactly the given services from now on. -/
def grant (n : Node) (peer : PeerAddress) (ids : List ServiceId) (descriptors : List Descriptor) :
    Except NodeError Node := do
  return (n.commit (← n.directory.grant peer ids descriptors)).exchangeSoon peer

/-- Forgets a peer and closes the session for exchanges with it. -/
def delete (n : Node) (peer : PeerAddress) : Node :=
  let (directory, events) := n.directory.delete peer
  let kept := n.exchanges.find? peer
  let n := { n with directory, exchanges := n.exchanges.erase peer }
  let n := kept.elim n n.closeSession
  n.commit (n.directory, events)

def deleteService (n : Node) (side : GrantSide) (service : ServiceAddress) : Node :=
  n.commit (n.directory.deleteService side service)

def purge (n : Node) (service : ServiceAddress) : Node := n.commit (n.directory.purge service)

/-- Closes every session for exchanges and keeps none. -/
def closeExchanges (n : Node) : Node :=
  n.exchanges.values.foldl closeSession { n with exchanges := .empty }

end PeerServices.Node
