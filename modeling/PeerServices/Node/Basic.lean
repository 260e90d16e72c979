import PeerServices.Collection.SortedSet
import PeerServices.Directory
import PeerServices.Handshake.Basic
import PeerServices.Network.SocketAddress
import PeerServices.Retry.Task
import PeerServices.Session.Handler
import PeerServices.Session.Outstanding
import PeerServices.Session.Reply

/-!
# Nodes

A node is a running peer: who it is, whom it knows, what it offers, and its connections, sessions
and calls. It does nothing by itself. It takes events, one at a time, and gives effects: frames to
send, connections to open or to hang up, times to be woken at, and what its owner is told.

* `Connection`, `Session`, `Call`: what a node keeps for each of them.
* `Event`: what happens to a node. `Effect`: what a node does.
* `Node`: the state. Its effects are collected in order until somebody takes them.
-/

namespace PeerServices

/-- Names a connection, as one of its two ends. -/
abbrev ConnectionId := Nat

/-- A connection that has come about, and the challenge to issue on it. -/
structure Line where
  id : ConnectionId
  issued : Challenge
  /-- The other end has not hung up. -/
  reachable : Bool

abbrev SessionId := Nat

abbrev CallId := Nat

/-! ## Services and sessions -/

/-- What a session does by itself. -/
inductive Behaviour
  /-- Answers requests; it may hang up as soon as it is connected. -/
  | application (handlers : Handler.Table) (closesWhenConnected : Bool)
  | exchange

structure Service where
  address : ServiceAddress
  mode : Mode
  descriptor : Option Descriptor
  behaviour : Behaviour

namespace Service

/-- A service that a descriptor tells of; its mode follows the scope. -/
def described (d : Descriptor) (behaviour : Behaviour) : Service :=
  { address := d.address, mode := d.scope.mode, descriptor := some d, behaviour }

def exchange (host : PeerAddress) : Service :=
  { address := ⟨.exchange, host⟩, mode := .restricted, descriptor := none, behaviour := .exchange }

end Service

/-- One conversation, over as many connections as it takes, one after another. -/
structure Session where
  address : ServiceAddress
  mode : Mode
  /-- This side connects. Otherwise it accepted the one connection of the session. -/
  isProxy : Bool
  behaviour : Behaviour
  /-- The session was connected before. -/
  configured : Bool
  /-- The connection that was attached last, unless it was closed since. -/
  current : Option ConnectionId
  /-- The call that connects. -/
  connecting : Option CallId
  /-- The calls that wait for it, in order. -/
  waiters : List CallId

namespace Session

def create (address : ServiceAddress) (mode : Mode) (isProxy : Bool) (behaviour : Behaviour) :
    Session :=
  { address, mode, isProxy, behaviour, configured := false, current := none, connecting := none
    waiters := [] }

structure View where
  address : ServiceAddress
  mode : Mode
  isProxy : Bool
  isOpen : Bool
  peer : Option PeerAddress
  record : Option PeerRecord

inductive Hook
  /-- The session is about to be connected for the first time. -/
  | configured
  | connected (view : View)
  /-- The connection is closed; without a reason it was closed by this side. -/
  | closed (reason : Option WireError)
  | authenticationFailed (cause : HandshakeError)
  | connectionFailed (cause : ServiceError)

end Session

/-! ## Connections -/

/-- Where a response goes. -/
inductive Target
  /-- To a call, which reads it in a form. -/
  | reply (call : CallId) (form : Reply.Form)
  /-- To the exchange of grants with a peer. -/
  | exchange (call : CallId) (peer : PeerAddress)
  /-- To the owner. -/
  | report
deriving DecidableEq

def Target.call? : Target → Option CallId
  | .reply call _ => some call
  | .exchange call _ => some call
  | .report => none

namespace Connection

/-- How far a connection is. -/
inductive Stage
  /-- The other side has to name a service. -/
  | naming (issued : Challenge)
  /-- The other side connects to a service. -/
  | accepting (session : SessionId) (rest : Received → Dialogue Handshake.Result)
  /-- This side connects, on behalf of a call. -/
  | connecting (session : SessionId) (call : CallId)
      (rest : Received → Dialogue Handshake.Result)
  | opened
  | closed

end Connection

structure Connection where
  stage : Connection.Stage
  /-- Who is at the other end, as far as that was settled. -/
  peer : Option PeerAddress
  /-- The record of the other end, if the handshake settled it. -/
  record : Option PeerRecord
  session : Option SessionId
  /-- The requests that wait for a response; gone once the connection is closed. -/
  outstanding : Option (Outstanding Target)
  /-- Somebody takes messages from the connection. -/
  reading : Bool
  /-- The other end has not hung up. -/
  reachable : Bool
  /-- How the acceptance ended. -/
  acceptance : Option (Except WireError Unit)

namespace Connection

def create (line : Line) (stage : Stage) : Connection :=
  { stage, peer := none, record := none, session := none, outstanding := none, reading := false
    reachable := line.reachable, acceptance := none }

def isOpen (c : Connection) : Bool :=
  match c.stage with
  | .opened => true
  | _ => false

def listens (c : Connection) : Bool :=
  match c.stage with
  | .opened | .closed => c.reading
  | _ => true

/-- The listeners of all requests that wait for a response. -/
def listeners (c : Connection) : List (Listener Target) :=
  (c.outstanding.map Outstanding.listeners).getD []

end Connection

/-! ## Calls -/

namespace Call

/-- How far a call is. -/
inductive Stage
  /-- It has not begun, or waits for another call that connects. -/
  | pending
  /-- It connects; a number of attempts to reach the host at a socket has failed. -/
  | dialling (attempts : Nat) (socket : SocketAddress)
  /-- It connects, and the host was reached. -/
  | reached
  /-- The request was sent, though the other end may not have taken it yet. -/
  | waiting (connection : ConnectionId)

end Call

structure Call where
  session : SessionId
  message : Message
  listeners : List (Listener Target)
  timeout : Duration
  /-- How the call ends whatever the response is, if that was settled before it was sent. -/
  resolved : Option Reply.Result
  stage : Call.Stage

/-! ## Events and effects -/

inductive Event
  | accept (line : Line)
  /-- The next frame of a connection, or the end of its stream. -/
  | receive (c : ConnectionId) (frame : Received)
  /-- The other end hung up. -/
  | lose (c : ConnectionId)
  /-- The time for an acceptance is over. -/
  | expire (c : ConnectionId)
  | begin (k : CallId)
  /-- A call may connect, after the one before it. -/
  | proceed (k : CallId)
  | dialled (k : CallId) (outcome : Except ServiceError Line)
  /-- The time for another attempt to reach the host has come. -/
  | redial (k : CallId)
  /-- A listener takes its response. -/
  | deliver (listener : Listener Target) (m : Message)
  | overdue (k : CallId)
  /-- The other end was gone before it had taken the request of a call. -/
  | unwritten (k : CallId)
  /-- Grants are to be exchanged with a peer. -/
  | exchange (peer : PeerAddress)

inductive Effect
  /-- The other end takes the parcel when it reads, or is gone before. -/
  | send (c : ConnectionId) (parcel : Parcel)
  /-- From now on the node takes frames from the connection. -/
  | listen (c : ConnectionId)
  | hangUp (c : ConnectionId)
  /-- Reaches for a host. -/
  | dial (k : CallId) (socket : SocketAddress)
  /-- Has the node take an event soon. -/
  | later (e : Event)
  /-- Has the node take an event after some time. -/
  | timer (delay : Duration) (e : Event)
  | hook (s : SessionId) (h : Session.Hook)
  | finished (k : CallId) (result : Reply.Result)
  | answered (code : UInt8) (m : Message)
  | changed (e : DirectoryEvent)

/-! ## The state -/

structure Node where
  credentials : Credentials
  /-- How long a peer that connects may take to prove itself. -/
  handshakeLimit : Duration
  requestTimeout : Duration
  exchangeTimeout : Duration
  connectRetry : Retry.Policy
  directory : Directory
  services : SortedMap ServiceId Service
  routes : SortedMap PeerAddress SocketAddress
  connections : SortedMap ConnectionId Connection
  sessions : SortedMap SessionId Session
  calls : SortedMap CallId Call
  /-- The open connections, to close them together. -/
  roster : SortedSet ConnectionId
  /-- The session by which grants are exchanged with a peer. -/
  exchanges : SortedMap PeerAddress SessionId
  /-- Sessions can connect. -/
  connects : Bool
  /-- Exchanges of grants can begin a session. -/
  exchangeConnects : Bool
  /-- Whoever knows the address can connect. -/
  listening : Bool
  /-- Every attempt to reach a host is cancelled. -/
  dialsCancelled : Bool
  shutDown : Bool
  nextSession : SessionId
  nextCall : CallId
  /-- What the node did and nobody took yet, in order. -/
  effects : List Effect

namespace Node

/-- How long a peer that connects may take by default. -/
def defaultHandshakeLimit : Duration := .ofSeconds 10

def create (credentials : Credentials) : Node :=
  { credentials
    handshakeLimit := defaultHandshakeLimit
    requestTimeout := .ofSeconds 30
    exchangeTimeout := .ofSeconds 15
    connectRetry := .never
    directory := .empty
    services := .empty
    routes := .empty
    connections := .empty
    sessions := .empty
    calls := .empty
    roster := .empty
    exchanges := .empty
    connects := true
    exchangeConnects := true
    listening := true
    dialsCancelled := false
    shutDown := false
    nextSession := 0
    nextCall := 0
    effects := [] }

instance : Inhabited Node := ⟨create ⟨default, none⟩⟩

def address (n : Node) : PeerAddress := n.credentials.address

/-- Whom the node knows, and who may use what. -/
def authorizer (n : Node) : Authorizer :=
  { known := n.directory.find?, authorized := n.directory.authorize }

def emit (n : Node) (e : Effect) : Node := { n with effects := n.effects ++ [e] }

def takeEffects (n : Node) : List Effect × Node := (n.effects, { n with effects := [] })

/-! ## Look-ups -/

def modifyConnection (n : Node) (c : ConnectionId) (f : Connection → Connection) : Node :=
  { n with connections := n.connections.modify c f }

def modifySession (n : Node) (s : SessionId) (f : Session → Session) : Node :=
  { n with sessions := n.sessions.modify s f }

def modifyCall (n : Node) (k : CallId) (f : Call → Call) : Node :=
  { n with calls := n.calls.modify k f }

def isOpen (n : Node) (c : ConnectionId) : Bool :=
  ((n.connections.find? c).map Connection.isOpen).getD false

/-- The open connections. -/
def live (n : Node) : List ConnectionId :=
  (n.connections.toList.filter fun e => e.2.isOpen).map (·.1)

/-- Puts an open connection on the roster. -/
def enlist (n : Node) (c : ConnectionId) : Node := { n with roster := n.roster.insert c }

/-- Takes a connection off the roster. -/
def strike (n : Node) (c : ConnectionId) : Node := { n with roster := n.roster.erase c }

/-- How many connections are open. -/
def connectionCount (n : Node) : Nat := n.roster.size

def openConnection? (n : Node) (s : SessionId) : Option ConnectionId := do
  let session ← n.sessions.find? s
  let c ← session.current
  if n.isOpen c then some c else none

def isConnected (n : Node) (s : SessionId) : Bool := (n.openConnection? s).isSome

def currentConnection? (n : Node) (s : SessionId) : Option Connection := do
  n.connections.find? (← n.openConnection? s)

/-- Who is at the other side of a session: the host, if this side connects, and otherwise whoever
is connected. -/
def peerOf? (n : Node) (s : SessionId) : Option PeerAddress := do
  let session ← n.sessions.find? s
  if session.isProxy then some session.address.host else (← n.currentConnection? s).peer

/-- The record that the handshake of a session's connection settled. -/
def recordOf? (n : Node) (s : SessionId) : Option PeerRecord := do
  (← n.currentConnection? s).record

def view? (n : Node) (s : SessionId) : Option Session.View := do
  let session ← n.sessions.find? s
  return { address := session.address, mode := session.mode, isProxy := session.isProxy
           isOpen := n.isConnected s, peer := n.peerOf? s, record := n.recordOf? s }

/-! ## New sessions -/

def newSession (n : Node) (session : Session) : SessionId × Node :=
  (n.nextSession,
    { n with
      sessions := n.sessions.insert n.nextSession session
      nextSession := n.nextSession + 1 })

/-- A session that connects to a service when it is first needed. -/
def proxy (n : Node) (address : ServiceAddress) (mode : Mode) (behaviour : Behaviour) :
    SessionId × Node :=
  n.newSession (.create address mode true behaviour)

end Node

end PeerServices
