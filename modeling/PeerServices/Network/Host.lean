import PeerServices.Node.Start
import Std.Async.TCP
import Std.Async.Timer
import Std.Sync.Mutex

/-!
# A node on the network

Carries out on sockets what a node does. One event is handled at a time: whatever arrives, falls due
or is connected waits for its turn.

* `Host.listen` listens at an address, `Host.serve` takes whoever connects there.
* `Host.act` lets the owner of the node do something with it.
-/

namespace PeerServices

open Std.Async (Async AsyncTask)
open Std.Async.TCP

/-- A connection's socket, what arrived there and was not taken yet, and how far sending is. -/
structure Host.Stream where
  socket : Socket.Client
  inbound : Inbound
  sending : AsyncTask Unit

/-- What can go on at once. -/
inductive Host.Job
  | event (e : Event)
  | read (c : ConnectionId)

structure Host.State where
  node : Node
  streams : SortedMap ConnectionId Host.Stream
  nextConnection : ConnectionId
  jobs : List Host.Job

structure Host where
  state : Std.Mutex Host.State

namespace Host

/-! ## Addresses -/

def socketAddress : SocketAddress → Std.Net.SocketAddress
  | .v4 octets port =>
    let octet (i : Nat) : UInt8 := UInt8.ofNat (octets.getD i 0)
    .v4 ⟨⟨#v[octet 0, octet 1, octet 2, octet 3]⟩, UInt16.ofNat port⟩
  | .v6 groups _ port =>
    let group (i : Nat) : UInt16 := UInt16.ofNat (groups.getD i 0)
    .v6 ⟨⟨#v[group 0, group 1, group 2, group 3, group 4, group 5, group 6, group 7]⟩,
      UInt16.ofNat port⟩

def ofSocketAddress : Std.Net.SocketAddress → SocketAddress
  | .v4 a => .v4 (a.addr.octets.toList.map UInt8.toNat) a.port.toNat
  | .v6 a => .v6 (a.addr.segments.toList.map UInt16.toNat) 0 a.port.toNat

/-! ## Failures -/

/-- The texts of the failures that sockets have most often, by their numbers. -/
def failureTexts : List (Nat × String) :=
  [(13, "Permission denied"), (22, "Invalid argument"), (98, "Address already in use"),
    (99, "Cannot assign requested address"), (101, "Network is unreachable"),
    (104, "Connection reset by peer"), (110, "Connection timed out"), (111, "Connection refused"),
    (113, "No route to host")]

/-- The number of a failure. Sockets count failures downwards from zero. -/
def failureNumber? (e : IO.Error) : Option Nat :=
  let number : Option UInt32 :=
    match e with
    | .alreadyExists _ n _ | .otherError n _ | .resourceBusy n _ | .resourceVanished n _
    | .unsupportedOperation n _ | .permissionDenied _ n _ | .invalidArgument _ n _
    | .timeExpired n _ | .noSuchThing _ n _ => some n
    | _ => none
  number.map fun n => (0 - n).toNat

def failureText (e : IO.Error) : String :=
  match (failureNumber? e).bind fun n => (failureTexts.lookup n).map (n, ·) with
  | some (n, text) => text ++ " (os error " ++ toString n ++ ")"
  | none => toString e

/-! ## Handling -/

/-- Tells a node that a parcel was not taken. -/
def unwritten (node : Node) : Parcel → Node
  | .message m =>
    let calls := node.calls.toList.filter fun e => m.isRequest && e.2.message.uid == m.uid
    calls.foldl (fun node e => node.handle (.unwritten e.1)) node
  | _ => node

/-- Keeps the socket of a new connection and draws a challenge for it. -/
def keep (state : State) (socket : Socket.Client) : IO (Line × State) := do
  let octets ← IO.getRandomBytes 16
  let line : Line :=
    { id := state.nextConnection, issued := ⟨Octets.ofPadded 16 octets.toList⟩, reachable := true }
  let stream : Stream :=
    { socket, inbound := .empty, sending := .pure () }
  return (line,
    { state with
      streams := state.streams.insert line.id stream
      nextConnection := line.id + 1 })

mutual

/-- Lets the node do something, and everything go on that can. -/
partial def act (host : Host) (f : Node → Node) : IO Unit :=
  host.change fun state => pure { state with node := f state.node }

/-- Changes what a host keeps, and lets everything go on that can. -/
partial def change (host : Host) (f : State → IO State) : IO Unit :=
  host.state.atomically do
    let state ← f (← get)
    set (← host.settle state)

/-- Lets everything go on that can. -/
partial def settle (host : Host) (state : State) : IO State := do
  let (effects, node) := state.node.takeEffects
  let state ← effects.foldlM (fun state e => host.perform state e) { state with node }
  match state.jobs with
  | [] => return state
  | .event e :: jobs => host.settle { state with node := state.node.handle e, jobs }
  | .read c :: jobs =>
    match state.streams.find? c with
    | none => host.settle { state with jobs }
    | some stream =>
      let (node, rest) := state.node.readStream c stream.inbound
      let streams := state.streams.modify c fun stream => { stream with inbound := rest }
      host.settle { state with streams, node, jobs }

partial def perform (host : Host) (state : State) (e : Effect) : IO State := do
  match e with
  | .send c parcel =>
    match state.streams.find? c, parcel.frame with
    | some stream, .ok bytes =>
      let sending ← (host.send c stream parcel bytes).asTask
      return { state with
        streams := state.streams.modify c fun stream => { stream with sending } }
    | _, _ => return state
  | .listen c => return { state with jobs := state.jobs ++ [.read c] }
  | .hangUp c =>
    match state.streams.find? c with
    | none => return state
    | some stream =>
      discard (hangUp stream).asTask
      return { state with streams := state.streams.erase c }
  | .dial k socket =>
    discard (host.dial k socket).asTask
    return state
  | .later event => return { state with jobs := state.jobs ++ [.event event] }
  | .timer delay event =>
    discard (host.wake delay event).asTask
    return state
  | .hook .. | .finished .. | .answered .. | .changed _ => return state

/-- Sends the bytes of a parcel after all that were sent before. A connection on which that fails is
lost. -/
partial def send (host : Host) (c : ConnectionId) (stream : Stream) (parcel : Parcel)
    (bytes : Bytes) : Async Unit := do
  try
    Std.Async.await stream.sending
    stream.socket.send (ByteArray.mk bytes.toArray)
  catch _ => host.act fun node => (unwritten node parcel).handle (.lose c)

/-- Ends the stream to the other end after all that was sent before. -/
partial def hangUp (stream : Stream) : Async Unit := do
  try
    Std.Async.await stream.sending
    stream.socket.shutdown
  catch _ => return

partial def dial (host : Host) (k : CallId) (target : SocketAddress) : Async Unit := do
  try
    let socket ← Socket.Client.mk
    socket.connect (socketAddress target)
    host.attach socket fun line => .dialled k (.ok line)
  catch e => host.act (·.handle (.dialled k (.error (.io ⟨.connectionRefused, failureText e⟩))))

partial def wake (host : Host) (delay : Duration) (e : Event) : Async Unit := do
  Std.Async.sleep (.ofNat (delay.nanoseconds / 1000000))
  host.act (·.handle e)

/-- Tells the node of a new connection, and takes what arrives there. -/
partial def attach (host : Host) (socket : Socket.Client) (event : Line → Event) : Async Unit := do
  let id ← IO.mkRef 0
  host.change fun state => do
    let (line, state) ← keep state socket
    id.set line.id
    return { state with node := state.node.handle (event line) }
  host.follow (← id.get) socket

/-- Takes what arrives on a connection until its stream ends. -/
partial def follow (host : Host) (c : ConnectionId) (socket : Socket.Client) : Async Unit := do
  let arrived : Option ByteArray ← try socket.recv? 65536 catch _ => pure none
  host.change fun state => do
    let append (s : Inbound) : Inbound :=
      match arrived with
      | some bytes => s.append bytes.toList
      | none => s.finish
    return { state with
      streams := state.streams.modify c fun stream => { stream with inbound := append stream.inbound }
      jobs := state.jobs ++ [.read c] }
  if arrived.isSome then host.follow c socket

end

/-! ## Listening -/

/-- Listens at an address. Gives the address at which that is. -/
def listen (address : SocketAddress) : IO (Socket.Server × SocketAddress) := do
  let server ← Socket.Server.mk
  server.bind (socketAddress address)
  server.listen 1024
  return (server, ofSocketAddress (← server.getSockName))

def start (node : Node) : IO Host := do
  let state : State := { node, streams := .empty, nextConnection := 0, jobs := [] }
  let host : Host := { state := ← Std.Mutex.new state }
  host.act id
  return host

partial def serve (host : Host) (server : Socket.Server) : Async Unit := do
  try
    let socket ← server.accept
    let attached := host.attach socket fun line => .accept line
    discard (attached.asTask : IO (AsyncTask Unit))
  catch _ => return
  host.serve server

end Host

end PeerServices
