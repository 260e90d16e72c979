import PeerServices.Node.Step

/-!
# Nodes on a simulated network

Nodes joined by pipes that lose nothing, under one clock. What the nodes do is carried out in the
order in which it is done: a frame is in the other end's stream at once, and whoever waits for it
goes on after everybody who could go on before. Time passes only when nobody can go on.

An end of a pipe may belong to no node. What arrives there is remembered, and what it sends is said
by whoever runs the simulation.

* `Simulation.settle` carries on until everybody waits; `Simulation.advance` lets time pass;
  `Simulation.await` lets time pass until a call is over.
* `Simulation.act` lets the owner of a node do something with it.
* `Simulation.write`, `hangUp`, `endWrites`: what an end that belongs to no node does.
-/

namespace PeerServices

inductive Heard
  | parcel (p : Parcel)
  | ended

structure PipeEnd where
  /-- The node that the end belongs to, if any. -/
  owner : Option Nat
  inbound : Inbound
  /-- The end was not hung up. -/
  held : Bool
  /-- What arrived here, if the end belongs to no node. -/
  heard : List Heard
  /-- How much of that was told. -/
  told : Nat

/-- What comes of reaching for a host, when that is laid down beforehand. -/
inductive Opening
  /-- A pipe whose other end belongs to no node. -/
  | pipe
  /-- A pipe whose other end has hung up. -/
  | deadPipe
  | failure (cause : ServiceError)

/-- How hosts are reached. -/
inductive Linking
  | joined
  | apart
  /-- As laid down, one attempt after another; the last one counts for all that follow. -/
  | openings (list : List Opening)

namespace Simulation

inductive Task
  | event (node : Nat) (e : Event)
  | accept (node : Nat) (c : ConnectionId)
  | read (node : Nat) (c : ConnectionId)

/-- An event that a node takes at an instant. -/
structure Timer where
  due : Duration
  node : Nat
  event : Event

end Simulation

structure Simulation where
  now : Duration
  linking : Linking
  /-- How many attempts to reach a host were made. -/
  opened : Nat
  nodes : List Node
  /-- The ends of all pipes; two ends in a row make a pipe. -/
  ends : List PipeEnd
  tasks : List Simulation.Task
  timers : List Simulation.Timer
  /-- What nodes did that concerns their owners, in order. -/
  log : List (Nat × Effect)
  /-- How much of that was told. -/
  told : Nat

namespace Simulation

def create (linking : Linking) : Simulation :=
  { now := ⟨0⟩, linking, opened := 0, nodes := [], ends := [], tasks := [], timers := [], log := []
    told := 0 }

/-- The other end of a pipe. -/
def opposite (c : ConnectionId) : ConnectionId := if c % 2 = 0 then c + 1 else c - 1

def firstPort : Nat := 40000

def socketOf (node : Nat) : SocketAddress := .v4 [127, 0, 0, 1] (firstPort + node)

def nowhere : SocketAddress := .v4 [127, 0, 0, 1] 9

def listener? (w : Simulation) (socket : SocketAddress) : Option Nat :=
  (List.range w.nodes.length).find? fun i =>
    socketOf i = socket && ((w.nodes[i]?).map Node.listening).getD false

def unreachable : ServiceError := .io ⟨.connectionRefused, "Connection refused"⟩

/-- Challenges are drawn in turn. -/
def challengeOf (c : ConnectionId) : Challenge :=
  ⟨Octets.ofPadded 16 (Sha256.hash (Codec.text (toString c)))⟩

/-! ## Tasks and pipes -/

/-- Has something go on, after everything else. -/
def schedule (w : Simulation) (t : Task) : Simulation := { w with tasks := w.tasks ++ [t] }

def modifyEnd (w : Simulation) (c : ConnectionId) (f : PipeEnd → PipeEnd) : Simulation :=
  { w with ends := w.ends.modify c f }

def modifyNode (w : Simulation) (i : Nat) (f : Node → Node) : Simulation :=
  { w with nodes := w.nodes.modify i f }

/-- Lays a pipe. Gives its first end. -/
def layPipe (w : Simulation) (first second : Option Nat) (held : Bool) :
    ConnectionId × Simulation :=
  let pipeEnd (owner : Option Nat) (held : Bool) : PipeEnd :=
    { owner, inbound := .empty, held, heard := [], told := 0 }
  (w.ends.length, { w with ends := w.ends ++ [pipeEnd first true, pipeEnd second held] })

def isHeld (w : Simulation) (c : ConnectionId) : Bool :=
  ((w.ends[c]?).map PipeEnd.held).getD false

def line (w : Simulation) (c : ConnectionId) : Line :=
  { id := c, issued := challengeOf c, reachable := w.isHeld (opposite c) }

/-- Changes the stream that arrives at an end, and has its owner look. -/
def arrive (w : Simulation) (c : ConnectionId) (f : Inbound → Inbound) : Simulation :=
  let w := w.modifyEnd c fun e => { e with inbound := f e.inbound }
  match (w.ends[c]?).bind PipeEnd.owner with
  | some i => w.schedule (.read i c)
  | none => w

/-- Remembers what arrives at an end that belongs to no node and is still held. -/
def hear (w : Simulation) (c : ConnectionId) (what : Heard) : Simulation :=
  w.modifyEnd c fun e =>
    if e.owner.isNone && e.held then { e with heard := e.heard ++ [what] } else e

/-- Hangs up an end: the stream to the other end is over, and nothing can be sent from there. -/
def hangUp (w : Simulation) (c : ConnectionId) : Simulation :=
  if !w.isHeld c then w
  else
    let w := w.modifyEnd c fun e => { e with held := false }
    let w := w.hear (opposite c) .ended
    let w :=
      match (w.ends[opposite c]?).bind PipeEnd.owner with
      | some i => w.modifyNode i (·.handle (.lose (opposite c)))
      | none => w
    w.arrive (opposite c) Inbound.finish

def write (w : Simulation) (c : ConnectionId) (bytes : Bytes) : Simulation :=
  if w.isHeld c then w.arrive (opposite c) (·.append bytes) else w

/-- Ends the stream from an end without hanging up. -/
def endWrites (w : Simulation) (c : ConnectionId) : Simulation :=
  w.arrive (opposite c) Inbound.finish

def dial (w : Simulation) (i : Nat) (k : CallId) (socket : SocketAddress) : Simulation :=
  let answer (w : Simulation) (outcome : Except ServiceError Line) : Simulation :=
    w.schedule (.event i (.dialled k outcome))
  let pipe (w : Simulation) (other : Option Nat) (held : Bool) : Simulation :=
    let (c, w) := w.layPipe (some i) other held
    answer w (.ok (w.line c))
  let count := w.opened
  let w := { w with opened := count + 1 }
  match w.linking with
  | .apart => answer w (.error unreachable)
  | .joined =>
    match w.listener? socket with
    | none => answer w (.error unreachable)
    | some j =>
      let (c, w) := w.layPipe (some i) (some j) true
      (answer w (.ok (w.line c))).schedule (.accept j (opposite c))
  | .openings list =>
    match (list[count]?).or list.getLast? with
    | none => answer w (.error unreachable)
    | some .pipe => pipe w none true
    | some .deadPipe => pipe w (some i) false
    | some (.failure cause) => answer w (.error cause)

def perform (w : Simulation) (i : Nat) (e : Effect) : Simulation :=
  match e with
  | .send c parcel =>
    let w := w.hear (opposite c) (.parcel parcel)
    match (w.ends[opposite c]?).bind PipeEnd.owner, parcel.frame with
    | some _, .ok bytes => w.write c bytes
    | _, _ => w
  | .listen c => w.schedule (.read i c)
  | .hangUp c => w.hangUp c
  | .dial k socket => w.dial i k socket
  | .later event => w.schedule (.event i event)
  | .timer delay event =>
    { w with timers := w.timers ++ [⟨⟨w.now.nanoseconds + delay.nanoseconds⟩, i, event⟩] }
  | .hook .. | .finished .. | .answered .. | .changed _ => { w with log := w.log ++ [(i, e)] }

/-- Lets a node do something, and carries out what it did. -/
def act (w : Simulation) (i : Nat) (f : Node → Node) : Simulation :=
  match w.nodes[i]? with
  | none => w
  | some node =>
    let (effects, node) := (f node).takeEffects
    effects.foldl (fun w e => w.perform i e) (w.modifyNode i fun _ => node)

/-- Lets a node take what has arrived on a connection. -/
def read (w : Simulation) (i : Nat) (c : ConnectionId) : Simulation :=
  match w.nodes[i]?, w.ends[c]? with
  | some node, some pipeEnd =>
    let (node, rest) := node.readStream c pipeEnd.inbound
    (w.modifyEnd c fun e => { e with inbound := rest }).act i fun _ => node
  | _, _ => w

def carryOut (w : Simulation) : Task → Simulation
  | .event i e => w.act i (·.handle e)
  | .accept i c => w.act i (·.handle (.accept (w.line c)))
  | .read i c => w.read i c

/-! ## Time -/

/-- More things than ever go on at one instant. -/
def taskLimit : Nat := 1000000

/-- Lets what can go on do so, for at most `limit` things. -/
def settleUpTo : (limit : Nat) → Simulation → Simulation
  | 0, w => w
  | limit + 1, w =>
    match w.tasks with
    | t :: tasks => settleUpTo limit ({ w with tasks }.carryOut t)
    | [] =>
      match w.timers.find? (·.due.nanoseconds ≤ w.now.nanoseconds) with
      | none => w
      | some _ =>
        let (due, later) := w.timers.partition (·.due.nanoseconds ≤ w.now.nanoseconds)
        settleUpTo limit { w with tasks := due.map fun t => .event t.node t.event, timers := later }

/-- Lets everybody go on until all wait. -/
def settle (w : Simulation) : Simulation := settleUpTo taskLimit w

def nextDue? (w : Simulation) : Option Duration :=
  (w.timers.map (·.due.nanoseconds)).min?.map Duration.mk

/-- Lets time pass up to an instant, for at most `limit` timers. -/
def advanceUpTo : (limit : Nat) → Simulation → (target : Duration) → Simulation
  | 0, w, target => { w with now := target }
  | limit + 1, w, target =>
    match w.nextDue? with
    | none => { w with now := target }
    | some due =>
      if due.nanoseconds ≤ target.nanoseconds then
        advanceUpTo limit { w with now := due }.settle target
      else { w with now := target }

def advance (w : Simulation) (time : Duration) : Simulation :=
  (advanceUpTo taskLimit w.settle ⟨w.now.nanoseconds + time.nanoseconds⟩).settle

/-- Lets time pass until a call ends, for at most `limit` timers. -/
def awaitUpTo (k : CallId) : (limit : Nat) → Simulation → (i : Nat) → Simulation
  | 0, w, _ => w
  | limit + 1, w, i =>
    match ((w.nodes[i]?).map fun node => node.calls.contains k).getD false, w.nextDue? with
    | true, some due => awaitUpTo k limit { w with now := due }.settle i
    | _, _ => w

def await (w : Simulation) (i : Nat) (k : CallId) : Simulation := awaitUpTo k 100000 w.settle i

/-! ## News -/

def freeEnds (w : Simulation) : List ConnectionId :=
  (List.range w.ends.length).filter fun c =>
    ((w.ends[c]?).map fun e => e.owner.isNone).getD false

/-- What nodes did that concerns their owners and was not told yet. -/
def news (w : Simulation) : List (Nat × Effect) := w.log.drop w.told

/-- Everything is told: what arrived where, and what nodes did. -/
def tell (w : Simulation) : Simulation :=
  { w with
    ends := w.ends.map fun e => { e with told := e.heard.length }
    told := w.log.length }

def result? (w : Simulation) (i : Nat) (k : CallId) : Option Reply.Result :=
  w.log.findSome? fun
    | (j, .finished l result) => if j = i ∧ l = k then some result else none
    | _ => none

end Simulation

namespace PipeEnd

def news (e : PipeEnd) : List Heard := e.heard.drop e.told

def lastChallenge? (e : PipeEnd) : Option Challenge :=
  (e.heard.filterMap fun | .parcel (.challenge c) => some c | _ => none).getLast?

def lastRequest? (e : PipeEnd) : Option Int64 :=
  (e.heard.filterMap fun
    | .parcel (.message m) => if m.isRequest then some m.uid else none
    | _ => none).getLast?

end PipeEnd

end PeerServices
