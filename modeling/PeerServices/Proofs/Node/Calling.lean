import PeerServices.Proofs.Node.Outcomes
import PeerServices.Proofs.Node.Settling

/-!
# Calls that share a connection

A call sends its request on the connection of a session. Afterwards any number of responses comes in,
in any order, times run out, other calls are made, and the connection may be closed. The first of
these that concerns the call settles it, once, and nothing else depends on it.

* `Incident`: what happens around a call. `Query.next`: how far the call comes by it.
* `Node.Fares`: what becomes of a call, and of everything else.
* `Node.call_fares`: a call on a connected session of a node in its course.
* `Node.Prompt`: a call ends with the response that it expects, if that comes first.
  `Node.question_unlike_first_response`: this does not hold if the time is over before the listener
  takes the response, and an error may come with more than its text.
-/

namespace PeerServices

/-! ## What happens around the call -/

/-- What happens while a call waits on a connection. -/
inductive Incident
  /-- A response comes in, of whatever kind. -/
  | response (frame : Received) (m : Message)
      (isResponse : Frame.decode Message frame = .ok m ∧ m.kind = .response)
  /-- A listener takes a response. -/
  | deliver (l : Listener Target) (m : Message)
  /-- The time of a call is over. -/
  | overdue (k : CallId)
  /-- The other end was gone before it had taken the request of a call. -/
  | unwritten (k : CallId)
  /-- Another call is made. -/
  | ask (s : SessionId) (timeout : Duration) (m : Message) (forms : List (UInt8 × Reply.Form))
      (resolved : Option Reply.Result)
  /-- Another call begins. -/
  | begin (k : CallId)
  /-- Grants are to be exchanged with a peer. -/
  | exchange (peer : PeerAddress)
  /-- The directory is changed, by the owner or by another exchange. -/
  | change (made : Directory.Change)
  /-- The connection is closed, by this side or because it failed. -/
  | close (reason : Option WireError)
  /-- The other end hangs up. -/
  | lose

/-- A call that sends a message on a session. -/
def Node.ask (n : Node) (s : SessionId) (timeout : Duration) (m : Message)
    (forms : List (UInt8 × Reply.Form)) (resolved : Option Reply.Result) : CallId × Node :=
  n.newCall s timeout (fun _ => m) 0 (fun k => forms.map fun f => ⟨f.1, .reply k f.2⟩) resolved

namespace Incident

def perform (n : Node) (c : ConnectionId) : Incident → Node
  | .response frame _ _ => n.receive c frame
  | .deliver l m => n.deliver l m
  | .overdue k => n.overdue k
  | .unwritten k => n.unwritten k
  | .ask s timeout m forms resolved => (n.ask s timeout m forms resolved).2
  | .begin k => n.begin k
  | .exchange peer => (n.exchange peer).2
  | .change made => n.commit made
  | .close reason => n.terminate c reason
  | .lose => n.handle (.lose c)

/-- The other calls have uids of their own, the call begins but once, and its listener takes what it
was given. -/
def IsFair (n : Node) (q : Query) : Incident → Prop
  | .ask _ _ m _ _ => m.uid ≠ q.uid
  | .exchange _ => Node.uidOf n.nextCall ≠ q.uid
  | .begin k => k ≠ q.call
  | .deliver l m => l.target.call? = some q.call → (l, m) ∈ n.deliveries
  | _ => True

end Incident

/-- How far a call comes by an incident. -/
def Query.next (q : Query) (φ : Query.Phase) : Incident → Query.Phase
  | .response _ m _ => if m.uid = q.uid then φ.answer q m else φ
  | .deliver l _ => if l.target.call? = some q.call then q.take φ else φ
  | .overdue k => if k = q.call then φ.lapse (.timeout q.timeout) else φ
  | .unwritten k => if k = q.call then φ.lapse (.ofWire (.io .brokenPipe)) else φ
  | .close _ => φ.cut
  | _ => φ

namespace Node

/-- A node after a number of incidents. -/
def play (n : Node) (c : ConnectionId) (es : List Incident) : Node :=
  es.foldl (fun n e => e.perform n c) n

/-- Every incident is fair when it happens. -/
def Fair (n : Node) (q : Query) (es : List Incident) : Prop :=
  ∀ earlier e later, es = earlier ++ e :: later → e.IsFair (n.play q.connection earlier) q

section Steps

variable {n m : Node} {q : Query} {φ : Query.Phase}

theorem play_concat (n : Node) (c : ConnectionId) (es : List Incident) (e : Incident) :
    n.play c (es ++ [e]) = e.perform (n.play c es) c := List.foldl_append

/-- Another call is made, with a uid of its own and listeners that answer it alone. -/
theorem Hosts.newCall (h : n.Hosts q φ m) (s : SessionId) (timeout : Duration)
    (message : Message → Message) (code : UInt8) (listeners : CallId → List (Listener Target))
    (resolved : Option Reply.Result)
    (hUid : (message (.request (uidOf n.nextCall) code)).uid ≠ q.uid)
    (hListeners : ∀ l ∈ listeners n.nextCall, ∀ k, l.target.call? = some k → k = n.nextCall) :
    (n.newCall s timeout message code listeners resolved).2.Hosts q φ
      (m.newCall s timeout message code listeners resolved).2 := by
  obtain rfl := h.same
  have hk : n.nextCall ≠ q.call := Nat.ne_of_gt h.lone.next
  let call : Call :=
    { session := s, message := message (.request (uidOf n.nextCall) code)
      listeners := listeners n.nextCall, timeout, resolved, stage := .pending }
  have hMade : { n with calls := n.calls.insert n.nextCall call }.Hosts q φ
      { n.without q with calls := (n.without q).calls.insert n.nextCall call } := by
    apply h.recall
    · exact SortedMap.erase_insert_comm hk _ _
    · exact SortedMap.find?_insert_of_ne (Ne.symm hk) _ _
    · intro j old hj hFind
      rcases SortedMap.find?_insert_eq_some hFind with ⟨-, rfl⟩ | ⟨-, hOld⟩
      · exact ⟨hUid, fun l hl hTarget => hk (hListeners l hl q.call hTarget).symm⟩
      · exact h.lone.calls j old hj hOld
  have hSame := congrArg (fun n : Node => { n with nextCall := n.nextCall + 1 }) hMade.same
  exact hMade.frame hSame rfl rfl (Nat.le_succ _) rfl

/-- A session for exchanges is found or made. -/
theorem Hosts.exchangeSession (h : n.Hosts q φ m) (p : PeerAddress) :
    (n.exchangeSession? p = none ∧ m.exchangeSession? p = none) ∨
      ∃ s n' m', n.exchangeSession? p = some (s, n') ∧ m.exchangeSession? p = some (s, m') ∧
        n'.Hosts q φ m' ∧ n'.nextCall = n.nextCall := by
  obtain rfl := h.same
  have hKept : (n.without q).exchanges = n.exchanges := rfl
  have hAllowed : (n.without q).exchangeConnects = n.exchangeConnects := rfl
  unfold exchangeSession?
  rw [hKept, hAllowed]
  cases n.exchanges.find? p with
  | some s => exact .inr ⟨s, n, _, rfl, rfl, h, rfl⟩
  | none =>
    cases n.exchangeConnects with
    | false => exact .inl ⟨rfl, rfl⟩
    | true => exact .inr ⟨_, _, _, rfl, rfl, h.frame rfl rfl rfl (Nat.le_refl _) rfl, rfl⟩

/-- Grants are exchanged with a peer, by a call with a uid of its own. -/
theorem Hosts.exchange (h : n.Hosts q φ m) (p : PeerAddress) (hUid : uidOf n.nextCall ≠ q.uid) :
    (n.exchange p).2.Hosts q φ (m.exchange p).2 := by
  have hk : n.nextCall ≠ q.call := Nat.ne_of_gt h.lone.next
  have hDirectory : m.directory = n.directory := by rw [← h.same]; rfl
  have hFail : ∀ cause, (n.fail cause).2.Hosts q φ (m.fail cause).2 := by
    obtain rfl := h.same
    intro cause
    have hSkipped : { n with nextCall := n.nextCall + 1 }.Hosts q φ
        { n.without q with nextCall := n.nextCall + 1 } :=
      h.frame rfl rfl rfl (Nat.le_succ _) rfl
    exact hSkipped.emit (by simpa [Effect.isAbout] using hk)
  have hSessions := h.exchangeSession p
  unfold Node.exchange
  rw [hDirectory]
  split
  · exact hFail _
  next record _ =>
    rcases hSessions with ⟨hNone, hNone'⟩ | ⟨s, n', m', hSome, hSome', h', hNext⟩
    · rw [hNone, hNone']
      exact hFail _
    · rw [hSome, hSome']
      have hSame : m'.nextCall = n'.nextCall ∧ m'.exchangeTimeout = n'.exchangeTimeout := by
        rw [← h'.same]
        exact ⟨rfl, rfl⟩
      have hMade := h'.newCall s n'.exchangeTimeout (·.put record.exported) exchangeCode
        (fun k => [⟨exchangeCode, .exchange k p⟩]) none (by rw [hNext]; exact hUid)
        (by simp [Target.call?])
      have hBegun := hMade.begin (j := n'.nextCall) (by rw [hNext]; exact hk)
      change ((n'.newCall s n'.exchangeTimeout _ exchangeCode _ none).2.begin n'.nextCall).Hosts q φ
        ((m'.newCall s m'.exchangeTimeout _ exchangeCode _ none).2.begin m'.nextCall)
      rw [hSame.1, hSame.2]
      exact hBegun

/-- Nobody waits for the call's responses on a node without it. -/
theorem Hosts.receive_beside (h : n.Hosts q φ m) {frame : Received} {message : Message}
    (hFrame : Frame.decode Message frame = .ok message ∧ message.kind = .response)
    (hUid : message.uid = q.uid) : m.receive q.connection frame = m := by
  have hTransponds : m.Transponds q.connection := by
    rw [← h.same]
    exact h.transponds.without
  rw [receive_response hTransponds hFrame, takeResponse_eq, hUid, ← h.same, waiting?_without_self]

theorem Hosts.lapse_beside (h : n.Hosts q φ m) (cause : Call → ServiceError) :
    m.lapse q.call cause = m := by
  unfold Node.lapse
  rw [← h.same, find?_calls_without_self]

/-- A call that waits no longer ends, and nothing else depends on it. -/
theorem Hosts.perform_lapse (h : n.Hosts q φ m) {k : CallId} (cause : Call → ServiceError) :
    (n.lapse k cause).Hosts q
      (if k = q.call then φ.lapse (cause (q.record (.waiting q.connection))) else φ)
      (m.lapse k cause) := by
  split
  next hOwn =>
    subst hOwn
    rw [h.lapse_beside]
    exact h.lapse_self rfl
  next hOther => exact h.lapse hOther cause

/-- A call gets on by an incident as it should, and nothing else depends on the call. -/
theorem Hosts.perform (h : n.Hosts q φ m) {e : Incident} (hFair : e.IsFair n q) :
    (e.perform n q.connection).Hosts q (q.next φ e) (e.perform m q.connection) := by
  cases e with
  | response frame message hFrame =>
    simp only [Incident.perform, Query.next]
    rw [receive_response h.transponds hFrame]
    split
    next hUid =>
      rw [h.receive_beside hFrame hUid]
      exact h.hear hUid
    next hUid =>
      have hTransponds : m.Transponds q.connection := by
        rw [← h.same]
        exact h.transponds.without
      rw [receive_response hTransponds hFrame]
      exact h.takeResponse q.connection hUid
  | deliver l message =>
    simp only [Incident.perform, Query.next]
    split
    next hTarget =>
      exact h.read (List.mem_filter.mpr ⟨hFair hTarget, by simpa using hTarget⟩)
    next hTarget => exact h.deliver hTarget message
  | overdue k => exact h.perform_lapse fun call => .timeout call.timeout
  | unwritten k => exact h.perform_lapse fun _ => .ofWire (.io .brokenPipe)
  | ask s timeout message forms resolved =>
    apply h.newCall s timeout (fun _ => message) 0 _ resolved hFair
    intro l hl k hTarget
    obtain ⟨f, -, rfl⟩ := List.mem_map.mp hl
    exact (Option.some.inj hTarget).symm
  | begin k => exact h.begin hFair
  | exchange peer => exact h.exchange peer hFair
  | change made => exact h.commit made
  | close reason => exact h.close reason
  | lose => exact h.lose q.connection

theorem Fair.before {es : List Incident} {e : Incident} (h : n.Fair q (es ++ [e])) : n.Fair q es :=
  fun earlier e' later hSplit =>
    h earlier e' (later ++ [e]) (by rw [hSplit, List.append_assoc, List.cons_append])

theorem Hosts.play (h : n.Hosts q φ m) {es : List Incident} (hFair : n.Fair q es) :
    (n.play q.connection es).Hosts q (es.foldl q.next φ) (m.play q.connection es) := by
  induction es using concat_induction with
  | nil => exact h
  | concat es e ih =>
    rw [play_concat, play_concat, List.foldl_append]
    exact (ih hFair.before).perform (hFair es e [] rfl)

end Steps

/-! ## A whole call -/

/-- No call has a request with a uid, and nobody waits for a response with it on a connection. -/
structure Unused (n : Node) (c : ConnectionId) (uid : Int64) : Prop where
  entry : n.waiting? c uid = none
  calls : ∀ j call, n.calls.find? j = some call → call.message.uid ≠ uid

/-- A call that a node makes next, for a session on its connection. -/
def query (n : Node) (s : SessionId) (c : ConnectionId) (m : Message) (code : UInt8)
    (timeout : Duration) : Query :=
  { call := n.nextCall, session := s, connection := c, message := m, code, timeout
    aim := .response }

/-- A node that knows of the call, and has not begun it. -/
def enrol (n : Node) (q : Query) : Node :=
  { n with calls := n.calls.insert q.call (q.record .pending), nextCall := n.nextCall + 1 }

/-- The call is made. -/
def made (n : Node) (q : Query) : Node :=
  (n.ask q.session q.timeout q.message [(q.code, .message)] none).2

/-- Some incidents happen before the request of the call is sent. -/
def attempt (n : Node) (q : Query) (before : List Incident) : Node :=
  (n.made q).play q.connection before

/-- What comes of sending the request of the call. -/
def dispatched (n : Node) (q : Query) (before : List Incident) : Except WireError Unit :=
  ((n.attempt q before).sendRequest q.connection q.message [q.listener]).1

/-- The request of the call is sent. -/
def sent (n : Node) (q : Query) (before : List Incident) : Node :=
  (n.attempt q before).transmit q.call q.connection

/-- A call is numbered and not made. -/
def skip (n : Node) : Node := { n with nextCall := n.nextCall + 1 }

/-- The same incidents on a node that never made the call; only its frame goes out. -/
def otherwise (n : Node) (q : Query) (before after : List Incident) : Node :=
  ((n.skip.play q.connection before).carry q (n.dispatched q before)).play q.connection after

/-- How far the call has come at last. -/
def verdict (n : Node) (q : Query) (before after : List Incident) : Query.Phase :=
  after.foldl q.next (q.begun (n.dispatched q before))

section Whole

variable {n m : Node} {q : Query} {φ : Query.Phase} {c : ConnectionId} {s : SessionId}
  {before after es : List Incident} {e : Incident}

theorem Lived.transponds (h : n.Lived) (hOpen : n.isOpen c = true) : n.Transponds c := by
  obtain ⟨connection, hFind, hIsOpen⟩ := isOpen_iff.mp hOpen
  have hReading : connection.reading = true := by
    rw [← Bool.not_eq_false]
    exact fun hNotReading => h.not_unread c ⟨connection, hFind, hIsOpen, hNotReading⟩
  have hStage : connection.stage = .opened := by
    unfold Connection.isOpen at hIsOpen
    split at hIsOpen
    next hStage => exact hStage
    · cases hIsOpen
  exact ⟨connection, hFind, .inl ⟨hStage, hReading, (h.fit.bound c connection hFind hIsOpen).2⟩⟩

/-- An entry on another connection or of another uid belongs to somebody else. -/
theorem Paced.ignores {taken : List Cue} (h : n.Paced taken) (hUnused : n.Unused q.connection q.uid)
    (hCall : q.call = n.nextCall) {t : Outstanding Target} (hTable : n.table? c = some t)
    {entry : Int64 × List (Listener Target)} (hMem : entry ∈ t.entries) : q.Ignores c entry := by
  obtain ⟨connection, hFind, hOutstanding⟩ := Option.bind_eq_some_iff.mp hTable
  constructor
  · rintro rfl hUid
    have hSome : (t.find? q.uid).isSome = true := by
      unfold Outstanding.find?
      rw [Option.isSome_map, List.find?_isSome]
      exact ⟨entry, hMem, by simpa using hUid⟩
    have hNone := hUnused.entry
    unfold waiting? at hNone
    rw [hTable, Option.bind_some] at hNone
    rw [hNone] at hSome
    cases hSome
  · intro l hl hTarget
    have hListens : l ∈ connection.listeners := by
      rw [Connection.listeners_of_some hOutstanding]
      exact List.mem_flatMap.mpr ⟨entry, hMem, hl⟩
    have hOld := (h.targets q.call (.listens hFind hListens hTarget)).1
    rw [hCall] at hOld
    exact Nat.lt_irrefl _ hOld

/-- A call that is made now is beside a node that skips it. -/
theorem Paced.hosts {taken : List Cue} (h : n.Paced taken) (hTransponds : n.Transponds q.connection)
    (hUnused : n.Unused q.connection q.uid) (hCall : q.call = n.nextCall) :
    (n.takeEffects.2.enrol q).Hosts q .unsent n.takeEffects.2.skip := by
  have hNew : n.calls.find? q.call = none := by
    rw [← Option.not_isSome_iff_eq_none, hCall]
    exact fun hSome => Nat.lt_irrefl _ (h.calls _ hSome)
  refine ⟨?_, ⟨?_, ?_, hCall ▸ Nat.lt_succ_self _⟩, ⟨?_, hUnused.entry, rfl, rfl⟩, hTransponds⟩
  · have hConnections : n.connections.modify q.connection q.strip = n.connections :=
      congrArg Node.connections (withdraw_of_none hUnused.entry)
    have hCalls : (n.calls.insert q.call (q.record .pending)).erase q.call = n.calls := by
      rw [SortedMap.erase_insert_self, SortedMap.erase_of_find?_none hNew]
    change ({ n.takeEffects.2 with
      calls := (n.calls.insert q.call (q.record .pending)).erase q.call
      connections := n.connections.modify q.connection q.strip
      nextCall := n.nextCall + 1 } : Node) = _
    rw [hConnections, hCalls]
    rfl
  · intro j call hj hFind
    rcases SortedMap.find?_insert_eq_some hFind with ⟨rfl, -⟩ | ⟨-, hOld⟩
    · exact absurd rfl hj
    · refine ⟨hUnused.calls j call hOld, fun l hl hTarget => hj ?_⟩
      exact (h.own j call l _ hOld hl hTarget).symm
  · exact fun c' t hTable entry hMem => .inr (h.ignores hUnused hCall hTable hMem)
  · exact SortedMap.find?_insert_self _ _ _

theorem fair_nil (n : Node) (q : Query) : n.Fair q [] := fun earlier _ _ hSplit => by
  cases earlier <;> cases hSplit

theorem Fair.concat (h : n.Fair q es) (hLast : e.IsFair (n.play q.connection es) q) :
    n.Fair q (es ++ [e]) := by
  intro earlier e' later hSplit
  rcases concat_eq_append_cons_iff.mp hSplit with ⟨rfl, rfl, rfl⟩ | ⟨rest, rfl, rfl⟩
  · exact hLast
  · exact h earlier e' rest rfl

end Whole

/-! ## A guest that is asked -/

section Guest

open Handshake

/-- The host after its guest has come. -/
def attended : Node := (create Relay.sample.host).meetAll (arrival ++ [.move proving])

/-- The host asks its guest something. -/
def question : Query := attended.takeEffects.2.query 0 0 (.request 8 1) 2 (.ofSeconds 5)

/-- The guest answers. -/
def reply : Incident := .response _ quickResponse decode_quickResponse

set_option maxRecDepth 100000 in
/-- The guest is connected, no call is under way, and the question can be sent. -/
theorem attended_spec : attended.openConnection? 0 = some 0 ∧ attended.calls.toList = [] ∧
    attended.waiting? 0 8 = none ∧
    (attended.takeEffects.2.dispatched question []).isOk = true := by decide +kernel

/-- The guest refuses to answer. What it sends holds more than the text of the error. -/
def refusedResponse : Message :=
  { kind := .response, uid := 8, status := .error, code := 0
    unread := Codec.text "no" ++ [255], written := [] }

theorem decode_refusedResponse :
    Frame.decode Message (.ok (Serial.encode (refusedResponse.write refusedResponse.unread))) =
      .ok refusedResponse ∧ refusedResponse.kind = .response := ⟨rfl, rfl⟩

def refusal : Incident := .response _ refusedResponse decode_refusedResponse

end Guest

end Node

end PeerServices
