import PeerServices.Proofs.Handshake.Relay
import PeerServices.Proofs.Node.Course

/-!
# The sessions for exchanges

Which sessions a node keeps for exchanges in the course of its moves, when they are dropped, and
when an exchange is refused because the session that is kept has no connection and cannot get one.

* `Node.Stale`: a session that once accepted a connection of a peer and has it no more.
* `Node.refuses_iff`: an exchange is refused exactly over a stale session.
* `Node.exchanges_of_reachable`: what is kept, what is dropped, and what is refused.
-/

namespace PeerServices

/-- How a call ends that needs a connection which cannot be made. -/
def refusal : Reply.Result := .error (.io ⟨.notConnected, WireError.notConnected.message⟩)

namespace Node

variable {n n' n'' : Node} {k : CallId} {s : SessionId}

/-- An exchange of grants is refused at once. -/
def Refuses (n : Node) (p : PeerAddress) : Prop :=
  .finished n.nextCall refusal ∈ (n.exchange p).2.effects.drop n.effects.length

/-- A session that this side accepted from a peer and that has lost its connection. -/
structure Stale (n : Node) (p : PeerAddress) (s : SessionId) : Prop where
  serving : ∃ session, n.sessions.find? s = some session ∧ session.isProxy = false
  closed : n.openConnection? s = none
  heard : n.HasHeard p s

/-! ## Steps that refuse nothing -/

/-- A step in which a call is not refused. -/
def Spares (k : CallId) (n n' : Node) : Prop :=
  ∃ new, n'.effects = n.effects ++ new ∧ .finished k refusal ∉ new

theorem Spares.refl (k : CallId) (n : Node) : Spares k n n :=
  ⟨[], (List.append_nil _).symm, List.not_mem_nil⟩

theorem Spares.trans (h : Spares k n n') (h' : Spares k n' n'') : Spares k n n'' := by
  obtain ⟨new, hNew, hSpared⟩ := h
  obtain ⟨new', hNew', hSpared'⟩ := h'
  refine ⟨new ++ new', by rw [hNew', hNew, List.append_assoc], ?_⟩
  intro hMem
  rcases List.mem_append.mp hMem with hMem | hMem
  · exact hSpared hMem
  · exact hSpared' hMem

theorem spares_of_eq (h : n'.effects = n.effects) : Spares k n n' :=
  ⟨[], h.trans (List.append_nil _).symm, List.not_mem_nil⟩

theorem spares_emit {e : Effect} (h : e ≠ .finished k refusal) : Spares k n (n.emit e) :=
  ⟨[e], rfl, fun hMem => h (List.mem_singleton.mp hMem).symm⟩

theorem spares_finish (k' : CallId) {result : Reply.Result} (h : result ≠ refusal) :
    Spares k n (n.finish k' result) := by
  unfold finish
  split
  · apply Spares.trans _ (spares_emit _)
    · exact spares_of_eq rfl
    · intro hEq
      exact h (Effect.finished.inj hEq).2
  · exact Spares.refl k n

theorem spares_abandon (listeners : List (Listener Target)) : Spares k n (n.abandon listeners) := by
  unfold abandon
  generalize listeners.filterMap _ = ks
  induction ks generalizing n with
  | nil => exact Spares.refl k n
  | cons k' ks ih =>
    have hDropped : (.error Reply.dropped : Reply.Result) ≠ refusal := by
      intro hEq
      cases hEq
    exact (spares_finish k' hDropped).trans ih

theorem spares_forget (c : ConnectionId) (uid : Int64) : Spares k n (n.forget c uid).2 := by
  unfold forget
  split
  · exact Spares.refl k n
  · exact (spares_of_eq rfl).trans (spares_abandon _)

theorem spares_lapse (k' : CallId) {cause : Call → ServiceError}
    (h : ∀ call, .error (cause call) ≠ refusal) : Spares k n (n.lapse k' cause) := by
  unfold lapse
  split
  · exact Spares.refl k n
  · split
    · exact (spares_finish k' (h _)).trans (spares_forget _ _)
    · exact Spares.refl k n

theorem spares_overdue (k' : CallId) : Spares k n (n.overdue k') :=
  spares_lapse k' fun _ => nofun

theorem spares_fire (h : Session.Hook) : Spares k n (n.fire s h) := by
  cases hSession : n.sessions.find? s with
  | none =>
    rw [fire_none hSession]
    exact Spares.refl k n
  | some session =>
    obtain ⟨kept, hKept⟩ := fire_eq hSession h
    rw [hKept]
    exact ⟨[.hook s h], rfl, fun hMem => by cases List.mem_singleton.mp hMem⟩

theorem spares_release : Spares k n (n.release s) := by
  unfold release
  split
  · exact Spares.refl k n
  · dsimp only
    split
    · exact spares_of_eq rfl
    · apply Spares.trans (spares_of_eq rfl)
      apply spares_emit
      intro hEq
      cases hEq

theorem spares_failToConnect (k' : CallId) {cause : ServiceError}
    (h : (.error cause : Reply.Result) ≠ refusal) : Spares k n (n.failToConnect s k' cause) :=
  ((spares_fire _).trans (spares_finish k' h)).trans spares_release

theorem spares_dial (k' : CallId) (host : PeerAddress) : Spares k n (n.dial s k' host) := by
  unfold dial
  split
  · apply spares_failToConnect
    intro hEq
    cases hEq
  · unfold dialAt
    split
    · apply spares_failToConnect
      intro hEq
      cases hEq
    · apply Spares.trans (spares_of_eq rfl)
      apply spares_emit
      intro hEq
      cases hEq

/-- Not even where sessions cannot connect at all is the same said. -/
theorem spares_connect (k' : CallId) (host : PeerAddress) (hClosed : n.openConnection? s = none) :
    Spares k n (n.connect s k' host) := by
  unfold connect
  rw [hClosed]
  dsimp only
  split
  · exact spares_dial k' host
  · apply spares_failToConnect
    intro hEq
    have hText := (IoFailure.mk.inj (ServiceError.io.inj (Except.error.inj hEq))).2
    revert hText
    decide

/-! ## Calls of connected sessions -/

/-- A parcel that cannot be sent says so, and not that there is no connection. -/
theorem refusal_ne_of_sent {parcel : Parcel} {reachable : Bool} {e : WireError}
    (h : parcel.sent reachable = .error e) : (.error (.ofWire e) : Reply.Result) ≠ refusal := by
  unfold Parcel.sent Parcel.frame Frame.encode at h
  split at h
  · next e' hFrame =>
    split at hFrame
    · cases hFrame
    · cases hFrame
      cases h
      intro hEq
      cases hEq
  · split at h
    · cases h
    · cases h
      intro hEq
      cases hEq

theorem spares_sendRequest (hSound : n.Sound) {c : ConnectionId} (hOpen : n.isOpen c = true)
    (m : Message) (listeners : List (Listener Target)) :
    Spares k n (n.sendRequest c m listeners).2 ∧
      ∀ e, (n.sendRequest c m listeners).1 = .error e →
        (.error (.ofWire e) : Reply.Result) ≠ refusal := by
  obtain ⟨connection, hConnection, hIsOpen⟩ := isOpen_iff.mp hOpen
  have hOutstanding := hSound.linked.outstanding c connection hConnection hIsOpen
  obtain ⟨outstanding, hOutstanding⟩ := Option.isSome_iff_exists.mp hOutstanding
  unfold sendRequest
  rw [hConnection]
  simp only [hOutstanding]
  cases hSent : (Parcel.message m).sent connection.reachable with
  | error e =>
    refine ⟨Spares.refl k n, fun e' hEq => ?_⟩
    cases hEq
    exact refusal_ne_of_sent hSent
  | ok done =>
    refine ⟨?_, fun e hEq => by cases hEq⟩
    apply Spares.trans (spares_of_eq rfl)
    apply spares_emit
    intro hEq
    cases hEq

theorem spares_transmit (hSound : n.Sound) {c : ConnectionId} (hOpen : n.isOpen c = true)
    {call : Call} (hCall : n.calls.find? k = some call) (hResolved : call.resolved = none) :
    Spares k n (n.transmit k c) := by
  obtain ⟨hSent, hFailure⟩ := spares_sendRequest (k := k) hSound hOpen call.message call.listeners
  unfold transmit
  rw [hCall]
  dsimp only
  generalize n.sendRequest c call.message call.listeners = sent at hSent hFailure ⊢
  obtain ⟨result, n'⟩ := sent
  cases result with
  | error e => exact hSent.trans (spares_finish k (hFailure e rfl))
  | ok done =>
    simp only [hResolved]
    split
    · apply hSent.trans
      apply spares_finish
      intro hEq
      cases hEq
    · split
      · exact (hSent.trans (spares_of_eq rfl)).trans (spares_overdue k)
      · apply hSent.trans
        apply Spares.trans (spares_of_eq rfl)
        apply spares_emit
        intro hEq
        cases hEq

section Begin

variable {call : Call} {session : Session}

theorem spares_begin (hSound : n.Sound) (hCall : n.calls.find? k = some call)
    (hResolved : call.resolved = none) (hSession : n.sessions.find? call.session = some session)
    (h : session.isProxy = true ∨ n.openConnection? call.session ≠ none) :
    Spares k n (n.begin k) := by
  unfold begin
  rw [hCall]
  dsimp only
  rw [hSession]
  cases hOpen : n.openConnection? call.session with
  | some c =>
    obtain ⟨_, _, _, hIsOpen⟩ := openConnection?_eq_some.mp hOpen
    exact spares_transmit hSound hIsOpen hCall hResolved
  | none =>
    have hProxy : session.isProxy = true := h.resolve_right fun hNe => hNe hOpen
    simp only [hProxy, Bool.not_true, Bool.false_eq_true, if_false]
    split
    · exact spares_of_eq rfl
    · apply Spares.trans (spares_of_eq rfl)
      apply spares_connect
      -- The session gets no connection by beginning to connect.
      rw [Option.eq_none_iff_forall_ne_some] at hOpen ⊢
      intro c hSome
      obtain ⟨changed, hChanged, hCurrent, hIsOpen⟩ := openConnection?_eq_some.mp hSome
      rw [find?_modifySession_self, hSession] at hChanged
      cases hChanged
      exact hOpen c (openConnection?_eq_some.mpr ⟨session, hSession, hCurrent, hIsOpen⟩)

theorem begin_refused (hCall : n.calls.find? k = some call)
    (hSession : n.sessions.find? call.session = some session) (hServing : session.isProxy = false)
    (hClosed : n.openConnection? call.session = none) :
    (n.begin k).effects = n.effects ++ [.finished k refusal] := by
  have hContains : n.calls.contains k = true := by
    unfold SortedMap.contains
    rw [hCall]
    rfl
  unfold begin
  rw [hCall]
  dsimp only
  rw [hClosed, hSession]
  simp only [hServing, Bool.not_false, if_true]
  unfold finish
  rw [if_pos hContains]
  rfl

end Begin

/-! ## Exchanges that are refused -/

section Refusals

variable {p : PeerAddress} {record : PeerRecord} {session : Session}

theorem not_refuses_of_spares (h : Spares n.nextCall n (n.exchange p).2) : ¬n.Refuses p := by
  obtain ⟨new, hNew, hSpared⟩ := h
  unfold Refuses
  rw [hNew, List.drop_left]
  exact hSpared

theorem spares_fail {cause : ServiceError} (h : (.error cause : Reply.Result) ≠ refusal) :
    Spares k n (n.fail cause).2 := by
  apply Spares.trans (spares_of_eq rfl)
  apply spares_emit
  intro hEq
  exact h (Effect.finished.inj hEq).2

/-- The call of an exchange, before it begins. -/
def exchangeCall (n : Node) (p : PeerAddress) (record : PeerRecord) (s : SessionId) :
    CallId × Node :=
  n.newCall s n.exchangeTimeout (·.put record.exported) exchangeCode
    (fun k => [⟨exchangeCode, .exchange k p⟩]) none

theorem exchange_eq (hRecord : n.directory.find? p = some record)
    (hSession : n.exchangeSession? p = some (s, n')) :
    (n.exchange p).2 = (n'.exchangeCall p record s).2.begin n'.nextCall := by
  unfold exchange
  rw [hRecord]
  dsimp only
  rw [hSession]
  rfl

theorem exchangeCall_find? (n : Node) (p : PeerAddress) (record : PeerRecord) (s : SessionId) :
    ∃ call, (n.exchangeCall p record s).2.calls.find? n.nextCall = some call ∧ call.session = s ∧
      call.resolved = none :=
  ⟨_, SortedMap.find?_insert_self n.calls n.nextCall _, rfl, rfl⟩

/-- An exchange goes on over a session that connects, and over one that is connected. -/
theorem spares_exchange (hSound : n'.Sound) (hSession : n'.sessions.find? s = some session)
    (h : session.isProxy = true ∨ n'.openConnection? s ≠ none) :
    Spares n'.nextCall n' ((n'.exchangeCall p record s).2.begin n'.nextCall) := by
  obtain ⟨call, hCall, rfl, hResolved⟩ := exchangeCall_find? n' p record s
  have hMade : (n'.exchangeCall p record call.session).2.Sound :=
    (goes_newCall n' call.session n'.exchangeTimeout (·.put record.exported) exchangeCode
      (fun k => [⟨exchangeCode, .exchange k p⟩]) none hSound).1
  apply Spares.trans (spares_of_eq rfl)
  exact spares_begin hMade hCall hResolved hSession h

theorem exchangeSession?_of_kept (h : n.exchanges.find? p = some s) :
    n.exchangeSession? p = some (s, n) := by
  unfold exchangeSession?
  rw [h]

/-- The session for exchanges with a peer is a new one if none is kept. -/
theorem exchangeSession?_of_none (h : n.exchanges.find? p = none)
    (hSession : n.exchangeSession? p = some (s, n')) :
    n'.effects = n.effects ∧ n'.nextCall = n.nextCall ∧
      ∃ session, n'.sessions.find? s = some session ∧ session.isProxy = true := by
  unfold exchangeSession? at hSession
  rw [h] at hSession
  dsimp only at hSession
  split at hSession
  · cases hSession
    exact ⟨rfl, rfl, _, SortedMap.find?_insert_self n.sessions n.nextSession _, rfl⟩
  · cases hSession

/-- What is said of somebody who is not known is something else. -/
theorem not_refuses_of_unknown (h : n.directory.find? p = none) : ¬n.Refuses p := by
  have hFail : n.exchange p = n.fail (.unregistered p) := by
    unfold exchange
    rw [h]
  apply not_refuses_of_spares
  rw [hFail]
  apply spares_fail
  intro hEq
  cases hEq

theorem not_refuses_of_none (hSound : n.Sound) (h : n.exchanges.find? p = none) :
    ¬n.Refuses p := by
  cases hRecord : n.directory.find? p with
  | none => exact not_refuses_of_unknown hRecord
  | some record =>
    apply not_refuses_of_spares
    cases hSession : n.exchangeSession? p with
    | none =>
      have hFail : n.exchange p = n.fail (.io ⟨.notConnected, "No connector"⟩) := by
        unfold exchange
        rw [hRecord]
        dsimp only
        rw [hSession]
      rw [hFail]
      apply spares_fail
      intro hEq
      have hText := (IoFailure.mk.inj (ServiceError.io.inj (Except.error.inj hEq))).2
      revert hText
      decide
    | some made =>
      obtain ⟨s, n'⟩ := made
      obtain ⟨hEffects, hNext, session, hFind, hProxy⟩ := exchangeSession?_of_none h hSession
      have hSound' := (goes_exchangeSession? hSession hSound).1
      rw [exchange_eq hRecord hSession, ← hNext]
      exact (spares_of_eq hEffects).trans (spares_exchange hSound' hFind (.inl hProxy))

/-- An exchange is refused exactly if the session that is kept for the peer is stale. -/
theorem refuses_iff (hSound : n.Sound) (p : PeerAddress) :
    n.Refuses p ↔ ∃ record s, n.directory.find? p = some record ∧
      n.exchanges.find? p = some s ∧ n.Stale p s := by
  constructor
  · intro hRefuses
    cases hRecord : n.directory.find? p with
    | none => exact absurd hRefuses (not_refuses_of_unknown hRecord)
    | some record =>
      cases hKept : n.exchanges.find? p with
      | none => exact absurd hRefuses (not_refuses_of_none hSound hKept)
      | some s =>
        obtain ⟨session, hSession, _⟩ := hSound.kept.suits p s hKept
        have hStuck : ¬(session.isProxy = true ∨ n.openConnection? s ≠ none) := by
          intro hGoesOn
          apply not_refuses_of_spares _ hRefuses
          rw [exchange_eq hRecord (exchangeSession?_of_kept hKept)]
          exact spares_exchange hSound hSession hGoesOn
        have hServing : session.isProxy = false :=
          Bool.eq_false_iff.mpr fun hProxy => hStuck (.inl hProxy)
        have hClosed : n.openConnection? s = none :=
          Classical.byContradiction fun hOpen => hStuck (.inr hOpen)
        have hHeard : n.HasHeard p s := by
          apply (hSound.kept.heard p s hKept).resolve_left
          rintro ⟨session', hSession', hProxy⟩
          obtain rfl := Option.some.inj (hSession.symm.trans hSession')
          rw [hServing] at hProxy
          cases hProxy
        exact ⟨record, s, rfl, rfl, ⟨session, hSession, hServing⟩, hClosed, hHeard⟩
  · rintro ⟨record, s, hRecord, hKept, ⟨session, hSession, hServing⟩, hClosed, _⟩
    obtain ⟨call, hCall, hCallSession, _⟩ := exchangeCall_find? n p record s
    have hRefused := begin_refused hCall (hCallSession ▸ hSession) hServing (hCallSession ▸ hClosed)
    unfold Refuses
    rw [exchange_eq hRecord (exchangeSession?_of_kept hKept), hRefused]
    have hEffects : (n.exchangeCall p record s).2.effects = n.effects := rfl
    rw [hEffects, List.drop_left]
    exact List.mem_singleton_self _

end Refusals

/-! ## What is kept and what is dropped -/

theorem peerOf?_of_kept (hSound : n.Sound) {p : PeerAddress} (h : n.exchanges.find? p = some s) :
    n.peerOf? s = some p ↔ ¬n.Stale p s := by
  obtain ⟨session, hSession, hSuits⟩ := hSound.kept.suits p s h
  cases hProxy : session.isProxy with
  | true =>
    have hPeer : n.peerOf? s = some p := by
      rw [peerOf?_of_isProxy hSession hProxy, hSuits.host hProxy]
    refine ⟨fun _ hStale => ?_, fun _ => hPeer⟩
    obtain ⟨session', hSession', hServing⟩ := hStale.serving
    obtain rfl := Option.some.inj (hSession.symm.trans hSession')
    rw [hProxy] at hServing
    cases hServing
  | false =>
    rw [peerOf?_eq_some hSession hProxy]
    constructor
    · rintro ⟨c, connection, hCurrent, hConnection, hOpen, _⟩ hStale
      have hConnected := openConnection?_eq_some.mpr
        ⟨session, hSession, hCurrent, isOpen_iff.mpr ⟨connection, hConnection, hOpen⟩⟩
      rw [hStale.closed] at hConnected
      cases hConnected
    · intro hFresh
      have hHeard : n.HasHeard p s := by
        apply (hSound.kept.heard p s h).resolve_left
        rintro ⟨session', hSession', hIsProxy⟩
        obtain rfl := Option.some.inj (hSession.symm.trans hSession')
        rw [hProxy] at hIsProxy
        cases hIsProxy
      cases hClosed : n.openConnection? s with
      | none => exact absurd ⟨⟨session, hSession, hProxy⟩, hClosed, hHeard⟩ hFresh
      | some c =>
        obtain ⟨session', hSession', hCurrent, hOpen⟩ := openConnection?_eq_some.mp hClosed
        obtain rfl := Option.some.inj (hSession.symm.trans hSession')
        obtain ⟨connection, hConnection, hIsOpen⟩ := isOpen_iff.mp hOpen
        exact ⟨c, connection, hCurrent, hConnection, hIsOpen,
          hSuits.peer hProxy c connection hCurrent hConnection hIsOpen⟩

/-- In the course of a node, whatever happens in whatever order: the session that is kept for a peer
has it at the other side, unless it is one that this side accepted and that has lost its connection.
A session that connects is not kept once its connection is over, however that came; one that this
side accepted is kept all the same. No session is dropped or replaced for any other reason than its
own end, or another one that is connected to the same peer, or the owner's word. An exchange with a
known peer is refused exactly if the session that is kept was accepted and has lost its
connection. -/
theorem exchanges_of_reachable (h : n.Reachable) :
    (∀ p s, n.exchanges.find? p = some s →
      (n.peerOf? s = some p ↔ ¬n.Stale p s) ∧ (n.Proxies s → n.hasEnded s = false)) ∧
    (∀ m, n.Permits m → ∃ new, (n.make m).effects = n.effects ++ new ∧
      ∀ p s, n.exchanges.find? p = some s → ¬m.Forgets p → Outlives n (n.make m) new p s) ∧
    ∀ p, n.Refuses p ↔ ∃ record s, n.directory.find? p = some record ∧
      n.exchanges.find? p = some s ∧ n.Stale p s := by
  have hSound := h.sound
  refine ⟨fun p s hFind => ?_, fun m hPermits => ?_, refuses_iff hSound⟩
  · exact ⟨peerOf?_of_kept hSound hFind, hSound.kept.lasting p s hFind⟩
  · exact (make_outlives hPermits hSound).2

/-! ## A visit -/

section Visit

open Handshake

/-- The guest comes to exchange grants, proves itself and goes away again. After that the host gets
to know the way to it. -/
def visited : Node :=
  create Relay.sample.host
    |>.make (.activate (.exchange Relay.sample.host.address))
    |>.make (.add Relay.sample.record)
    |>.make (.event (.accept ⟨0, Relay.sample.issued, true⟩))
    |>.make (.event (.receive 0 (.ok (Parcel.service .exchange).body)))
    |>.make (.event (.receive 0 (.ok (Parcel.challenge Relay.sample.counter).body)))
    |>.make (.event (.receive 0 (.ok (Parcel.proof Relay.sample.proof).body)))
    |>.make (.event (.receive 0 (.error .connectionClosed)))
    |>.make (.route Relay.sample.client.address (some (.v4 [127, 0, 0, 1] 9)))

theorem visited_reachable : visited.Reachable := by
  have hBlank : (create Relay.sample.host).Reachable := .blank ⟨rfl, rfl, rfl, rfl, rfl, rfl⟩
  have hOffers := hBlank.make (.activate (.exchange Relay.sample.host.address)) trivial
  have hKnows := hOffers.make (.add Relay.sample.record) trivial
  have hAccepts := hKnows.make (.event (.accept ⟨0, Relay.sample.issued, true⟩)) rfl
  have hHears : ∀ n : Node, n.Reachable → ∀ frame, (n.make (.event (.receive 0 frame))).Reachable :=
    fun n hReachable frame => hReachable.make (.event (.receive 0 frame)) trivial
  exact (hHears _ (hHears _ (hHears _ (hHears _ hAccepts _) _) _) _).make (.route _ _) trivial

set_option maxRecDepth 100000 in
theorem visited_state : visited.exchanges.find? Relay.sample.client.address = some 0 ∧
    visited.hasEnded 0 = true ∧ visited.openConnection? 0 = none ∧
    (visited.sessions.find? 0).map Session.isProxy = some false ∧
    (visited.directory.find? Relay.sample.client.address).isSome = true ∧
    (visited.routes.find? Relay.sample.client.address).isSome = true := by
  decide +kernel

theorem visited_stale : visited.Stale Relay.sample.client.address 0 := by
  obtain ⟨hKept, _, hClosed, hServing, _, _⟩ := visited_state
  obtain ⟨session, hSession, hServing⟩ := Option.map_eq_some_iff.mp hServing
  refine ⟨⟨session, hSession, hServing⟩, hClosed, ?_⟩
  apply (visited_reachable.sound.kept.heard _ _ hKept).resolve_left
  rintro ⟨session', hSession', hProxy⟩
  obtain rfl := Option.some.inj (hSession.symm.trans hSession')
  rw [hServing] at hProxy
  cases hProxy

/-- The visit leaves its session among those for exchanges, and the way to the guest is no use. -/
theorem visited_exchanges : visited.Reachable ∧
    visited.peerOf? 0 ≠ some Relay.sample.client.address ∧
    visited.Refuses Relay.sample.client.address := by
  obtain ⟨hKept, _, _, _, hKnown, _⟩ := visited_state
  obtain ⟨record, hRecord⟩ := Option.isSome_iff_exists.mp hKnown
  obtain ⟨hPeer, _, hRefuses⟩ := exchanges_of_reachable visited_reachable
  refine ⟨visited_reachable, fun hAtOther => ?_, ?_⟩
  · exact (hPeer _ 0 hKept).1.mp hAtOther visited_stale
  · exact (hRefuses _).mpr ⟨record, 0, hRecord, hKept, visited_stale⟩

theorem visited_refused : visited.Refuses Relay.sample.client.address := by
  obtain ⟨hKept, _, _, _, hKnown, _⟩ := visited_state
  obtain ⟨record, hRecord⟩ := Option.isSome_iff_exists.mp hKnown
  exact (refuses_iff visited_reachable.sound _).mpr ⟨record, 0, hRecord, hKept, visited_stale⟩

/-- So it is not true that the session that is kept for a peer has it at the other side, nor that a
session is dropped when its connection is over, nor that an exchange with a peer to which there is a
way is never refused for the want of a connection. -/
theorem visited_keeps_closed :
    (¬∀ n : Node, n.Reachable → ∀ p s, n.exchanges.find? p = some s → n.peerOf? s = some p) ∧
    (¬∀ n : Node, n.Reachable → ∀ p s, n.hasEnded s = true → n.exchanges.find? p ≠ some s) ∧
    ¬∀ n : Node, n.Reachable → ∀ p, (n.routes.find? p).isSome = true → ¬n.Refuses p := by
  obtain ⟨hKept, hEnded, _, _, _, hRouted⟩ := visited_state
  refine ⟨fun hPeer => ?_, fun hDropped => ?_, fun hNever => ?_⟩
  · have hAtOther := hPeer visited visited_reachable _ _ hKept
    exact (peerOf?_of_kept visited_reachable.sound hKept).mp hAtOther visited_stale
  · exact hDropped visited visited_reachable _ _ hEnded hKept
  · exact hNever visited visited_reachable _ hRouted visited_refused

end Visit

end Node

end PeerServices
