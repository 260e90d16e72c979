import PeerServices.Proofs.Node.Lifespan

/-!
# What shutting down leaves

A node that is shut down has no open connection, reaches for no host any more, and is not shut down
a second time. Handshakes that are under way are not given up, though, and what they open later stays
open.

* `Node.meetAll`: a node after some occasions.
* `Node.InHandshake`: a connection whose handshake is under way.
* `Node.Connects`: an event with which a call would reach for its host, or was reaching for it.
* `Node.shutdown_final`: what holds from then on.
* `Node.arriving_outlives_shutdown`: a connection that is opened all the same.
-/

namespace PeerServices.Node

variable {n n' : Node} {c : ConnectionId} {s : SessionId} {k : CallId}

/-! ## Runs -/

/-- A node after some occasions, one after another. -/
def meetAll (n : Node) (os : List Occasion) : Node := os.foldl meet n

/-- Can occasions come one after another? -/
def AdmitsAll : Node → List Occasion → Prop
  | _, [] => True
  | n, o :: os => n.Admits o ∧ (n.meet o).AdmitsAll os

/-- Somebody connects to the node. -/
def Occasion.isAccept (c : ConnectionId) : Occasion → Prop
  | .move (.event (.accept line)) => line.id = c
  | _ => False

theorem Lived.meetAll (h : n.Lived) {os : List Occasion} (hAdmits : n.AdmitsAll os) :
    (n.meetAll os).Lived := by
  induction os generalizing n with
  | nil => exact h
  | cons o os ih => exact ih (h.meet o hAdmits.1) hAdmits.2

/-- Once everything is cancelled, a connection comes about only when somebody connects. -/
theorem Occasion.Brings.isAccept {o : Occasion} (h : o.Brings n (.joined c))
    (hCancelled : n.dialsCancelled = true) : o.isAccept c := by
  cases o with
  | unlink _ | close _ | closeAll => cases h
  | move m =>
    cases m with
    | event e =>
      cases h with
      | accepted line => rfl
      | reached k line hGoesOn => cases hGoesOn.symm.trans hCancelled
      | closed _ hLocal => cases hLocal
    | _ => cases h

/-- The turns of a whole run, once everything is cancelled. -/
theorem Lived.exists_path (h : n.Lived) (hCancelled : n.dialsCancelled = true)
    {os : List Occasion} (hAdmits : n.AdmitsAll os) :
    ∃ ts, Path n ts (n.meetAll os) ∧ ∀ c, .joined c ∈ ts → ∃ o ∈ os, o.isAccept c := by
  induction os generalizing n with
  | nil => exact ⟨[], .refl, fun _ => nofun⟩
  | cons o os ih =>
    obtain ⟨ts, hPath, hBrings, -⟩ := proceeds_meet hAdmits.1 h.fit
    obtain ⟨ts', hPath', hJoined⟩ :=
      ih (h.meet o hAdmits.1) (hPath.lasts.cancelled hCancelled) hAdmits.2
    refine ⟨ts ++ ts', hPath.trans hPath', fun c hMem => ?_⟩
    rcases List.mem_append.mp hMem with hMem | hMem
    · exact ⟨o, List.mem_cons_self, (hBrings _ hMem).isAccept hCancelled⟩
    · obtain ⟨o', hIn, hAccept⟩ := hJoined c hMem
      exact ⟨o', List.mem_cons_of_mem _ hIn, hAccept⟩

/-! ## Connections that are opened later -/

/-- The handshake of a connection is under way. -/
def InHandshake (n : Node) (c : ConnectionId) : Prop :=
  ∃ connection, n.connections.find? c = some connection ∧ connection.isSettled = false

theorem isClosed_of_settled {connection : Connection}
    (hFind : n.connections.find? c = some connection) (hSettled : connection.isSettled = true)
    (hShut : connection.isOpen = false) : n.IsClosed c := by
  refine ⟨connection, hFind, ?_⟩
  unfold Connection.isSettled at hSettled
  unfold Connection.isOpen at hShut
  cases hStage : connection.stage with
  | opened =>
    rw [hStage] at hShut
    cases hShut
  | closed => rfl
  | _ =>
    rw [hStage] at hSettled
    cases hSettled

/-- A connection that is open later was open, was in its handshake, or has come about since. -/
theorem Path.opened_since {ts : List Turn} (h : Path n ts n') {past : List Turn}
    (hFits : n.Fits c past) (hOpen : n'.isOpen c = true) :
    n.isOpen c = true ∨ n.InHandshake c ∨ .joined c ∈ ts := by
  have hAfter := h.fits hFits
  cases hFits with
  | unknown _ =>
    -- It has its turns, and the first of them is that it came about.
    right; right
    have hJoined : .joined c ∈ turnsOf c ts := by
      rw [List.nil_append] at hAfter
      generalize turnsOf c ts = turns at hAfter
      cases hAfter with
      | unknown hNone =>
        obtain ⟨connection, hFind, -⟩ := isOpen_iff.mp hOpen
        cases hNone.symm.trans hFind
      | _ => exact List.mem_cons_self
    exact (List.mem_filter.mp hJoined).1
  | @unopened connection hFind hShut =>
    right; left
    refine ⟨connection, hFind, ?_⟩
    rw [← Bool.not_eq_true]
    intro hSettled
    have hClosed := h.isClosed (isClosed_of_settled hFind hSettled hShut)
    cases hClosed.not_open.symm.trans hOpen
  | @opened connection s hFind hWasOpen _ =>
    exact .inl (isOpen_iff.mpr ⟨connection, hFind, hWasOpen⟩)
  | @closed connection s reason hFind hStage =>
    have hClosed := h.isClosed ⟨connection, hFind, hStage⟩
    cases hClosed.not_open.symm.trans hOpen

/-! ## Hosts that are not reached -/

/-- Why a host is not reached when every attempt is cancelled: the attempt was cancelled, or there is
no way to the host, or sessions cannot connect at all. -/
inductive Refusal (n : Node) (host : PeerAddress) : ServiceError → Prop
  | cancelled : Refusal n host (cancelledDial host)
  | unregistered (hNowhere : n.routes.find? host = none) : Refusal n host (.unregistered host)
  | disconnected (hDisconnected : n.connects = false) :
      Refusal n host (.io ⟨.notConnected, "Peer shut down"⟩)

theorem Refusal.congr {host : PeerAddress} {cause : ServiceError} (h : n.Refusal host cause)
    (hRoutes : n'.routes = n.routes) (hConnects : n'.connects = n.connects) :
    n'.Refusal host cause := by
  cases h with
  | cancelled => exact .cancelled
  | unregistered hNowhere => exact .unregistered (hRoutes ▸ hNowhere)
  | disconnected hDisconnected => exact .disconnected (hConnects.trans hDisconnected)

/-- A call ends here because its host is not reached. -/
def FailsFor (n n' : Node) (k : CallId) (host : PeerAddress) : Prop :=
  ∃ cause, n.Refusal host cause ∧ n'.calls.find? k = none ∧
    .finished k (.error cause) ∈ n'.effects

theorem calls_fire (n : Node) (s : SessionId) (hook : Session.Hook) :
    (n.fire s hook).calls = n.calls := by
  cases hSession : n.sessions.find? s with
  | none => rw [fire_none hSession]
  | some session =>
    obtain ⟨kept, hKept⟩ := fire_eq hSession hook
    rw [hKept]

theorem release_spec (n : Node) (s : SessionId) :
    (n.release s).calls = n.calls ∧ n.effects <+: (n.release s).effects := by
  unfold release
  split
  · exact ⟨rfl, List.prefix_refl _⟩
  · dsimp only
    split
    · exact ⟨rfl, List.prefix_refl _⟩
    · exact ⟨rfl, List.prefix_append _ _⟩

theorem failToConnect_spec (s : SessionId) {k : CallId} (cause : ServiceError)
    (hCall : (n.calls.find? k).isSome = true) :
    (n.failToConnect s k cause).calls.find? k = none ∧
      .finished k (.error cause) ∈ (n.failToConnect s k cause).effects := by
  have hStill : ((n.fire s (.connectionFailed cause)).calls.find? k).isSome = true := by
    rw [calls_fire]
    exact hCall
  obtain ⟨calls, new, hFinish, hCalls, -, hSaid⟩ :=
    (n.fire s (.connectionFailed cause)).finish_eq k (.error cause)
  obtain ⟨hSame, hGrows⟩ :=
    release_spec ((n.fire s (.connectionFailed cause)).finish k (.error cause)) s
  unfold failToConnect
  rw [hSame]
  refine ⟨?_, hGrows.subset ?_⟩
  · rw [hFinish, hCalls, if_pos rfl]
  · rw [hFinish]
    exact List.mem_append_right _ (hSaid hStill)

/-- Whoever reaches for a host fails. -/
theorem dialAt_fails (hCancelled : n.dialsCancelled = true) (s : SessionId) (host : PeerAddress)
    (socket : SocketAddress) (attempts : Nat) (hCall : (n.calls.find? k).isSome = true) :
    FailsFor n (n.dialAt s k host socket attempts) k host := by
  unfold dialAt
  rw [if_pos hCancelled]
  exact ⟨_, .cancelled, failToConnect_spec s _ hCall⟩

theorem dial_fails (hCancelled : n.dialsCancelled = true) (s : SessionId) (host : PeerAddress)
    (hCall : (n.calls.find? k).isSome = true) : FailsFor n (n.dial s k host) k host := by
  unfold dial
  split
  next hNowhere => exact ⟨_, .unregistered hNowhere, failToConnect_spec s _ hCall⟩
  · exact dialAt_fails hCancelled s host _ 0 hCall

theorem connect_fails (hCancelled : n.dialsCancelled = true) (hShut : n.openConnection? s = none)
    (host : PeerAddress) (hCall : (n.calls.find? k).isSome = true) :
    FailsFor n (n.connect s k host) k host := by
  unfold connect
  rw [hShut]
  dsimp only
  split
  · exact dial_fails hCancelled s host hCall
  next hDisconnected =>
    exact ⟨_, .disconnected (Bool.not_eq_true _ ▸ hDisconnected), failToConnect_spec s _ hCall⟩

/-- An event with which a call would reach for its host, or was reaching for it. -/
inductive Connects (n : Node) (k : CallId) (host : PeerAddress) : Event → Prop
  /-- A call begins whose session has no connection and is not being connected. -/
  | begins {call : Call} {session : Session} (hCall : n.calls.find? k = some call)
      (hSession : n.sessions.find? call.session = some session)
      (hHost : session.address.host = host) (hProxy : session.isProxy = true)
      (hShut : n.openConnection? call.session = none) (hAlone : session.connecting = none) :
      Connects n k host (.begin k)
  /-- A call has waited for another one, and its session has no connection. -/
  | proceeds {call : Call} {session : Session} (hCall : n.calls.find? k = some call)
      (hSession : n.sessions.find? call.session = some session)
      (hHost : session.address.host = host) (hShut : n.openConnection? call.session = none) :
      Connects n k host (.proceed k)
  /-- It is time for another attempt. -/
  | retries {call : Call} {session : Session} {attempts : Nat} {socket : SocketAddress}
      (hCall : n.calls.find? k = some call) (hStage : call.stage = .dialling attempts socket)
      (hSession : n.sessions.find? call.session = some session)
      (hHost : session.address.host = host) : Connects n k host (.redial k)
  /-- An attempt is over, whatever came of it. -/
  | reaches {call : Call} {session : Session} {attempts : Nat} {socket : SocketAddress}
      (hCall : n.calls.find? k = some call) (hStage : call.stage = .dialling attempts socket)
      (hSession : n.sessions.find? call.session = some session)
      (hHost : session.address.host = host) (outcome : Except ServiceError Line) :
      Connects n k host (.dialled k outcome)

/-- That a session is being connected does not give it a connection. -/
theorem openConnection?_connecting (s : SessionId) (k : CallId)
    (hShut : n.openConnection? s = none) :
    (n.modifySession s fun session => { session with connecting := some k }).openConnection? s =
      none := by
  rw [Option.eq_none_iff_forall_ne_some]
  intro c hOpen
  obtain ⟨new, hNew, hCurrent, hIsOpen⟩ := openConnection?_eq_some.mp hOpen
  rw [find?_modifySession_self] at hNew
  obtain ⟨session, hSession, rfl⟩ := Option.map_eq_some_iff.mp hNew
  have hWasOpen := openConnection?_eq_some.mpr ⟨session, hSession, hCurrent, hIsOpen⟩
  cases hShut.symm.trans hWasOpen

theorem decline_calls (n : Node) (outcome : Except ServiceError Line) :
    (n.decline outcome).calls = n.calls ∧ (n.decline outcome).sessions = n.sessions := by
  unfold decline
  split <;> exact ⟨rfl, rfl⟩

/-- When every attempt to reach a host is cancelled, a call that would reach for one fails. -/
theorem Connects.fails {host : PeerAddress} {e : Event} (h : n.Connects k host e)
    (hCancelled : n.dialsCancelled = true) : FailsFor n (n.handle e) k host := by
  cases h with
  | @begins call session hCall hSession hHost hProxy hShut hAlone =>
    have hSome : (n.calls.find? k).isSome = true := by rw [hCall]; rfl
    change FailsFor n (n.begin k) k host
    unfold «begin»
    simp only [hCall, hShut, hSession, hProxy, hAlone, Bool.not_true, Bool.false_eq_true, if_false,
      Option.isSome_none, hHost]
    have hStillShut := openConnection?_connecting call.session k hShut
    obtain ⟨cause, hRefusal, hEnd⟩ := connect_fails (n := n.modifySession call.session fun session =>
      { session with connecting := some k }) hCancelled hStillShut host hSome
    exact ⟨cause, hRefusal.congr rfl rfl, hEnd⟩
  | @proceeds call session hCall hSession hHost hShut =>
    have hSome : (n.calls.find? k).isSome = true := by rw [hCall]; rfl
    change FailsFor n (n.proceed k) k host
    unfold proceed
    simp only [hCall, hSession, hHost]
    exact connect_fails hCancelled hShut host hSome
  | @retries call session attempts socket hCall hStage hSession hHost =>
    have hSome : (n.calls.find? k).isSome = true := by rw [hCall]; rfl
    change FailsFor n (n.redial k) k host
    unfold redial
    simp only [hCall, hStage, hSession, hHost]
    exact dialAt_fails hCancelled call.session host socket attempts hSome
  | @reaches call session attempts socket hCall hStage hSession hHost outcome =>
    obtain ⟨hCalls, hSessions⟩ := n.decline_calls outcome
    change FailsFor n (n.endDial k outcome) k host
    unfold endDial
    rw [if_pos hCancelled, hCall]
    simp only [Option.bind_some, hSession, hHost]
    unfold dialled
    simp only [hCalls, hSessions, hCall, hStage, hSession]
    -- Only a failure of the transport would be worth another attempt.
    change FailsFor n ((n.decline outcome).failToConnect call.session k (cancelledDial host)) k host
    refine ⟨_, .cancelled, failToConnect_spec call.session _ ?_⟩
    rw [hCalls, hCall]
    rfl

/-! ## Shutting down -/

theorem Fit.connectionCount_eq_zero (hFit : n.Fit) (hNobody : ∀ c, n.isOpen c = false) :
    n.connectionCount = 0 := by
  have hEmpty : n.roster.toList = [] := by
    apply List.eq_nil_iff_forall_not_mem.mpr
    intro c hMem
    cases (hNobody c).symm.trans ((hFit.roster c).mp hMem)
  unfold connectionCount SortedSet.size
  rw [hEmpty]
  rfl

/-- What one of several steps says has been said in the end. -/
theorem mem_effects_foldl {α : Type} {f : Node → α → Node} {P : Node → Prop} {a : α} {e : Effect}
    (hRests : ∀ n a, Rests n (f n a)) (hKeeps : ∀ n a, P n → P (f n a))
    (hSays : ∀ n, P n → e ∈ (f n a).effects) {l : List α} (hMem : a ∈ l) (hBefore : P n) :
    e ∈ (l.foldl f n).effects := by
  induction l generalizing n with
  | nil => cases hMem
  | cons b l ih =>
    rw [List.foldl_cons]
    rcases List.mem_cons.mp hMem with rfl | hMem
    · obtain ⟨new, hNew, -⟩ := (rests_foldl hRests l (f n a)).effects
      rw [hNew]
      exact List.mem_append_left _ (hSays n hBefore)
    · exact ih hMem (hKeeps n b hBefore)

/-- Every call that is reaching for its host is told that this is over. -/
theorem mem_cancelDials {call : Call} {session : Session} {attempts : Nat}
    {socket : SocketAddress} (hCall : n.calls.find? k = some call)
    (hStage : call.stage = .dialling attempts socket)
    (hSession : n.sessions.find? call.session = some session) :
    .later (.dialled k (.error (cancelledDial session.address.host))) ∈ n.cancelDials.effects := by
  unfold cancelDials
  apply mem_effects_foldl (P := fun n => n.sessions.find? call.session = some session)
    (a := (k, call))
  case hRests =>
    intro n e
    split
    · exact .refl n
    · exact rests_emit n rfl
  case hKeeps =>
    intro n e hKnown
    split
    · exact hKnown
    · exact hKnown
  case hSays =>
    intro n hKnown
    simp only [hKnown]
    exact List.mem_append_right _ (List.mem_singleton_self _)
  case hMem =>
    rw [List.mem_filter, hStage]
    exact ⟨SortedMap.mem_toList_iff.mpr hCall, rfl⟩
  case hBefore => exact hSession

/-- What shutting down gives up. -/
theorem shutdown_spec (hFit : n.Fit) (hRunning : n.shutDown = false) :
    (∀ c, n.shutdown.isOpen c = false) ∧ n.shutdown.dialsCancelled = true ∧
      n.shutdown.shutDown = true ∧ n.cancelDials.effects <+: n.shutdown.effects := by
  have hShutdown : n.shutdown = n.cancelDials.leave := by
    unfold shutdown
    rw [if_neg (by rw [hRunning]; decide)]
  have hCancelled : n.cancelDials.dialsCancelled = true := (rests_tellDials n).lasts.cancelled rfl
  have hFit' := (rests_cancelDials n).fit hFit
  let left : Node := { n.cancelDials.closeExchanges with listening := false, shutDown := true }
  have hLeft : Rests n.cancelDials.closeExchanges left :=
    rests_of_eq rfl rfl rfl ⟨id, fun _ => rfl, fun _ => rfl⟩ rfl
  obtain ⟨ts, hPath, -⟩ := proceeds_leave n.cancelDials hFit'
  have hLeftFit := hLeft.fit ((proceeds_closeExchanges n.cancelDials).fit hFit')
  obtain ⟨ts', hClosing, -⟩ := proceeds_closeAll left hLeftFit
  rw [hShutdown]
  refine ⟨fun c => isOpen_closeAll hLeftFit c, hPath.lasts.cancelled hCancelled,
    hClosing.lasts.shutDown rfl, ?_⟩
  obtain ⟨new, hNew, -⟩ := hPath.effects
  exact ⟨new, hNew.symm⟩

/-- A node that is shut down has no open connection. Whatever happens after that, a connection is
opened only if its handshake was under way then or somebody connects all the same, so without these
there is none; no host is reached for any more; a call that was reaching for one is told that this is
over, and that call and every other one that would connect fails; and the node cannot be shut down
again. -/
theorem shutdown_final (h : n.Lived) (hRunning : n.shutDown = false) {os : List Occasion}
    (hAdmits : n.shutdown.AdmitsAll os) :
    let later := n.shutdown.meetAll os
    (∀ c, n.shutdown.isOpen c = false) ∧ n.shutdown.connectionCount = 0 ∧
    (∀ c, later.isOpen c = true → n.shutdown.InHandshake c ∨ ∃ o ∈ os, o.isAccept c) ∧
    ((∀ c, ¬n.shutdown.InHandshake c) → (∀ o ∈ os, ∀ c, ¬o.isAccept c) →
      (∀ c, later.isOpen c = false) ∧ later.connectionCount = 0) ∧
    (∃ new, later.effects = n.shutdown.effects ++ new ∧ ∀ e ∈ new, e.isDial = false) ∧
    (∀ k call attempts socket session, n.calls.find? k = some call →
      call.stage = .dialling attempts socket → n.sessions.find? call.session = some session →
        .later (.dialled k (.error (cancelledDial session.address.host))) ∈ n.shutdown.effects) ∧
    (∀ k host e, later.Connects k host e → FailsFor later (later.handle e) k host) ∧
    later.shutdown = later := by
  intro later
  obtain ⟨hNobody, hCancelled, hShutDown, hSaid⟩ := shutdown_spec h.fit hRunning
  have hLived : n.shutdown.Lived := h.meet (.move .shutdown) trivial
  obtain ⟨ts, hPath, hJoined⟩ := hLived.exists_path hCancelled hAdmits
  obtain ⟨story, hOrderly⟩ := hLived.exists_orderly
  have hSince : ∀ c, later.isOpen c = true → n.shutdown.InHandshake c ∨ ∃ o ∈ os, o.isAccept c := by
    intro c hOpen
    rcases hPath.opened_since (hOrderly.fits c) hOpen with hWasOpen | hHandshake | hMem
    · cases (hNobody c).symm.trans hWasOpen
    · exact .inl hHandshake
    · exact .inr (hJoined c hMem)
  refine ⟨hNobody, hLived.fit.connectionCount_eq_zero hNobody, hSince, fun hNone hNoAccept => ?_, ?_,
    fun k call attempts socket session hCall hStage hSession => ?_,
    fun k host e hConnects => ?_, ?_⟩
  · have hStill : ∀ c, later.isOpen c = false := by
      intro c
      rw [← Bool.not_eq_true]
      intro hOpen
      rcases hSince c hOpen with hHandshake | ⟨o, hMem, hAccept⟩
      · exact hNone c hHandshake
      · exact hNoAccept o hMem c hAccept
    exact ⟨hStill, (hPath.fit hLived.fit).connectionCount_eq_zero hStill⟩
  · obtain ⟨new, hNew, -, hDial⟩ := hPath.effects
    exact ⟨new, hNew, hDial hCancelled⟩
  · exact hSaid.subset (mem_cancelDials hCall hStage hSession)
  · exact hConnects.fails (hPath.lasts.cancelled hCancelled)
  · unfold shutdown
    rw [if_pos (hPath.lasts.shutDown hShutDown)]

/-! ## A guest who comes while the node is shut down -/

section Visit

open Handshake

set_option maxRecDepth 100000 in
theorem arriving_opens : arriving.shutDown = false ∧
    (arriving.shutdown.meetAll [.move proving]).isOpen 0 = true ∧
    (arriving.shutdown.meetAll [.move proving]).connectionCount = 1 := by
  decide +kernel

theorem arriving_admits : arriving.shutdown.AdmitsAll [.move proving] := ⟨trivial, trivial⟩

/-- The connection that is open in the end was in its handshake when the node was shut down. -/
theorem arriving_inHandshake : arriving.Lived ∧ arriving.shutDown = false ∧
    arriving.shutdown.AdmitsAll [.move proving] ∧ arriving.shutdown.connectionCount = 0 ∧
    arriving.shutdown.InHandshake 0 := by
  obtain ⟨hRunning, hOpen, -⟩ := arriving_opens
  obtain ⟨-, hNobody, hSince, -⟩ := shutdown_final arriving_lived hRunning arriving_admits
  refine ⟨arriving_lived, hRunning, arriving_admits, hNobody, ?_⟩
  rcases hSince 0 hOpen with hHandshake | ⟨o, hMem, hAccept⟩
  · exact hHandshake
  · obtain rfl := List.mem_singleton.mp hMem
    cases hAccept

/-- So it is not true that no connection is opened once a node is shut down, nor that it counts none
from then on. -/
theorem arriving_outlives_shutdown :
    (¬∀ n : Node, n.Lived → n.shutDown = false → ∀ os, n.shutdown.AdmitsAll os →
      ∀ c, (n.shutdown.meetAll os).isOpen c = false) ∧
    ¬∀ n : Node, n.Lived → n.shutDown = false → ∀ os, n.shutdown.AdmitsAll os →
      (n.shutdown.meetAll os).connectionCount = 0 := by
  obtain ⟨hRunning, hOpen, hCount⟩ := arriving_opens
  refine ⟨fun hNever => ?_, fun hNone => ?_⟩
  · cases (hNever arriving arriving_lived hRunning _ arriving_admits 0).symm.trans hOpen
  · cases (hNone arriving arriving_lived hRunning _ arriving_admits).symm.trans hCount

end Visit

end PeerServices.Node
