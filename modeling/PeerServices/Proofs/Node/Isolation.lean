import PeerServices.Proofs.Handshake.Relay
import PeerServices.Proofs.Node.Bearing
import PeerServices.Proofs.Node.Multiplexing

/-!
# What peers can do to each other

Peers send what they like on the sessions for exchanges, in requests and in responses. Whatever it
is, it reaches the record of the peer at the other side of the session and no other one, and nobody
may use more or less after it.

* `Node.Brings`: who sent what a node takes.
* `Node.operation?_of_brings`: it concerns the record of who sent it.
* `Node.Brought`, `Node.Parts`: messages one after another, and two nodes that are told different
  things by one peer.
* `Node.exchanges_isolated`: what becomes of the records, and who may use what.
-/

namespace PeerServices.Node

open Directory (Operation)

/-! ## Runs -/

/-- A node after some moves. -/
inductive Course (n : Node) : List Move → Node → Prop
  | nil : Course n [] n
  | concat {moves : List Move} {n' : Node} (h : Course n moves n') (m : Move)
      (hPermits : n'.Permits m) : Course n (moves ++ [m]) (n'.make m)

/-- Some moves lead from one node to another. -/
def Leads (n n' : Node) : Prop := ∃ moves, n.Course moves n'

/-- A session for exchanges with this peer at the other side takes the messages of a connection. -/
def Hears (n : Node) (p? : Option PeerAddress) (c : ConnectionId) : Prop :=
  ∃ s, n.exchanging? c = some s ∧ n.peerOf? s = p?

/-- Who sent what a node takes on a session for exchanges. A listener takes a response some time
after that arrived; it was sent by who was at the other side of the session then. -/
def Brings (n : Node) (p? : Option PeerAddress) : Event → Prop
  | .receive c _ => n.Hears p? c
  | .deliver listener m => ∃ (earlier : Node) (c : ConnectionId) (frame : Received),
      earlier.Reachable ∧ earlier.Hears p? c ∧
        (earlier.receive c frame).deliveries = earlier.deliveries ++ [(listener, m)] ∧
          (earlier.receive c frame).Leads n
  | _ => False

/-- Messages come one after another by the sessions for exchanges, from these peers. What happens
otherwise does not concern the directory. -/
inductive Brought (n : Node) : List (Option PeerAddress) → Node → Prop
  | nil : Brought n [] n
  | message {who : List (Option PeerAddress)} {n' : Node} {p? : Option PeerAddress} {e : Event}
      (h : Brought n who n') (hBrings : n'.Brings p? e) : Brought n (who ++ [p?]) (n'.handle e)
  | other {who : List (Option PeerAddress)} {n' : Node} {m : Move} (h : Brought n who n')
      (hPermits : n'.Permits m) (hNone : n'.operation? m = none) : Brought n who (n'.make m)

/-- A node goes on in two ways that differ in what one peer sends on sessions for exchanges. -/
inductive Parts (n : Node) (p : PeerAddress) : Node → Node → Prop
  | start : Parts n p n n
  /-- The same message of somebody comes to both. -/
  | both {m m' : Node} {q? : Option PeerAddress} {e : Event} (h : Parts n p m m')
      (hBrings : m.Brings q? e) (hBrings' : m'.Brings q? e) : Parts n p (m.handle e) (m'.handle e)
  /-- The same is done to the directories of both, or nothing is. -/
  | same {m m' : Node} {a b : Move} (h : Parts n p m m') (hPermits : m.Permits a)
      (hPermits' : m'.Permits b) (hSame : m'.operation? b = m.operation? a) :
      Parts n p (m.make a) (m'.make b)
  /-- A message of the peer comes to the one or to the other. -/
  | left {m m' : Node} {e : Event} (h : Parts n p m m') (hBrings : m.Brings (some p) e) :
      Parts n p (m.handle e) m'
  | right {m m' : Node} {e : Event} (h : Parts n p m m') (hBrings : m'.Brings (some p) e) :
      Parts n p m (m'.handle e)
  /-- Something that does not concern its directory happens to the one or to the other. -/
  | leftOther {m m' : Node} {a : Move} (h : Parts n p m m') (hPermits : m.Permits a)
      (hNone : m.operation? a = none) : Parts n p (m.make a) m'
  | rightOther {m m' : Node} {b : Move} (h : Parts n p m m') (hPermits : m'.Permits b)
      (hNone : m'.operation? b = none) : Parts n p m (m'.make b)

variable {n n' m m' : Node} {p : PeerAddress} {p? : Option PeerAddress} {c : ConnectionId}
  {e : Event} {op : Operation}

theorem Course.reachable {moves : List Move} (h : n.Course moves n') (hReachable : n.Reachable)
    (hKeyed : n.directory.Keyed) : n'.Reachable ∧ n'.directory.Keyed := by
  induction h with
  | nil => exact ⟨hReachable, hKeyed⟩
  | concat _ m hPermits ih => exact ⟨ih.1.make m hPermits, ih.1.keyed_make hPermits ih.2⟩

/-! ## Who is told of -/

theorem asked?_eq_some {request : Message} (h : asked? p? request = some op) :
    ∃ p, p? = some p ∧ op.Exchanges p := by
  unfold asked? at h
  split at h
  · split at h
    next p data _ _ =>
      cases h
      exact ⟨p, rfl, rfl⟩
    · cases h
  · cases h

theorem heard?_eq_some {frame : Received} (h : heard? p? frame = some op) :
    ∃ p, p? = some p ∧ op.Exchanges p := by
  unfold heard? at h
  split at h
  · split at h
    · exact asked?_eq_some h
    · cases h
  · cases h

theorem answered?_eq_some {target : Target} {response : Message}
    (h : answered? target response = some op) :
    ∃ p, target.peer? = some p ∧ op.Exchanges p := by
  unfold answered? at h
  split at h
  next k p data _ _ _ =>
    cases h
    exact ⟨p, rfl, rfl⟩
  · cases h

section Deliveries

theorem mute_respond (n : Node) (c : ConnectionId) (response : Message) :
    Mute n (n.respond c response) := by
  unfold respond
  split
  · exact .refl n
  · split
    · exact mute_emit rfl n
    · exact .refl n

theorem deliveries_commit (n : Node) (change : Directory.Change) :
    (n.commit change).deliveries = n.deliveries := by
  have hTold : ∀ (events : List DirectoryEvent) (n : Node),
      (events.foldl (fun n e => n.emit (.changed e)) n).deliveries = n.deliveries := by
    intro events
    induction events with
    | nil => exact fun _ => rfl
    | cons e events ih =>
      intro n
      rw [List.foldl_cons, ih]
      exact (mute_emit (e := .changed e) rfl n).deliveries
  exact hTold change.2 { n with directory := change.1 }

theorem deliveries_answerExchange (n : Node) (p? : Option PeerAddress) (request : Message) :
    (n.answerExchange p? request).2.deliveries = n.deliveries := by
  unfold answerExchange
  split
  · rfl
  · rfl
  · split
    · rfl
    · exact deliveries_commit n _

/-- A request gives no listener a response. -/
theorem deliveries_dispatch {s : SessionId} (h : n.exchanging? c = some s) (request : Message) :
    (n.dispatch c request).deliveries = n.deliveries := by
  obtain ⟨connection, session, hFind, -, -, hAttached, hSession, hBehaviour⟩ :=
    exchanging?_eq_some.mp h
  unfold dispatch
  rw [hFind, Option.bind_some, hAttached]
  simp only [hSession, Option.map_some, hBehaviour]
  split
  · have hAnswered := deliveries_answerExchange n (n.peerOf? s) request
    generalize n.answerExchange (n.peerOf? s) request = answered at hAnswered ⊢
    obtain ⟨answer, n'⟩ := answered
    cases answer with
    | ok response => exact (mute_respond n' c _).deliveries.trans hAnswered
    | error text => exact (mute_respond n' c _).deliveries.trans hAnswered
  · exact (mute_respond n c _).deliveries

theorem deliveries_stopReading (n : Node) (c : ConnectionId) (reason : WireError) :
    (n.stopReading c reason).deliveries = n.deliveries := by
  unfold stopReading
  split
  next hOpen =>
    obtain ⟨connection, hFind, hIsOpen⟩ := isOpen_iff.mp hOpen
    exact (mute_terminate hFind hIsOpen _).deliveries
  · exact (mute_emit rfl _).deliveries

theorem receive_of_exchanging {s : SessionId} (h : n.exchanging? c = some s) (frame : Received) :
    n.receive c frame = n.takeMessage c frame := by
  obtain ⟨connection, session, hFind, hOpen, hReading, -, -, -⟩ := exchanging?_eq_some.mp h
  unfold Connection.isOpen at hOpen
  unfold receive
  rw [hFind]
  cases hStage : connection.stage with
  | opened => simp only [hStage, hReading, if_true]
  | _ =>
    rw [hStage] at hOpen
    cases hOpen

/-- Who takes a response waits on its connection. -/
theorem mem_listeners_of_chosen {l : Listener Target} {response : Message}
    (h : (n.waiting? c response.uid).bind (Outstanding.chosen? response) = some l) :
    ∃ connection, n.connections.find? c = some connection ∧ l ∈ connection.listeners := by
  obtain ⟨ls, hWaiting, hChosen⟩ := Option.bind_eq_some_iff.mp h
  obtain ⟨t, hTable, hEntry⟩ := Option.bind_eq_some_iff.mp hWaiting
  obtain ⟨connection, hFind, hTable⟩ := Option.bind_eq_some_iff.mp hTable
  obtain ⟨before, after, rfl, -⟩ := Outstanding.chosen?_eq_some_iff.mp hChosen
  have hMem : l ∈ before ++ l :: after := List.mem_append_right before List.mem_cons_self
  refine ⟨connection, hFind, ?_⟩
  rw [Connection.listeners_of_some hTable]
  exact Outstanding.mem_listeners_of_find? hEntry hMem

/-- A frame gives a response only to who waits on its connection. -/
theorem mem_listeners_of_delivered {s : SessionId} (h : n.exchanging? c = some s) {frame : Received}
    {l : Listener Target} {response : Message}
    (hGiven : (n.receive c frame).deliveries = n.deliveries ++ [(l, response)]) :
    ∃ connection, n.connections.find? c = some connection ∧ l ∈ connection.listeners := by
  have hSome : n.deliveries ≠ n.deliveries ++ [(l, response)] := by
    intro hSame
    cases List.self_eq_append_right.mp hSame
  rw [receive_of_exchanging h, takeMessage] at hGiven
  split at hGiven
  next received _ =>
    split at hGiven
    · exact absurd ((deliveries_dispatch h received).symm.trans hGiven) hSome
    · rw [deliveries_takeResponse] at hGiven
      have hLast := Option.toList_eq_singleton_iff.mp (List.append_cancel_left hGiven)
      obtain ⟨chosen, hChosen, hPair⟩ := Option.map_eq_some_iff.mp hLast
      cases hPair
      exact mem_listeners_of_chosen hChosen
  · exact absurd hGiven hSome
  · exact absurd ((deliveries_stopReading n c _).symm.trans hGiven) hSome

end Deliveries

theorem Brings.allows (h : n.Brings p? e) : n.Allows e := by
  cases e with
  | receive | deliver => trivial
  | _ => exact h.elim

/-- A listener that takes its response at once. -/
theorem brings_deliver (hReachable : n.Reachable) (hHears : n.Hears p? c) {frame : Received}
    {l : Listener Target} {response : Message}
    (hGiven : (n.handle (.receive c frame)).deliveries = n.deliveries ++ [(l, response)]) :
    (n.handle (.receive c frame)).Brings p? (.deliver l response) :=
  ⟨n, c, frame, hReachable, hHears, hGiven, [], .nil⟩

/-- A message is about the record of the peer that sent it, and an exchange with that peer. -/
theorem operation?_of_brings (hBrings : n.Brings p? e)
    (hOp : n.operation? (.event e) = some op) : ∃ p, p? = some p ∧ op.Exchanges p := by
  cases e with
  | receive c frame =>
    obtain ⟨s, hExchanging, rfl⟩ := hBrings
    change (n.exchanging? c).bind _ = some op at hOp
    rw [hExchanging, Option.bind_some] at hOp
    exact heard?_eq_some hOp
  | deliver listener response =>
    obtain ⟨earlier, c, frame, hReachable, ⟨s, hExchanging, rfl⟩, hGiven, -⟩ := hBrings
    -- Nobody waits on a connection for a peer that is not at its other end, so the response is from
    -- the peer whose record the listener was told of.
    obtain ⟨p, hWaits, hExchanges⟩ := answered?_eq_some hOp
    obtain ⟨connection, hFind, hMem⟩ := mem_listeners_of_delivered hExchanging hGiven
    obtain ⟨known, session, hKnown, -, -, hAttached, hSession, -⟩ :=
      exchanging?_eq_some.mp hExchanging
    obtain rfl := Option.some.inj (hFind.symm.trans hKnown)
    exact ⟨p, hReachable.addressed.peerOf? hFind hAttached hSession hMem hWaits, hExchanges⟩
  | _ => exact hBrings.elim

/-- The same message from the same peer comes to the same. -/
theorem operation?_congr (h : n.Brings p? e) (h' : n'.Brings p? e) :
    n'.operation? (.event e) = n.operation? (.event e) := by
  cases e with
  | receive c frame =>
    obtain ⟨s, hExchanging, hPeer⟩ := h
    obtain ⟨s', hExchanging', hPeer'⟩ := h'
    change (n'.exchanging? c).bind _ = (n.exchanging? c).bind _
    rw [hExchanging, hExchanging', Option.bind_some, Option.bind_some, hPeer, hPeer']
  | deliver => rfl
  | _ => exact h.elim

/-! ## Messages one after another -/

/-- What a message does to the directory. -/
theorem handle_of_brings (h : n.Reachable) (hBrings : n.Brings p? e) :
    (n.handle e).directory = n.directory ∨
      ∃ p op, p? = some p ∧ op.Exchanges p ∧
        (n.handle e).directory = n.directory.perform op := by
  have hDirectory := h.directory_make (m := .event e) hBrings.allows
  change (n.handle e).directory = _ at hDirectory
  cases hOp : n.operation? (.event e) with
  | none =>
    rw [hOp] at hDirectory
    exact .inl hDirectory
  | some op =>
    rw [hOp] at hDirectory
    obtain ⟨p, hPeer, hExchanges⟩ := operation?_of_brings hBrings hOp
    exact .inr ⟨p, op, hPeer, hExchanges, hDirectory⟩

theorem directory_make_of_none (h : n.Reachable) {m : Move} (hPermits : n.Permits m)
    (hNone : n.operation? m = none) : (n.make m).directory = n.directory := by
  rw [h.directory_make hPermits, hNone]
  rfl

/-- The records that messages of these peers have left as they were, but for what is told. -/
structure Untouched (n n' : Node) (who : List (Option PeerAddress)) : Prop where
  reachable : n'.Reachable
  keyed : n'.directory.Keyed
  alike : ∀ q, Option.Rel PeerRecord.Alike (n.directory.find? q) (n'.directory.find? q)
  others : ∀ q, some q ∉ who → n'.directory.find? q = n.directory.find? q

theorem Untouched.message {who : List (Option PeerAddress)} (h : Untouched n n' who)
    (hBrings : n'.Brings p? e) : Untouched n (n'.handle e) (who ++ [p?]) := by
  have hPermits : n'.Permits (.event e) := hBrings.allows
  constructor
  case reachable => exact h.reachable.make (.event e) hPermits
  case keyed => exact h.reachable.keyed_make hPermits h.keyed
  case alike =>
    intro q
    rcases handle_of_brings h.reachable hBrings with hSame | ⟨p, op, -, hExchanges, hDone⟩
    · rw [hSame]
      exact h.alike q
    · rw [hDone]
      exact Directory.rel_alike_trans (h.alike q) (Directory.alike_perform h.keyed hExchanges q)
  case others =>
    intro q hNot
    have hBefore := h.others q fun hMem => hNot (List.mem_append_left _ hMem)
    rcases handle_of_brings h.reachable hBrings with hSame | ⟨p, op, rfl, hExchanges, hDone⟩
    · rw [hSame, hBefore]
    · have hNe : q ≠ p := by
        rintro rfl
        exact hNot (List.mem_append_right who (List.mem_singleton_self _))
      rw [hDone, Directory.find?_perform_of_exchanges h.keyed hExchanges hNe, hBefore]

theorem Brought.untouched {who : List (Option PeerAddress)} (h : n.Brought who n')
    (hReachable : n.Reachable) (hKeyed : n.directory.Keyed) : Untouched n n' who := by
  induction h with
  | nil =>
    exact ⟨hReachable, hKeyed, fun q => Directory.rel_alike_refl _, fun _ _ => rfl⟩
  | message _ hBrings ih => exact ih.message hBrings
  | other _ hPermits hNone ih =>
    have hSame := directory_make_of_none ih.reachable hPermits hNone
    constructor
    case reachable => exact ih.reachable.make _ hPermits
    case keyed => exact ih.reachable.keyed_make hPermits ih.keyed
    case alike => exact fun q => hSame ▸ ih.alike q
    case others => exact fun q hNot => hSame ▸ ih.others q hNot

/-! ## Two nodes -/

/-- Two nodes in their course whose directories were told different things by this peer. -/
structure Parted (p : PeerAddress) (m m' : Node) : Prop where
  reachable : m.Reachable
  reachable' : m'.Reachable
  apart : Directory.Apart p m.directory m'.directory

theorem Parted.symm (h : Parted p m m') : Parted p m' m :=
  ⟨h.reachable', h.reachable, h.apart.symm⟩

theorem Parted.same (h : Parted p m m') {a b : Move} (hPermits : m.Permits a)
    (hPermits' : m'.Permits b) (hSame : m'.operation? b = m.operation? a) :
    Parted p (m.make a) (m'.make b) where
  reachable := h.reachable.make a hPermits
  reachable' := h.reachable'.make b hPermits'
  apart := by
    rw [h.reachable.directory_make hPermits, h.reachable'.directory_make hPermits', hSame]
    exact h.apart.perform? _

theorem Parted.left (h : Parted p m m') (hBrings : m.Brings (some p) e) :
    Parted p (m.handle e) m' where
  reachable := h.reachable.make (.event e) hBrings.allows
  reachable' := h.reachable'
  apart := by
    rcases handle_of_brings h.reachable hBrings with hSame | ⟨q, op, hPeer, hExchanges, hDone⟩
    · rw [hSame]
      exact h.apart
    · obtain rfl := Option.some.inj hPeer
      rw [hDone]
      exact h.apart.exchange hExchanges

theorem Parted.leftOther (h : Parted p m m') {a : Move} (hPermits : m.Permits a)
    (hNone : m.operation? a = none) : Parted p (m.make a) m' where
  reachable := h.reachable.make a hPermits
  reachable' := h.reachable'
  apart := by
    rw [directory_make_of_none h.reachable hPermits hNone]
    exact h.apart

theorem Parts.parted (h : n.Parts p m m') (hReachable : n.Reachable)
    (hKeyed : n.directory.Keyed) : Parted p m m' := by
  induction h with
  | start => exact ⟨hReachable, hReachable, .refl hKeyed p⟩
  | both _ hBrings hBrings' ih =>
    exact ih.same (a := .event _) (b := .event _) hBrings.allows hBrings'.allows
      (operation?_congr hBrings hBrings')
  | same _ hPermits hPermits' hSame ih => exact ih.same hPermits hPermits' hSame
  | left _ hBrings ih => exact ih.left hBrings
  | right _ hBrings ih => exact (ih.symm.left hBrings).symm
  | leftOther _ hPermits hNone ih => exact ih.leftOther hPermits hNone
  | rightOther _ hPermits hNone ih => exact (ih.symm.leftOther hPermits hNone).symm

/-! ## Whoever is unknown -/

theorem not_adds_of_exchanges (h : op.Exchanges p) (q : PeerAddress) : ¬op.Adds q := by
  cases op with
  | receiveExchange | exchanged => exact id
  | _ => exact h.elim

/-- Only the owner makes somebody known. -/
theorem exists_add_of_adds {m : Move} (hOp : n.operation? m = some op) (hAdds : op.Adds p) :
    ∃ r, m = .add r ∧ r.address = p := by
  have hNever : ∀ q, ¬op.Exchanges q :=
    fun q hExchanges => not_adds_of_exchanges hExchanges p hAdds
  cases m with
  | event e =>
    cases e with
    | receive c frame =>
      obtain ⟨s, -, hHeard⟩ := Option.bind_eq_some_iff.mp hOp
      obtain ⟨q, -, hExchanges⟩ := heard?_eq_some hHeard
      exact (hNever q hExchanges).elim
    | deliver listener response =>
      obtain ⟨q, -, hExchanges⟩ := answered?_eq_some hOp
      exact (hNever q hExchanges).elim
    | _ => cases hOp
  | add r =>
    cases hOp
    exact ⟨r, rfl, hAdds⟩
  | deactivate id =>
    obtain ⟨service, -, rfl⟩ := Option.map_eq_some_iff.mp hOp
    exact hAdds.elim
  | _ => cases hOp <;> exact hAdds.elim

/-- Nothing but the owner's word makes somebody known. -/
theorem Course.unknown {moves : List Move} (h : n.Course moves n') (hReachable : n.Reachable)
    (hKeyed : n.directory.Keyed) (hUnknown : n.directory.find? p = none)
    (hNot : ∀ r, .add r ∈ moves → r.address ≠ p) : n'.directory.find? p = none := by
  induction h with
  | nil => exact hUnknown
  | concat hCourse m hPermits ih =>
    obtain ⟨hReachable', hKeyed'⟩ := hCourse.reachable hReachable hKeyed
    have hBefore := ih fun r hMem => hNot r (List.mem_append_left _ hMem)
    rw [hReachable'.directory_make hPermits]
    cases hOp : operation? _ m with
    | none => exact hBefore
    | some op =>
      apply Directory.find?_perform_of_unknown hKeyed' hBefore
      intro hAdds
      obtain ⟨r, rfl, rfl⟩ := exists_add_of_adds hOp hAdds
      exact hNot r (List.mem_append_right _ (List.mem_singleton_self _)) rfl

/-! ## Separation -/

/-- Messages on sessions for exchanges, of whatever content, change no record but those of the peers
that sent them, and there only what the other side grants and what waits to be told. Two nodes that
are told different things by one peer let in the same peers and know the same about everybody else.
A peer that was deleted is not known again by anything that it sends. -/
theorem exchanges_isolated (h : n.Reachable) (hKeyed : n.directory.Keyed) :
    (∀ who n', n.Brought who n' →
      (∀ q, Option.Rel PeerRecord.Alike (n.directory.find? q) (n'.directory.find? q)) ∧
      (∀ q, some q ∉ who → n'.directory.find? q = n.directory.find? q) ∧
      ∀ q s, (n'.directory.authorize q s).isSome = (n.directory.authorize q s).isSome) ∧
    (∀ p m m', n.Parts p m m' →
      (∀ q s, (m'.directory.authorize q s).isSome = (m.directory.authorize q s).isSome) ∧
      ∀ q, q ≠ p → m'.directory.find? q = m.directory.find? q) ∧
    ∀ p moves n', (n.make (.delete p)).Course moves n' →
      (∀ r, .add r ∈ moves → r.address ≠ p) → n'.directory.find? p = none := by
  refine ⟨fun who n' hBrought => ?_, fun p m m' hParts => ?_, fun p moves n' hCourse hNot => ?_⟩
  · have hUntouched := hBrought.untouched h hKeyed
    exact ⟨hUntouched.alike, hUntouched.others,
      fun q s => Directory.authorize_of_alike (hUntouched.alike q) s⟩
  · have hApart := (hParts.parted h hKeyed).apart
    exact ⟨fun q s => Directory.authorize_of_alike (hApart.alike q) s, hApart.others⟩
  · have hDeleted : (n.make (.delete p)).directory.find? p = none := by
      rw [h.directory_make (m := .delete p) trivial]
      exact (Directory.find?_perform hKeyed (.delete p) p).trans (if_pos rfl)
    have hKeyed' : (n.make (.delete p)).directory.Keyed :=
      h.keyed_make (m := .delete p) trivial hKeyed
    exact hCourse.unknown (h.make (.delete p) trivial) hKeyed' hDeleted hNot

/-! ## A meeting -/

section Meeting

open Handshake

/-- The guest comes to exchange grants and proves itself, and the host asks what it grants. -/
def meeting : Node :=
  create Relay.sample.host
    |>.make (.activate (.exchange Relay.sample.host.address))
    |>.make (.add Relay.sample.record)
    |>.make (.event (.accept ⟨0, Relay.sample.issued, true⟩))
    |>.make (.event (.receive 0 (.ok (Parcel.service .exchange).body)))
    |>.make (.event (.receive 0 (.ok (Parcel.challenge Relay.sample.counter).body)))
    |>.make (.event (.receive 0 (.ok (Parcel.proof Relay.sample.proof).body)))
    |>.make (.event (.exchange Relay.sample.client.address))

/-- What the guest grants, in an answer to the request of the host's first call. -/
def offer : Bytes := boolBytes true ++ Serial.encode (GrantSet.ofLists 1 [Relay.sample.service] [])

def answer : Message := (Message.request (uidOf 0) exchangeCode).respond exchangeCode

/-- The answer comes. -/
def answering : Event := .receive 0 (.ok (Serial.encode (answer.write offer)))

/-- Who waits for it takes it. -/
def taking : Event :=
  .deliver ⟨exchangeCode, .exchange 0 Relay.sample.client.address⟩ { answer with unread := offer }

/-- After that. -/
def met : Node := (meeting.handle answering).handle taking

theorem meeting_reachable : meeting.Reachable ∧ meeting.directory.Keyed := by
  have hMake : ∀ {n : Node}, n.Reachable ∧ n.directory.Keyed → ∀ m, n.Permits m →
      (n.make m).Reachable ∧ (n.make m).directory.Keyed :=
    fun h m hPermits => ⟨h.1.make m hPermits, h.1.keyed_make hPermits h.2⟩
  have hCreated : (create Relay.sample.host).Reachable ∧
      (create Relay.sample.host).directory.Keyed :=
    ⟨.blank ⟨rfl, rfl, rfl, rfl, rfl, rfl⟩, fun _ _ h => nomatch h⟩
  have hOffers := hMake hCreated (.activate (.exchange Relay.sample.host.address)) trivial
  have hKnows := hMake hOffers (.add Relay.sample.record) trivial
  have hAccepts := hMake hKnows (.event (.accept ⟨0, Relay.sample.issued, true⟩)) rfl
  have hNamed := hMake hAccepts (.event (.receive 0 (.ok (Parcel.service .exchange).body))) trivial
  have hAsked := hMake hNamed
    (.event (.receive 0 (.ok (Parcel.challenge Relay.sample.counter).body))) trivial
  have hProved := hMake hAsked
    (.event (.receive 0 (.ok (Parcel.proof Relay.sample.proof).body))) trivial
  exact hMake hProved (.event (.exchange Relay.sample.client.address)) trivial

set_option maxRecDepth 100000 in
theorem meeting_hears : meeting.exchanging? 0 = some 0 ∧
    meeting.peerOf? 0 = some Relay.sample.client.address ∧
    (meeting.handle answering).deliveries = meeting.deliveries ++
      [(⟨exchangeCode, .exchange 0 Relay.sample.client.address⟩, { answer with unread := offer })] ∧
    met.directory.find? Relay.sample.client.address ≠
      meeting.directory.find? Relay.sample.client.address := by
  decide +kernel

/-- The host takes what the guest grants, and nothing else comes of it. Had it deleted the guest
before, it would have taken nothing. -/
theorem meeting_isolated : meeting.Reachable ∧ meeting.directory.Keyed ∧
    meeting.Brings (some Relay.sample.client.address) answering ∧
    (meeting.handle answering).Brings (some Relay.sample.client.address) taking ∧
    met.directory.find? Relay.sample.client.address ≠
      meeting.directory.find? Relay.sample.client.address ∧
    (∀ q, some q ∉ [some Relay.sample.client.address, some Relay.sample.client.address] →
      met.directory.find? q = meeting.directory.find? q) ∧
    (∀ q s, (meeting.directory.authorize q s).isSome = (met.directory.authorize q s).isSome) ∧
    ((meeting.make (.delete Relay.sample.client.address)).handle
      taking).directory.find? Relay.sample.client.address = none := by
  obtain ⟨hReachable, hKeyed⟩ := meeting_reachable
  obtain ⟨hExchanging, hPeer, hGiven, hTaken⟩ := meeting_hears
  have hAnswering : meeting.Brings (some Relay.sample.client.address) answering :=
    ⟨0, hExchanging, hPeer⟩
  have hTaking : (meeting.handle answering).Brings (some Relay.sample.client.address) taking :=
    brings_deliver hReachable ⟨0, hExchanging, hPeer⟩ hGiven
  have hPermits : ∀ n : Node, n.Permits (.event taking) := fun _ => trivial
  obtain ⟨hBrought, hParts, hDeleted⟩ := exchanges_isolated hReachable hKeyed
  refine ⟨hReachable, hKeyed, hAnswering, hTaking, hTaken, ?_, ?_, ?_⟩
  · exact (hBrought _ _ (.message (.message .nil hAnswering) hTaking)).2.1
  · exact (hParts _ _ _ (.left (.left .start hAnswering) hTaking)).1
  · exact hDeleted _ [.event taking] _ (.concat .nil _ (hPermits _)) fun _ hMem => nomatch hMem

end Meeting

end PeerServices.Node
