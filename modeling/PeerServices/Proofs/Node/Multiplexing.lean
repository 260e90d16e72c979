import PeerServices.Node.Step
import PeerServices.Proofs.Collection.Growing
import PeerServices.Proofs.Node.Deactivation
import PeerServices.Proofs.Node.Hooks
import PeerServices.Proofs.Session.Outstanding

/-!
# Requests that share a connection

Any number of requests waits for responses on one connection, and responses come in any order. A
request enters its listeners first and is written then; a response may come in between. An entry is
gone with the first response to its uid, with a withdrawal, when the request cannot be written, or
when the connection is closed, and stays until then.

* `Node.expect`, `Node.write`: the two steps of a request. `Node.sendRequest_eq`: a request that is
  sent is both of them.
* `Traffic`: what happens on a connection. `Traffic.Consumes`: what takes an entry away.
* `Node.waiting?_perform`, `Node.deliveries_perform`: what one event makes of the entries, and whom
  it gives a response.
* `Node.Invokes`: what a listener does with the response that it was given.
* `Node.multiplexing`: all this over a whole run.
-/

namespace PeerServices

namespace Node

/-! ## Entries and responses -/

/-- The requests that wait for a response on a connection, unless it is closed. -/
def table? (n : Node) (c : ConnectionId) : Option (Outstanding Target) :=
  (n.connections.find? c).bind (·.outstanding)

/-- The listeners for responses with a uid. -/
def waiting? (n : Node) (c : ConnectionId) (uid : Int64) : Option (List (Listener Target)) :=
  (n.table? c).bind (·.find? uid)

def delivery? : Effect → Option (Listener Target × Message)
  | .later (.deliver listener m) => some (listener, m)
  | _ => none

/-- The listeners that were given a response, and which one, in order. -/
def deliveries (n : Node) : List (Listener Target × Message) := n.effects.filterMap delivery?

/-! ## Sending a request in two steps -/

/-- Enters the listeners for responses to a request. -/
def expect (n : Node) (c : ConnectionId) (uid : Int64) (listeners : List (Listener Target)) : Node :=
  n.modifyConnection c fun connection =>
    { connection with outstanding := connection.outstanding.map (·.insert uid listeners) }

/-- Takes the entry of a uid away. -/
def withdraw (n : Node) (c : ConnectionId) (uid : Int64) : Node :=
  n.modifyConnection c fun connection =>
    { connection with outstanding := connection.outstanding.map (·.erase uid) }

/-- Writes a request. If that fails, nobody waits for a response to it. -/
def write (n : Node) (c : ConnectionId) (m : Message) : Except WireError Unit × Node :=
  match n.connections.find? c with
  | none => (.error .notConnected, n)
  | some connection =>
    match connection.isOpen, (Parcel.message m).sent connection.reachable with
    | false, _ => (.error .notConnected, n.withdraw c m.uid)
    | true, .error e => (.error e, n.withdraw c m.uid)
    | true, .ok () => (.ok (), n.emit (.send c (.message m)))

/-- A connection was opened and its messages are taken, until it is closed. -/
def Transponds (n : Node) (c : ConnectionId) : Prop :=
  ∃ connection, n.connections.find? c = some connection ∧
    ((connection.stage = .opened ∧ connection.reading = true ∧
        connection.outstanding.isSome = true) ∨
      (connection.stage = .closed ∧ connection.reading = false ∧
        connection.outstanding.isSome = false))

section Entries

variable {n n' : Node} {c : ConnectionId} {uid uid' : Int64} {listeners : List (Listener Target)}

theorem table?_expect : (n.expect c uid listeners).table? c =
    (n.table? c).map (·.insert uid listeners) := by
  rw [table?, expect, find?_modifyConnection_self, Option.bind_map, table?, Option.map_bind]
  rfl

theorem table?_withdraw : (n.withdraw c uid).table? c = (n.table? c).map (·.erase uid) := by
  rw [table?, withdraw, find?_modifyConnection_self, Option.bind_map, table?, Option.map_bind]
  rfl

theorem waiting?_expect_self {t : Outstanding Target} (h : n.table? c = some t) :
    (n.expect c uid listeners).waiting? c uid = some listeners := by
  rw [waiting?, table?_expect, h]
  exact t.find?_insert_self uid listeners

theorem waiting?_expect_of_ne (h : uid' ≠ uid) :
    (n.expect c uid listeners).waiting? c uid' = n.waiting? c uid' := by
  rw [waiting?, table?_expect, waiting?]
  cases n.table? c with
  | none => rfl
  | some t => exact Outstanding.find?_insert_of_ne h t listeners

theorem waiting?_withdraw_self : (n.withdraw c uid).waiting? c uid = none := by
  rw [waiting?, table?_withdraw]
  cases n.table? c with
  | none => rfl
  | some t => exact t.find?_erase_self uid

theorem waiting?_withdraw_of_ne (h : uid' ≠ uid) :
    (n.withdraw c uid).waiting? c uid' = n.waiting? c uid' := by
  rw [waiting?, table?_withdraw, waiting?]
  cases n.table? c with
  | none => rfl
  | some t => exact Outstanding.find?_erase_of_ne h t

theorem waiting?_of_table?_none (h : n.table? c = none) (uid : Int64) :
    n.waiting? c uid = none := by
  rw [waiting?, h]
  rfl

/-- Taking away an entry that is not there changes nothing. -/
theorem withdraw_of_none (h : n.waiting? c uid = none) : n.withdraw c uid = n := by
  have hSame : ∀ connection, n.connections.find? c = some connection →
      { connection with outstanding := connection.outstanding.map (·.erase uid) } = connection := by
    intro connection hFind
    rw [waiting?, table?, hFind] at h
    obtain ⟨stage, peer, record, session, outstanding, reading, reachable, acceptance⟩ := connection
    cases outstanding with
    | none => rfl
    | some t =>
      have hErase : t.erase uid = t := Outstanding.erase_of_find?_none h
      simp only [Option.map_some, hErase]
  rw [withdraw, modifyConnection, SortedMap.modify_eq_self hSame]

/-- A request that is entered and cannot be written leaves nothing behind. -/
theorem withdraw_expect (h : n.waiting? c uid = none) :
    (n.expect c uid listeners).withdraw c uid = n := by
  have hSame : ∀ connection, n.connections.find? c = some connection →
      { connection with outstanding :=
          (connection.outstanding.map (·.insert uid listeners)).map (·.erase uid) } =
        connection := by
    intro connection hFind
    rw [waiting?, table?, hFind] at h
    obtain ⟨stage, peer, record, session, outstanding, reading, reachable, acceptance⟩ := connection
    cases outstanding with
    | none => rfl
    | some t =>
      have hErase : (t.insert uid listeners).erase uid = t := Outstanding.erase_insert h listeners
      simp only [Option.map_some, hErase]
  rw [withdraw, expect, modifyConnection, modifyConnection, SortedMap.modify_modify,
    SortedMap.modify_eq_self hSame]

/-- The one step of sending a request is both steps, if its uid is not in use. -/
theorem sendRequest_eq {m : Message} (h : n.Transponds c) (hOpen : n.isOpen c = true)
    (hFresh : n.waiting? c m.uid = none) :
    n.sendRequest c m listeners = (n.expect c m.uid listeners).write c m := by
  obtain ⟨connection, hFind, ⟨hStage, -, hSome⟩ | ⟨hStage, -, -⟩⟩ := h
  · obtain ⟨t, hTable⟩ := Option.isSome_iff_exists.mp hSome
    have hFind' : (n.expect c m.uid listeners).connections.find? c =
        some { connection with outstanding := some (t.insert m.uid listeners) } := by
      rw [expect, find?_modifyConnection_self, hFind, Option.map_some, hTable, Option.map_some]
    have hSame : n.expect c m.uid listeners = n.modifyConnection c fun connection =>
        { connection with outstanding := some (t.insert m.uid listeners) } := by
      rw [expect, modifyConnection, modifyConnection]
      congr 1
      apply SortedMap.modify_congr
      intro connection' hFind'
      obtain rfl := Option.some.inj (hFind.symm.trans hFind')
      rw [hTable, Option.map_some]
    rw [sendRequest, write, hFind, hFind']
    simp only [Connection.isOpen, hStage, hTable]
    cases (Parcel.message m).sent connection.reachable with
    | error e => rw [withdraw_expect hFresh]
    | ok done => rw [hSame]
  · rw [isOpen, hFind] at hOpen
    simp [Connection.isOpen, hStage] at hOpen

end Entries

/-! ## Steps that give nobody a response -/

/-- The connections are the same, and no listener was given a response. -/
structure Mute (n n' : Node) : Prop where
  connections : n'.connections = n.connections
  deliveries : n'.deliveries = n.deliveries

section Mute

variable {n n' n'' : Node}

theorem deliveries_emit (n : Node) (e : Effect) :
    (n.emit e).deliveries = n.deliveries ++ (delivery? e).toList := by
  rw [deliveries, emit, List.filterMap_append, deliveries]
  cases h : delivery? e <;> simp [h]

theorem Mute.refl (n : Node) : Mute n n := ⟨rfl, rfl⟩

theorem Mute.trans (h : Mute n n') (h' : Mute n' n'') : Mute n n'' :=
  ⟨h'.connections.trans h.connections, h'.deliveries.trans h.deliveries⟩

theorem mute_emit {e : Effect} (h : delivery? e = none) (n : Node) : Mute n (n.emit e) :=
  ⟨rfl, by rw [deliveries_emit, h, Option.toList_none, List.append_nil]⟩

theorem mute_strike (n : Node) (c : ConnectionId) : Mute n (n.strike c) := ⟨rfl, rfl⟩

theorem mute_modifySession (n : Node) (s : SessionId) (f : Session → Session) :
    Mute n (n.modifySession s f) := ⟨rfl, rfl⟩

theorem mute_finish (n : Node) (k : CallId) (result : Reply.Result) :
    Mute n (n.finish k result) := by
  unfold finish
  split
  · exact ⟨rfl, (mute_emit (e := .finished k result) rfl { n with calls := _ }).deliveries⟩
  · exact .refl n

theorem mute_abandon (n : Node) (listeners : List (Listener Target)) :
    Mute n (n.abandon listeners) := by
  unfold abandon
  generalize listeners.filterMap _ = ks
  induction ks generalizing n with
  | nil => exact .refl n
  | cons k ks ih => exact (mute_finish n k _).trans (ih _)

theorem mute_fire (n : Node) (s : SessionId) (hook : Session.Hook) : Mute n (n.fire s hook) := by
  cases hSession : n.sessions.find? s with
  | none =>
    rw [fire_none hSession]
    exact .refl n
  | some session =>
    obtain ⟨kept, hKept⟩ := fire_eq hSession hook
    rw [hKept]
    exact ⟨rfl, (mute_emit (e := .hook s hook) rfl n).deliveries⟩

/-- Closing a connection gives nobody a response. -/
theorem mute_terminate {c : ConnectionId} {connection : Connection}
    (h : n.connections.find? c = some connection) (hOpen : connection.isOpen = true)
    (reason : Option WireError) :
    Mute (n.modifyConnection c Connection.afterClosing) (n.terminate c reason) := by
  unfold terminate
  rw [h]
  simp only [hOpen, Bool.not_true, Bool.false_eq_true, if_false]
  have hAbandon := mute_abandon (n.modifyConnection c Connection.afterClosing) connection.listeners
  generalize hMiddle : (if connection.reading = true then _ else _ : Node) = middle
  have hHangUp : Mute (n.modifyConnection c Connection.afterClosing) middle := by
    subst hMiddle
    split
    · exact hAbandon.trans (mute_emit rfl _)
    · exact hAbandon
  have hStruck := hHangUp.trans (mute_strike middle c)
  split
  · exact hStruck
  · exact (hStruck.trans (mute_modifySession _ _ _)).trans (mute_fire _ _ _)

end Mute

end Node

/-! ## What happens on a connection -/

inductive Traffic
  /-- The listeners of a request are entered. -/
  | expect (m : Message) (listeners : List (Listener Target))
  | write (m : Message)
  /-- Nobody waits for responses with a uid any longer. -/
  | forget (uid : Int64)
  | response (frame : Received) (m : Message)
      (isResponse : Frame.decode Message frame = .ok m ∧ m.kind = .response)
  /-- The other end hangs up. -/
  | lose
  | close (reason : Option WireError)

namespace Traffic

def perform (n : Node) (c : ConnectionId) : Traffic → Node
  | .expect m listeners => n.expect c m.uid listeners
  | .write m => (n.write c m).2
  | .forget uid => (n.forget c uid).2
  | .response frame _ _ => n.receive c frame
  | .lose => n.handle (.lose c)
  | .close reason => n.terminate c reason

/-- An event takes the entry of a uid away. -/
def Consumes (n : Node) (c : ConnectionId) (uid : Int64) : Traffic → Prop
  | .response _ m _ => m.uid = uid
  | .forget uid' => uid' = uid
  | .write m => m.uid = uid ∧ (n.write c m).1 ≠ .ok ()
  | .close _ => True
  | .expect .. | .lose => False

/-- The uid of a request is not in use when its listeners are entered. -/
def IsFresh (n : Node) (c : ConnectionId) : Traffic → Prop
  | .expect m _ => n.waiting? c m.uid = none
  | _ => True

end Traffic

namespace Node

section Steps

variable {n : Node} {c : ConnectionId}

/-- The entry of a uid is taken out of the table that was found. -/
theorem withdraw_of_table? {t : Outstanding Target} (h : n.table? c = some t) (uid : Int64) :
    (n.modifyConnection c fun connection =>
      { connection with outstanding := some (t.erase uid) }) = n.withdraw c uid := by
  rw [withdraw, modifyConnection, modifyConnection]
  congr 1
  apply SortedMap.modify_congr
  intro connection hFind
  have hTable : connection.outstanding = some t := by
    rw [table?, hFind] at h
    exact h
  rw [hTable, Option.map_some]

theorem forget_eq (n : Node) (c : ConnectionId) (uid : Int64) :
    (n.forget c uid).2 =
      match n.waiting? c uid with
      | none => n
      | some listeners => (n.withdraw c uid).abandon listeners := by
  have hFind : (n.connections.find? c).bind (·.outstanding) = n.table? c := rfl
  unfold forget
  rw [hFind, waiting?]
  cases hTable : n.table? c with
  | none => rfl
  | some t =>
    rw [Option.bind_some, Option.bind_some]
    cases t.find? uid with
    | none => rfl
    | some listeners =>
      rw [Option.map_some]
      exact congrArg (abandon · listeners) (withdraw_of_table? hTable uid)

theorem takeResponse_eq (n : Node) (c : ConnectionId) (m : Message) :
    n.takeResponse c m =
      match n.waiting? c m.uid with
      | none => n
      | some listeners =>
        match Outstanding.chosen? m listeners with
        | some listener => (n.withdraw c m.uid).emit (.later (.deliver listener m))
        | none => (n.withdraw c m.uid).abandon listeners := by
  rw [waiting?]
  cases hTable : n.table? c with
  | none =>
    rw [table?] at hTable
    rw [takeResponse, hTable]
    rfl
  | some t =>
    have hWithdraw := withdraw_of_table? hTable m.uid
    rw [table?] at hTable
    rw [takeResponse, hTable, Option.bind_some, Option.bind_some]
    cases t.find? m.uid with
    | none => rfl
    | some listeners =>
      simp only [Option.map_some]
      cases Outstanding.chosen? m listeners with
      | none => exact congrArg (·.abandon listeners) hWithdraw
      | some listener => exact congrArg (·.emit (.later (.deliver listener m))) hWithdraw

/-- A response is taken as long as the connection is open. -/
theorem receive_response (h : n.Transponds c) {frame : Received} {m : Message}
    (hFrame : Frame.decode Message frame = .ok m ∧ m.kind = .response) :
    n.receive c frame = n.takeResponse c m := by
  obtain ⟨hDecode, hKind⟩ := hFrame
  have hResponse : m.isRequest = false := by simp [Message.isRequest, hKind]
  obtain ⟨connection, hFind, ⟨hStage, hReading, -⟩ | ⟨hStage, hReading, hTable⟩⟩ := h
  · rw [receive, hFind]
    simp only [hStage, hReading, if_true, takeMessage, hDecode, hResponse, Bool.false_eq_true,
      if_false]
  · have hNone : n.waiting? c m.uid = none := by
      apply waiting?_of_table?_none
      rw [table?, hFind, Option.bind_some]
      simpa using hTable
    rw [receive, hFind, takeResponse_eq, hNone]
    simp only [hStage, hReading, Bool.false_eq_true, if_false]

/-! ## One event -/

theorem Transponds.modify (h : n.Transponds c) {f : Connection → Connection}
    (hStage : ∀ connection, (f connection).stage = connection.stage)
    (hReading : ∀ connection, (f connection).reading = connection.reading)
    (hTable : ∀ connection, ((f connection).outstanding).isSome = connection.outstanding.isSome) :
    (n.modifyConnection c f).Transponds c := by
  obtain ⟨connection, hFind, hState⟩ := h
  refine ⟨f connection, by rw [find?_modifyConnection_self, hFind, Option.map_some], ?_⟩
  rw [hStage, hReading, hTable]
  exact hState

theorem Transponds.of_mute {n' : Node} (h : n.Transponds c) (hMute : Mute n n') :
    n'.Transponds c := by
  rw [Transponds, hMute.connections]
  exact h

theorem transponds_withdraw (h : n.Transponds c) (uid : Int64) : (n.withdraw c uid).Transponds c :=
  h.modify (fun _ => rfl) (fun _ => rfl) fun _ => Option.isSome_map

theorem terminate_of_closed {connection : Connection}
    (hFind : n.connections.find? c = some connection) (hClosed : ¬connection.isOpen = true)
    (reason : Option WireError) :
    n.terminate c reason = n := by
  simp only [terminate, hFind, hClosed, Bool.not_false, if_true]

theorem Transponds.perform (h : n.Transponds c) (e : Traffic) : (e.perform n c).Transponds c := by
  cases e with
  | expect m listeners => exact h.modify (fun _ => rfl) (fun _ => rfl) fun _ => Option.isSome_map
  | write m =>
    simp only [Traffic.perform, write]
    split
    · exact h
    · split
      · exact transponds_withdraw h m.uid
      · exact transponds_withdraw h m.uid
      · exact h.of_mute (mute_emit rfl n)
  | forget uid =>
    rw [Traffic.perform, forget_eq]
    split
    · exact h
    · exact (transponds_withdraw h uid).of_mute (mute_abandon _ _)
  | response frame m hFrame =>
    rw [Traffic.perform, receive_response h hFrame, takeResponse_eq]
    split
    · exact h
    · split
      · exact transponds_withdraw h m.uid
      · exact (transponds_withdraw h m.uid).of_mute (mute_abandon _ _)
  | lose => exact h.modify (fun _ => rfl) (fun _ => rfl) fun _ => rfl
  | close reason =>
    obtain ⟨connection, hFind, hState⟩ := h
    by_cases hOpen : connection.isOpen = true
    · apply Transponds.of_mute _ (mute_terminate hFind hOpen reason)
      refine ⟨connection.afterClosing, ?_, .inr ⟨rfl, rfl, rfl⟩⟩
      rw [find?_modifyConnection_self, hFind, Option.map_some]
    · rw [Traffic.perform, terminate_of_closed hFind hOpen]
      exact ⟨connection, hFind, hState⟩

theorem isOpen_iff_table? (h : n.Transponds c) :
    n.isOpen c = true ↔ ∃ t, n.table? c = some t := by
  obtain ⟨connection, hFind, ⟨hStage, -, hTable⟩ | ⟨hStage, -, hTable⟩⟩ := h <;>
    simp [isOpen, table?, hFind, Connection.isOpen, hStage, ← Option.isSome_iff_exists, hTable]

theorem waiting?_congr {n' : Node} (h : n'.connections = n.connections) (uid : Int64) :
    n'.waiting? c uid = n.waiting? c uid := by
  rw [waiting?, waiting?, table?, table?, h]

theorem waiting?_withdraw_iff {uid uid' : Int64} {listeners : List (Listener Target)} :
    (n.withdraw c uid).waiting? c uid' = some listeners ↔
      n.waiting? c uid' = some listeners ∧ uid ≠ uid' := by
  by_cases hUid : uid = uid'
  · subst hUid
    simp [waiting?_withdraw_self]
  · simp [waiting?_withdraw_of_ne (Ne.symm hUid), hUid]

/-- A request is written, or its entry is taken away. -/
theorem write_spec (h : n.Transponds c) (m : Message) :
    ((n.write c m).1 = .ok () ∧ Mute n (n.write c m).2) ∨
      ((n.write c m).1 ≠ .ok () ∧ (n.write c m).2 = n.withdraw c m.uid) := by
  obtain ⟨connection, hFind, -⟩ := h
  simp only [write, hFind]
  split
  · exact .inr ⟨nofun, rfl⟩
  · exact .inr ⟨nofun, rfl⟩
  · exact .inl ⟨rfl, mute_emit rfl n⟩

theorem forget_mute (n : Node) (c : ConnectionId) (uid : Int64) :
    Mute (n.withdraw c uid) (n.forget c uid).2 := by
  rw [forget_eq]
  split
  next hNone =>
    rw [withdraw_of_none hNone]
    exact .refl n
  · exact mute_abandon _ _

theorem takeResponse_connections (n : Node) (c : ConnectionId) (m : Message) :
    (n.takeResponse c m).connections = (n.withdraw c m.uid).connections := by
  rw [takeResponse_eq]
  split
  next hNone => rw [withdraw_of_none hNone]
  · split
    · rfl
    · exact (mute_abandon _ _).connections

theorem waiting?_terminate (h : n.Transponds c) (reason : Option WireError) (uid : Int64) :
    (n.terminate c reason).waiting? c uid = none := by
  apply waiting?_of_table?_none
  obtain ⟨connection, hFind, hState⟩ := h
  by_cases hOpen : connection.isOpen = true
  · rw [table?, (mute_terminate hFind hOpen reason).connections, find?_modifyConnection_self, hFind]
    rfl
  · rw [terminate_of_closed hFind hOpen, table?, hFind, Option.bind_some]
    rcases hState with ⟨hStage, -, -⟩ | ⟨-, -, hTable⟩
    · exact absurd (by rw [Connection.isOpen, hStage]) hOpen
    · simpa using hTable

/-- An entry is there after an event if the event enters it, or if it was there and the event does
not consume it. -/
theorem waiting?_perform (h : n.Transponds c) {e : Traffic} (hFresh : e.IsFresh n c) {uid : Int64}
    {listeners : List (Listener Target)} :
    (e.perform n c).waiting? c uid = some listeners ↔
      (∃ m, e = .expect m listeners ∧ m.uid = uid ∧ n.isOpen c = true) ∨
        (n.waiting? c uid = some listeners ∧ ¬e.Consumes n c uid) := by
  cases e with
  | expect m entered =>
    -- The uid is not in use, so this entry is the only one that it can have.
    have hFresh : n.waiting? c m.uid = none := hFresh
    have hKept : ¬Traffic.Consumes n c uid (.expect m entered) := id
    simp only [Traffic.perform, hKept, not_false_eq_true, and_true, isOpen_iff_table? h]
    by_cases hUid : m.uid = uid
    · subst hUid
      rw [hFresh]
      cases hTable : n.table? c with
      | none =>
        have hNone : (n.expect c m.uid entered).table? c = none := by
          rw [table?_expect, hTable, Option.map_none]
        simp [waiting?_of_table?_none hNone]
      | some t =>
        simp only [waiting?_expect_self hTable, Option.some.injEq, Traffic.expect.injEq]
        exact ⟨fun h => .inl ⟨m, ⟨rfl, h⟩, rfl, t, rfl⟩, by simp⟩
    · simp [waiting?_expect_of_ne (Ne.symm hUid), hUid]
  | write m =>
    simp only [Traffic.perform, Traffic.Consumes, reduceCtorEq, false_and, exists_false, false_or]
    rcases write_spec h m with ⟨hOk, hMute⟩ | ⟨hError, hWithdraw⟩
    · simp [waiting?_congr hMute.connections, hOk]
    · rw [hWithdraw, waiting?_withdraw_iff]
      simp [hError]
  | forget uid' =>
    rw [Traffic.perform, waiting?_congr (forget_mute n c uid').connections, waiting?_withdraw_iff]
    simp [Traffic.Consumes]
  | response frame m hFrame =>
    rw [Traffic.perform, receive_response h hFrame,
      waiting?_congr (takeResponse_connections n c m), waiting?_withdraw_iff]
    simp [Traffic.Consumes]
  | lose =>
    have hTable : (n.handle (.lose c)).table? c = n.table? c := by
      change (n.modifyConnection c _).table? c = n.table? c
      rw [table?, find?_modifyConnection_self, Option.bind_map]
      rfl
    simp [Traffic.perform, Traffic.Consumes, waiting?, hTable]
  | close reason => simp [Traffic.perform, Traffic.Consumes, waiting?_terminate h]

theorem deliveries_withdraw (uid : Int64) : (n.withdraw c uid).deliveries = n.deliveries := rfl

/-- A response goes to the listener that takes it, if there is one. -/
theorem deliveries_takeResponse (n : Node) (c : ConnectionId) (m : Message) :
    (n.takeResponse c m).deliveries =
      n.deliveries ++ (((n.waiting? c m.uid).bind (Outstanding.chosen? m)).map (·, m)).toList := by
  rw [takeResponse_eq]
  cases n.waiting? c m.uid with
  | none => simp
  | some listeners =>
    simp only [Option.bind_some]
    cases Outstanding.chosen? m listeners with
    | none => simp [(mute_abandon _ listeners).deliveries, deliveries_withdraw]
    | some listener => simp [deliveries_emit, deliveries_withdraw, delivery?]

/-- Nothing but a response gives a listener a response. -/
theorem deliveries_perform (h : n.Transponds c) {e : Traffic}
    (hNot : ∀ frame m hFrame, e ≠ .response frame m hFrame) :
    (e.perform n c).deliveries = n.deliveries := by
  cases e with
  | expect m listeners => rfl
  | write m =>
    rcases write_spec h m with ⟨-, hMute⟩ | ⟨-, hWithdraw⟩
    · exact hMute.deliveries
    · rw [Traffic.perform, hWithdraw, deliveries_withdraw]
  | forget uid => exact (forget_mute n c uid).deliveries
  | response frame m hFrame => exact absurd rfl (hNot frame m hFrame)
  | lose => rfl
  | close reason =>
    obtain ⟨connection, hFind, -⟩ := h
    by_cases hOpen : connection.isOpen = true
    · exact (mute_terminate hFind hOpen reason).deliveries
    · rw [Traffic.perform, terminate_of_closed hFind hOpen]

end Steps

/-! ## Listeners that are given a response -/

/-- A listener takes a response. What it is for gets this response and nothing else: the owner is
told of it, a call ends with what it reads in it, or an exchange does so after the directory changed.
No entry is touched, no other listener is given a response, and no other call is. -/
structure Invokes (n : Node) (l : Listener Target) (m : Message) (n' : Node) : Prop where
  connections : n'.connections = n.connections
  deliveries : n'.deliveries = n.deliveries
  report : l.target = .report → n'.effects = n.effects ++ [.answered l.code m]
  reply : ∀ k form, l.target = .reply k form → n'.effects = n.effects ++
    if n.calls.contains k then [.finished k (Reply.ofResponse m form)] else []
  exchange : ∀ k peer, l.target = .exchange k peer →
    ∃ (events : List DirectoryEvent) (result : Reply.Result), n'.effects =
      n.effects ++ events.map .changed ++ if n.calls.contains k then [.finished k result] else []
  others : ∀ k, l.target.call? ≠ some k → n'.calls.find? k = n.calls.find? k

section Listeners

variable {n : Node} {k : CallId} {result : Reply.Result}

theorem effects_finish (n : Node) (k : CallId) (result : Reply.Result) :
    (n.finish k result).effects =
      n.effects ++ if n.calls.contains k then [.finished k result] else [] := by
  unfold finish
  split
  · rfl
  · exact (List.append_nil _).symm

theorem find?_calls_finish_of_ne {j : CallId} (hj : j ≠ k) :
    (n.finish k result).calls.find? j = n.calls.find? j := by
  unfold finish
  split
  · exact SortedMap.find?_erase_of_ne hj n.calls
  · rfl

theorem mute_commit (n : Node) (change : Directory.Change) : Mute n (n.commit change) := by
  rw [commit_eq]
  refine ⟨rfl, ?_⟩
  have hNone : (change.2.map Effect.changed).filterMap delivery? = [] := by
    rw [List.filterMap_map]
    exact List.filterMap_eq_nil_iff.mpr fun _ _ => rfl
  simp only [deliveries, List.filterMap_append, hNone, List.append_nil]

/-- The response to an exchange ends it. Before that the directory changes if it can be taken. -/
theorem exists_takeExchange (n : Node) (k : CallId) (peer : PeerAddress) (m : Message) :
    ∃ (n' : Node) (events : List DirectoryEvent) (result : Reply.Result),
      n.takeExchange k peer m = n'.finish k result ∧ Mute n n' ∧ n'.calls = n.calls ∧
        n'.effects = n.effects ++ events.map .changed := by
  unfold takeExchange
  split
  · exact ⟨n, [], _, rfl, .refl n, rfl, (List.append_nil _).symm⟩
  · split
    · exact ⟨n, [], _, rfl, .refl n, rfl, (List.append_nil _).symm⟩
    · exact ⟨n.commit _, _, _, rfl, mute_commit n _, by rw [commit_eq], by rw [commit_eq]⟩

theorem invokes_deliver (n : Node) (l : Listener Target) (m : Message) :
    n.Invokes l m (n.deliver l m) := by
  obtain ⟨code, target⟩ := l
  cases target with
  | report =>
    have hMute : Mute n (n.emit (.answered code m)) := mute_emit rfl n
    exact ⟨hMute.connections, hMute.deliveries, fun _ => rfl, nofun, nofun, fun _ _ => rfl⟩
  | reply k form =>
    have hMute := mute_finish n k (Reply.ofResponse m form)
    refine ⟨hMute.connections, hMute.deliveries, nofun, fun j form' hTarget => ?_, nofun,
      fun j hOther => find?_calls_finish_of_ne fun hj => hOther (congrArg some hj.symm)⟩
    cases hTarget
    exact effects_finish n k _
  | exchange k peer =>
    obtain ⟨n', events, result, hEq, hMute, hCalls, hEffects⟩ := exists_takeExchange n k peer m
    have hDeliver : n.deliver ⟨code, .exchange k peer⟩ m = n'.finish k result := hEq
    have hFinish := hMute.trans (mute_finish n' k result)
    rw [hDeliver]
    refine ⟨hFinish.connections, hFinish.deliveries, nofun, nofun, fun j peer' hTarget => ?_,
      fun j hOther => ?_⟩
    · cases hTarget
      exact ⟨events, result, by rw [effects_finish, hEffects, hCalls]⟩
    · rw [find?_calls_finish_of_ne fun hj => hOther (congrArg some hj.symm), hCalls]

end Listeners

/-! ## Whole runs -/

/-- A node after a number of events on a connection. -/
def serve (n : Node) (c : ConnectionId) (es : List Traffic) : Node :=
  es.foldl (fun n e => e.perform n c) n

/-- No request takes a uid that is in use. -/
def Distinct (n : Node) (c : ConnectionId) (es : List Traffic) : Prop :=
  ∀ earlier e later, es = earlier ++ e :: later → e.IsFresh (n.serve c earlier) c

/-- The listeners were entered under a uid while the connection was open, and nothing that happened
since takes them away. -/
def Awaited (n : Node) (c : ConnectionId) (es : List Traffic) (uid : Int64)
    (listeners : List (Listener Target)) : Prop :=
  ∃ earlier m since, es = earlier ++ .expect m listeners :: since ∧ m.uid = uid ∧
    (n.serve c earlier).isOpen c = true ∧
    ∀ before e after, since = before ++ e :: after →
      ¬e.Consumes (n.serve c (earlier ++ .expect m listeners :: before)) c uid

section Runs

variable {n : Node} {c : ConnectionId} {es : List Traffic} {e : Traffic}

theorem serve_concat (n : Node) (c : ConnectionId) (es : List Traffic) (e : Traffic) :
    n.serve c (es ++ [e]) = e.perform (n.serve c es) c := List.foldl_append

theorem serve_transponds (h : n.Transponds c) (es : List Traffic) :
    (n.serve c es).Transponds c := by
  induction es using concat_induction with
  | nil => exact h
  | concat es e ih =>
    rw [serve_concat]
    exact ih.perform e

theorem Distinct.init (h : n.Distinct c (es ++ [e])) : n.Distinct c es :=
  fun earlier e' later hSplit => h earlier e' (later ++ [e]) (by rw [hSplit]; simp)

theorem Distinct.last (h : n.Distinct c (es ++ [e])) : e.IsFresh (n.serve c es) c :=
  h es e [] rfl

theorem Distinct.concat (h : n.Distinct c es) (hFresh : e.IsFresh (n.serve c es) c) :
    n.Distinct c (es ++ [e]) := by
  intro earlier e' later hSplit
  rcases concat_eq_append_cons_iff.mp hSplit with ⟨-, rfl, rfl⟩ | ⟨later', -, hSplit'⟩
  · exact hFresh
  · exact h earlier e' later' hSplit'

theorem awaited_concat {uid : Int64} {listeners : List (Listener Target)} :
    n.Awaited c (es ++ [e]) uid listeners ↔
      (∃ m, e = .expect m listeners ∧ m.uid = uid ∧ (n.serve c es).isOpen c = true) ∨
        (n.Awaited c es uid listeners ∧ ¬e.Consumes (n.serve c es) c uid) := by
  constructor
  · rintro ⟨earlier, m, since, hSplit, hUid, hOpen, hSince⟩
    rcases concat_eq_append_cons_iff.mp hSplit with ⟨rfl, rfl, rfl⟩ | ⟨since', rfl, rfl⟩
    · exact .inl ⟨m, rfl, hUid, hOpen⟩
    · refine .inr ⟨⟨earlier, m, since', rfl, hUid, hOpen, fun before e' after hSplit' => ?_⟩, ?_⟩
      · exact hSince before e' (after ++ [e]) (by rw [hSplit']; simp)
      · exact hSince since' e [] rfl
  · rintro (⟨m, rfl, hUid, hOpen⟩ | ⟨⟨earlier, m, since, rfl, hUid, hOpen, hSince⟩, hLast⟩)
    · exact ⟨es, m, [], rfl, hUid, hOpen, fun _ _ _ hSplit => by simp at hSplit⟩
    · refine ⟨earlier, m, since ++ [e], by simp, hUid, hOpen, fun before e' after hSplit => ?_⟩
      rcases concat_eq_append_cons_iff.mp hSplit with ⟨rfl, rfl, rfl⟩ | ⟨after', rfl, rfl⟩
      · exact hLast
      · exact hSince before e' after' rfl

/-- The entries are those that were entered and not consumed since. -/
theorem waiting?_serve (hTransponds : n.Transponds c) (hEmpty : n.table? c = some .empty)
    (hDistinct : n.Distinct c es) {uid : Int64} {listeners : List (Listener Target)} :
    (n.serve c es).waiting? c uid = some listeners ↔ n.Awaited c es uid listeners := by
  induction es using concat_induction with
  | nil =>
    have hNone : (n.serve c []).waiting? c uid = none := by
      change n.waiting? c uid = none
      rw [waiting?, hEmpty]
      rfl
    rw [hNone]
    exact iff_of_false nofun fun ⟨earlier, m, since, hSplit, _⟩ => by simp at hSplit
  | concat es e ih =>
    rw [serve_concat, waiting?_perform (serve_transponds hTransponds es) hDistinct.last,
      ih hDistinct.init, awaited_concat]

/-- On a connection that was opened, requests with different uids, withdrawals, responses in any
order and the end of the connection leave exactly the entries that were entered and not consumed
since. A response to an entry goes to the one listener that takes it, which does with it what it is
for and nothing else; a response to no entry changes nothing, and nothing else gives a listener a
response. -/
theorem multiplexing (hTransponds : n.Transponds c) (hEmpty : n.table? c = some .empty)
    (hDistinct : n.Distinct c es) :
    (∀ uid listeners, (n.serve c es).waiting? c uid = some listeners ↔
      n.Awaited c es uid listeners) ∧
      (∀ frame m hFrame, (n.serve c es).waiting? c m.uid = none →
        n.serve c (es ++ [.response frame m hFrame]) = n.serve c es) ∧
      (∀ frame m hFrame listeners, (n.serve c es).waiting? c m.uid = some listeners →
        (∀ listener, Outstanding.Takes m listeners listener →
          (n.serve c (es ++ [.response frame m hFrame])).deliveries =
            (n.serve c es).deliveries ++ [(listener, m)]) ∧
          ((∀ listener, ¬Outstanding.Takes m listeners listener) →
            (n.serve c (es ++ [.response frame m hFrame])).deliveries =
              (n.serve c es).deliveries)) ∧
      (∀ e, (∀ frame m hFrame, e ≠ .response frame m hFrame) →
        (n.serve c (es ++ [e])).deliveries = (n.serve c es).deliveries) ∧
      (∀ listener m, (n.serve c es).Invokes listener m ((n.serve c es).deliver listener m)) ∧
      ∀ m listeners, (n.serve c es).isOpen c = true → (n.serve c es).waiting? c m.uid = none →
        ((n.serve c es).sendRequest c m listeners).2 =
          n.serve c (es ++ [.expect m listeners, .write m]) := by
  have hServed := serve_transponds hTransponds es
  refine ⟨fun uid listeners => waiting?_serve hTransponds hEmpty hDistinct,
    fun frame m hFrame hNone => ?_, fun frame m hFrame listeners hWaiting => ?_,
    fun e hNot => ?_, invokes_deliver _, fun m listeners hOpen hFresh => ?_⟩
  · rw [serve_concat, Traffic.perform, receive_response hServed hFrame, takeResponse_eq, hNone]
  · have hDeliveries := deliveries_takeResponse (n.serve c es) c m
    rw [hWaiting, Option.bind_some] at hDeliveries
    rw [serve_concat, Traffic.perform, receive_response hServed hFrame, hDeliveries]
    refine ⟨fun listener hTakes => ?_, fun hNobody => ?_⟩
    · rw [Outstanding.chosen?_eq_some_iff.mpr hTakes]
      rfl
    · have hNone : Outstanding.chosen? m listeners = none :=
        Option.eq_none_iff_forall_ne_some.mpr fun listener hChosen =>
          hNobody listener (Outstanding.chosen?_eq_some_iff.mp hChosen)
      rw [hNone]
      simp
  · rw [serve_concat]
    exact deliveries_perform hServed hNot
  · rw [sendRequest_eq hServed hOpen hFresh, List.append_cons, serve_concat, serve_concat]
    rfl

end Runs

/-- A node with one open connection. -/
def openNode : Node :=
  { (default : Node) with
    connections := SortedMap.empty.insert 0
      { Connection.create ⟨0, default, true⟩ .opened with outstanding := some .empty, reading := true } }

/-- A request to which a response comes later. -/
def slowRequest : Traffic := .expect (.request 7 1) [⟨1, .report⟩]

/-- A request whose response is told by its code. -/
def quickRequest : Traffic := .expect (.request 8 1) [⟨1, .report⟩, ⟨2, .report⟩]

/-- A response to the quick request. -/
def quickResponse : Message := { (Message.request 8 1).respond 2 with unread := [5] }

theorem decode_quickResponse :
    Frame.decode Message (.ok (Serial.encode { quickResponse with written := [5] })) =
      .ok quickResponse ∧ quickResponse.kind = .response :=
  ⟨rfl, rfl⟩

theorem openNode_distinct : openNode.Distinct 0 [slowRequest, quickRequest] :=
  have hNone : openNode.Distinct 0 [] := fun _ _ _ hSplit => by simp at hSplit
  (hNone.concat (e := slowRequest) rfl).concat (e := quickRequest) rfl

theorem openNode_multiplexes :
    openNode.Transponds 0 ∧ openNode.table? 0 = some .empty ∧
      openNode.Distinct 0 [slowRequest, quickRequest] ∧
      (openNode.serve 0 [slowRequest, quickRequest,
        .response _ quickResponse decode_quickResponse]).deliveries =
          [(⟨2, .report⟩, quickResponse)] ∧
      ((openNode.serve 0 [slowRequest, quickRequest]).deliver ⟨2, .report⟩ quickResponse).effects =
        (openNode.serve 0 [slowRequest, quickRequest]).effects ++ [.answered 2 quickResponse] := by
  have hTransponds : openNode.Transponds 0 := ⟨_, rfl, .inl ⟨rfl, rfl, rfl⟩⟩
  have hTakes : Outstanding.Takes quickResponse
      [⟨1, .report⟩, (⟨2, .report⟩ : Listener Target)] ⟨2, .report⟩ :=
    Outstanding.chosen?_eq_some_iff.mp rfl
  obtain ⟨-, -, hTaken, -, hInvokes, -⟩ := multiplexing hTransponds rfl openNode_distinct
  exact ⟨hTransponds, rfl, openNode_distinct,
    (hTaken _ quickResponse decode_quickResponse _ rfl).1 _ hTakes, (hInvokes _ _).report rfl⟩

end Node

end PeerServices
