import PeerServices.Proofs.Node.Query
import PeerServices.Proofs.Node.Waning

/-!
# How a call is settled

What a node does for a call that waits for one response: it sends the request, takes the response
and hands it to the listener, ends the call when its time is over or its request is lost, and when
the connection is closed. None of that changes anything else, unless the call is an exchange and its
response can be taken.

* `Query.Phase.answer`, `lapse`, `cut`, `Query.take`: how far the call comes by each of these.
* `Query.outcome`: how it ends when its listener takes a response. `Node.adopt`: what a response
  changes.
* `Node.Hosts.send`, `hear`, `read`, `lapse_self`, `close`: the node does it, and stays as it is
  otherwise.
-/

namespace PeerServices

namespace Query.Phase

/-- The call ends, unless it ended before. -/
def conclude (result : Reply.Result) : Phase → Phase
  | .ended before heard => .ended before heard
  | .given m => .ended result (some m)
  | _ => .ended result none

/-- No response can come for the call any more. -/
def disown : Phase → Phase
  | .waiting => .unowed
  | φ => φ

/-- The connection is closed. -/
def cut : Phase → Phase
  | .waiting => .ended (.error Reply.dropped) none
  | φ => φ

/-- The call waits no longer for responses. -/
def lapse (cause : ServiceError) : Phase → Phase
  | .unsent => .unsent
  | φ => φ.conclude (.error cause)

/-- A response to the call has come. The listener takes an error, and a response with the code that it
waits for. -/
def answer (q : Query) (m : Message) : Phase → Phase
  | .waiting =>
    if m.status = .error ∨ m.code = q.code then .given m else .ended (.error Reply.dropped) none
  | φ => φ

theorem disown_ne_waiting (φ : Phase) : φ.disown ≠ .waiting := by
  cases φ <;> simp [disown]

theorem conclude_ne_waiting (φ : Phase) (result : Reply.Result) : φ.conclude result ≠ .waiting := by
  cases φ <;> simp [conclude]

end Query.Phase

namespace Query

/-- How a call ends whose listener takes a response. -/
def outcome (q : Query) (m : Message) : Reply.Result :=
  if m.status = .error then .error (.execution (m.errorText?.getD ""))
  else
    match q.aim with
    | .response => .ok (.message m)
    | .grants _ =>
      match m.readWith Node.exchangeAnswer with
      | .ok _ => .ok .done
      | .error e => .error (.ofCodec e)

/-- The listener takes the response that it was given. -/
def take (q : Query) : Phase → Phase
  | .given m => .ended (q.outcome m) (some m)
  | φ => φ

/-- What a call comes to when its request is sent. -/
def begun (q : Query) : Except WireError Unit → Phase
  | .error e => .ended (.error (.ofWire e)) none
  | .ok () =>
    if q.timeout.nanoseconds = 0 then .ended (.error (.timeout q.timeout)) none else .waiting

end Query

namespace Node

variable {n m : Node} {q : Query} {φ : Query.Phase} {result : Reply.Result}

/-! ## What a response holds -/

/-- What the response to an exchange holds, if it can be taken. -/
def offered? (m : Message) : Option (Option GrantSet) :=
  if m.status = .error then none
  else
    match m.readWith exchangeAnswer with
    | .ok (data, _) => some data
    | .error _ => none

/-- Takes over what a response to the call holds. -/
def adopt (n : Node) (q : Query) (message : Message) : Node :=
  match q.aim, offered? message with
  | .grants peer, some data => n.commit (n.directory.exchanged peer data)
  | _, _ => n

/-! ## What happens to the call -/

theorem Lone.finish (h : n.Lone q) (k : CallId) (result : Reply.Result) :
    (n.finish k result).Lone q := by
  obtain ⟨calls, new, hEq, hCalls, -⟩ := n.finish_eq k result
  rw [hEq]
  refine ⟨fun j call hj hFind => ?_, h.tables, h.next⟩
  rw [hCalls] at hFind
  split at hFind
  · cases hFind
  · exact h.calls j call hj hFind

/-- Who waits on a connection, if only the requests of one connection were changed. -/
theorem table?_modifyConnection {f : Connection → Connection} {c c' : ConnectionId}
    {t : Outstanding Target} (h : (n.modifyConnection c f).table? c' = some t) :
    (c' = c ∧ ∃ connection, n.connections.find? c = some connection ∧
      (f connection).outstanding = some t) ∨ n.table? c' = some t := by
  by_cases hc : c' = c
  · subst hc
    unfold table? at h
    rw [find?_modifyConnection_self, Option.bind_map] at h
    exact .inl ⟨rfl, Option.bind_eq_some_iff.mp h⟩
  · unfold table? at h ⊢
    rw [find?_modifyConnection_of_ne _ hc] at h
    exact .inr h

theorem Lone.withdraw (h : n.Lone q) (c : ConnectionId) (uid : Int64) :
    (n.withdraw c uid).Lone q := by
  refine ⟨h.calls, fun c' t hTable e hMem => ?_, h.next⟩
  rcases table?_modifyConnection hTable with ⟨rfl, connection, hFind, hAfter⟩ | hBefore
  · obtain ⟨old, hOld, rfl⟩ := Option.map_eq_some_iff.mp hAfter
    refine h.tables c' old ?_ e (List.mem_filter.mp hMem).1
    rw [table?, hFind]
    exact hOld
  · exact h.tables c' t hBefore e hMem

theorem Lone.expect (h : n.Lone q) :
    (n.expect q.connection q.uid [q.listener]).Lone q := by
  refine ⟨h.calls, fun c t hTable e hMem => ?_, h.next⟩
  rcases table?_modifyConnection hTable with ⟨rfl, connection, hFind, hAfter⟩ | hBefore
  · obtain ⟨old, hOld, rfl⟩ := Option.map_eq_some_iff.mp hAfter
    rcases List.mem_append.mp hMem with hMem | hMem
    · refine h.tables q.connection old ?_ e (List.mem_filter.mp hMem).1
      rw [table?, hFind]
      exact hOld
    · exact .inl ⟨rfl, List.mem_singleton.mp hMem⟩
  · exact h.tables c t hBefore e hMem

theorem without_finish_self : (n.finish q.call result).without q = n.without q := by
  unfold finish
  split
  · rw [without_emit_about (by simp [Effect.isAbout])]
    unfold without
    simp only [SortedMap.erase_of_find?_none (SortedMap.find?_erase_self n.calls q.call)]
  · rfl

/-- Changes of the call's entry are not seen without the call. -/
theorem without_modifyConnection_self {f : Connection → Connection}
    (h : ∀ connection, q.strip (f connection) = q.strip connection) :
    (n.modifyConnection q.connection f).without q = n.without q := by
  unfold without modifyConnection
  rw [SortedMap.modify_modify]
  simp only [h]

/-- Something is said of the call that is neither its end nor a response. -/
theorem Hosts.say (h : n.Hosts q φ m) {e : Effect} (hAbout : e.isAbout q.call = true)
    (hDelivery : delivery? e = none) (hResult : e.result? q.call = none) :
    (n.emit e).Hosts q φ m := by
  refine ⟨by rw [without_emit_about hAbout, h.same], ⟨h.lone.calls, h.lone.tables, h.lone.next⟩, ?_,
    h.transponds⟩
  have hAnswers : (n.emit e).handed q.call = n.handed q.call := by
    unfold handed
    rw [deliveries_emit, hDelivery, Option.toList_none, List.append_nil]
  have hResults : (n.emit e).results q.call = n.results q.call := by
    unfold results Node.emit
    rw [List.filterMap_append]
    simp [hResult]
  exact h.shows.congr rfl rfl hAnswers hResults

/-- A call that is over is known no longer. -/
theorem Hosts.finish_ended {heard : Option Message} (h : n.Hosts q (.ended result heard) m)
    (result' : Reply.Result) : n.finish q.call result' = n := by
  unfold Node.finish SortedMap.contains
  rw [h.shows.call]
  rfl

theorem handed_finish (k k' : CallId) (result : Reply.Result) :
    (n.finish k result).handed k' = n.handed k' := by
  unfold handed
  rw [(mute_finish n k result).deliveries]

/-- What is left of a call that ends. -/
theorem Shows.finish (h : n.Shows q φ) (hKnown : (n.calls.find? q.call).isSome = true)
    (hNotWaiting : φ ≠ .waiting) (result : Reply.Result) :
    (n.finish q.call result).Shows q (φ.conclude result) := by
  have hOver : ∃ heard, φ.conclude result = .ended result heard ∧ φ.heard? = heard ∧
      φ.entry? q = none ∧ φ.results = [] := by
    cases φ with
    | waiting => exact absurd rfl hNotWaiting
    | ended before heard =>
      rw [h.call] at hKnown
      cases hKnown
    | _ => exact ⟨_, rfl, rfl, rfl, rfl⟩
  obtain ⟨heard, hConclude, rfl, hEntry, hResults⟩ := hOver
  rw [hConclude]
  have hFinish : n.finish q.call result =
      { n with calls := n.calls.erase q.call }.emit (.finished q.call result) := if_pos hKnown
  refine ⟨?_, ?_, (handed_finish _ _ _).trans h.handed, ?_⟩
  · rw [hFinish]
    exact SortedMap.find?_erase_self _ _
  · rw [waiting?_congr (mute_finish n q.call result).connections]
    exact h.entry.trans hEntry
  · have hBefore := h.results.trans hResults
    rw [hFinish]
    unfold Node.results at hBefore ⊢
    unfold emit
    rw [List.filterMap_append, hBefore]
    simp [Effect.result?, Query.Phase.results]

/-- A call that waits for no response can end. -/
theorem Hosts.conclude (h : n.Hosts q φ m) (hNotWaiting : φ ≠ .waiting)
    (result : Reply.Result) : (n.finish q.call result).Hosts q (φ.conclude result) m := by
  refine ⟨without_finish_self.trans h.same, h.lone.finish _ _, ?_, h.transponds.of_mute
    (mute_finish n _ _)⟩
  cases φ with
  | ended before heard =>
    rw [h.finish_ended]
    exact h.shows
  | _ => exact h.shows.finish (by rw [h.shows.call]; rfl) hNotWaiting result

/-- A request that was not sent is about to be. -/
theorem Hosts.engage (h : n.Hosts q .unsent m) :
    (n.modifyCall q.call fun call => { call with stage := .waiting q.connection }).Hosts q .unowed
      m := by
  refine ⟨?_, ⟨fun j call hj hFind => ?_, h.lone.tables, h.lone.next⟩,
    ⟨?_, h.shows.entry, h.shows.handed, h.shows.results⟩, h.transponds⟩
  · rw [← h.same]
    unfold without Node.modifyCall
    simp only [SortedMap.erase_modify_self]
  · refine h.lone.calls j call hj ?_
    unfold Node.modifyCall at hFind
    rwa [SortedMap.find?_modify_of_ne hj] at hFind
  · unfold Node.modifyCall
    rw [SortedMap.find?_modify_self, h.shows.call]
    rfl

/-- From now on the call waits for a response. -/
theorem Hosts.await (h : n.Hosts q .unowed m) (hOpen : n.isOpen q.connection = true) :
    (n.expect q.connection q.uid [q.listener]).Hosts q .waiting m := by
  obtain ⟨t, hTable⟩ := (isOpen_iff_table? h.transponds).mp hOpen
  refine ⟨?_, h.lone.expect, ⟨h.shows.call, waiting?_expect_self hTable, h.shows.handed,
    h.shows.results⟩, h.transponds.modify (fun _ => rfl) (fun _ => rfl) fun _ => Option.isSome_map⟩
  rw [← h.same]
  apply without_modifyConnection_self
  intro connection
  cases hTable : connection.outstanding with
  | none => simp [Query.strip, hTable]
  | some t => simp [Query.strip, hTable, Outstanding.insert, Outstanding.erase]

/-- Nobody will give the call a response any more. -/
theorem Hosts.disown (h : n.Hosts q .waiting m) :
    (n.withdraw q.connection q.uid).Hosts q .unowed m := by
  refine ⟨?_, h.lone.withdraw _ _, ⟨h.shows.call, waiting?_withdraw_self, h.shows.handed,
    h.shows.results⟩, transponds_withdraw h.transponds _⟩
  rw [← h.same]
  apply without_modifyConnection_self
  intro connection
  cases hTable : connection.outstanding with
  | none => simp [Query.strip, hTable]
  | some t => simp [Query.strip, hTable, Outstanding.erase]

/-- The listener of the call is given a response. -/
theorem Hosts.hand (h : n.Hosts q .unowed m) (message : Message) :
    (n.emit (.later (.deliver q.listener message))).Hosts q (.given message) m := by
  have hNone : n.handed q.call = [] := h.shows.handed
  refine ⟨?_, ⟨h.lone.calls, h.lone.tables, h.lone.next⟩, ⟨h.shows.call, h.shows.entry, ?_, ?_⟩,
    h.transponds⟩
  · rw [without_emit_about (by simp [Effect.isAbout]), h.same]
  · unfold handed at hNone ⊢
    rw [deliveries_emit, List.filter_append, hNone]
    simp [delivery?, Query.Phase.heard?]
  · have hResults : n.results q.call = [] := h.shows.results
    unfold results at hResults ⊢
    unfold Node.emit
    rw [List.filterMap_append, hResults]
    rfl

/-- Nobody will give the call a response. -/
theorem abandon_listener (n : Node) (q : Query) :
    n.abandon [q.listener] = n.finish q.call (.error Reply.dropped) := by
  simp [abandon]

/-! ## Steps of the call -/

/-- What the call's request leaves behind if it was sent: its frame. -/
def carry (m : Node) (q : Query) : Except WireError Unit → Node
  | .error _ => m
  | .ok () => m.emit (.send q.connection (.message q.message))

theorem withdraw_finish (c : ConnectionId) (uid : Int64) (k : CallId) :
    (n.finish k result).withdraw c uid = (n.withdraw c uid).finish k result := by
  have hCalls : (n.withdraw c uid).calls = n.calls := rfl
  unfold finish
  rw [hCalls]
  split <;> rfl

theorem waiting?_finish (k : CallId) (c : ConnectionId) (uid : Int64) :
    (n.finish k result).waiting? c uid = n.waiting? c uid :=
  waiting?_congr (mute_finish n k result).connections uid

/-- The call waits no longer: its time is over, or its request was not taken. -/
theorem Hosts.lapse_self (h : n.Hosts q φ m) {cause : Call → ServiceError} {e : ServiceError}
    (hCause : cause (q.record (.waiting q.connection)) = e) :
    (n.lapse q.call cause).Hosts q (φ.lapse e) m := by
  subst hCause
  unfold Node.lapse
  rw [h.shows.call]
  cases φ with
  | unsent => exact h
  | ended result => exact h
  | waiting =>
    have hWaiting : (n.finish q.call (.error (cause (q.record (.waiting q.connection))))).waiting? q.connection q.uid =
        some [q.listener] := (waiting?_finish _ _ _).trans h.shows.entry
    have hOver := h.disown.conclude nofun (.error (cause (q.record (.waiting q.connection))))
    change ((n.finish q.call (.error (cause (q.record (.waiting q.connection))))).forget q.connection q.uid).2.Hosts _ _ _
    rw [forget_eq, hWaiting, withdraw_finish]
    dsimp only
    rw [abandon_listener, hOver.finish_ended]
    exact hOver
  | _ =>
    have hNone : (n.finish q.call (.error (cause (q.record (.waiting q.connection))))).waiting? q.connection q.uid =
        none := (waiting?_finish _ _ _).trans h.shows.entry
    change ((n.finish q.call (.error (cause (q.record (.waiting q.connection))))).forget q.connection q.uid).2.Hosts _ _ _
    rw [forget_eq, hNone]
    exact h.conclude nofun _

theorem isOpen_of_sending {c : ConnectionId} (h : n.Transponds c)
    (hSent : n.sending c q.message = .ok ()) : n.isOpen c = true := by
  rw [isOpen_iff_table? h]
  unfold sending at hSent
  unfold table?
  split at hSent
  · cases hSent
  next connection hFind =>
    split at hSent
    next hSome =>
      rw [hFind]
      exact Option.isSome_iff_exists.mp hSome
    · cases hSent

/-- The request of the call is sent, or the call ends. -/
theorem Hosts.send (h : n.Hosts q .unsent m) :
    (n.transmit q.call q.connection).Hosts q (q.begun (n.sending q.connection q.message))
      (m.carry q (n.sending q.connection q.message)) := by
  unfold Node.transmit
  rw [h.shows.call]
  simp only [Query.Phase.call?, Query.record, sendRequest_eq_sending]
  cases hSending : n.sending q.connection q.message with
  | error e => exact h.conclude nofun _
  | ok done =>
    have hWaiting := (h.engage.await (isOpen_of_sending h.transponds hSending)).emit
      (e := .send q.connection (.message q.message)) rfl
    simp only [List.isEmpty_cons, Bool.false_eq_true, if_false]
    split
    next hZero =>
      have hBegun : q.begun (.ok done) = .ended (.error (.timeout q.timeout)) none := if_pos hZero
      rw [hBegun]
      exact hWaiting.lapse_self rfl
    next hTime =>
      have hBegun : q.begun (.ok done) = .waiting := if_neg hTime
      rw [hBegun]
      exact hWaiting.say (by simp [Effect.isAbout]) rfl rfl

/-- A response to the call comes. -/
theorem Hosts.hear (h : n.Hosts q φ m) {message : Message} (hUid : message.uid = q.uid) :
    (n.takeResponse q.connection message).Hosts q (φ.answer q message) m := by
  rw [takeResponse_eq, hUid, h.shows.entry]
  cases φ with
  | waiting =>
    have hDropped := h.disown.conclude nofun (.error Reply.dropped)
    simp only [Query.Phase.entry?, Query.Phase.answer, Outstanding.chosen?_singleton]
    by_cases hTaken : message.status = .error ∨ message.code = q.code
    · have hTaken' : message.status = .error ∨ message.code = q.listener.code := hTaken
      rw [if_pos hTaken, if_pos hTaken']
      exact h.disown.hand message
    · have hTaken' : ¬(message.status = .error ∨ message.code = q.listener.code) := hTaken
      rw [if_neg hTaken, if_neg hTaken']
      dsimp only
      rw [abandon_listener]
      exact hDropped
  | _ => exact h

/-- The listener of the call takes a response. -/
theorem deliver_listener (n : Node) (q : Query) (message : Message) :
    n.deliver q.listener message = (n.adopt q message).finish q.call (q.outcome message) := by
  unfold deliver Query.listener Query.target adopt Query.outcome
  cases q.aim with
  | response =>
    dsimp only
    unfold Reply.ofResponse Reply.failure? Message.isError
    by_cases hError : message.status = .error <;> simp [hError, Reply.Form.read]
  | grants peer =>
    dsimp only
    unfold takeExchange offered? Reply.failure? Message.isError
    by_cases hError : message.status = .error
    · simp [hError]
    · cases message.readWith exchangeAnswer with
      | error e => simp [hError]
      | ok read => simp [hError]

theorem Hosts.adopt (h : n.Hosts q φ m) (message : Message) :
    (n.adopt q message).Hosts q φ (m.adopt q message) := by
  have hDirectory : m.directory = n.directory := by rw [← h.same]; rfl
  unfold Node.adopt
  rw [hDirectory]
  split
  · exact h.commit _
  · exact h

/-- A call that is not known cannot end. -/
theorem Hosts.finish_beside (h : n.Hosts q φ m) : m.finish q.call result = m := by
  unfold Node.finish SortedMap.contains
  rw [← h.same, find?_calls_without_self]
  rfl

theorem Hosts.deliver_beside (h : n.Hosts q φ m) (message : Message) :
    m.deliver q.listener message = m.adopt q message := by
  rw [deliver_listener, (h.adopt message).finish_beside]

theorem Shows.of_mem_handed (h : n.Shows q φ) {l : Listener Target} {message : Message}
    (hHanded : (l, message) ∈ n.handed q.call) : l = q.listener ∧ φ.heard? = some message := by
  rw [h.handed] at hHanded
  obtain ⟨response, hHeard, hEq⟩ := List.mem_map.mp hHanded
  obtain ⟨rfl, rfl⟩ := Prod.mk.inj hEq
  exact ⟨rfl, Option.mem_toList.mp hHeard⟩

theorem Shows.mem_handed (h : n.Shows q φ) {message : Message}
    (hHeard : φ.heard? = some message) : (q.listener, message) ∈ n.handed q.call := by
  rw [h.handed, hHeard]
  exact List.mem_singleton_self _

/-- The listener of the call takes its response. -/
theorem Hosts.read (h : n.Hosts q φ m) {l : Listener Target} {message : Message}
    (hHanded : (l, message) ∈ n.handed q.call) :
    (n.deliver l message).Hosts q (q.take φ) (m.deliver l message) := by
  obtain ⟨rfl, hHeard⟩ := h.shows.of_mem_handed hHanded
  have hAdopted := h.adopt message
  rw [h.deliver_beside, deliver_listener]
  cases φ with
  | given response =>
    obtain rfl := Option.some.inj hHeard
    exact hAdopted.conclude nofun _
  | ended result heard =>
    rw [hAdopted.finish_ended]
    exact hAdopted
  | _ => cases hHeard

/-! ## Closing the connection -/

/-- The calls of some listeners end, and this one with them if it is among them. -/
theorem Hosts.finishAll (h : n.Hosts q φ m) (hNotWaiting : φ ≠ .waiting) (result : Reply.Result)
    (ks : List CallId) :
    (ks.foldl (fun n k => n.finish k result) n).Hosts q
      (if q.call ∈ ks then φ.conclude result else φ)
      ((ks.filter (· ≠ q.call)).foldl (fun n k => n.finish k result) m) := by
  induction ks generalizing n m φ with
  | nil => exact h
  | cons k ks ih =>
    by_cases hk : k = q.call
    · subst hk
      have hTwice : (φ.conclude result).conclude result = φ.conclude result := by cases φ <;> rfl
      have hRest := ih (h.conclude hNotWaiting result) (φ.conclude_ne_waiting result)
      rw [hTwice, ite_self] at hRest
      simpa using hRest
    · have hRest := ih (h.finish hk result) hNotWaiting
      simpa [hk, Ne.symm hk] using hRest

/-- Without the entry of the call the same calls wait, but for this one. -/
theorem callers_strip {connection : Connection}
    (h : ∀ t, connection.outstanding = some t →
      ∀ e ∈ t.entries, q.Owns q.connection e ∨ q.Ignores q.connection e) :
    callers (q.strip connection).listeners =
      (callers connection.listeners).filter (· ≠ q.call) := by
  cases hTable : connection.outstanding with
  | none => simp [Connection.listeners, Query.strip, hTable, callers]
  | some t =>
    have hEntries := h t hTable
    simp only [Connection.listeners, Query.strip, hTable, Option.map_some, Option.getD_some,
      Outstanding.listeners, Outstanding.erase]
    generalize t.entries = entries at hEntries
    unfold callers
    induction entries with
    | nil => rfl
    | cons e entries ih =>
      have hRest := ih fun e' hMem => hEntries e' (List.mem_cons_of_mem _ hMem)
      rcases hEntries e List.mem_cons_self with ⟨-, rfl⟩ | hIgnores
      · simpa using hRest
      · have hUid := hIgnores.uid rfl
        have hOthers : (e.2.filterMap (·.target.call?)).filter (· ≠ q.call) =
            e.2.filterMap (·.target.call?) := by
          rw [List.filter_eq_self]
          intro k hMem
          obtain ⟨l, hl, hTarget⟩ := List.mem_filterMap.mp hMem
          have hOther := hIgnores.listeners l hl
          rw [hTarget] at hOther
          simpa using hOther
        rw [List.filter_cons_of_pos (by simpa using hUid), List.flatMap_cons, List.flatMap_cons,
          List.filterMap_append, List.filterMap_append, List.filter_append, hRest, hOthers]

/-- The call is among those that wait on its connection exactly if it waits. -/
theorem Hosts.mem_callers (h : n.Hosts q φ m) {connection : Connection}
    (hFind : n.connections.find? q.connection = some connection) :
    q.call ∈ callers connection.listeners ↔ φ = .waiting := by
  have hTable : n.table? q.connection = connection.outstanding := by
    rw [table?, hFind]
    rfl
  constructor
  · intro hMem
    obtain ⟨l, hl, hTarget⟩ := List.mem_filterMap.mp hMem
    cases hOutstanding : connection.outstanding with
    | none =>
      rw [Connection.listeners_of_none hOutstanding] at hl
      cases hl
    | some t =>
      rw [Connection.listeners_of_some hOutstanding] at hl
      obtain ⟨e, he, hl⟩ := List.mem_flatMap.mp hl
      rcases h.lone.tables _ t (hTable.trans hOutstanding) e he with ⟨-, rfl⟩ | hIgnores
      · have hEntry := h.shows.entry
        have hSome : (t.find? q.uid).isSome = true := by
          unfold Outstanding.find?
          rw [Option.isSome_map, List.find?_isSome]
          exact ⟨_, he, by simp⟩
        unfold Node.waiting? at hEntry
        rw [hTable, hOutstanding, Option.bind_some] at hEntry
        rw [hEntry] at hSome
        cases φ with
        | waiting => rfl
        | _ => cases hSome
      · exact absurd hTarget (hIgnores.listeners l hl)
  · rintro rfl
    obtain ⟨t, hOutstanding, hEntry⟩ := Option.bind_eq_some_iff.mp h.shows.entry
    rw [hTable] at hOutstanding
    rw [Connection.listeners_of_some hOutstanding]
    exact List.mem_filterMap.mpr ⟨q.listener,
      Outstanding.mem_listeners_of_find? hEntry List.mem_cons_self, q.call?_listener⟩

theorem Hosts.strike (h : n.Hosts q φ m) (c : ConnectionId) :
    (n.strike c).Hosts q φ (m.strike c) := by
  obtain rfl := h.same
  exact h.frame rfl rfl rfl (Nat.le_refl _) rfl

/-- The entries of the connection are given up. -/
theorem Hosts.shut (h : n.Hosts q φ m) :
    (n.modifyConnection q.connection Connection.afterClosing).Hosts q φ.disown
      (m.modifyConnection q.connection Connection.afterClosing) := by
  obtain rfl := h.same
  refine ⟨without_modifyConnection fun _ _ => rfl, ⟨h.lone.calls, ?_, h.lone.next⟩, ?_, ?_⟩
  · intro c t hTable
    rcases table?_modifyConnection hTable with ⟨-, connection, -, hNone⟩ | hBefore
    · cases hNone
    · exact h.lone.tables c t hBefore
  · have hNone : (n.modifyConnection q.connection Connection.afterClosing).waiting? q.connection
        q.uid = none := by
      apply waiting?_of_table?_none
      rw [table?, find?_modifyConnection_self, Option.bind_map]
      cases n.connections.find? q.connection <;> rfl
    have hShows := h.shows
    cases φ <;> exact ⟨hShows.call, hNone, hShows.handed, hShows.results⟩
  · obtain ⟨connection, hFind, -⟩ := h.transponds
    exact ⟨connection.afterClosing, by rw [find?_modifyConnection_self, hFind, Option.map_some],
      .inr ⟨rfl, rfl, rfl⟩⟩

/-- The connection is closed. A call that waits on it ends, and no other one does. -/
theorem Hosts.close (h : n.Hosts q φ m) (reason : Option WireError) :
    (n.terminate q.connection reason).Hosts q φ.cut (m.terminate q.connection reason) := by
  obtain rfl := h.same
  cases hOpen : n.isOpen q.connection with
  | false =>
    have hCut : φ.cut = φ := by
      cases φ with
      | waiting =>
        obtain ⟨t, hTable, -⟩ := Option.bind_eq_some_iff.mp h.shows.entry
        have hIsOpen := (isOpen_iff_table? h.transponds).mpr ⟨t, hTable⟩
        cases hOpen.symm.trans hIsOpen
      | _ => rfl
    rw [terminate_of_not_open hOpen, terminate_of_not_open (isOpen_without.trans hOpen), hCut]
    exact h
  | true =>
    obtain ⟨connection, hFind, hIsOpen⟩ := isOpen_iff.mp hOpen
    have hFind' : (n.without q).connections.find? q.connection = some (q.strip connection) := by
      change (n.connections.modify q.connection q.strip).find? q.connection = _
      rw [SortedMap.find?_modify_self, hFind, Option.map_some]
    have hStrip : callers (q.strip connection).listeners =
        (callers connection.listeners).filter (· ≠ q.call) := callers_strip fun t hTable =>
      h.lone.tables q.connection t (by rw [table?, hFind]; exact hTable)
    have hCut : (if q.call ∈ callers connection.listeners then
        φ.disown.conclude (.error Reply.dropped) else φ.disown) = φ.cut := by
      have hMem := h.mem_callers hFind
      cases φ <;> simp_all [Query.Phase.disown, Query.Phase.cut, Query.Phase.conclude]
    have hAbandoned := h.shut.finishAll φ.disown_ne_waiting (.error Reply.dropped)
      (callers connection.listeners)
    rw [hCut, ← hStrip] at hAbandoned
    have hHungUp := hAbandoned.emit (e := .hangUp q.connection) rfl
    unfold Node.terminate
    rw [hFind, hFind']
    have hIsOpen' : (q.strip connection).isOpen = true := hIsOpen
    simp only [hIsOpen, hIsOpen', Bool.not_true, Bool.false_eq_true, if_false]
    have hReading : (q.strip connection).reading = connection.reading := rfl
    have hSession : (q.strip connection).session = connection.session := rfl
    rw [hReading, hSession]
    have hMiddle : (if connection.reading then
        (((n.modifyConnection q.connection Connection.afterClosing).abandon
          connection.listeners).emit (.hangUp q.connection))
        else (n.modifyConnection q.connection Connection.afterClosing).abandon
          connection.listeners).Hosts q φ.cut
        (if connection.reading then
          ((((n.without q).modifyConnection q.connection Connection.afterClosing).abandon
            (q.strip connection).listeners).emit (.hangUp q.connection))
          else ((n.without q).modifyConnection q.connection Connection.afterClosing).abandon
            (q.strip connection).listeners) := by
      split
      · exact hHungUp
      · exact hAbandoned
    have hStruck := hMiddle.strike q.connection
    cases connection.session with
    | none => exact hStruck
    | some s => exact (hStruck.modifySession s _).fire s _

end Node

end PeerServices
