import PeerServices.Proofs.Node.Multiplexing

/-!
# A call beside everything else

A call that waits for one response shares its node with others. What becomes of it changes nothing
else, and what becomes of the others does not change it: the node without the call goes on as if the
call had never been made.

* `Query`: the call. `Query.Phase`: how far it is.
* `Node.without`: a node without the call. `Node.Lone`: nobody else uses its uid or answers for it.
* `Node.Hosts`: a node is another one, and the call beside it. One lemma for each thing that a node
  does for others, by which the call gets no further, and one for each thing that a node does for the
  call, by which the other node stays as it is.
-/

namespace PeerServices

/-! ## The call -/

/-- What a call is made for. -/
inductive Query.Aim
  /-- The response itself. -/
  | response
  /-- What a peer grants, in an exchange with it. -/
  | grants (peer : PeerAddress)

/-- A call that sends one message on a connection and expects a response with a code. -/
structure Query where
  call : CallId
  session : SessionId
  connection : ConnectionId
  message : Message
  code : UInt8
  timeout : Duration
  aim : Query.Aim

/-- How far a call is. -/
inductive Query.Phase
  | unsent
  | waiting
  /-- It was sent, and no response can come for it any more. -/
  | unowed
  /-- Its listener has a response. -/
  | given (m : Message)
  /-- It ended. Before or after that, its listener had a response, if any. -/
  | ended (result : Reply.Result) (heard : Option Message)

namespace Query

def uid (q : Query) : Int64 := q.message.uid

/-- Where the response to the call goes. -/
def target (q : Query) : Target :=
  match q.aim with
  | .response => .reply q.call .message
  | .grants peer => .exchange q.call peer

def listener (q : Query) : Listener Target := ⟨q.code, q.target⟩

@[simp] theorem call?_target (q : Query) : q.target.call? = some q.call := by
  unfold target
  cases q.aim <;> rfl

@[simp] theorem call?_listener (q : Query) : q.listener.target.call? = some q.call := q.call?_target

/-- What a node keeps for the call. -/
def record (q : Query) (stage : Call.Stage) : Call :=
  { session := q.session, message := q.message, listeners := [q.listener], timeout := q.timeout
    resolved := none, stage }

/-- Another call has a request of its own, and its listeners do not answer this one. -/
structure Apart (q : Query) (call : Call) : Prop where
  uid : call.message.uid ≠ q.uid
  listeners : ∀ l ∈ call.listeners, l.target.call? ≠ some q.call

/-- An entry on a connection is that of the call. -/
def Owns (q : Query) (c : ConnectionId) (e : Int64 × List (Listener Target)) : Prop :=
  c = q.connection ∧ e = (q.uid, [q.listener])

/-- An entry on a connection is that of another request. -/
structure Ignores (q : Query) (c : ConnectionId) (e : Int64 × List (Listener Target)) : Prop where
  uid : c = q.connection → e.1 ≠ q.uid
  listeners : ∀ l ∈ e.2, l.target.call? ≠ some q.call

/-- A connection without the entry of the call. -/
def strip (q : Query) (connection : Connection) : Connection :=
  { connection with outstanding := connection.outstanding.map (·.erase q.uid) }

end Query

/-- How a call ended, if an effect tells that. -/
def Effect.result? (k : CallId) : Effect → Option Reply.Result
  | .finished j result => if j = k then some result else none
  | _ => none

/-- An effect is about a call: how it ended, a response for it, or when its time is over. -/
def Effect.isAbout (k : CallId) : Effect → Bool
  | .finished j _ => j = k
  | .later (.deliver l _) => l.target.call? = some k
  | .timer _ (.overdue j) => j = k
  | _ => false

namespace Query.Phase

/-- What a node keeps for a call that is this far. -/
def call? (q : Query) : Phase → Option Call
  | .unsent => some (q.record .pending)
  | .ended _ _ => none
  | _ => some (q.record (.waiting q.connection))

/-- The entry for responses to a call that is this far. -/
def entry? (q : Query) : Phase → Option (List (Listener Target))
  | .waiting => some [q.listener]
  | _ => none

/-- What was told of the end of a call that is this far. -/
def results : Phase → List Reply.Result
  | .ended result _ => [result]
  | _ => []

/-- The response that the listener of a call that is this far was given. -/
def heard? : Phase → Option Message
  | .given m => some m
  | .ended _ heard => heard
  | _ => none

end Query.Phase

namespace Node

/-- How a call ended, as often as the node told it. -/
def results (n : Node) (k : CallId) : List Reply.Result := n.effects.filterMap (Effect.result? k)

/-- The responses that were handed to listeners of a call. -/
def handed (n : Node) (k : CallId) : List (Listener Target × Message) :=
  n.deliveries.filter (·.1.target.call? = some k)

/-- What a node keeps for a call and did about it is what belongs to a phase. -/
structure Shows (n : Node) (q : Query) (φ : Query.Phase) : Prop where
  call : n.calls.find? q.call = φ.call? q
  entry : n.waiting? q.connection q.uid = φ.entry? q
  handed : n.handed q.call = φ.heard?.toList.map fun m => (q.listener, m)
  results : n.results q.call = φ.results

/-- A node without the call: without its record, its entry, and the effects about it. -/
def without (n : Node) (q : Query) : Node :=
  { n with
    calls := n.calls.erase q.call
    connections := n.connections.modify q.connection q.strip
    effects := n.effects.filter fun e => !e.isAbout q.call }

/-- Nobody else uses the uid of the call, and nobody else answers it. -/
structure Lone (n : Node) (q : Query) : Prop where
  calls : ∀ j call, j ≠ q.call → n.calls.find? j = some call → q.Apart call
  tables : ∀ c t, n.table? c = some t → ∀ e ∈ t.entries, q.Owns c e ∨ q.Ignores c e
  next : q.call < n.nextCall

/-- A node is another one, and beside it a call that is this far. -/
structure Hosts (n : Node) (q : Query) (φ : Query.Phase) (m : Node) : Prop where
  same : n.without q = m
  lone : n.Lone q
  shows : n.Shows q φ
  transponds : n.Transponds q.connection

variable {n m n' m' : Node} {q : Query} {φ : Query.Phase} {c : ConnectionId} {uid : Int64}
  {s : SessionId} {j : CallId} {e : Effect}

/-! ## A node without the call -/

section Without

theorem find?_calls_without (hj : j ≠ q.call) :
    (n.without q).calls.find? j = n.calls.find? j := SortedMap.find?_erase_of_ne hj n.calls

theorem find?_calls_without_self : (n.without q).calls.find? q.call = none :=
  SortedMap.find?_erase_self n.calls q.call

/-- A connection is the same but for its entries. -/
theorem exists_find?_without (n : Node) (q : Query) (c : ConnectionId) :
    ∃ f : Connection → Connection,
      (n.without q).connections.find? c = (n.connections.find? c).map f ∧
        ∀ connection, ∃ outstanding, f connection = { connection with outstanding } ∧
          outstanding.isSome = connection.outstanding.isSome := by
  by_cases hc : c = q.connection
  · subst hc
    exact ⟨q.strip, SortedMap.find?_modify_self _ _ _, fun connection => ⟨_, rfl, Option.isSome_map⟩⟩
  · refine ⟨id, ?_, fun connection => ⟨_, rfl, rfl⟩⟩
    rw [Option.map_id_fun, id]
    exact SortedMap.find?_modify_of_ne hc _ _

theorem isOpen_without : (n.without q).isOpen c = n.isOpen c := by
  obtain ⟨f, hFind, hSame⟩ := exists_find?_without n q c
  unfold isOpen
  rw [hFind, Option.map_map]
  congr 2
  funext connection
  obtain ⟨outstanding, hEq, -⟩ := hSame connection
  simp only [Function.comp_apply, hEq]
  rfl

theorem openConnection?_without : (n.without q).openConnection? s = n.openConnection? s := by
  unfold openConnection?
  simp only [isOpen_without]
  rfl

theorem isConnected_without : (n.without q).isConnected s = n.isConnected s := by
  unfold isConnected
  rw [openConnection?_without]

theorem peerOf?_without : (n.without q).peerOf? s = n.peerOf? s := by
  have hPeer : ∀ c, ((n.without q).connections.find? c).bind Connection.peer =
      (n.connections.find? c).bind Connection.peer := by
    intro c
    obtain ⟨f, hFind, hSame⟩ := exists_find?_without n q c
    rw [hFind, Option.bind_map]
    congr 1
    funext connection
    obtain ⟨outstanding, hEq, -⟩ := hSame connection
    simp only [Function.comp_apply, hEq]
  unfold peerOf? currentConnection?
  rw [openConnection?_without]
  simp only [Option.bind_eq_bind, Option.bind_assoc, hPeer]
  rfl

theorem table?_without_of_ne (hc : c ≠ q.connection) : (n.without q).table? c = n.table? c := by
  unfold table?
  rw [show (n.without q).connections.find? c = n.connections.find? c from
    SortedMap.find?_modify_of_ne hc _ _]

theorem waiting?_without_self : (n.without q).waiting? q.connection q.uid = none :=
  waiting?_withdraw_self

theorem waiting?_without (h : c ≠ q.connection ∨ uid ≠ q.uid) :
    (n.without q).waiting? c uid = n.waiting? c uid := by
  by_cases hc : c = q.connection
  · subst hc
    exact waiting?_withdraw_of_ne (h.resolve_left fun hNot => hNot rfl)
  · unfold waiting?
    rw [table?_without_of_ne hc]

theorem Transponds.without (h : n.Transponds c) : (n.without q).Transponds c := by
  obtain ⟨connection, hFind, hState⟩ := h
  obtain ⟨f, hFind', hSame⟩ := exists_find?_without n q c
  obtain ⟨outstanding, hEq, hSome⟩ := hSame connection
  refine ⟨f connection, by rw [hFind', hFind, Option.map_some], ?_⟩
  rw [hEq]
  simp only [hSome]
  exact hState

end Without

/-! ## What is done for others -/

theorem Shows.congr (h : n.Shows q φ) (hCall : n'.calls.find? q.call = n.calls.find? q.call)
    (hEntry : n'.waiting? q.connection q.uid = n.waiting? q.connection q.uid)
    (hAnswers : n'.handed q.call = n.handed q.call)
    (hResults : n'.results q.call = n.results q.call) : n'.Shows q φ where
  call := hCall.trans h.call
  entry := hEntry.trans h.entry
  handed := hAnswers.trans h.handed
  results := hResults.trans h.results

section Effects

theorem result?_of_not_about (h : e.isAbout q.call = false) : e.result? q.call = none := by
  cases e with
  | finished k result =>
    have hOther : ¬k = q.call := by simpa [Effect.isAbout] using h
    exact if_neg hOther
  | _ => rfl

theorem delivery?_of_not_about (h : e.isAbout q.call = false) :
    ∀ answer ∈ delivery? e, answer.1.target.call? ≠ some q.call := by
  intro answer hMem
  cases e with
  | later event =>
    cases event with
    | deliver l m =>
      cases hMem
      simpa [Effect.isAbout] using h
    | _ => cases hMem
  | _ => cases hMem

theorem handed_emit (h : e.isAbout q.call = false) :
    (n.emit e).handed q.call = n.handed q.call := by
  unfold handed
  rw [deliveries_emit, List.filter_append]
  cases hDelivery : delivery? e with
  | none => simp
  | some answer => simp [delivery?_of_not_about h answer hDelivery]

theorem results_emit (h : e.isAbout q.call = false) :
    (n.emit e).results q.call = n.results q.call := by
  unfold results emit
  rw [List.filterMap_append]
  simp [result?_of_not_about h]

theorem without_emit (h : e.isAbout q.call = false) : (n.emit e).without q = (n.without q).emit e := by
  unfold without emit
  simp [h]

theorem without_emit_about (h : e.isAbout q.call = true) : (n.emit e).without q = n.without q := by
  unfold without emit
  simp [h]

end Effects

section Others

theorem Hosts.emit (h : n.Hosts q φ m) (hOther : e.isAbout q.call = false) :
    (n.emit e).Hosts q φ (m.emit e) := by
  refine ⟨?_, ⟨h.lone.calls, h.lone.tables, h.lone.next⟩, ?_, h.transponds⟩
  · rw [without_emit hOther, h.same]
  · exact h.shows.congr rfl rfl (handed_emit hOther) (results_emit hOther)

/-- Something changes that the call does not depend on. -/
theorem Hosts.frame (h : n.Hosts q φ m) (hSame : n'.without q = m')
    (hConnections : n'.connections = n.connections) (hCalls : n'.calls = n.calls)
    (hNext : n.nextCall ≤ n'.nextCall) (hEffects : n'.effects = n.effects) :
    n'.Hosts q φ m' := by
  have hTable : ∀ c, n'.table? c = n.table? c := fun c => by rw [table?, hConnections, table?]
  refine ⟨hSame, ⟨?_, ?_, Nat.lt_of_lt_of_le h.lone.next hNext⟩, ?_, ?_⟩
  · rw [hCalls]
    exact h.lone.calls
  · simp only [hTable]
    exact h.lone.tables
  · apply h.shows.congr (by rw [hCalls]) (waiting?_congr hConnections _)
    · unfold handed deliveries
      rw [hEffects]
    · unfold results
      rw [hEffects]
  · unfold Transponds
    rw [hConnections]
    exact h.transponds

theorem Hosts.modifySession (h : n.Hosts q φ m) (s : SessionId) (f : Session → Session) :
    (n.modifySession s f).Hosts q φ (m.modifySession s f) := by
  obtain rfl := h.same
  exact h.frame rfl rfl rfl (Nat.le_refl _) rfl

theorem Hosts.keep (h : n.Hosts q φ m) (exchanges : SortedMap PeerAddress SessionId) :
    { n with exchanges }.Hosts q φ { m with exchanges } := by
  obtain rfl := h.same
  exact h.frame rfl rfl rfl (Nat.le_refl _) rfl

theorem Hosts.keepExchange (h : n.Hosts q φ m) (s : SessionId) :
    (n.keepExchange s).Hosts q φ (m.keepExchange s) := by
  obtain rfl := h.same
  have hExchanges : (n.without q).exchanges = n.exchanges := rfl
  unfold Node.keepExchange
  simp only [peerOf?_without, isConnected_without, hExchanges]
  split
  · exact h
  · split
    · exact h.keep _
    · split
      · exact h.keep _
      · exact h

theorem Hosts.dropExchange (h : n.Hosts q φ m) (s : SessionId) :
    (n.dropExchange s).Hosts q φ (m.dropExchange s) := by
  obtain rfl := h.same
  have hExchanges : (n.without q).exchanges = n.exchanges := rfl
  unfold Node.dropExchange
  simp only [peerOf?_without, hExchanges]
  split
  · exact h
  · split
    · exact h.keep _
    · exact h

theorem Hosts.fire (h : n.Hosts q φ m) (s : SessionId) (hook : Session.Hook) :
    (n.fire s hook).Hosts q φ (m.fire s hook) := by
  have hSessions : m.sessions = n.sessions := by rw [← h.same]; rfl
  have hTold : (n.emit (.hook s hook)).Hosts q φ (m.emit (.hook s hook)) := h.emit rfl
  unfold Node.fire
  rw [hSessions]
  split
  · exact h
  · split
    · exact hTold
    · exact hTold
    · exact hTold.keepExchange s
    · exact hTold.dropExchange s

/-- The calls of others are changed. -/
theorem Hosts.recall (h : n.Hosts q φ m) {calls calls' : SortedMap CallId Call}
    (hSame : calls.erase q.call = calls') (hCall : calls.find? q.call = n.calls.find? q.call)
    (hOthers : ∀ j call, j ≠ q.call → calls.find? j = some call → q.Apart call) :
    { n with calls }.Hosts q φ { m with calls := calls' } := by
  obtain rfl := h.same
  refine ⟨?_, ⟨hOthers, h.lone.tables, h.lone.next⟩, ?_, h.transponds⟩
  · subst hSame
    rfl
  · exact h.shows.congr hCall rfl rfl rfl

theorem Hosts.find?_calls (h : n.Hosts q φ m) (hj : j ≠ q.call) :
    m.calls.find? j = n.calls.find? j := by
  rw [← h.same]
  exact find?_calls_without hj

theorem Hosts.finish (h : n.Hosts q φ m) (hj : j ≠ q.call) (result : Reply.Result) :
    (n.finish j result).Hosts q φ (m.finish j result) := by
  have hAbout : (Effect.finished j result).isAbout q.call = false := by
    simpa [Effect.isAbout] using hj
  unfold Node.finish SortedMap.contains
  rw [h.find?_calls hj]
  split
  · apply Hosts.emit _ hAbout
    obtain rfl := h.same
    apply h.recall
    · exact SortedMap.erase_erase_comm _ _ _
    · exact SortedMap.find?_erase_of_ne (Ne.symm hj) _
    · exact fun i call hi hFind => h.lone.calls i call hi (SortedMap.find?_erase_eq_some hFind).2
  · exact h

theorem Hosts.abandon (h : n.Hosts q φ m) {ls : List (Listener Target)}
    (hls : ∀ l ∈ ls, l.target.call? ≠ some q.call) : (n.abandon ls).Hosts q φ (m.abandon ls) := by
  have hks : ∀ k ∈ ls.filterMap (·.target.call?), k ≠ q.call := by
    intro k hMem
    obtain ⟨l, hl, hTarget⟩ := List.mem_filterMap.mp hMem
    rintro rfl
    exact hls l hl hTarget
  unfold Node.abandon
  generalize ls.filterMap _ = ks at hks
  induction ks generalizing n m with
  | nil => exact h
  | cons k ks ih =>
    exact ih (h.finish (hks k List.mem_cons_self) _) fun k' hMem =>
      hks k' (List.mem_cons_of_mem _ hMem)

/-- A call of somebody else gets further. -/
theorem Hosts.modifyCall (h : n.Hosts q φ m) (hj : j ≠ q.call) (stage : Call.Stage) :
    (n.modifyCall j fun call => { call with stage }).Hosts q φ
      (m.modifyCall j fun call => { call with stage }) := by
  obtain rfl := h.same
  apply h.recall
  · exact SortedMap.erase_modify_comm hj _ _
  · exact SortedMap.find?_modify_of_ne (Ne.symm hj) _ _
  · intro i call hi hFind
    rcases SortedMap.find?_modify_eq_some hFind with ⟨rfl, old, hOld, rfl⟩ | ⟨-, hOld⟩
    · have hApart := h.lone.calls i old hi hOld
      exact ⟨hApart.uid, hApart.listeners⟩
    · exact h.lone.calls i call hi hOld

end Others

/-! ## Entries of others -/

/-- What comes of sending a message on a connection. -/
def sending (n : Node) (c : ConnectionId) (message : Message) : Except WireError Unit :=
  match n.connections.find? c with
  | none => .error .notConnected
  | some connection =>
    if connection.outstanding.isSome then (Parcel.message message).sent connection.reachable
    else .error .notConnected

/-- A request that cannot be sent leaves nothing behind. -/
theorem sendRequest_eq_sending (n : Node) (c : ConnectionId) (message : Message)
    (ls : List (Listener Target)) :
    n.sendRequest c message ls =
      match n.sending c message with
      | .error e => (.error e, n)
      | .ok () => (.ok (), (n.expect c message.uid ls).emit (.send c (.message message))) := by
  unfold sendRequest sending
  cases hFind : n.connections.find? c with
  | none => rfl
  | some connection =>
    cases hTable : connection.outstanding with
    | none =>
      simp only [hTable]
      rfl
    | some t =>
      have hExpect : n.expect c message.uid ls = n.modifyConnection c fun connection =>
          { connection with outstanding := some (t.insert message.uid ls) } := by
        unfold expect modifyConnection
        congr 1
        apply SortedMap.modify_congr
        intro connection' hFind'
        obtain rfl := Option.some.inj (hFind.symm.trans hFind')
        rw [hTable, Option.map_some]
      simp only [hTable, Option.isSome_some, if_true, hExpect]
      cases (Parcel.message message).sent connection.reachable <;> rfl

theorem sending_without (message : Message) :
    (n.without q).sending c message = n.sending c message := by
  obtain ⟨f, hFind, hSame⟩ := exists_find?_without n q c
  unfold sending
  rw [hFind]
  cases n.connections.find? c with
  | none => rfl
  | some connection =>
    obtain ⟨outstanding, hEq, hSome⟩ := hSame connection
    simp only [Option.map_some, hEq, hSome]

theorem without_modifyConnection {f : Connection → Connection}
    (h : c = q.connection → ∀ connection, q.strip (f connection) = f (q.strip connection)) :
    (n.modifyConnection c f).without q = (n.without q).modifyConnection c f := by
  unfold without modifyConnection
  congr 1
  by_cases hc : c = q.connection
  · subst hc
    rw [SortedMap.modify_modify, SortedMap.modify_modify]
    simp only [h rfl]
  · exact SortedMap.modify_modify_comm hc _ _ _

section Entries

/-- Entries of others on a connection are changed. -/
theorem Hosts.reconnect (h : n.Hosts q φ m) {f : Connection → Connection}
    (hStrip : c = q.connection → ∀ connection, q.strip (f connection) = f (q.strip connection))
    (hStage : ∀ connection, (f connection).stage = connection.stage)
    (hReading : ∀ connection, (f connection).reading = connection.reading)
    (hSome : ∀ connection, ((f connection).outstanding).isSome = connection.outstanding.isSome)
    (hEntry : (n.modifyConnection c f).waiting? q.connection q.uid = n.waiting? q.connection q.uid)
    (hTables : ∀ connection t, (f connection).outstanding = some t → ∀ e ∈ t.entries,
      q.Ignores c e ∨ ∃ old, connection.outstanding = some old ∧ e ∈ old.entries) :
    (n.modifyConnection c f).Hosts q φ (m.modifyConnection c f) := by
  obtain rfl := h.same
  refine ⟨without_modifyConnection hStrip, ⟨h.lone.calls, ?_, h.lone.next⟩, ?_, ?_⟩
  · intro c' t hTable e hMem
    by_cases hc : c' = c
    · subst hc
      unfold table? at hTable
      rw [find?_modifyConnection_self, Option.bind_map] at hTable
      obtain ⟨connection, hFind, hTable⟩ := Option.bind_eq_some_iff.mp hTable
      rcases hTables connection t hTable e hMem with hOthers | ⟨old, hOld, hMem⟩
      · exact .inr hOthers
      · refine h.lone.tables c' old ?_ e hMem
        rw [table?, hFind]
        exact hOld
    · refine h.lone.tables c' t ?_ e hMem
      unfold table? at hTable ⊢
      rwa [find?_modifyConnection_of_ne _ hc] at hTable
  · exact h.shows.congr rfl hEntry rfl rfl
  · by_cases hc : c = q.connection
    · subst hc
      exact h.transponds.modify hStage hReading hSome
    · obtain ⟨connection, hFind, hState⟩ := h.transponds
      exact ⟨connection, by rwa [find?_modifyConnection_of_ne _ (Ne.symm hc)], hState⟩

theorem Hosts.expect (h : n.Hosts q φ m) (c : ConnectionId) (hUid : uid ≠ q.uid)
    {ls : List (Listener Target)} (hls : ∀ l ∈ ls, l.target.call? ≠ some q.call) :
    (n.expect c uid ls).Hosts q φ (m.expect c uid ls) := by
  apply h.reconnect
  · intro _ connection
    cases hTable : connection.outstanding with
    | none => simp only [Query.strip, hTable, Option.map_none]
    | some t =>
      simp only [Query.strip, hTable, Option.map_some, Outstanding.insert, Outstanding.erase]
      simp [hUid, List.filter_filter, Bool.and_comm]
  · exact fun _ => rfl
  · exact fun _ => rfl
  · exact fun _ => Option.isSome_map
  · by_cases hc : q.connection = c
    · subst hc
      exact waiting?_expect_of_ne (Ne.symm hUid)
    · unfold waiting? table?
      rw [find?_modifyConnection_of_ne _ hc]
  · intro connection t hTable e hMem
    obtain ⟨old, hOld, rfl⟩ := Option.map_eq_some_iff.mp hTable
    rcases List.mem_append.mp hMem with hMem | hMem
    · exact .inr ⟨old, hOld, (List.mem_filter.mp hMem).1⟩
    · rw [List.mem_singleton.mp hMem]
      exact .inl ⟨fun _ => hUid, hls⟩

theorem Hosts.withdraw (h : n.Hosts q φ m) (c : ConnectionId) (hUid : uid ≠ q.uid) :
    (n.withdraw c uid).Hosts q φ (m.withdraw c uid) := by
  apply h.reconnect
  · intro _ connection
    simp only [Query.strip, Option.map_map]
    congr 2
    funext t
    simp [Outstanding.erase, List.filter_filter, Bool.and_comm]
  · exact fun _ => rfl
  · exact fun _ => rfl
  · exact fun _ => Option.isSome_map
  · by_cases hc : q.connection = c
    · subst hc
      exact waiting?_withdraw_of_ne (Ne.symm hUid)
    · unfold waiting? table?
      rw [find?_modifyConnection_of_ne _ hc]
  · intro connection t hTable e hMem
    obtain ⟨old, hOld, rfl⟩ := Option.map_eq_some_iff.mp hTable
    exact .inr ⟨old, hOld, (List.mem_filter.mp hMem).1⟩

/-- The other end of a connection hangs up. -/
theorem Hosts.lose (h : n.Hosts q φ m) (c : ConnectionId) :
    (n.handle (.lose c)).Hosts q φ (m.handle (.lose c)) := by
  apply h.reconnect (f := fun connection => { connection with reachable := false }) (fun _ _ => rfl)
    (fun _ => rfl) (fun _ => rfl) fun _ => rfl
  · by_cases hc : q.connection = c
    · subst hc
      unfold waiting? table?
      rw [find?_modifyConnection_self, Option.bind_map]
      rfl
    · unfold waiting? table?
      rw [find?_modifyConnection_of_ne _ hc]
  · exact fun connection t hTable e hMem => .inr ⟨t, hTable, hMem⟩

theorem Hosts.waiting? (h : n.Hosts q φ m) (hUid : uid ≠ q.uid) :
    m.waiting? c uid = n.waiting? c uid := by
  rw [← h.same]
  exact waiting?_without (.inr hUid)

/-- Listeners of another request do not answer the call. -/
theorem Hosts.listeners (h : n.Hosts q φ m) (hUid : uid ≠ q.uid) {ls : List (Listener Target)}
    (hWaiting : n.waiting? c uid = some ls) : ∀ l ∈ ls, l.target.call? ≠ some q.call := by
  obtain ⟨t, hTable, hFind⟩ := Option.bind_eq_some_iff.mp hWaiting
  obtain ⟨entry, hEntry, rfl⟩ := Option.map_eq_some_iff.mp hFind
  have hOwn : entry.1 = uid := by simpa using List.find?_some hEntry
  rcases h.lone.tables c t hTable entry (List.mem_of_find?_eq_some hEntry) with ⟨-, rfl⟩ | hOther
  · exact absurd hOwn.symm hUid
  · exact hOther.listeners

theorem Hosts.forget (h : n.Hosts q φ m) (c : ConnectionId) (hUid : uid ≠ q.uid) :
    (n.forget c uid).2.Hosts q φ (m.forget c uid).2 := by
  rw [forget_eq, forget_eq, h.waiting? hUid]
  split
  · exact h
  next hWaiting => exact (h.withdraw c hUid).abandon (h.listeners hUid hWaiting)

theorem Hosts.takeResponse (h : n.Hosts q φ m) (c : ConnectionId) {message : Message}
    (hUid : message.uid ≠ q.uid) :
    (n.takeResponse c message).Hosts q φ (m.takeResponse c message) := by
  rw [takeResponse_eq, takeResponse_eq, h.waiting? hUid]
  split
  · exact h
  next ls hWaiting =>
    have hls := h.listeners hUid hWaiting
    split
    next l hChosen =>
      apply (h.withdraw c hUid).emit
      obtain ⟨before, after, rfl, -⟩ := Outstanding.chosen?_eq_some_iff.mp hChosen
      simpa [Effect.isAbout] using hls l (by simp)
    · exact (h.withdraw c hUid).abandon hls

end Entries

/-! ## Calls of others -/

section Calls

theorem Hosts.lapse (h : n.Hosts q φ m) (hj : j ≠ q.call) (cause : Call → ServiceError) :
    (n.lapse j cause).Hosts q φ (m.lapse j cause) := by
  unfold Node.lapse
  rw [h.find?_calls hj]
  split
  · exact h
  next call hCall =>
    split
    · exact (h.finish hj _).forget _ (h.lone.calls j call hj hCall).uid
    · exact h

theorem Hosts.transmit (h : n.Hosts q φ m) (hj : j ≠ q.call) (c : ConnectionId) :
    (n.transmit j c).Hosts q φ (m.transmit j c) := by
  have hSending : ∀ message, m.sending c message = n.sending c message := by
    rw [← h.same]
    exact fun message => sending_without message
  have hTimer : ∀ delay, (Effect.timer delay (.overdue j)).isAbout q.call = false := by
    simpa [Effect.isAbout] using hj
  unfold Node.transmit
  rw [h.find?_calls hj]
  cases hCall : n.calls.find? j with
  | none => exact h
  | some call =>
    have hApart := h.lone.calls j call hj hCall
    simp only [sendRequest_eq_sending, hSending]
    cases n.sending c call.message with
    | error e => exact h.finish hj _
    | ok done =>
      have hSent := (h.expect c hApart.uid hApart.listeners).emit
        (e := .send c (.message call.message)) rfl
      simp only
      split
      · exact hSent.finish hj _
      · split
        · exact hSent.finish hj _
        · split
          · exact (hSent.modifyCall hj _).lapse hj _
          · exact (hSent.modifyCall hj _).emit (hTimer _)

theorem Hosts.release (h : n.Hosts q φ m) (s : SessionId) :
    (n.release s).Hosts q φ (m.release s) := by
  have hSessions : m.sessions = n.sessions := by rw [← h.same]; rfl
  unfold Node.release
  rw [hSessions]
  split
  · exact h
  · dsimp only
    split
    · exact h.modifySession s _
    · exact (h.modifySession s _).emit rfl

theorem Hosts.failToConnect (h : n.Hosts q φ m) (s : SessionId) (hj : j ≠ q.call)
    (cause : ServiceError) :
    (n.failToConnect s j cause).Hosts q φ (m.failToConnect s j cause) :=
  ((h.fire s _).finish hj _).release s

theorem Hosts.dial (h : n.Hosts q φ m) (s : SessionId) (hj : j ≠ q.call) (host : PeerAddress) :
    (n.dial s j host).Hosts q φ (m.dial s j host) := by
  have hRoutes : m.routes = n.routes := by rw [← h.same]; rfl
  have hCancelled : m.dialsCancelled = n.dialsCancelled := by rw [← h.same]; rfl
  unfold Node.dial
  rw [hRoutes]
  split
  · exact h.failToConnect s hj _
  · unfold Node.dialAt
    rw [hCancelled]
    split
    · exact h.failToConnect s hj _
    · exact (h.modifyCall hj _).emit rfl

theorem Hosts.connect (h : n.Hosts q φ m) (s : SessionId) (hj : j ≠ q.call) (host : PeerAddress) :
    (n.connect s j host).Hosts q φ (m.connect s j host) := by
  have hConnects : m.connects = n.connects := by rw [← h.same]; rfl
  have hOpen : m.openConnection? s = n.openConnection? s := by
    rw [← h.same]
    exact openConnection?_without
  unfold Node.connect
  rw [hConnects, hOpen]
  split
  · exact (h.release s).transmit hj _
  · split
    · exact h.dial s hj host
    · exact h.failToConnect s hj _

theorem Hosts.begin (h : n.Hosts q φ m) (hj : j ≠ q.call) :
    (n.begin j).Hosts q φ (m.begin j) := by
  have hSessions : m.sessions = n.sessions := by rw [← h.same]; rfl
  have hOpen : ∀ s, m.openConnection? s = n.openConnection? s := by
    rw [← h.same]
    exact fun s => openConnection?_without
  unfold Node.begin
  rw [h.find?_calls hj, hSessions]
  simp only [hOpen]
  split
  · exact h
  · split
    · exact h.transmit hj _
    · exact h
    · split
      · exact h.finish hj _
      · split
        · exact h.modifySession _ _
        · exact (h.modifySession _ _).connect _ hj _

theorem Hosts.commit (h : n.Hosts q φ m) (change : Directory.Change) :
    (n.commit change).Hosts q φ (m.commit change) := by
  have hDirectory : { n with directory := change.1 }.Hosts q φ { m with directory := change.1 } := by
    obtain rfl := h.same
    exact h.frame rfl rfl rfl (Nat.le_refl _) rfl
  unfold Node.commit
  generalize change.2 = events
  revert hDirectory
  generalize ({ n with directory := change.1 } : Node) = n'
  generalize ({ m with directory := change.1 } : Node) = m'
  intro hDirectory
  induction events generalizing n' m' with
  | nil => exact hDirectory
  | cons event events ih => exact ih _ _ (hDirectory.emit rfl)

/-- A listener of somebody else takes a response. -/
theorem Hosts.deliver (h : n.Hosts q φ m) {l : Listener Target}
    (hl : l.target.call? ≠ some q.call) (message : Message) :
    (n.deliver l message).Hosts q φ (m.deliver l message) := by
  have hDirectory : m.directory = n.directory := by rw [← h.same]; rfl
  unfold Node.deliver
  split
  next k form hTarget =>
    have hk : k ≠ q.call := by simpa [hTarget, Target.call?] using hl
    exact h.finish hk _
  next k peer hTarget =>
    have hk : k ≠ q.call := by simpa [hTarget, Target.call?] using hl
    unfold Node.takeExchange
    rw [hDirectory]
    split
    · exact h.finish hk _
    · split
      · exact h.finish hk _
      · exact (h.commit _).finish hk _
  · exact h.emit rfl

end Calls

end Node

end PeerServices
