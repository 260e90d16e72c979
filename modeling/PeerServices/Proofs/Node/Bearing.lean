import PeerServices.Proofs.Directory.Separation
import PeerServices.Proofs.Node.Addressing

/-!
# What a move does to the directory

A node changes its directory on its owner's word, and on what comes by the sessions for exchanges.
Everything else that happens to it leaves the directory as it is.

* `Node.operation?`: what a move comes to, seen from the directory.
* `Node.make_spec`: it comes to that, and the node stays addressed.
* `Node.Reachable.addressed`: so every node in its course is.
-/

namespace PeerServices.Node

open Directory (Operation)

/-! ## Operations -/

/-- The session for exchanges that takes the messages of an open connection. -/
def exchanging? (n : Node) (c : ConnectionId) : Option SessionId := do
  let connection ← n.connections.find? c
  let s ← connection.session
  let session ← n.sessions.find? s
  match session.behaviour with
  | .exchange => if connection.isOpen && connection.reading then some s else none
  | .application .. => none

/-- What a request comes to on a session for exchanges with this peer at the other side. -/
def asked? (peer? : Option PeerAddress) (m : Message) : Option Operation :=
  if m.code = exchangeCode then
    match peer?, m.get GrantSet with
    | some p, .ok (data, _) => some (.receiveExchange p data)
    | _, _ => none
  else none

/-- What a frame comes to on such a session. A response is given to its listener first. -/
def heard? (peer? : Option PeerAddress) (frame : Received) : Option Operation :=
  match Frame.decode Message frame with
  | .ok m => if m.isRequest then asked? peer? m else none
  | .error _ => none

/-- What a response comes to when its listener takes it. -/
def answered? (target : Target) (m : Message) : Option Operation :=
  match target, Reply.failure? m, m.readWith exchangeAnswer with
  | .exchange _ p, none, .ok (data, _) => some (.exchanged p data)
  | _, _, _ => none

/-- What a move does to the directory. -/
def operation? (n : Node) : Move → Option Operation
  | .event (.receive c frame) => (n.exchanging? c).bind fun s => heard? (n.peerOf? s) frame
  | .event (.deliver listener m) => answered? listener.target m
  | .add r => some (.add r)
  | .update r => some (.update r)
  | .grant p ids descriptors => some (.grant p ids descriptors)
  | .delete p => some (.delete p)
  | .deleteService side service => some (.deleteService side service)
  | .purge service => some (.purge service)
  | .deactivate id => (n.services.find? id).map fun service => .purge service.address
  | _ => none

variable {n n' n'' : Node} {c : ConnectionId} {s : SessionId} {connection : Connection}

theorem exchanging?_eq_some : n.exchanging? c = some s ↔ ∃ connection session,
    n.connections.find? c = some connection ∧ connection.isOpen = true ∧
      connection.reading = true ∧ connection.session = some s ∧
      n.sessions.find? s = some session ∧ session.behaviour = .exchange := by
  unfold exchanging?
  simp only [Option.bind_eq_bind, Option.bind_eq_some_iff]
  constructor
  · rintro ⟨connection, hFind, s', hAttached, session, hSession, hKind⟩
    split at hKind
    next hBehaviour =>
      obtain ⟨hTakes, hSame⟩ := Option.ite_none_right_eq_some.mp hKind
      obtain ⟨hOpen, hReading⟩ := Bool.and_eq_true_iff.mp hTakes
      obtain rfl := Option.some.inj hSame
      exact ⟨connection, session, hFind, hOpen, hReading, hAttached, hSession, hBehaviour⟩
    · cases hKind
  · rintro ⟨connection, session, hFind, hOpen, hReading, hAttached, hSession, hBehaviour⟩
    refine ⟨connection, hFind, s, hAttached, session, hSession, ?_⟩
    simp only [hBehaviour, hOpen, hReading, Bool.and_self, if_true]

/-- A connection whose messages nobody takes brings none to a session for exchanges. -/
theorem exchanging?_of_deaf (hFind : n.connections.find? c = some connection)
    (h : connection.isOpen = true → connection.reading ≠ true) : n.exchanging? c = none := by
  rw [Option.eq_none_iff_forall_ne_some]
  intro s hSome
  obtain ⟨known, _, hKnown, hOpen, hReading, -⟩ := exchanging?_eq_some.mp hSome
  obtain rfl := Option.some.inj (hFind.symm.trans hKnown)
  exact h hOpen hReading

/-! ## Steps that do nothing but that -/

/-- No connection comes nearer to being open, and the directory is put through an operation, or
through none. -/
def Performs (n n' : Node) (op? : Option Operation) : Prop :=
  Wanes { n with directory := n.directory.perform? op? } n'

theorem Performs.of_wanes (h : Wanes n n') : Performs n n' none := h

theorem Performs.trans {op? : Option Operation} (h : Performs n n' op?) (h' : Wanes n' n'') :
    Performs n n'' op? := Wanes.trans h h'

theorem Performs.spec {op? : Option Operation} (h : Performs n n' op?) (hAddressed : n.Addressed) :
    n'.Addressed ∧ n'.directory = n.directory.perform? op? :=
  ⟨(hAddressed.withDirectory _).wanes h, h.directory⟩

/-- A change of the directory is told. -/
theorem performs_commit (n : Node) {change : Directory.Change} {op? : Option Operation}
    (h : change.1 = n.directory.perform? op?) : Performs n (n.commit change) op? := by
  unfold Performs
  rw [← h]
  exact wanes_commit n change

/-- An operation that is refused. -/
theorem performs_refused {op : Operation} (h : n.directory.perform op = n.directory) :
    Performs n n (some op) := by
  change Wanes { n with directory := n.directory.perform op } n
  rw [h]
  exact .refl n

/-! ## Messages -/

theorem performs_answerExchange (n : Node) (peer? : Option PeerAddress) {m : Message}
    (hCode : m.code = exchangeCode) :
    Performs n (n.answerExchange peer? m).2 (asked? peer? m) := by
  unfold answerExchange asked?
  rw [if_pos hCode]
  cases peer? with
  | none => exact .of_wanes (.refl n)
  | some p =>
    dsimp only
    cases m.get GrantSet with
    | error e => exact .of_wanes (.refl n)
    | ok read =>
      obtain ⟨data, m'⟩ := read
      dsimp only
      cases hReceive : n.directory.receiveExchange p data with
      | error e =>
        apply performs_refused
        simp only [Directory.perform, hReceive]
      | ok answer =>
        obtain ⟨reply, change⟩ := answer
        apply performs_commit
        simp only [Directory.perform?, Option.elim_some, Directory.perform, hReceive]

/-- A request comes to an exchange only on a session for exchanges. -/
theorem performs_dispatch (hFind : n.connections.find? c = some connection)
    (hOpen : connection.isOpen = true) (hReading : connection.reading = true) (m : Message) :
    Performs n (n.dispatch c m) ((n.exchanging? c).bind fun s => asked? (n.peerOf? s) m) := by
  unfold dispatch
  rw [hFind, Option.bind_some]
  cases hAttached : connection.session with
  | none =>
    have hNone : n.exchanging? c = none := by
      simp [exchanging?, hFind, hAttached]
    rw [hNone]
    exact .of_wanes (.refl n)
  | some s =>
    dsimp only
    cases hSession : n.sessions.find? s with
    | none =>
      have hNone : n.exchanging? c = none := by
        simp [exchanging?, hFind, hAttached, hSession]
      rw [hNone]
      exact .of_wanes (wanes_respond n c _)
    | some session =>
      rw [Option.map_some]
      cases hBehaviour : session.behaviour with
      | exchange =>
        have hSome : n.exchanging? c = some s := exchanging?_eq_some.mpr
          ⟨connection, session, hFind, hOpen, hReading, hAttached, hSession, hBehaviour⟩
        rw [hSome, Option.bind_some]
        dsimp only
        split
        next hCode =>
          have hAnswered := performs_answerExchange n (n.peerOf? s) hCode
          generalize n.answerExchange (n.peerOf? s) m = answered at hAnswered ⊢
          obtain ⟨answer, n'⟩ := answered
          cases answer with
          | ok response => exact hAnswered.trans (wanes_respond n' c _)
          | error text => exact hAnswered.trans (wanes_respond n' c _)
        next hCode =>
          have hNone : asked? (n.peerOf? s) m = none := if_neg hCode
          rw [hNone]
          exact .of_wanes (wanes_respond n c _)
      | application handlers closes =>
        have hNone : n.exchanging? c = none := by
          simp [exchanging?, hFind, hAttached, hSession, hBehaviour]
        rw [hNone, Option.bind_none]
        -- Whatever a handler answers, it may close its session and reaches nothing else.
        apply Performs.of_wanes
        dsimp only
        split
        · exact wanes_respond n c _
        next handler _ =>
          generalize handler _ m = reaction
          generalize hClosed : (if reaction.closes = true then _ else _ : Node) = closed
          have hCloses : Wanes n closed := by
            subst hClosed
            split
            · exact wanes_closeSession n s
            · exact .refl n
          split
          · exact hCloses.trans (wanes_respond closed c _)
          · exact hCloses
          · exact hCloses.trans (wanes_respond closed c _)

theorem performs_takeMessage (hFind : n.connections.find? c = some connection)
    (hOpen : connection.isOpen = true) (hReading : connection.reading = true) (frame : Received) :
    Performs n (n.takeMessage c frame)
      ((n.exchanging? c).bind fun s => heard? (n.peerOf? s) frame) := by
  unfold takeMessage
  split
  next m hFrame =>
    have hHeard : ∀ peer?, heard? peer? frame = if m.isRequest then asked? peer? m else none :=
      fun _ => by rw [heard?, hFrame]
    simp only [hHeard]
    split
    · exact performs_dispatch hFind hOpen hReading m
    · rw [Option.bind_fun_none]
      exact .of_wanes (wanes_takeResponse n c m)
  next hFrame =>
    have hHeard : ∀ peer?, heard? peer? frame = none := fun _ => by rw [heard?, hFrame]
    simp only [hHeard, Option.bind_fun_none]
    exact .of_wanes (.refl n)
  next hFrame =>
    have hHeard : ∀ peer?, heard? peer? frame = none := fun _ => by rw [heard?, hFrame]
    simp only [hHeard, Option.bind_fun_none]
    exact .of_wanes (wanes_stopReading n c _)

/-- A connection that was closed has no session to take its messages. -/
theorem wanes_takeMessage (hFind : n.connections.find? c = some connection)
    (hIdle : connection.IsIdle) (frame : Received) : Wanes n (n.takeMessage c frame) := by
  unfold takeMessage
  split
  · split
    · unfold dispatch
      rw [hFind, Option.bind_some, hIdle.session]
      exact .refl n
    · exact wanes_takeResponse n c _
  · exact .refl n
  · exact wanes_stopReading n c _

theorem receive_spec (hSound : n.Sound) (hAddressed : n.Addressed) (c : ConnectionId)
    (frame : Received) : (n.receive c frame).Addressed ∧ (n.receive c frame).directory =
      n.directory.perform? (n.operation? (.event (.receive c frame))) := by
  change _ ∧ _ = n.directory.perform? ((n.exchanging? c).bind fun s => heard? (n.peerOf? s) frame)
  unfold receive
  cases hFind : n.connections.find? c with
  | none =>
    have hNone : n.exchanging? c = none := by simp [exchanging?, hFind]
    rw [hNone]
    exact ⟨hAddressed, rfl⟩
  | some connection =>
    dsimp only
    have hNot : connection.isOpen = false → n.exchanging? c = none := by
      intro hShut
      apply exchanging?_of_deaf hFind
      rw [hShut]
      exact nofun
    have hHeeds : connection.isSettled = false → ∀ n', Heeds n n' →
        n'.Addressed ∧ n'.directory = n.directory.perform?
          ((n.exchanging? c).bind fun s => heard? (n.peerOf? s) frame) := by
      intro hUnsettled n' hHeeds
      rw [hNot (Connection.isOpen_of_unsettled hUnsettled)]
      exact (hHeeds hSound hAddressed).2
    cases hStage : connection.stage with
    | naming issued =>
      have hUnsettled : connection.isSettled = false := by rw [Connection.isSettled, hStage]
      exact hHeeds hUnsettled _ (heeds_nameService hFind hUnsettled issued frame)
    | accepting s rest =>
      have hUnsettled : connection.isSettled = false := by rw [Connection.isSettled, hStage]
      have hReserved := hSound.linked.accepting c connection s rest hFind hStage
      exact hHeeds hUnsettled _ (heeds_converseAccepting hFind hUnsettled hReserved
        (hAddressed.unasked hFind hStage) _)
    | connecting s k rest =>
      have hUnsettled : connection.isSettled = false := by rw [Connection.isSettled, hStage]
      have hProxies := hSound.linked.connecting c connection s k rest hFind hStage
      exact hHeeds hUnsettled _ (heeds_converseConnecting hFind hUnsettled hProxies
        (hAddressed.connecting c connection s k rest hFind hStage) _)
    | opened =>
      have hOpen : connection.isOpen = true := by rw [Connection.isOpen, hStage]
      dsimp only
      split
      next hReading => exact (performs_takeMessage hFind hOpen hReading frame).spec hAddressed
      next hSilent =>
        rw [exchanging?_of_deaf hFind fun _ => hSilent]
        exact ⟨hAddressed, rfl⟩
    | closed =>
      have hShut : connection.isOpen = false := by rw [Connection.isOpen, hStage]
      rw [hNot hShut]
      dsimp only
      split
      · have hWanes := wanes_takeMessage hFind (hAddressed.idle c connection hFind hShut) frame
        exact (Performs.of_wanes hWanes).spec hAddressed
      · exact ⟨hAddressed, rfl⟩

theorem performs_deliver (n : Node) (listener : Listener Target) (m : Message) :
    Performs n (n.deliver listener m) (answered? listener.target m) := by
  unfold deliver answered?
  cases listener.target with
  | reply k form => exact .of_wanes (wanes_finish n k _)
  | report => exact .of_wanes (wanes_emit n _)
  | exchange k p =>
    dsimp only
    unfold takeExchange
    cases Reply.failure? m with
    | some e => exact .of_wanes (wanes_finish n k _)
    | none =>
      dsimp only
      cases m.readWith exchangeAnswer with
      | error e => exact .of_wanes (wanes_finish n k _)
      | ok read =>
        obtain ⟨data, m'⟩ := read
        have hTold : Performs n (n.commit (n.directory.exchanged p data))
            (some (.exchanged p data)) := performs_commit n rfl
        exact hTold.trans (wanes_finish _ k _)

/-! ## Moves -/

/-- The owner's word on a peer is refused, or it is done and the peer hears of it soon. -/
theorem performs_word (word : Except NodeError Directory.Change) (p : PeerAddress) {op : Operation}
    (hRefused : ∀ e, word = .error e → n.directory.perform op = n.directory ∧ n' = n)
    (hDone : ∀ change, word = .ok change → n.directory.perform op = change.1 ∧
      n' = (n.commit change).exchangeSoon p) : Performs n n' (some op) := by
  cases word with
  | error e =>
    obtain ⟨hSame, rfl⟩ := hRefused e rfl
    exact performs_refused hSame
  | ok change =>
    obtain ⟨hPerform, rfl⟩ := hDone change rfl
    have hTold : Performs n (n.commit change) (some op) := performs_commit n hPerform.symm
    exact hTold.trans (wanes_emit _ _)

theorem performs_update (n : Node) (r : PeerRecord) :
    Performs n (n.make (.update r)) (some (.update r)) := by
  apply performs_word (n.directory.update r) r.address
  · intro e hUpdate
    simp only [Directory.perform, make, update, hUpdate, true_and]
    rfl
  · intro change hUpdate
    simp only [Directory.perform, make, update, hUpdate, true_and]
    rfl

theorem performs_grant (n : Node) (p : PeerAddress) (ids : List ServiceId)
    (descriptors : List Descriptor) :
    Performs n (n.make (.grant p ids descriptors)) (some (.grant p ids descriptors)) := by
  apply performs_word (n.directory.grant p ids descriptors) p
  · intro e hGrant
    simp only [Directory.perform, make, grant, hGrant, true_and]
    rfl
  · intro change hGrant
    simp only [Directory.perform, make, grant, hGrant, true_and]
    rfl

/-- What happened is told afterwards. -/
theorem wanes_tell (n : Node) (events : List DirectoryEvent) :
    Wanes n (n.commit (n.directory, events)) := wanes_commit n (n.directory, events)

theorem performs_delete (n : Node) (p : PeerAddress) :
    Performs n (n.delete p) (some (.delete p)) := by
  have hErased : Performs n { n with
      directory := (n.directory.delete p).1, exchanges := n.exchanges.erase p }
        (some (.delete p)) := Wanes.of_eq rfl rfl rfl (Nat.le_refl _) rfl
  unfold delete
  cases n.exchanges.find? p with
  | none => exact hErased.trans (wanes_tell _ _)
  | some s => exact (hErased.trans (wanes_closeSession _ s)).trans (wanes_tell _ _)

theorem performs_deactivate (n : Node) (id : ServiceId) :
    Performs n (n.deactivate id) (n.operation? (.deactivate id)) := by
  change Performs n (n.deactivate id) ((n.services.find? id).map fun service =>
    .purge service.address)
  unfold deactivate
  cases n.services.find? id with
  | none => exact .of_wanes (.refl n)
  | some service =>
    have hUnlisted : Wanes { n with directory := (n.directory.purge service.address).1 }
        { n.unlist id with directory := (n.directory.purge service.address).1 } :=
      .of_eq rfl rfl rfl (Nat.le_refl _) rfl
    exact hUnlisted.trans (wanes_commit (n.unlist id) _)

theorem wanes_closeExchanges (n : Node) : Wanes n n.closeExchanges := by
  have hForgotten : Wanes n { n with exchanges := .empty } := .of_eq rfl rfl rfl (Nat.le_refl _) rfl
  exact hForgotten.trans (wanes_foldl (fun n s => wanes_closeSession n s) _ _)

theorem wanes_leave (n : Node) : Wanes n n.leave := by
  apply (wanes_closeExchanges n).trans
  apply Wanes.trans _ (wanes_closeAll _)
  exact .of_eq rfl rfl rfl (Nat.le_refl _) rfl

theorem wanes_shutdown (n : Node) : Wanes n n.shutdown := by
  unfold shutdown
  split
  · exact .refl n
  · exact (wanes_cancelDials n).trans (wanes_leave _)

theorem wanes_post (n : Node) (c : ConnectionId) (code : UInt8) (payload : Bytes)
    (codes : List UInt8) : Wanes n (n.post c code payload codes).2.2 := by
  apply (wanes_skipCall n).trans
  apply wanes_sendRequest
  intro connection _ l hMem p hPeer
  obtain ⟨code', -, rfl⟩ := List.mem_map.mp hMem
  cases hPeer

theorem Heeds.spec (h : Heeds n n') (hSound : n.Sound) (hAddressed : n.Addressed) :
    n'.Addressed ∧ n'.directory = n.directory.perform? none := (h hSound hAddressed).2

theorem handle_spec (hSound : n.Sound) (hAddressed : n.Addressed) {e : Event} (h : n.Allows e) :
    (n.handle e).Addressed ∧
      (n.handle e).directory = n.directory.perform? (n.operation? (.event e)) := by
  cases e with
  | receive c frame => exact receive_spec hSound hAddressed c frame
  | deliver listener m => exact (performs_deliver n listener m).spec hAddressed
  | accept line => exact (heeds_accept h).spec hSound hAddressed
  | lose c =>
    have hLost : Wanes n (n.modifyConnection c fun connection =>
        { connection with reachable := false }) :=
      wanes_modifyConnection fun old _ => .of_stage rfl rfl rfl id fun _ hMem _ _ => .inl hMem
    exact (Performs.of_wanes hLost).spec hAddressed
  | expire c => exact (Performs.of_wanes (wanes_expire n c)).spec hAddressed
  | «begin» k => exact (heeds_begin n k).spec hSound hAddressed
  | proceed k => exact (heeds_proceed (hSound.calling.released k h)).spec hSound hAddressed
  | dialled k outcome =>
    have hNew : ∀ line, outcome = .ok line → n.connections.find? line.id = none := by
      rintro line rfl
      exact h
    exact (heeds_endDial n k outcome hNew).spec hSound hAddressed
  | redial k => exact (Performs.of_wanes (wanes_redial n k)).spec hAddressed
  | overdue k => exact (Performs.of_wanes (wanes_lapse n k _)).spec hAddressed
  | unwritten k => exact (Performs.of_wanes (wanes_lapse n k _)).spec hAddressed
  | exchange p => exact (heeds_exchange n p).spec hSound hAddressed

/-- A move does to the directory what it comes to, and nothing else. -/
theorem make_spec (hSound : n.Sound) (hAddressed : n.Addressed) {m : Move} (h : n.Permits m) :
    (n.make m).Addressed ∧ (n.make m).directory = n.directory.perform? (n.operation? m) := by
  cases m with
  | event e => exact handle_spec hSound hAddressed h
  | add r =>
    have hTold : Performs n (n.commit (n.directory.add r)) (some (.add r)) := performs_commit n rfl
    exact (hTold.trans (wanes_emit _ _)).spec hAddressed
  | update r => exact (performs_update n r).spec hAddressed
  | grant p ids descriptors => exact (performs_grant n p ids descriptors).spec hAddressed
  | delete p => exact (performs_delete n p).spec hAddressed
  | deleteService side service =>
    have hTold : Performs n (n.commit (n.directory.deleteService side service))
        (some (.deleteService side service)) := performs_commit n rfl
    exact hTold.spec hAddressed
  | purge service =>
    have hTold : Performs n (n.commit (n.directory.purge service)) (some (.purge service)) :=
      performs_commit n rfl
    exact hTold.spec hAddressed
  | deactivate id => exact (performs_deactivate n id).spec hAddressed
  | proxy address mode behaviour =>
    exact ⟨hAddressed.newSession hSound ⟨rfl, rfl⟩, rfl⟩
  | request s timeout code payload forms resolved =>
    have hWanes := wanes_request n s timeout code payload forms resolved
    exact (Performs.of_wanes hWanes).spec hAddressed
  | post c code payload codes =>
    exact (Performs.of_wanes (wanes_post n c code payload codes)).spec hAddressed
  | close s => exact (Performs.of_wanes (wanes_closeSession n s)).spec hAddressed
  | activate service | unlist id | restrict connects exchangeConnects =>
    refine Performs.spec (show Performs n _ none from ?_) hAddressed
    exact Wanes.of_eq rfl rfl rfl (Nat.le_refl _) rfl
  | route p socket =>
    refine Performs.spec (show Performs n _ none from ?_) hAddressed
    cases socket <;> exact Wanes.of_eq rfl rfl rfl (Nat.le_refl _) rfl
  | cancelDials => exact (Performs.of_wanes (wanes_cancelDials n)).spec hAddressed
  | closeExchanges => exact (Performs.of_wanes (wanes_closeExchanges n)).spec hAddressed
  | leave => exact (Performs.of_wanes (wanes_leave n)).spec hAddressed
  | shutdown => exact (Performs.of_wanes (wanes_shutdown n)).spec hAddressed

theorem Reachable.addressed (h : n.Reachable) : n.Addressed := by
  induction h with
  | blank h => exact h.addressed
  | make hBefore m hPermits ih => exact (make_spec hBefore.sound ih hPermits).1

theorem Reachable.directory_make (h : n.Reachable) {m : Move} (hPermits : n.Permits m) :
    (n.make m).directory = n.directory.perform? (n.operation? m) :=
  (make_spec h.sound h.addressed hPermits).2

theorem Reachable.keyed_make (h : n.Reachable) {m : Move} (hPermits : n.Permits m)
    (hKeyed : n.directory.Keyed) : (n.make m).directory.Keyed := by
  rw [h.directory_make hPermits]
  cases n.operation? m with
  | none => exact hKeyed
  | some op => exact hKeyed.perform op

end PeerServices.Node
