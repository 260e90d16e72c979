import PeerServices.Proofs.Codec.Wording
import PeerServices.Proofs.Node.Answering
import PeerServices.Proofs.Node.Bearing
import PeerServices.Proofs.Node.Deactivation
import PeerServices.Proofs.Wire.Delivery
import PeerServices.Proofs.Wire.NormalForm

/-!
# How an exchange is answered

A request for an exchange is taken if its sender is known and its payload starts with grants. Then
the record of the sender is changed, and the response tells whether the own grants were pending.
Otherwise nothing is changed, and the response is an error.

* `Node.Understands`: a request can be taken. `Message.exchangeResponse`: what it is answered with.
* `Node.Rebuffs`: nothing is changed, and an error goes out that the other side can read.
* `Node.Replies`, `Node.receive_replies`: what becomes of a request for an exchange.
-/

namespace PeerServices

/-- What happened to the directory, if an effect tells that. -/
def Effect.change? : Effect → Option DirectoryEvent
  | .changed event => some event
  | _ => none

/-- What happened to the directory, as far as the node told it. -/
def Node.changes (n : Node) : List DirectoryEvent := n.effects.filterMap Effect.change?

/-! ## Texts of errors -/

theorem Hex.length_encodeChars (bytes : Bytes) :
    (Hex.encodeChars bytes).length = 2 * bytes.length := by
  induction bytes with
  | nil => rfl
  | cons b bytes ih =>
    change (Hex.encodeChars bytes).length + 1 + 1 = _
    rw [ih, List.length_cons]
    omega

theorem PeerAddress.length_text (a : PeerAddress) : a.text.length = 40 := by
  unfold text Hex.encode
  rw [String.length_ofList, Hex.length_encodeChars, a.octets.length_eq]

namespace Message

variable {m : Message}

/-- What an exchange is answered with. -/
def exchangeResponse (m : Message) (r : PeerRecord) : Message :=
  { kind := .response, uid := m.uid, status := .ok, code := Node.exchangeCode, unread := []
    written := boolBytes r.pending ++ if r.pending then Serial.encode r.exported else [] }

/-- A payload that came in a frame is not longer than one may be. -/
theorem length_unread_le {frame : Received} (h : Frame.decode Message frame = .ok m) :
    m.unread.length ≤ Codec.maxBlobLength := by
  obtain ⟨body, rfl, hDecode⟩ := Frame.decode_eq_ok_iff.mp h
  obtain ⟨l, ⟨hUnread, -⟩, rfl, -⟩ :=
    (follows.reads _ _ _).mp (Serial.decode_eq_ok_iff_read.mp hDecode)
  exact hUnread

theorem get_eq_ok_iff {α : Type} [Serial α] {v : α} :
    (∃ left, m.get α = .ok (v, left)) ↔
      ∃ rest, (Serial.read : Reader α) m.unread = .ok (v, rest) := by
  unfold get readWith
  cases (Serial.read : Reader α) m.unread with
  | error e => simp [bind, Except.bind]
  | ok p => simp [bind, Except.bind, pure, Except.pure, Prod.ext_iff]

theorem read_of_get_error {α : Type} [Serial α] {e : Codec.Error} (h : m.get α = .error e) :
    (Serial.read : Reader α) m.unread = .error e := by
  unfold get readWith at h
  cases hRead : (Serial.read : Reader α) m.unread with
  | error e' =>
    rw [hRead] at h
    cases h
    rfl
  | ok p =>
    rw [hRead] at h
    cases h

/-- An error that tells a short text has a frame. -/
theorem allowed_errorResponse (m : Message) {text : String} (h : text.length ≤ 200) :
    Frame.Allowed (Serial.encode (m.errorResponse text)) := by
  rw [allowed_iff, sizeWith_le_iff]
  have hText := Codec.length_utf8_le text
  have hPrefix := Varint.length_encode_le (UInt64.ofNat (Codec.utf8 text).length)
  have hWritten : (m.errorResponse text).written = Codec.text text := rfl
  have hLimits : Varint.maxGroups = 10 ∧ maxPayload = 16777201 := by decide
  rw [hWritten, Codec.text, Codec.blob, List.length_append]
  omega

/-- The other side reads such an error as the failure of its request. -/
theorem failure?_errorResponse (m : Message) {text : String} (h : text.length ≤ 200) :
    Reply.failure? (m.errorResponse text).received = some (.execution text) := by
  have hText := Codec.length_utf8_le text
  have hShort : (Codec.utf8 text).length ≤ Codec.maxBlobLength := by
    have hLimit : Codec.maxBlobLength = 16777216 := rfl
    omega
  have hRead : Codec.readText (m.errorResponse text).received.unread = .ok (text, []) := by
    have hUndone := (Codec.undoes_text hShort).read []
    rw [List.append_nil] at hUndone
    exact hUndone
  have hError : (m.errorResponse text).received.isError = true := rfl
  unfold Reply.failure? errorText?
  simp only [hError, hRead, if_true, Option.getD_some]

end Message

namespace Node

variable {n n' : Node} {c : ConnectionId} {s : SessionId} {connection : Connection} {m : Message}
  {p : PeerAddress} {r : PeerRecord} {data : GrantSet}

/-! ## What changes -/

theorem changes_emit {e : Effect} (h : e.change? = none) : (n.emit e).changes = n.changes := by
  unfold changes emit
  rw [List.filterMap_append]
  simp [h]

theorem changes_commit (n : Node) (change : Directory.Change) :
    (n.commit change).changes = n.changes ++ change.2 := by
  have hTold : (change.2.map Effect.changed).filterMap Effect.change? = change.2 := by
    rw [List.filterMap_map]
    exact List.filterMap_some
  rw [commit_eq]
  unfold changes
  rw [List.filterMap_append, hTold]

theorem directory_commit (n : Node) (change : Directory.Change) :
    (n.commit change).directory = change.1 := by
  rw [commit_eq]

/-- A response goes out, or it does not. -/
theorem respond_eq_or (n : Node) (c : ConnectionId) (m : Message) :
    n.respond c m = n ∨ n.respond c m = n.emit (.send c (.message m)) := by
  unfold respond
  split
  · exact .inl rfl
  · split
    · exact .inr rfl
    · exact .inl rfl

theorem directory_respond (n : Node) (c : ConnectionId) (m : Message) :
    (n.respond c m).directory = n.directory := by
  rcases n.respond_eq_or c m with h | h
  · rw [h]
  · rw [h]
    rfl

theorem changes_respond (n : Node) (c : ConnectionId) (m : Message) :
    (n.respond c m).changes = n.changes := by
  rcases n.respond_eq_or c m with h | h
  · rw [h]
  · rw [h]
    exact changes_emit rfl

/-- A response goes out exactly if it has a frame and somebody is there. -/
theorem respond_eq (hFind : n.connections.find? c = some connection)
    (hOpen : connection.isOpen = true) (m : Message) :
    n.respond c m =
      if connection.reachable = true ∧ Frame.Allowed (Serial.encode m) then
        n.emit (.send c (.message m))
      else n := by
  unfold respond Parcel.sent
  rw [hFind]
  by_cases hAllowed : Frame.Allowed (Serial.encode m)
  · have hFrame : (Parcel.message m).frame = .ok _ := if_pos hAllowed
    simp only [hOpen, hFrame]
    cases hReachable : connection.reachable <;> simp [hAllowed]
  · have hFrame : (Parcel.message m).frame = .error _ := if_neg hAllowed
    simp [hOpen, hFrame, hAllowed]

/-! ## Requests for an exchange -/

/-- A request for an exchange can be taken: it comes from a peer that is known, and its payload starts
with what that peer grants. -/
structure Understands (n : Node) (s : SessionId) (m : Message) (p : PeerAddress) (r : PeerRecord)
    (data : GrantSet) : Prop where
  sender : n.peerOf? s = some p
  known : n.directory.find? p = some r
  readable : ∃ rest, (Serial.read : Reader GrantSet) m.unread = .ok (data, rest)

/-- Nothing is changed, and an error goes out, unless nobody is there. The other side reads it as the
failure of its request. -/
structure Rebuffs (n : Node) (connection : Connection) (c : ConnectionId) (m : Message)
    (n' : Node) : Prop where
  directory : n'.directory = n.directory
  changes : n'.changes = n.changes
  error : ∃ text answer, Frame.decode Message (.ok (Serial.encode (m.errorResponse text))) =
      .ok answer ∧ answer.kind = .response ∧ answer.uid = m.uid ∧
    Reply.failure? answer = some (.execution text) ∧
    n' = if connection.reachable then n.emit (.send c (.message (m.errorResponse text))) else n

/-- What becomes of a request for an exchange: it is taken exactly if it can be, and it is answered
either way. -/
structure Replies (n : Node) (connection : Connection) (c : ConnectionId) (s : SessionId)
    (m : Message) (n' : Node) : Prop where
  taken_iff : n'.changes ≠ n.changes ↔ ∃ p r data, n.Understands s m p r data
  taken : ∀ p r data, n.Understands s m p r data →
    let change := n.directory.finishExchange r.pending (r.applyExchange data)
    n'.directory = change.1 ∧ n'.changes = n.changes ++ change.2 ∧
      n' = if connection.reachable = true ∧ Frame.Allowed (Serial.encode (m.exchangeResponse r)) then
          (n.commit change).emit (.send c (.message (m.exchangeResponse r)))
        else n.commit change
  stored : ∀ p r data, n.Understands s m p r data → n.directory.Takes r (some data) n'.directory
  rebuffed : (∀ p r data, ¬n.Understands s m p r data) → n.Rebuffs connection c m n'

theorem rebuffs_errorResponse (hFind : n.connections.find? c = some connection)
    (hOpen : connection.isOpen = true) (m : Message) {text : String} (h : text.length ≤ 200) :
    n.Rebuffs connection c m (n.respond c (m.errorResponse text)) where
  directory := directory_respond _ _ _
  changes := changes_respond _ _ _
  error := by
    have hAllowed := m.allowed_errorResponse h
    exact ⟨text, _, Message.decode_encode (Message.fits_of_allowed hAllowed), rfl, rfl,
      m.failure?_errorResponse h, by simp only [respond_eq hFind hOpen, hAllowed, and_true]⟩

/-- A request that can be taken is taken. -/
theorem answerExchange_of_understands (h : n.Understands s m p r data) :
    n.answerExchange (n.peerOf? s) m = (.ok (m.exchangeResponse r),
      n.commit (n.directory.finishExchange r.pending (r.applyExchange data))) := by
  obtain ⟨left, hGet⟩ := Message.get_eq_ok_iff.mpr h.readable
  unfold answerExchange Directory.receiveExchange
  rw [h.sender, hGet]
  dsimp only
  rw [h.known]
  dsimp only
  cases hPending : r.pending <;> simp [Message.exchangeResponse, Message.respond, Message.write,
    Message.put, hPending]

/-- A request that cannot be taken is refused with a short text. -/
theorem answerExchange_of_not_understands (hUnread : m.unread.length ≤ Codec.maxBlobLength)
    (h : ∀ p r data, ¬n.Understands s m p r data) :
    ∃ text, n.answerExchange (n.peerOf? s) m = (.error text, n) ∧ text.length ≤ 100 := by
  unfold answerExchange
  cases hPeer : n.peerOf? s with
  | none => exact ⟨_, rfl, by decide⟩
  | some p =>
    dsimp only
    cases hGet : m.get GrantSet with
    | error e =>
      refine ⟨_, rfl, ?_⟩
      have hTerse := GrantSet.terse_read.error hUnread (Message.read_of_get_error hGet)
      exact hTerse.length_message_le (Nat.le_refl _)
    | ok read =>
      obtain ⟨data, left⟩ := read
      cases hKnown : n.directory.find? p with
      | none =>
        have hUnknown : n.directory.receiveExchange p data = .error (.unknownEntity p) := by
          unfold Directory.receiveExchange
          rw [hKnown]
        simp only [hUnknown]
        refine ⟨_, rfl, ?_⟩
        have hText : "Unknown entity: ".length = 16 := by decide
        change ("Unknown entity: " ++ p.text).length ≤ 100
        rw [String.length_append, hText, p.length_text]
        decide
      | some r =>
        have hReadable := Message.get_eq_ok_iff.mp ⟨left, hGet⟩
        exact absurd ⟨hPeer, hKnown, hReadable⟩ (h p r data)

/-- A request for an exchange comes to what answers exchanges. -/
theorem receive_exchange (h : n.exchanging? c = some s) {frame : Received}
    (hFrame : Frame.decode Message frame = .ok m) (hKind : m.kind = .request)
    (hCode : m.code = exchangeCode) :
    n.receive c frame =
      match n.answerExchange (n.peerOf? s) m with
      | (.ok response, n) => n.respond c response
      | (.error text, n) => n.respond c (m.errorResponse ("Remote error: " ++ text)) := by
  obtain ⟨connection, session, hFind, hOpen, hReading, hAttached, hSession, hBehaviour⟩ :=
    exchanging?_eq_some.mp h
  have hRequest : m.isRequest = true := decide_eq_true hKind
  have hReceive : n.receive c frame = n.takeMessage c frame := by
    unfold receive
    rw [hFind]
    dsimp only
    unfold Connection.isOpen at hOpen
    split at hOpen
    next hStage => rw [hStage, hReading]; rfl
    · cases hOpen
  rw [hReceive, takeMessage, hFrame]
  dsimp only
  rw [if_pos hRequest, dispatch, hFind]
  cases hAnswer : n.answerExchange (n.peerOf? s) m with
  | mk result after =>
    cases result <;> simp only [Option.bind_some, hAttached, hSession, Option.map_some, hBehaviour,
      if_pos hCode, hAnswer]

/-- Whatever a request for an exchange holds, from whomever it comes: it is taken exactly if its
sender is known and its payload starts with grants. The response then tells whether the own grants
were pending, and holds them if so. Any other request leaves the directory as it is, nothing is told
of it, and the sender is sent an error. -/
theorem receive_replies (h : n.exchanging? c = some s)
    (hFind : n.connections.find? c = some connection) {frame : Received}
    (hFrame : Frame.decode Message frame = .ok m) (hKind : m.kind = .request)
    (hCode : m.code = exchangeCode) : n.Replies connection c s m (n.receive c frame) := by
  obtain ⟨connection', -, hFind', hOpen, -⟩ := exchanging?_eq_some.mp h
  obtain rfl := Option.some.inj (hFind.symm.trans hFind')
  have hTaken : ∀ p r data, n.Understands s m p r data →
      let change := n.directory.finishExchange r.pending (r.applyExchange data)
      (n.receive c frame).directory = change.1 ∧
        (n.receive c frame).changes = n.changes ++ change.2 ∧
        n.receive c frame =
          if connection.reachable = true ∧
              Frame.Allowed (Serial.encode (m.exchangeResponse r)) then
            (n.commit change).emit (.send c (.message (m.exchangeResponse r)))
          else n.commit change := by
    intro p r data hUnderstands change
    have hEq : n.receive c frame = (n.commit change).respond c (m.exchangeResponse r) := by
      rw [receive_exchange h hFrame hKind hCode, answerExchange_of_understands hUnderstands]
    have hFind' : (n.commit change).connections.find? c = some connection := by
      rw [commit_eq]
      exact hFind
    rw [hEq, directory_respond, changes_respond, directory_commit, changes_commit,
      respond_eq hFind' hOpen]
    exact ⟨rfl, rfl, rfl⟩
  have hRebuffed : (∀ p r data, ¬n.Understands s m p r data) →
      n.Rebuffs connection c m (n.receive c frame) := by
    intro hNot
    obtain ⟨text, hEq, hShort⟩ := answerExchange_of_not_understands
      (Message.length_unread_le hFrame) hNot
    rw [receive_exchange h hFrame hKind hCode, hEq]
    apply rebuffs_errorResponse hFind hOpen
    have hPrefix : "Remote error: ".length = 14 := by decide
    rw [String.length_append, hPrefix]
    omega
  have hStored : ∀ p r data, n.Understands s m p r data →
      n.directory.Takes r (some data) (n.receive c frame).directory := by
    intro p r data hUnderstands
    rw [(hTaken p r data hUnderstands).1]
    exact Directory.takes_finishExchange n.directory r (some data)
  refine ⟨⟨fun hChanged => ?_, fun ⟨p, r, data, hUnderstands⟩ => ?_⟩, hTaken, hStored, hRebuffed⟩
  · by_contra hNot
    refine hChanged (hRebuffed fun p r data hUnderstands => ?_).changes
    exact hNot ⟨p, r, data, hUnderstands⟩
  · -- An exchange that is over is told, whether the record was pending or not.
    obtain ⟨-, hChanges, -⟩ := hTaken p r data hUnderstands
    rw [hChanges]
    simp [Directory.finishExchange]

end Node

end PeerServices
