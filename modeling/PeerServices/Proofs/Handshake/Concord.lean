import PeerServices.Proofs.Handshake.Outcome
import PeerServices.Proofs.Handshake.Schedule

/-!
# Handshakes of two honest sides

Both sides run the same mode over a pipe that loses nothing, and each hangs up when it is done.

* `Meeting.clientResult`, `Meeting.serverResult`: how the two sides end, told from what either was
  given.
* `Meeting.Joint`: where the two sides can stand, whichever of them goes first; `Joint.of_turn`: a
  turn leads from one such place to another.
* `Meeting.ends_of_isStuck`: where neither can go on, both have ended as foretold.
* `Meeting.concord`: under every schedule both sides end, after at most ten turns, and on what terms
  each of them succeeds.
-/

namespace PeerServices

/-- Two sides of a handshake, before it begins. -/
structure Meeting where
  mode : Mode
  client : Credentials
  server : Credentials
  /-- Whom the client wants to reach, and what for. -/
  host : PeerAddress
  service : ServiceId
  /-- The challenge of the client. -/
  issued : Challenge
  /-- The challenge of the server. -/
  counter : Challenge
  /-- What the client knows of others. -/
  knows : Authorizer
  /-- What the server knows of others. -/
  grants : Authorizer

namespace Meeting

open Handshake

variable (m : Meeting)

/-- Both sides prove who they are. -/
def Mutual : Prop := m.mode = .restricted ∨ m.mode = .admin

/-- The client gives up before it sends anything. -/
def Keyless : Prop := m.mode = .system ∧ m.client.systemKey = none

/-- The server is whom the client wants to reach. -/
def Convinces : Prop :=
  match m.mode with
  | .system => m.client.systemKey = some m.server.keypair.publicKey
  | .anyone | .restricted | .admin => m.server.address = m.host

instance : Decidable m.Keyless := inferInstanceAs (Decidable (_ ∧ _))

instance : Decidable m.Convinces := by
  unfold Convinces
  cases m.mode <;> infer_instance

/-- How the client ends. -/
def clientResult : Result :=
  if m.Keyless then .error .noSystemKey
  else if ¬m.Convinces then .error .serverProof
  else
    match m.mode with
    | .anyone | .system | .admin => .ok none
    | .restricted =>
      match m.knows.known m.host with
      | none => .error (.unknownEntity m.host)
      | some record => .ok (some record)

/-- How the server ends, if the pipe breaks with this cause before it is done. -/
def serverResult (broken : WireError) : Result :=
  match m.mode with
  | .anyone | .system => if m.Keyless then .error (.wire broken) else .ok none
  | .restricted =>
    if m.clientResult.isOk then
      match m.grants.authorized m.client.address m.service with
      | none => .error (.notGranted m.client.address m.service)
      | some record => .ok (some record)
    else .error (.wire broken)
  | .admin =>
    if m.clientResult.isOk then
      if m.server.systemKey = some m.client.keypair.publicKey then .ok none
      else .error .clientProof
    else .error (.wire broken)

/-! ## The two sides -/

/-- The client, before it has sent its challenge. -/
def asking : Dialogue Result :=
  .send (.challenge m.issued) (ifSent (.receive (takeHostProof m.client m.mode m.host m.issued)))

/-- The frame with the proof of the server. -/
def hostProof : Bytes := (Parcel.proof (m.server.keypair.sign m.issued.octets.toList)).body

/-- The frame with the proof of the client. -/
def clientProof : Bytes := (Parcel.proof (m.client.keypair.sign m.counter.octets.toList)).body

/-- The client, before it has sent its proof. -/
def proving (record? : Option PeerRecord) : Dialogue Result :=
  .send (.proof (m.client.keypair.sign m.counter.octets.toList)) (ifSent (.stop (.ok record?)))

/-- The server, before it has heard the client. -/
def listening : Dialogue Result := .receive (takeChallenge m.server m.mode m.service m.counter)

/-- The server, before it has sent its proof. -/
def answering : Dialogue Result :=
  .send (.proof (m.server.keypair.sign m.issued.octets.toList))
    (ifSent (afterAnswer m.server m.service m.counter m.mode))

/-- The server, once it has sent its own challenge. -/
def checking : Dialogue Result := .receive (takeProof m.server m.mode m.service m.counter)

/-- The two sides with the frames that either did not read yet. -/
def pair (left : Dialogue Result) (unread : List Bytes) (right : Dialogue Result)
    (unread' : List Bytes) : Encounter Result Result where
  left := ⟨left, unread, m.knows⟩
  right := ⟨right, unread', m.grants⟩

/-- The two sides before anything happened. -/
def start : Encounter Result Result :=
  m.pair (connecting m.client m.mode m.host m.issued).run []
    (accepting m.server m.mode m.service m.counter).run []

/-! ## Single turns -/

section Turns

variable {m : Meeting} {l r : Dialogue Result} {u u' : List Bytes}

/-- A dialogue has not stopped. -/
def GoesOn (d : Dialogue Result) : Prop := ∀ result, d ≠ .stop result

theorem goesOn_receive (rest : Received → Dialogue Result) : GoesOn (.receive rest) :=
  fun _ h => nomatch h

theorem goesOn_send (parcel : Parcel) (rest : Except WireError Unit → Dialogue Result) :
    GoesOn (.send parcel rest) := fun _ h => nomatch h

theorem goesOn_look (rest : Authorizer → Dialogue Result) : GoesOn (.look rest) :=
  fun _ h => nomatch h

theorem asking_goesOn : GoesOn m.asking := goesOn_send _ _

theorem proving_goesOn (record? : Option PeerRecord) : GoesOn (m.proving record?) :=
  goesOn_send _ _

theorem listening_goesOn : GoesOn m.listening := goesOn_receive _

theorem answering_goesOn : GoesOn m.answering := goesOn_send _ _

theorem checking_goesOn : GoesOn m.checking := goesOn_receive _

theorem isOver_eq_false (h : GoesOn l) (authorizer : Authorizer) :
    (⟨l, u, authorizer⟩ : Party Result).isOver = false := by
  rw [Bool.eq_false_iff, ne_eq, Party.isOver_iff]
  exact fun ⟨result, hStop⟩ => h result hStop

theorem left_look (rest : Authorizer → Dialogue Result) :
    (m.pair (.look rest) u r u').turn? .left = some (m.pair (rest m.knows) u r u') := by
  simp [Encounter.turn?, Party.step?, pair, Party.hear]

theorem left_read (rest : Received → Dialogue Result) (body : Bytes) :
    (m.pair (.receive rest) (body :: u) r u').turn? .left =
      some (m.pair (rest (.ok body)) u r u') := by
  simp [Encounter.turn?, Party.step?, pair, Party.hear]

theorem left_wait (h : GoesOn r) (rest : Received → Dialogue Result) :
    (m.pair (.receive rest) [] r u').turn? .left = none := by
  simp [Encounter.turn?, Party.step?, pair, isOver_eq_false h]

theorem left_send {parcel : Parcel} (hSent : parcel.sent true = .ok ())
    (h : GoesOn r) (rest : Except WireError Unit → Dialogue Result) :
    (m.pair (.send parcel rest) u r u').turn? .left =
      some (m.pair (rest (.ok ())) u r (u' ++ [parcel.body])) := by
  simp [Encounter.turn?, Party.step?, pair, Party.hear, isOver_eq_false h, hSent]

theorem right_stop (result : Result) : (m.pair l u (.stop result) u').turn? .right = none := rfl

theorem right_look (rest : Authorizer → Dialogue Result) :
    (m.pair l u (.look rest) u').turn? .right = some (m.pair l u (rest m.grants) u') := by
  simp [Encounter.turn?, Party.step?, pair, Party.hear]

theorem right_read (rest : Received → Dialogue Result) (body : Bytes) :
    (m.pair l u (.receive rest) (body :: u')).turn? .right =
      some (m.pair l u (rest (.ok body)) u') := by
  simp [Encounter.turn?, Party.step?, pair, Party.hear]

theorem right_wait (h : GoesOn l) (rest : Received → Dialogue Result) :
    (m.pair l u (.receive rest) []).turn? .right = none := by
  simp [Encounter.turn?, Party.step?, pair, isOver_eq_false h]

theorem right_closed (result : Result) (rest : Received → Dialogue Result) :
    (m.pair (.stop result) u (.receive rest) []).turn? .right =
      some (m.pair (.stop result) u (rest (.error .connectionClosed)) []) := by
  simp [Encounter.turn?, Party.step?, pair, Party.hear, Party.isOver, Party.result?]

theorem right_send {parcel : Parcel} (hSent : parcel.sent true = .ok ())
    (h : GoesOn l) (rest : Except WireError Unit → Dialogue Result) :
    (m.pair l u (.send parcel rest) u').turn? .right =
      some (m.pair l (u ++ [parcel.body]) (rest (.ok ())) u') := by
  simp [Encounter.turn?, Party.step?, pair, Party.hear, isOver_eq_false h, hSent]

theorem right_broken (result : Result) (c : Challenge)
    (rest : Except WireError Unit → Dialogue Result) :
    ∃ cause, (m.pair (.stop result) u (.send (.challenge c) rest) u').turn? .right =
      some (m.pair (.stop result) u (rest (.error cause)) u') := by
  cases hSent : (Parcel.challenge c).sent false with
  | ok _ =>
    unfold Parcel.sent at hSent
    split at hSent <;> cases hSent
  | error cause =>
    exact ⟨cause, by simp [Encounter.turn?, Party.step?, pair, Party.hear, Party.isOver,
      Party.result?, hSent]⟩

end Turns

/-! ## Where the two sides can stand -/

/-- What the client did not read yet of the server's challenge, and where the server stands then. -/
inductive Offers : List Bytes → Dialogue Result → Prop
  | before : Offers [] (afterAnswer m.server m.service m.counter m.mode)
  | asked (hMutual : m.Mutual) : Offers [(Parcel.challenge m.counter).body] m.checking

/-- Places of the two sides, in the order of the handshake. -/
inductive Joint : Encounter Result Result → Prop
  /-- The client gave up at once. -/
  | keyless (h : m.Keyless) : Joint (m.pair (.stop (.error .noSystemKey)) [] m.listening [])
  | begun (h : ¬m.Keyless) : Joint (m.pair m.asking [] m.listening [])
  | asked (h : ¬m.Keyless) :
    Joint (m.pair (.receive (takeHostProof m.client m.mode m.host m.issued)) [] m.listening
      [(Parcel.challenge m.issued).body])
  | answering (h : ¬m.Keyless) :
    Joint (m.pair (.receive (takeHostProof m.client m.mode m.host m.issued)) [] m.answering [])
  | answered {u : List Bytes} {r : Dialogue Result} (h : ¬m.Keyless) (hOffers : m.Offers u r) :
    Joint (m.pair (.receive (takeHostProof m.client m.mode m.host m.issued)) (m.hostProof :: u) r
      [])
  /-- The client is about to look the server up. -/
  | convinced {u : List Bytes} {r : Dialogue Result} (hMode : m.mode = .restricted)
    (hConvinces : m.Convinces) (hOffers : m.Offers u r) :
    Joint (m.pair (afterHostProof m.client m.host .restricted) u r [])
  /-- The client has nothing more to do, or nothing to do with this server. -/
  | decided {a : Result} {u : List Bytes} {r : Dialogue Result} (hResult : a = m.clientResult)
    (hKey : ¬m.Keyless) (hDone : m.Mutual → a.isOk = false) (hOffers : m.Offers u r) :
    Joint (m.pair (.stop a) u r [])
  /-- The client waits to be asked for its own proof. -/
  | waiting {record? : Option PeerRecord} {u : List Bytes} {r : Dialogue Result}
    (hMutual : m.Mutual) (hResult : m.clientResult = .ok record?) (hOffers : m.Offers u r) :
    Joint (m.pair (.receive (answerHost m.client record?)) u r [])
  | proving {record? : Option PeerRecord} (hMutual : m.Mutual)
    (hResult : m.clientResult = .ok record?) :
    Joint (m.pair (m.proving record?) [] m.checking [])
  | proven {a : Result} (hResult : a = m.clientResult) (hMutual : m.Mutual) (hOk : a.isOk = true) :
    Joint (m.pair (.stop a) [] m.checking [m.clientProof])
  /-- The server is about to look the client up. -/
  | admitting {a : Result} (hResult : a = m.clientResult) (hMode : m.mode = .restricted)
    (hOk : a.isOk = true) :
    Joint (m.pair (.stop a) []
      (.look fun authorizer => ifSome (.notGranted m.client.address m.service)
        (fun record => .stop (.ok (some record)))
        (authorizer.authorized m.client.address m.service)) [])
  | ended {a b : Result} {u : List Bytes} (cause : WireError) (hClient : a = m.clientResult)
    (hServer : b = m.serverResult cause) : Joint (m.pair (.stop a) u (.stop b) [])

variable {m : Meeting}

/-! ## What the sides make of the frames -/

theorem not_keyless_of_mutual (h : m.Mutual) : ¬m.Keyless := by
  rintro ⟨hMode, -⟩
  rcases h with h | h <;> cases hMode.symm.trans h

theorem clientResult_of_keyless (h : m.Keyless) : m.clientResult = .error .noSystemKey :=
  if_pos h

theorem clientResult_of_not_convinces (h : ¬m.Keyless) (hConvinces : ¬m.Convinces) :
    m.clientResult = .error .serverProof := by
  rw [clientResult, if_neg h, if_pos hConvinces]

theorem clientResult_of_convinces (h : ¬m.Keyless) (hConvinces : m.Convinces) :
    m.clientResult =
      match m.mode with
      | .anyone | .system | .admin => .ok none
      | .restricted =>
        match m.knows.known m.host with
        | none => .error (.unknownEntity m.host)
        | some record => .ok (some record) := by
  rw [clientResult, if_neg h, if_neg (not_not_intro hConvinces)]

theorem acceptsHost_iff :
    acceptsHost m.client m.mode m.host (m.server.keypair.sign m.issued.octets.toList)
      m.server.address = true ↔ m.Convinces := by
  unfold acceptsHost Convinces Credentials.isSystemKey
  cases m.mode <;> exact decide_eq_true_iff

theorem takeChallenge_issued :
    takeChallenge m.server m.mode m.service m.counter (.ok (Parcel.challenge m.issued).body) =
      m.answering := by
  rw [takeChallenge, ifHolds, Frame.decode_challenge, answering]

theorem answerHost_counter (record? : Option PeerRecord) :
    answerHost m.client record? (.ok (Parcel.challenge m.counter).body) = m.proving record? := by
  rw [answerHost, ifHolds, Frame.decode_challenge, proving]

theorem takeHostProof_hostProof
    (hHost : (m.server.keypair.sign m.issued.octets.toList).verify = true) :
    takeHostProof m.client m.mode m.host m.issued (.ok m.hostProof) =
      if m.Convinces then afterHostProof m.client m.host m.mode
      else .stop (.error .serverProof) := by
  have hSigner : m.issued.signer? (m.server.keypair.sign m.issued.octets.toList) =
      some m.server.address := signer?_eq_some.mpr ⟨rfl, hHost, rfl⟩
  simp only [takeHostProof, ifHolds, hostProof, Frame.decode_proof, hSigner, ifSome,
    acceptsHost_iff]

theorem takeProof_clientProof
    (hClient : (m.client.keypair.sign m.counter.octets.toList).verify = true) :
    takeProof m.server m.mode m.service m.counter (.ok m.clientProof) =
      match m.mode with
      | .restricted => .look fun authorizer =>
        ifSome (.notGranted m.client.address m.service) (fun record => .stop (.ok (some record)))
          (authorizer.authorized m.client.address m.service)
      | _ =>
        if m.server.systemKey = some m.client.keypair.publicKey then .stop (.ok none)
        else .stop (.error .clientProof) := by
  have hSigner : m.counter.signer? (m.client.keypair.sign m.counter.octets.toList) =
      some m.client.address := signer?_eq_some.mpr ⟨rfl, hClient, rfl⟩
  have hKey : (m.client.keypair.sign m.counter.octets.toList).publicKey =
      m.client.keypair.publicKey := rfl
  simp only [takeProof, ifHolds, clientProof, Frame.decode_proof, hSigner, ifSome,
    Credentials.isSystemKey, hKey, decide_eq_true_eq]
  cases m.mode <;> rfl

theorem afterAnswer_of_mutual (h : m.Mutual) :
    afterAnswer m.server m.service m.counter m.mode =
      .send (.challenge m.counter) (ifSent m.checking) := by
  unfold checking
  rcases h with h | h <;> rw [h] <;> rfl

theorem afterAnswer_of_not_mutual (h : ¬m.Mutual) :
    afterAnswer m.server m.service m.counter m.mode = .stop (.ok none) := by
  cases hMode : m.mode with
  | anyone | system => rfl
  | restricted => exact absurd (.inl hMode) h
  | admin => exact absurd (.inr hMode) h

/-- A server that the client has left ends with the cause for which its pipe broke. -/
theorem serverResult_of_left (h : m.Keyless ∨ m.Mutual ∧ m.clientResult.isOk = false)
    (cause : WireError) : m.serverResult cause = .error (.wire cause) := by
  unfold serverResult
  rcases h with hKeyless | ⟨hMode | hMode, hFailed⟩
  · simp only [hKeyless.1, if_pos hKeyless]
  · simp only [hMode, hFailed, Bool.false_eq_true, if_false]
  · simp only [hMode, hFailed, Bool.false_eq_true, if_false]

theorem serverResult_of_restricted (hMode : m.mode = .restricted)
    (hOk : m.clientResult.isOk = true) (cause : WireError) :
    m.serverResult cause =
      match m.grants.authorized m.client.address m.service with
      | none => .error (.notGranted m.client.address m.service)
      | some record => .ok (some record) := by
  simp only [serverResult, hMode, hOk, if_true]

theorem serverResult_of_admin (hMode : m.mode = .admin) (hOk : m.clientResult.isOk = true)
    (cause : WireError) :
    m.serverResult cause =
      if m.server.systemKey = some m.client.keypair.publicKey then .ok none
      else .error .clientProof := by
  simp only [serverResult, hMode, hOk, if_true]

/-! ## Where a turn leads -/

section Turns

variable {e e' : Encounter Result Result} {l r : Dialogue Result} {u : List Bytes}

/-- While the client is still there, the server sends its challenge if the mode asks for it. -/
theorem Offers.of_right (hOffers : m.Offers u r) (hLeft : GoesOn l)
    (read : List Bytes) (h : (m.pair l (read ++ u) r []).turn? .right = some e') :
    ∃ u' r', e' = m.pair l (read ++ u') r' [] ∧ m.Offers u' r' := by
  cases hOffers with
  | asked hMutual =>
    rw [checking, right_wait hLeft] at h
    cases h
  | before =>
    by_cases hMutual : m.Mutual
    · rw [afterAnswer_of_mutual hMutual, List.append_nil,
        right_send (Parcel.sent_challenge m.counter) hLeft] at h
      cases h
      exact ⟨_, _, rfl, .asked hMutual⟩
    · rw [afterAnswer_of_not_mutual hMutual, right_stop] at h
      cases h

/-- A server that the client has left ends. -/
theorem Joint.of_left {a : Result} (hResult : a = m.clientResult) (cause : WireError)
    (h : m.Keyless ∨ m.Mutual ∧ m.clientResult.isOk = false) :
    m.Joint (m.pair (.stop a) u (.stop (.error (.wire cause))) []) :=
  .ended cause hResult (serverResult_of_left h cause).symm

/-- What is left of the server once the client is done with it. -/
theorem Joint.of_decided {a : Result} (hResult : a = m.clientResult)
    (hDone : m.Mutual → a.isOk = false) (hOffers : m.Offers u r)
    (h : (m.pair (.stop a) u r []).turn? .right = some e') : m.Joint e' := by
  cases hOffers with
  | asked hMutual =>
    rw [checking, right_closed] at h
    cases h
    exact .of_left hResult .connectionClosed (.inr ⟨hMutual, hResult ▸ hDone hMutual⟩)
  | before =>
    by_cases hMutual : m.Mutual
    · obtain ⟨cause, hTurn⟩ := right_broken (m := m) (u := []) a m.counter (ifSent m.checking)
      rw [afterAnswer_of_mutual hMutual, hTurn] at h
      cases h
      exact .of_left hResult cause (.inr ⟨hMutual, hResult ▸ hDone hMutual⟩)
    · rw [afterAnswer_of_not_mutual hMutual, right_stop] at h
      cases h

/-- Where the client stands once it has read the server's proof. -/
theorem Joint.of_hostProof (hKey : ¬m.Keyless) (hOffers : m.Offers u r) :
    m.Joint (m.pair (if m.Convinces then afterHostProof m.client m.host m.mode
      else .stop (.error .serverProof)) u r []) := by
  split
  next hConvinces =>
    have hResult := clientResult_of_convinces hKey hConvinces
    cases hMode : m.mode with
    | anyone | system =>
      simp only [hMode] at hResult
      refine .decided hResult.symm hKey (fun hMutual => ?_) hOffers
      rcases hMutual with h | h <;> cases hMode.symm.trans h
    | restricted => exact .convinced hMode hConvinces hOffers
    | admin =>
      simp only [hMode] at hResult
      exact .waiting (.inr hMode) hResult hOffers
  next hConvinces =>
    exact .decided (clientResult_of_not_convinces hKey hConvinces).symm hKey (fun _ => rfl) hOffers

/-- Where the client stands once it has looked the server up. -/
theorem Joint.of_known (hMode : m.mode = .restricted) (hConvinces : m.Convinces)
    (hOffers : m.Offers u r) :
    m.Joint (m.pair (ifSome (.unknownEntity m.host)
      (fun record => .receive (answerHost m.client (some record))) (m.knows.known m.host)) u r
      []) := by
  have hKey : ¬m.Keyless := not_keyless_of_mutual (.inl hMode)
  have hResult := clientResult_of_convinces hKey hConvinces
  rw [hMode] at hResult
  cases hKnown : m.knows.known m.host with
  | none =>
    simp only [hKnown] at hResult
    exact .decided hResult.symm hKey (fun _ => rfl) hOffers
  | some record =>
    simp only [hKnown] at hResult
    exact .waiting (.inl hMode) hResult hOffers

/-- Where the server stands once it has looked the client up. -/
theorem Joint.of_authorized {a : Result} (hResult : a = m.clientResult)
    (hMode : m.mode = .restricted) (hOk : a.isOk = true) :
    m.Joint (m.pair (.stop a) []
      (ifSome (.notGranted m.client.address m.service) (fun record => .stop (.ok (some record)))
        (m.grants.authorized m.client.address m.service)) []) := by
  have hEnd := serverResult_of_restricted hMode (hResult ▸ hOk) .connectionClosed
  cases hFound : m.grants.authorized m.client.address m.service with
  | none =>
    rw [hFound] at hEnd
    exact .ended .connectionClosed hResult hEnd.symm
  | some record =>
    rw [hFound] at hEnd
    exact .ended .connectionClosed hResult hEnd.symm

/-- Where the server stands once it has read the client's proof. -/
theorem Joint.of_clientProof {a : Result} (hResult : a = m.clientResult) (hMutual : m.Mutual)
    (hOk : a.isOk = true)
    (hClient : (m.client.keypair.sign m.counter.octets.toList).verify = true) :
    m.Joint (m.pair (.stop a) []
      (takeProof m.server m.mode m.service m.counter (.ok m.clientProof)) []) := by
  rw [takeProof_clientProof hClient]
  rcases hMutual with hMode | hMode
  · simp only [hMode]
    exact .admitting hResult hMode hOk
  · have hEnd := serverResult_of_admin hMode (hResult ▸ hOk) .connectionClosed
    simp only [hMode]
    split
    next hKey => exact .ended .connectionClosed hResult (hEnd.trans (if_pos hKey)).symm
    next hKey => exact .ended .connectionClosed hResult (hEnd.trans (if_neg hKey)).symm

/-- A turn of either side leads from one place to another. -/
theorem Joint.of_turn
    (hHost : (m.server.keypair.sign m.issued.octets.toList).verify = true)
    (hClient : (m.client.keypair.sign m.counter.octets.toList).verify = true)
    (hJoint : m.Joint e) (turn : Encounter.Turn) (h : e.turn? turn = some e') : m.Joint e' := by
  cases hJoint with
  | keyless hKey =>
    cases turn with
    | left => cases h
    | right =>
      rw [listening, right_closed] at h
      cases h
      exact .of_left (clientResult_of_keyless hKey).symm .connectionClosed (.inl hKey)
  | begun hKey =>
    cases turn with
    | left =>
      rw [asking, left_send (Parcel.sent_challenge m.issued) listening_goesOn] at h
      cases h
      exact .asked hKey
    | right =>
      rw [listening, right_wait asking_goesOn] at h
      cases h
  | asked hKey =>
    cases turn with
    | left =>
      rw [left_wait listening_goesOn] at h
      cases h
    | right =>
      rw [listening, right_read, takeChallenge_issued] at h
      cases h
      exact .answering hKey
  | answering hKey =>
    cases turn with
    | left =>
      rw [left_wait answering_goesOn] at h
      cases h
    | right =>
      rw [Meeting.answering, right_send (Parcel.sent_proof _ _) (goesOn_receive _)] at h
      cases h
      exact .answered hKey .before
  | answered hKey hOffers =>
    cases turn with
    | left =>
      rw [left_read, takeHostProof_hostProof hHost] at h
      cases h
      exact .of_hostProof hKey hOffers
    | right =>
      obtain ⟨u', r', rfl, hOffers'⟩ := hOffers.of_right (goesOn_receive _) [m.hostProof] h
      exact .answered hKey hOffers'
  | convinced hMode hConvinces hOffers =>
    cases turn with
    | left =>
      rw [afterHostProof, left_look] at h
      cases h
      exact .of_known hMode hConvinces hOffers
    | right =>
      obtain ⟨u', r', rfl, hOffers'⟩ := hOffers.of_right (goesOn_look _) [] h
      exact .convinced hMode hConvinces hOffers'
  | decided hResult hKey hDone hOffers =>
    cases turn with
    | left => cases h
    | right => exact .of_decided hResult hDone hOffers h
  | waiting hMutual hResult hOffers =>
    cases turn with
    | left =>
      cases hOffers with
      | before =>
        rw [afterAnswer_of_mutual hMutual, left_wait (goesOn_send _ _)] at h
        cases h
      | asked =>
        rw [left_read, answerHost_counter] at h
        cases h
        exact .proving hMutual hResult
    | right =>
      obtain ⟨u', r', rfl, hOffers'⟩ := hOffers.of_right (goesOn_receive _) [] h
      exact .waiting hMutual hResult hOffers'
  | proving hMutual hResult =>
    cases turn with
    | left =>
      rw [Meeting.proving, left_send (Parcel.sent_proof _ _) checking_goesOn] at h
      cases h
      exact .proven hResult.symm hMutual rfl
    | right =>
      rw [checking, right_wait (proving_goesOn _)] at h
      cases h
  | proven hResult hMutual hOk =>
    cases turn with
    | left => cases h
    | right =>
      rw [checking, right_read] at h
      cases h
      exact .of_clientProof hResult hMutual hOk hClient
  | admitting hResult hMode hOk =>
    cases turn with
    | left => cases h
    | right =>
      rw [right_look] at h
      cases h
      exact .of_authorized hResult hMode hOk
  | ended =>
    cases turn with
    | left => cases h
    | right => cases h

/-- Where neither side can go on, both have ended as foretold. -/
theorem Joint.ends_of_isStuck (hJoint : m.Joint e) (hStuck : e.IsStuck) :
    e.left.result? = some m.clientResult ∧ ∃ cause, e.right.result? = some (m.serverResult cause) := by
  have hLeft := hStuck .left
  have hRight := hStuck .right
  cases hJoint with
  | keyless =>
    rw [listening, right_closed] at hRight
    cases hRight
  | begun =>
    rw [asking, left_send (Parcel.sent_challenge m.issued) listening_goesOn] at hLeft
    cases hLeft
  | asked =>
    rw [listening, right_read] at hRight
    cases hRight
  | answering =>
    rw [Meeting.answering, right_send (Parcel.sent_proof _ _) (goesOn_receive _)] at hRight
    cases hRight
  | answered =>
    rw [left_read] at hLeft
    cases hLeft
  | convinced =>
    rw [afterHostProof, left_look] at hLeft
    cases hLeft
  | waiting hMutual hResult hOffers =>
    cases hOffers with
    | before =>
      rw [afterAnswer_of_mutual hMutual,
        right_send (Parcel.sent_challenge m.counter) (goesOn_receive _)] at hRight
      cases hRight
    | asked =>
      rw [left_read] at hLeft
      cases hLeft
  | proving =>
    rw [Meeting.proving, left_send (Parcel.sent_proof _ _) checking_goesOn] at hLeft
    cases hLeft
  | proven =>
    rw [checking, right_read] at hRight
    cases hRight
  | admitting =>
    rw [right_look] at hRight
    cases hRight
  | ended cause hClient hServer =>
    cases hClient
    cases hServer
    exact ⟨rfl, cause, rfl⟩
  | decided hResult hKey hDone hOffers =>
    cases hResult
    cases hOffers with
    | asked =>
      rw [checking, right_closed] at hRight
      cases hRight
    | before =>
      by_cases hMutual : m.Mutual
      · obtain ⟨cause, hTurn⟩ := right_broken (m := m) (u := []) m.clientResult m.counter
          (ifSent m.checking)
        rw [afterAnswer_of_mutual hMutual, hTurn] at hRight
        cases hRight
      · rw [afterAnswer_of_not_mutual hMutual]
        refine ⟨rfl, .connectionClosed, ?_⟩
        unfold serverResult
        cases hMode : m.mode with
        | anyone | system => simp only [if_neg hKey]; rfl
        | restricted => exact absurd (.inl hMode) hMutual
        | admin => exact absurd (.inr hMode) hMutual

end Turns

/-! ## How both sides end -/

theorem run_accepting_eq : (accepting m.server m.mode m.service m.counter).run = m.listening :=
  run_accepting m.server m.mode m.service m.counter

theorem run_connecting_eq : (connecting m.client m.mode m.host m.issued).run =
    if m.Keyless then .stop (.error .noSystemKey) else m.asking :=
  run_connecting m.client m.mode m.host m.issued

theorem start_joint (m : Meeting) : m.Joint m.start := by
  rw [start, run_accepting_eq, run_connecting_eq]
  split
  next hKey => exact .keyless hKey
  next hKey => exact .begun hKey

section Within

variable {α β : Type} {n : Nat}

theorem within_ifSent {next : Dialogue (Except HandshakeError β)} (h : next.Within n)
    (sent : Except WireError Unit) : (ifSent next sent).Within n := by
  cases sent with
  | ok => exact h
  | error cause => exact .stop _

theorem within_ifHolds [Serial α] {next : α → Dialogue (Except HandshakeError β)}
    (h : ∀ value, (next value).Within n) (frame : Received) :
    (ifHolds α next frame).Within n := by
  unfold ifHolds
  split
  · exact .stop _
  · exact h _

theorem within_ifSome {cause : HandshakeError} {next : α → Dialogue (Except HandshakeError β)}
    (h : ∀ value, (next value).Within n) (value? : Option α) :
    (ifSome cause next value?).Within n := by
  cases value? with
  | none => exact .stop _
  | some value => exact h value

end Within

/-- The client sends its challenge, reads, looks up, reads, and sends its proof. -/
theorem asking_within (m : Meeting) : m.asking.Within 5 := by
  have hAnswer : ∀ record? frame, (answerHost m.client record? frame).Within 1 := fun _ =>
    within_ifHolds fun _ => .send (within_ifSent (.stop _))
  refine .send (within_ifSent (.receive (within_ifHolds fun _ => within_ifSome (fun _ => ?_) _)))
  split
  · unfold afterHostProof
    cases m.mode with
    | anyone | system => exact .stop _
    | restricted => exact .look fun _ => within_ifSome (fun _ => .receive (hAnswer _)) _
    | admin => exact .receive fun frame => (hAnswer none frame).succ
  · exact .stop _

/-- The server reads, sends its proof and its challenge, reads, and looks up. -/
theorem listening_within (m : Meeting) : m.listening.Within 5 := by
  have hProof : ∀ mode frame, (takeProof m.server mode m.service m.counter frame).Within 1 := by
    intro mode
    refine within_ifHolds fun proof => within_ifSome (fun peer => ?_) _
    split
    · exact .look fun _ => within_ifSome (fun _ => .stop _) _
    · split <;> exact .stop _
  refine .receive (within_ifHolds fun _ => .send (within_ifSent ?_))
  unfold afterAnswer
  cases m.mode with
  | anyone | system => exact .stop _
  | restricted | admin => exact .send (within_ifSent (.receive (hProof _)))

theorem start_within (m : Meeting) : m.start.Within 10 := by
  refine ⟨5, 5, Nat.le_refl 10, ?_, ?_⟩
  · change (connecting m.client m.mode m.host m.issued).run.Within 5
    rw [run_connecting_eq]
    split
    · exact .stop _
    · exact m.asking_within
  · change (accepting m.server m.mode m.service m.counter).run.Within 5
    rw [run_accepting_eq]
    exact m.listening_within

/-- On what terms either side succeeds, and how it fails if the other one does. -/
structure Agrees (m : Meeting) (atClient atServer : Result) : Prop where
  client : atClient.isOk = true ↔
    (match m.mode with
      | .system => m.client.systemKey = some m.server.keypair.publicKey
      | .anyone | .restricted | .admin => m.server.address = m.host) ∧
    (m.mode = .restricted → (m.knows.known m.host).isSome = true)
  clientRecord : ∀ record?, atClient = .ok record? →
    record? = if m.mode = .restricted then m.knows.known m.host else none
  keyless : atClient = .error .noSystemKey ↔ m.mode = .system ∧ m.client.systemKey = none
  /-- A server that asks for no proof succeeds if it hears from the client at all. -/
  oneSided : m.mode = .anyone ∨ m.mode = .system →
    (atServer.isOk = true ↔ atClient ≠ .error .noSystemKey)
  restricted : m.mode = .restricted → (atServer.isOk = true ↔
    atClient.isOk = true ∧ (m.grants.authorized m.client.address m.service).isSome = true)
  admin : m.mode = .admin → (atServer.isOk = true ↔
    atClient.isOk = true ∧ m.server.systemKey = some m.client.keypair.publicKey)
  serverRecord : ∀ record?, atServer = .ok record? → record? =
    if m.mode = .restricted then m.grants.authorized m.client.address m.service else none
  /-- A client that fails is noticed where the server needs its proof. -/
  broken : m.mode = .restricted ∨ m.mode = .admin → atClient.isOk = false →
    ∃ cause, atServer = .error (.wire cause)

theorem not_convinces_of_keyless (h : m.Keyless) : ¬m.Convinces := by
  simp only [Convinces, h.1, h.2]
  exact nofun

theorem clientResult_isOk_iff : m.clientResult.isOk = true ↔
    m.Convinces ∧ (m.mode = .restricted → (m.knows.known m.host).isSome = true) := by
  by_cases hConvinces : m.Convinces
  · have hKey : ¬m.Keyless := fun h => not_convinces_of_keyless h hConvinces
    rw [clientResult_of_convinces hKey hConvinces, and_iff_right hConvinces]
    cases hMode : m.mode with
    | anyone | system | admin => exact iff_of_true rfl nofun
    | restricted =>
      cases m.knows.known m.host with
      | none => exact iff_of_false nofun fun h => nomatch h rfl
      | some record => exact iff_of_true rfl fun _ => rfl
  · refine iff_of_false (fun hOk => ?_) fun h => hConvinces h.1
    by_cases hKey : m.Keyless
    · rw [clientResult_of_keyless hKey] at hOk
      cases hOk
    · rw [clientResult_of_not_convinces hKey hConvinces] at hOk
      cases hOk

theorem clientResult_record {record? : Option PeerRecord} (h : m.clientResult = .ok record?) :
    record? = if m.mode = .restricted then m.knows.known m.host else none := by
  have hConvinces : m.Convinces := (clientResult_isOk_iff.mp (by rw [h]; rfl)).1
  have hKey : ¬m.Keyless := fun h => not_convinces_of_keyless h hConvinces
  rw [clientResult_of_convinces hKey hConvinces] at h
  cases hMode : m.mode with
  | anyone | system | admin =>
    simp only [hMode] at h
    cases h
    exact (if_neg nofun).symm
  | restricted =>
    simp only [hMode] at h
    cases hKnown : m.knows.known m.host with
    | none =>
      simp only [hKnown] at h
      cases h
    | some record =>
      simp only [hKnown] at h
      cases h
      exact (if_pos rfl).symm

theorem clientResult_eq_noSystemKey_iff : m.clientResult = .error .noSystemKey ↔ m.Keyless := by
  refine ⟨fun h => Decidable.byContradiction fun hKey => ?_, clientResult_of_keyless⟩
  by_cases hConvinces : m.Convinces
  · rw [clientResult_of_convinces hKey hConvinces] at h
    cases hMode : m.mode with
    | anyone | system | admin =>
      simp only [hMode] at h
      cases h
    | restricted =>
      simp only [hMode] at h
      split at h <;> cases h
  · rw [clientResult_of_not_convinces hKey hConvinces] at h
    cases h

theorem agrees (m : Meeting) (cause : WireError) :
    m.Agrees m.clientResult (m.serverResult cause) := by
  constructor
  case client => exact clientResult_isOk_iff
  case clientRecord => exact fun record? => clientResult_record
  case keyless => exact clientResult_eq_noSystemKey_iff
  case oneSided =>
    intro hMode
    rw [ne_eq, clientResult_eq_noSystemKey_iff]
    have hResult : m.serverResult cause =
        if m.Keyless then .error (.wire cause) else .ok none := by
      rcases hMode with hMode | hMode <;> simp only [serverResult, hMode]
    rw [hResult]
    split
    next hKey => exact iff_of_false nofun fun h => h hKey
    next hKey => exact iff_of_true rfl hKey
  case restricted =>
    intro hMode
    cases hOk : m.clientResult.isOk with
    | false =>
      rw [serverResult_of_left (.inr ⟨.inl hMode, hOk⟩)]
      exact iff_of_false nofun fun h => nomatch h.1
    | true =>
      rw [serverResult_of_restricted hMode hOk]
      cases m.grants.authorized m.client.address m.service with
      | none => exact iff_of_false nofun fun h => nomatch h.2
      | some record => exact iff_of_true rfl ⟨rfl, rfl⟩
  case admin =>
    intro hMode
    cases hOk : m.clientResult.isOk with
    | false =>
      rw [serverResult_of_left (.inr ⟨.inr hMode, hOk⟩)]
      exact iff_of_false nofun fun h => nomatch h.1
    | true =>
      rw [serverResult_of_admin hMode hOk]
      split
      next hKey => exact iff_of_true rfl ⟨rfl, hKey⟩
      next hKey => exact iff_of_false nofun fun h => hKey h.2
  case serverRecord =>
    intro record? h
    unfold serverResult at h
    cases hMode : m.mode with
    | anyone | system =>
      simp only [hMode] at h
      split at h
      · cases h
      · cases h
        exact (if_neg nofun).symm
    | restricted =>
      simp only [hMode] at h
      rw [if_pos rfl]
      split at h
      · split at h
        · cases h
        next record hFound =>
          cases h
          exact hFound.symm
      · cases h
    | admin =>
      simp only [hMode] at h
      split at h
      · split at h
        · cases h
          exact (if_neg nofun).symm
        · cases h
      · cases h
  case broken =>
    exact fun hMutual hFailed => ⟨cause, serverResult_of_left (.inr ⟨hMutual, hFailed⟩) cause⟩

/-- Whichever side goes on whenever it can, ten turns are the most there are, and where neither can
go on, both have ended, on terms that agree. So they have at the end of `Handshake.meet`. -/
theorem concord (m : Meeting)
    (hHost : (m.server.keypair.sign m.issued.octets.toList).verify = true)
    (hClient : (m.client.keypair.sign m.counter.octets.toList).verify = true) :
    (∀ turns e, m.start.play turns = some e → turns.length ≤ 10 ∧
      (e.IsStuck → ∃ atClient atServer, e.left.result? = some atClient ∧
        e.right.result? = some atServer ∧ m.Agrees atClient atServer)) ∧
    ∃ atClient atServer,
      (meet (connecting m.client m.mode m.host m.issued)
        (accepting m.server m.mode m.service m.counter) m.knows m.grants).left.result? =
          some atClient ∧
      (meet (connecting m.client m.mode m.host m.issued)
        (accepting m.server m.mode m.service m.counter) m.knows m.grants).right.result? =
          some atServer ∧ m.Agrees atClient atServer := by
  have hEnds : ∀ turns e, m.start.play turns = some e → turns.length ≤ 10 ∧
      (e.IsStuck → ∃ atClient atServer, e.left.result? = some atClient ∧
        e.right.result? = some atServer ∧ m.Agrees atClient atServer) := by
    intro turns e hPlay
    refine ⟨Encounter.length_le_of_play hPlay m.start_within, fun hStuck => ?_⟩
    have hJoint : m.Joint e := Encounter.invariant_of_play
      (fun _ turn _ hJoint hTurn => hJoint.of_turn hHost hClient turn hTurn) hPlay m.start_joint
    obtain ⟨hLeft, cause, hRight⟩ := hJoint.ends_of_isStuck hStuck
    exact ⟨_, _, hLeft, hRight, m.agrees cause⟩
  refine ⟨hEnds, ?_⟩
  obtain ⟨turns, hPlay, hEnd⟩ := Encounter.exists_play_run turnLimit m.start
  obtain ⟨hShort, hStuck⟩ := hEnds turns _ hPlay
  have hLimit : turns.length ≠ turnLimit := fun h => by
    rw [h] at hShort
    exact absurd hShort (by decide)
  exact hStuck (hEnd.resolve_left hLimit)

/-- Two sides that know each other, where the service has to be granted. -/
def sample : Meeting where
  mode := .restricted
  client := ⟨.ofSeed (.ofPadded 32 [1]), none⟩
  server := ⟨.ofSeed (.ofPadded 32 [2]), none⟩
  host := (Keypair.ofSeed (.ofPadded 32 [2])).address
  service := ⟨9⟩
  issued := default
  counter := ⟨.ofPadded 16 [7]⟩
  knows := ⟨fun peer => some (.create peer "server"), fun _ _ => none⟩
  grants := ⟨fun _ => none, fun peer _ => some (.create peer "client")⟩

set_option maxRecDepth 100000 in
theorem sample_verifies :
    (sample.server.keypair.sign sample.issued.octets.toList).verify = true ∧
      (sample.client.keypair.sign sample.counter.octets.toList).verify = true := by
  decide +kernel

/-- They succeed both. -/
theorem sample_concord :
    (sample.server.keypair.sign sample.issued.octets.toList).verify = true ∧
    (sample.client.keypair.sign sample.counter.octets.toList).verify = true ∧
    (∀ turns e, sample.start.play turns = some e → turns.length ≤ 10 ∧
      (e.IsStuck → ∃ atClient atServer, e.left.result? = some atClient ∧
        e.right.result? = some atServer ∧ atClient.isOk = true ∧ atServer.isOk = true)) := by
  have hConcord := concord sample sample_verifies.1 sample_verifies.2
  refine ⟨sample_verifies.1, sample_verifies.2, fun turns e hPlay => ?_⟩
  obtain ⟨hShort, hEnds⟩ := hConcord.1 turns e hPlay
  refine ⟨hShort, fun hStuck => ?_⟩
  obtain ⟨atClient, atServer, hLeft, hRight, hAgrees⟩ := hEnds hStuck
  have hClient : atClient.isOk = true := hAgrees.client.mpr ⟨rfl, fun _ => rfl⟩
  exact ⟨atClient, atServer, hLeft, hRight, hClient, (hAgrees.restricted rfl).mpr ⟨hClient, rfl⟩⟩

end Meeting

end PeerServices
