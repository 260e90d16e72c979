import PeerServices.Proofs.Handshake.Outcome

/-!
# What the connecting side demands

* `Handshake.outcome_connecting`: which frames make the connecting side succeed, and with which
  record. The first one has to be the proof of the host; where the mode asks for it, the second one
  has to be a challenge of sixteen bytes.
* `Dialogue.spoken`: the parcels that a dialogue sends while it hears some frames.
* `Handshake.hostProves_of_signed`: the connecting side signs nothing unless it succeeds.
-/

namespace PeerServices

theorem Parcel.sent_service (id : ServiceId) : (Parcel.service id).sent true = .ok () := by
  apply sent_of_length_le
  have hLength : (Parcel.service id).body.length = 8 := rfl
  rw [hLength]
  decide

/-! ## The parcels of a dialogue -/

namespace Dialogue

variable {α : Type}

/-- The parcels that a dialogue sends when it hears these frames. -/
def spoken (view : Authorizer) (d : Dialogue α) : List Received → List Parcel
  | [] => (d.advance view true).1
  | frame :: frames =>
    (d.advance view true).1 ++
      match (d.advance view true).2 with
      | .over _ => []
      | .waiting rest => (rest frame).spoken view frames

theorem spoken_stop (view : Authorizer) (result : α) (frames : List Received) :
    (stop result).spoken view frames = [] := by
  cases frames <;> rfl

theorem spoken_look (view : Authorizer) (rest : Authorizer → Dialogue α)
    (frames : List Received) : (look rest).spoken view frames = (rest view).spoken view frames := by
  cases frames <;> simp only [spoken, advance]

theorem mem_spoken_receive (view : Authorizer) (rest : Received → Dialogue α)
    (frames : List Received) (parcel : Parcel) :
    parcel ∈ (receive rest).spoken view frames ↔
      ∃ frame more, frames = frame :: more ∧ parcel ∈ (rest frame).spoken view more := by
  cases frames with
  | nil => simp [spoken, advance]
  | cons frame more =>
    simp only [spoken, advance, List.nil_append]
    constructor
    · exact fun h => ⟨frame, more, rfl, h⟩
    · rintro ⟨_, _, hEq, h⟩
      obtain ⟨rfl, rfl⟩ := List.cons.inj hEq
      exact h

end Dialogue

namespace Handshake

section Moves

variable {α β : Type} {view : Authorizer} {frames : List Received} {parcel : Parcel}

theorem spoken_send {sent : Parcel} (h : sent.sent true = .ok ())
    (next : Dialogue (Except HandshakeError β)) :
    (Dialogue.send sent (ifSent next)).spoken view frames = sent :: next.spoken view frames := by
  have hAdvance : (Dialogue.send sent (ifSent next)).advance view true =
      (sent :: (next.advance view true).1, (next.advance view true).2) := by
    simp only [Dialogue.advance, h, ifSent]
  cases frames <;> simp only [Dialogue.spoken, hAdvance, List.cons_append]

theorem mem_spoken_ifHolds [Serial α] (next : α → Dialogue (Except HandshakeError β))
    (frame : Received) :
    parcel ∈ (ifHolds α next frame).spoken view frames ↔
      ∃ held, Frame.decode α frame = .ok held ∧ parcel ∈ (next held).spoken view frames := by
  unfold ifHolds
  cases Frame.decode α frame with
  | error e => simp [Dialogue.spoken_stop]
  | ok held => simp

theorem mem_spoken_ifSome (cause : HandshakeError)
    (next : α → Dialogue (Except HandshakeError β)) (found? : Option α) :
    parcel ∈ (ifSome cause next found?).spoken view frames ↔
      ∃ found, found? = some found ∧ parcel ∈ (next found).spoken view frames := by
  cases found? with
  | none => simp [ifSome, Dialogue.spoken_stop]
  | some found => simp [ifSome]

end Moves

/-! ## The connecting side -/

/-- What the frames behind the host's proof have to be, and the record that the mode settles. -/
def Finishes (view : Authorizer) (mode : Mode) (host : PeerAddress)
    (record? : Option PeerRecord) (frames : List Received) : Prop :=
  match mode with
  | .anyone | .system => record? = none
  | .restricted => ∃ (record : PeerRecord) (challenge : Challenge) (more : List Received),
      view.known host = some record ∧ frames = .ok (Serial.encode challenge) :: more ∧
      record? = some record
  | .admin => ∃ (challenge : Challenge) (more : List Received),
      frames = .ok (Serial.encode challenge) :: more ∧ record? = none

/-- Is this the key that the host of a handshake has to prove that it holds? -/
def IsHostKey (own : Credentials) (mode : Mode) (host : PeerAddress) (proof : SignedData) : Prop :=
  match mode with
  | .system => own.systemKey = some proof.publicKey
  | _ => proof.signer = host

/-- What the frames have to be for the connecting side, and the record that they settle. -/
def HostProves (own : Credentials) (view : Authorizer) (mode : Mode) (host : PeerAddress)
    (issued : Challenge) (record? : Option PeerRecord) (frames : List Received) : Prop :=
  ∃ body more proof, frames = .ok body :: more ∧ Serial.decode SignedData body = .ok proof ∧
    proof.data = issued.octets.toList ∧ proof.verify = true ∧ IsHostKey own mode host proof ∧
    Finishes view mode host record? more

section Connecting

variable {own : Credentials} {view : Authorizer} {mode : Mode} {host : PeerAddress}
  {issued : Challenge} {frames : List Received} {record? : Option PeerRecord}

theorem acceptsHost_iff {proof : SignedData} :
    acceptsHost own mode host proof proof.signer = true ↔ IsHostKey own mode host proof := by
  cases mode <;> simp [acceptsHost, IsHostKey, Credentials.isSystemKey]

/-- Without a system key nobody holds it. -/
theorem not_isHostKey_of_none (h : mode = .system ∧ own.systemKey = none) (proof : SignedData) :
    ¬IsHostKey own mode host proof := by
  obtain ⟨rfl, hNone⟩ := h
  simp [IsHostKey, hNone]

theorem outcome_answerHost (found? : Option PeerRecord) :
    (Dialogue.receive (answerHost own found?)).outcome view frames = some (.ok record?) ↔
      ∃ (challenge : Challenge) (more : List Received),
        frames = .ok (Serial.encode challenge) :: more ∧ record? = found? := by
  simp only [Dialogue.outcome_receive, answerHost, outcome_ifHolds,
    Frame.decode_challenge_eq_ok_iff, outcome_send (Parcel.sent_proof _ _), Dialogue.outcome_stop,
    Option.some.injEq, Except.ok.injEq]
  constructor
  · rintro ⟨_, more, rfl, challenge, rfl, rfl⟩
    exact ⟨challenge, more, rfl, rfl⟩
  · rintro ⟨challenge, more, rfl, rfl⟩
    exact ⟨_, more, rfl, challenge, rfl, rfl⟩

theorem outcome_afterHostProof :
    (afterHostProof own host mode).outcome view frames = some (.ok record?) ↔
      Finishes view mode host record? frames := by
  cases mode with
  | anyone => simp [afterHostProof, Dialogue.outcome_stop, Finishes, eq_comm]
  | system => simp [afterHostProof, Dialogue.outcome_stop, Finishes, eq_comm]
  | restricted =>
    simp only [afterHostProof, Dialogue.outcome_look, outcome_ifSome, outcome_answerHost, Finishes]
    constructor
    · rintro ⟨record, hRecord, challenge, more, hFrames, hEq⟩
      exact ⟨record, challenge, more, hRecord, hFrames, hEq⟩
    · rintro ⟨record, challenge, more, hRecord, hFrames, hEq⟩
      exact ⟨record, hRecord, challenge, more, hFrames, hEq⟩
  | admin => simp only [afterHostProof, outcome_answerHost, Finishes]

/-- The connecting side succeeds exactly on a proof of the host and what its mode asks for besides,
with the record of the host in the mode that needs one. -/
theorem outcome_connecting :
    (connecting own mode host issued).run.outcome view frames = some (.ok record?) ↔
      HostProves own view mode host issued record? frames := by
  rw [run_connecting]
  by_cases hKey : mode = .system ∧ own.systemKey = none
  · rw [if_pos hKey, Dialogue.outcome_stop]
    refine iff_of_false (fun h => nomatch h) ?_
    rintro ⟨_, _, proof, _, _, _, _, hHost, _⟩
    exact not_isHostKey_of_none hKey proof hHost
  rw [if_neg hKey, outcome_send (Parcel.sent_challenge issued), Dialogue.outcome_receive]
  unfold takeHostProof HostProves
  simp only [outcome_ifHolds, outcome_ifSome, signer?_eq_some, Frame.decode_eq_ok_iff]
  constructor
  · rintro ⟨_, more, rfl, proof, ⟨body, rfl, hDecode⟩, _, ⟨hData, hVerify, rfl⟩, hOutcome⟩
    split at hOutcome
    next hHost =>
      exact ⟨body, more, proof, rfl, hDecode, hData, hVerify, acceptsHost_iff.mp hHost,
        outcome_afterHostProof.mp hOutcome⟩
    · rw [Dialogue.outcome_stop] at hOutcome
      cases hOutcome
  · rintro ⟨body, more, proof, rfl, hDecode, hData, hVerify, hHost, hFinishes⟩
    refine ⟨_, more, rfl, proof, ⟨body, rfl, hDecode⟩, _, ⟨hData, hVerify, rfl⟩, ?_⟩
    rw [if_pos (acceptsHost_iff.mpr hHost)]
    exact outcome_afterHostProof.mpr hFinishes

/-! ## What the connecting side signs -/

theorem proof_mem_spoken_answerHost {found? : Option PeerRecord} {signed : SignedData} :
    .proof signed ∈ (Dialogue.receive (answerHost own found?)).spoken view frames ↔
      ∃ (challenge : Challenge) (more : List Received),
        frames = .ok (Serial.encode challenge) :: more ∧
        signed = own.keypair.sign challenge.octets.toList := by
  simp only [Dialogue.mem_spoken_receive, answerHost, mem_spoken_ifHolds,
    Frame.decode_challenge_eq_ok_iff, spoken_send (Parcel.sent_proof _ _), Dialogue.spoken_stop,
    List.mem_singleton, Parcel.proof.injEq]
  constructor
  · rintro ⟨_, more, rfl, challenge, rfl, hSigned⟩
    exact ⟨challenge, more, rfl, hSigned⟩
  · rintro ⟨challenge, more, rfl, hSigned⟩
    exact ⟨_, more, rfl, challenge, rfl, hSigned⟩

/-- Behind the host's proof only a dialogue that succeeds signs. -/
theorem finishes_of_signed {signed : SignedData}
    (h : .proof signed ∈ (afterHostProof own host mode).spoken view frames) :
    ∃ record?, Finishes view mode host record? frames := by
  cases mode with
  | anyone | system =>
    simp only [afterHostProof, Dialogue.spoken_stop] at h
    cases h
  | restricted =>
    simp only [afterHostProof, Dialogue.spoken_look, mem_spoken_ifSome,
      proof_mem_spoken_answerHost] at h
    obtain ⟨record, hRecord, challenge, more, hFrames, -⟩ := h
    exact ⟨some record, record, challenge, more, hRecord, hFrames, rfl⟩
  | admin =>
    simp only [afterHostProof, proof_mem_spoken_answerHost] at h
    obtain ⟨challenge, more, hFrames, -⟩ := h
    exact ⟨none, challenge, more, hFrames, rfl⟩

/-- Unless it succeeds, the connecting side signs nothing. -/
theorem hostProves_of_signed {signed : SignedData}
    (h : .proof signed ∈ (connecting own mode host issued).run.spoken view frames) :
    ∃ record?, HostProves own view mode host issued record? frames := by
  rw [run_connecting] at h
  split at h
  · rw [Dialogue.spoken_stop] at h
    cases h
  rw [spoken_send (Parcel.sent_challenge issued)] at h
  rcases List.mem_cons.mp h with hEq | h
  · cases hEq
  simp only [Dialogue.mem_spoken_receive, takeHostProof, mem_spoken_ifHolds, mem_spoken_ifSome,
    signer?_eq_some, Frame.decode_eq_ok_iff] at h
  obtain ⟨_, more, rfl, proof, ⟨body, rfl, hDecode⟩, _, ⟨hData, hVerify, rfl⟩, hSigned⟩ := h
  split at hSigned
  next hHost =>
    obtain ⟨record?, hFinishes⟩ := finishes_of_signed hSigned
    exact ⟨record?, body, more, proof, rfl, hDecode, hData, hVerify, acceptsHost_iff.mp hHost,
      hFinishes⟩
  · rw [Dialogue.spoken_stop] at hSigned
    cases hSigned

end Connecting

end Handshake

end PeerServices
