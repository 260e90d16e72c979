import PeerServices.Proofs.Handshake.Sides
import PeerServices.Proofs.Wire.Parcel

/-!
# What the accepting side demands

`Dialogue.outcome` is how a dialogue ends that hears some frames one after another, with the other
side still there. `Handshake.outcome_accepting` says exactly which frames make the accepting side
succeed, and with which record.
-/

namespace PeerServices

/-! ## Dialogues and the frames they hear -/

namespace Dialogue

variable {α : Type}

/-- How a dialogue ends on these frames, if it does. -/
def outcome (view : Authorizer) (d : Dialogue α) : List Received → Option α
  | [] =>
    match (d.advance view true).2 with
    | .over result => some result
    | .waiting _ => none
  | frame :: frames =>
    match (d.advance view true).2 with
    | .over result => some result
    | .waiting rest => (rest frame).outcome view frames

theorem outcome_of_over {view : Authorizer} {d : Dialogue α} {result : α}
    (h : (d.advance view true).2 = .over result) (frames : List Received) :
    d.outcome view frames = some result := by
  cases frames <;> simp only [outcome, h]

theorem outcome_congr {view : Authorizer} {d e : Dialogue α}
    (h : (d.advance view true).2 = (e.advance view true).2) (frames : List Received) :
    d.outcome view frames = e.outcome view frames := by
  cases frames <;> simp only [outcome, h]

theorem outcome_stop (view : Authorizer) (result : α) (frames : List Received) :
    (stop result).outcome view frames = some result := outcome_of_over rfl frames

theorem outcome_look (view : Authorizer) (rest : Authorizer → Dialogue α)
    (frames : List Received) : (look rest).outcome view frames = (rest view).outcome view frames :=
  outcome_congr (by rw [advance]) frames

theorem outcome_receive (view : Authorizer) (rest : Received → Dialogue α)
    (frames : List Received) (result : α) :
    (receive rest).outcome view frames = some result ↔
      ∃ frame more, frames = frame :: more ∧ (rest frame).outcome view more = some result := by
  cases frames with
  | nil => simp [outcome, advance]
  | cons frame more =>
    simp only [outcome, advance]
    constructor
    · exact fun h => ⟨frame, more, rfl, h⟩
    · rintro ⟨_, _, hEq, h⟩
      obtain ⟨rfl, rfl⟩ := List.cons.inj hEq
      exact h

end Dialogue

namespace Handshake

section Moves

variable {α β : Type} {view : Authorizer} {frames : List Received} {value : β}

theorem outcome_send {parcel : Parcel} (h : parcel.sent true = .ok ())
    (next : Dialogue (Except HandshakeError β)) :
    (Dialogue.send parcel (ifSent next)).outcome view frames = next.outcome view frames :=
  Dialogue.outcome_congr (advance_send h next view) frames

theorem outcome_ifHolds [Serial α] (next : α → Dialogue (Except HandshakeError β))
    (frame : Received) :
    (ifHolds α next frame).outcome view frames = some (.ok value) ↔
      ∃ held, Frame.decode α frame = .ok held ∧
        (next held).outcome view frames = some (.ok value) := by
  unfold ifHolds
  cases Frame.decode α frame with
  | error e => simp [Dialogue.outcome_stop]
  | ok held => simp

theorem outcome_ifSome (cause : HandshakeError) (next : α → Dialogue (Except HandshakeError β))
    (found? : Option α) :
    (ifSome cause next found?).outcome view frames = some (.ok value) ↔
      ∃ found, found? = some found ∧ (next found).outcome view frames = some (.ok value) := by
  cases found? with
  | none => simp [ifSome, Dialogue.outcome_stop]
  | some found => simp [ifSome]

end Moves

/-! ## The accepting side -/

/-- What the frames behind the challenge have to be, and the record that they settle. -/
def Proves (own : Credentials) (view : Authorizer) (mode : Mode) (service : ServiceId)
    (issued : Challenge) (record? : Option PeerRecord) (frames : List Received) : Prop :=
  match mode with
  | .anyone | .system => record? = none
  | .restricted => ∃ body more proof record, frames = .ok body :: more ∧
      Serial.decode SignedData body = .ok proof ∧ proof.data = issued.octets.toList ∧
      proof.verify = true ∧ view.authorized proof.signer service = some record ∧
      record? = some record
  | .admin => ∃ body more proof, frames = .ok body :: more ∧
      Serial.decode SignedData body = .ok proof ∧ proof.data = issued.octets.toList ∧
      proof.verify = true ∧ own.systemKey = some proof.publicKey ∧ record? = none

section Accepting

variable {own : Credentials} {view : Authorizer} {service : ServiceId} {issued : Challenge}
  {frames : List Received} {record? : Option PeerRecord}

theorem outcome_afterAnswer (mode : Mode) :
    (afterAnswer own service issued mode).outcome view frames = some (.ok record?) ↔
      Proves own view mode service issued record? frames := by
  have hAsked := Parcel.sent_challenge issued
  cases mode with
  | anyone => simp [afterAnswer, Dialogue.outcome_stop, Proves, eq_comm]
  | system => simp [afterAnswer, Dialogue.outcome_stop, Proves, eq_comm]
  | restricted =>
    simp only [afterAnswer, outcome_send hAsked, Dialogue.outcome_receive, takeProof,
      outcome_ifHolds, outcome_ifSome, Dialogue.outcome_look, Dialogue.outcome_stop,
      signer?_eq_some, Frame.decode_eq_ok_iff, Proves, Option.some.injEq, Except.ok.injEq]
    constructor
    · rintro ⟨frame, more, rfl, proof, ⟨body, rfl, hDecode⟩, peer, ⟨hData, hVerify, rfl⟩, record,
        hRecord, rfl⟩
      exact ⟨body, more, proof, record, rfl, hDecode, hData, hVerify, hRecord, rfl⟩
    · rintro ⟨body, more, proof, record, rfl, hDecode, hData, hVerify, hRecord, rfl⟩
      exact ⟨_, more, rfl, proof, ⟨body, rfl, hDecode⟩, _, ⟨hData, hVerify, rfl⟩, record, hRecord,
        rfl⟩
  | admin =>
    simp only [afterAnswer, outcome_send hAsked, Dialogue.outcome_receive, takeProof,
      outcome_ifHolds, outcome_ifSome, signer?_eq_some, Frame.decode_eq_ok_iff, Proves]
    constructor
    · rintro ⟨frame, more, rfl, proof, ⟨body, rfl, hDecode⟩, peer, ⟨hData, hVerify, rfl⟩, hStop⟩
      split at hStop
      next hKey =>
        have hRecord := Except.ok.inj (Option.some.inj (Dialogue.outcome_stop .. ▸ hStop))
        exact ⟨body, more, proof, rfl, hDecode, hData, hVerify, of_decide_eq_true hKey,
          hRecord.symm⟩
      · rw [Dialogue.outcome_stop] at hStop
        cases hStop
    · rintro ⟨body, more, proof, rfl, hDecode, hData, hVerify, hKey, rfl⟩
      refine ⟨_, more, rfl, proof, ⟨body, rfl, hDecode⟩, _, ⟨hData, hVerify, rfl⟩, ?_⟩
      have hSystem : own.isSystemKey proof.publicKey = true := decide_eq_true hKey
      rw [if_pos hSystem, Dialogue.outcome_stop]

/-- The accepting side succeeds exactly on a challenge of sixteen bytes and what proves the other
side in its mode. -/
theorem outcome_accepting (mode : Mode) :
    (accepting own mode service issued).run.outcome view frames = some (.ok record?) ↔
      ∃ (challenge : Challenge) (more : List Received),
        frames = .ok (Serial.encode challenge) :: more ∧
        Proves own view mode service issued record? more := by
  rw [run_accepting, Dialogue.outcome_receive]
  unfold takeChallenge
  simp only [outcome_ifHolds, Frame.decode_challenge_eq_ok_iff,
    outcome_send (Parcel.sent_proof _ _), outcome_afterAnswer]
  constructor
  · rintro ⟨frame, more, rfl, challenge, rfl, hProves⟩
    exact ⟨challenge, more, rfl, hProves⟩
  · rintro ⟨challenge, more, rfl, hProves⟩
    exact ⟨_, more, rfl, challenge, rfl, hProves⟩

end Accepting

end Handshake

end PeerServices
