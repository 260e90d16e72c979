import PeerServices.Handshake.Basic

/-!
# The two sides of a handshake, frame by frame

A side of a handshake only ever waits for a frame: a challenge to answer, or a proof to check. Here
each side is written out as what it does with the frames one after another.

* `Handshake.run_accepting`: the accepting side takes a challenge (`takeChallenge`) and, where the
  mode asks for it, then a proof (`takeProof`).
* `Handshake.run_connecting`: the connecting side sends its challenge, takes the host's proof
  (`takeHostProof`) and, where the mode asks for it, then answers a challenge (`answerHost`).
-/

namespace PeerServices

/-! ## Dialogues as a monad -/

namespace Dialogue

variable {α β γ : Type}

theorem bind_assoc (d : Dialogue α) (f : α → Dialogue β) (g : β → Dialogue γ) :
    (d.bind f).bind g = d.bind fun a => (f a).bind g := by
  induction d with
  | stop a => rfl
  | send parcel rest ih => simp only [bind, ih]
  | receive rest ih => simp only [bind, ih]
  | look rest ih => simp only [bind, ih]

theorem bind_stop (d : Dialogue α) : d.bind .stop = d := by
  induction d with
  | stop a => rfl
  | send parcel rest ih => simp only [bind, ih]
  | receive rest ih => simp only [bind, ih]
  | look rest ih => simp only [bind, ih]

instance : LawfulMonad Dialogue :=
  LawfulMonad.mk' Dialogue bind_stop (fun _ _ => rfl) bind_assoc

theorem advance_send_snd (view : Authorizer) (reachable : Bool) (parcel : Parcel)
    (rest : Except WireError Unit → Dialogue α) :
    ((send parcel rest).advance view reachable).2 =
      ((rest (parcel.sent reachable)).advance view reachable).2 := by
  simp only [advance]
  cases parcel.sent reachable <;> rfl

end Dialogue

namespace Handshake

/-! ## Single moves -/

section Moves

variable {α β : Type}

/-- Goes on if a parcel could be sent. -/
def ifSent (next : Dialogue (Except HandshakeError β)) :
    Except WireError Unit → Dialogue (Except HandshakeError β)
  | .error e => .stop (.error (.wire e))
  | .ok () => next

/-- Goes on with the value that a frame holds. -/
def ifHolds (α : Type) [Serial α] (next : α → Dialogue (Except HandshakeError β))
    (frame : Received) : Dialogue (Except HandshakeError β) :=
  match Frame.decode α frame with
  | .error e => .stop (.error (.wire e))
  | .ok value => next value

/-- Goes on with a value that has to be there. -/
def ifSome (cause : HandshakeError) (next : α → Dialogue (Except HandshakeError β)) :
    Option α → Dialogue (Except HandshakeError β)
  | none => .stop (.error cause)
  | some value => next value

theorem run_send_bind (parcel : Parcel) (next : Unit → Side β) :
    (send parcel >>= next).run = .send parcel (ifSent (next ()).run) := by
  change Dialogue.send _ _ = _
  congr 1
  funext sent
  cases sent <;> rfl

theorem run_receive_bind [Serial α] (next : α → Side β) :
    (receive α >>= next).run = .receive (ifHolds α fun value => (next value).run) := by
  change Dialogue.receive _ = _
  congr 1
  funext frame
  unfold ifHolds
  change Dialogue.bind (.stop (Except.mapError HandshakeError.wire _)) _ = _
  cases Frame.decode α frame <;> rfl

theorem run_look_bind (f : Authorizer → α) (next : α → Side β) :
    (look f >>= next).run = .look fun authorizer => (next (f authorizer)).run := rfl

theorem run_require_bind (cause : HandshakeError) (value? : Option α) (next : α → Side β) :
    (require cause value? >>= next).run = ifSome cause (fun value => (next value).run) value? := by
  cases value? <;> rfl

theorem run_throw_bind (cause : HandshakeError) (next : α → Side β) :
    ((throw cause : Side α) >>= next).run = .stop (.error cause) := rfl

theorem run_pure (value : β) : (pure value : Side β).run = .stop (.ok value) := rfl

theorem run_ite (p : Prop) [Decidable p] (x y : Side β) :
    (if p then x else y).run = if p then x.run else y.run := by
  split <;> rfl

theorem run_answer_bind (own : Credentials) (next : Unit → Side β) :
    (answer own >>= next).run = .receive (ifHolds Challenge fun challenge =>
      .send (.proof (own.keypair.sign challenge.octets.toList)) (ifSent (next ()).run)) := by
  unfold answer
  simp only [bind_assoc, run_receive_bind, run_send_bind]

theorem run_ask_bind (issued : Challenge) (cause : HandshakeError)
    (next : SignedData × PeerAddress → Side β) :
    (ask issued cause >>= next).run = .send (.challenge issued) (ifSent (.receive
      (ifHolds SignedData fun proof =>
        ifSome cause (fun signer => (next (proof, signer)).run) (issued.signer? proof)))) := by
  unfold ask
  simp only [bind_assoc, pure_bind, run_receive_bind, run_send_bind, run_require_bind]

/-- A side goes on behind a parcel that fits its frame, if the other side is still there. -/
theorem advance_send {parcel : Parcel} (h : parcel.sent true = .ok ())
    (next : Dialogue (Except HandshakeError β)) (view : Authorizer) :
    ((Dialogue.send parcel (ifSent next)).advance view true).2 = (next.advance view true).2 := by
  rw [Dialogue.advance_send_snd, h]
  rfl

end Moves

theorem signer?_eq_some {issued : Challenge} {proof : SignedData} {peer : PeerAddress} :
    issued.signer? proof = some peer ↔ proof.data = issued.octets.toList ∧
      proof.verify = true ∧ proof.signer = peer := by
  unfold Challenge.signer? Challenge.provenBy
  split
  next h =>
    obtain ⟨hData, hVerify⟩ := Bool.and_eq_true_iff.mp h
    simp only [Option.some.injEq, eq_of_beq hData, hVerify, true_and]
  next h =>
    refine ⟨fun h => (nomatch h), fun ⟨hData, hVerify, _⟩ => absurd ?_ h⟩
    rw [hData, hVerify, beq_self_eq_true, Bool.and_self]

/-! ## The accepting side -/

/-- What the accepting side does with the frame that has to be a proof. -/
def takeProof (own : Credentials) (mode : Mode) (service : ServiceId) (issued : Challenge) :
    Received → Dialogue Result :=
  ifHolds SignedData fun proof =>
    ifSome .clientProof (fun peer =>
      match mode with
      | .restricted => .look fun authorizer =>
        ifSome (.notGranted peer service) (fun record => .stop (.ok (some record)))
          (authorizer.authorized peer service)
      | _ =>
        if own.isSystemKey proof.publicKey then .stop (.ok none)
        else .stop (.error .clientProof)) (issued.signer? proof)

/-- What the accepting side does once it has answered the challenge. -/
def afterAnswer (own : Credentials) (service : ServiceId) (issued : Challenge) :
    Mode → Dialogue Result
  | .anyone | .system => .stop (.ok none)
  | .restricted =>
    .send (.challenge issued) (ifSent (.receive (takeProof own .restricted service issued)))
  | .admin => .send (.challenge issued) (ifSent (.receive (takeProof own .admin service issued)))

/-- What the accepting side does with the frame that has to be a challenge. -/
def takeChallenge (own : Credentials) (mode : Mode) (service : ServiceId) (issued : Challenge) :
    Received → Dialogue Result :=
  ifHolds Challenge fun challenge =>
    .send (.proof (own.keypair.sign challenge.octets.toList))
      (ifSent (afterAnswer own service issued mode))

theorem run_accepting (own : Credentials) (mode : Mode) (service : ServiceId)
    (issued : Challenge) :
    (accepting own mode service issued).run =
      .receive (takeChallenge own mode service issued) := by
  unfold accepting takeChallenge
  rw [run_answer_bind]
  cases mode with
  | anyone => rfl
  | system => rfl
  | restricted =>
    simp only [run_ask_bind, run_look_bind, run_require_bind, run_pure, afterAnswer, takeProof]
  | admin =>
    simp only [run_ask_bind, run_ite, run_pure, run_throw_bind, afterAnswer, takeProof]

/-! ## The connecting side -/

/-- What the connecting side does with the frame that has to be the host's challenge. -/
def answerHost (own : Credentials) (record? : Option PeerRecord) : Received → Dialogue Result :=
  ifHolds Challenge fun challenge =>
    .send (.proof (own.keypair.sign challenge.octets.toList)) (ifSent (.stop (.ok record?)))

/-- What the connecting side does once it has the host's proof. -/
def afterHostProof (own : Credentials) (host : PeerAddress) : Mode → Dialogue Result
  | .anyone | .system => .stop (.ok none)
  | .restricted => .look fun authorizer =>
    ifSome (.unknownEntity host) (fun record => .receive (answerHost own (some record)))
      (authorizer.known host)
  | .admin => .receive (answerHost own none)

/-- What the connecting side does with the frame that has to be the host's proof. -/
def takeHostProof (own : Credentials) (mode : Mode) (host : PeerAddress) (issued : Challenge) :
    Received → Dialogue Result :=
  ifHolds SignedData fun proof =>
    ifSome .serverProof (fun signer =>
      if acceptsHost own mode host proof signer then afterHostProof own host mode
      else .stop (.error .serverProof)) (issued.signer? proof)

theorem run_connecting (own : Credentials) (mode : Mode) (host : PeerAddress)
    (issued : Challenge) :
    (connecting own mode host issued).run =
      if mode = .system ∧ own.systemKey = none then .stop (.error .noSystemKey)
      else .send (.challenge issued)
        (ifSent (.receive (takeHostProof own mode host issued))) := by
  unfold connecting
  by_cases hkey : mode = .system ∧ own.systemKey = none
  · simp only [if_pos hkey, run_throw_bind]
  · simp only [if_neg hkey, run_ask_bind, run_ite, run_throw_bind]
    unfold takeHostProof afterHostProof answerHost
    cases mode <;>
      simp only [run_look_bind, run_require_bind, run_answer_bind, run_pure]

end Handshake

end PeerServices
