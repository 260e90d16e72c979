import PeerServices.Proofs.Handshake.Sides

/-!
# What the two sides of a handshake keep to

A side is judged by its transcript: the parcels it made, whether or not they could be sent, and the
frames it heard. `Dialogue.Meets` says that a dialogue keeps to a contract whatever it hears,
whatever it learns from lawful authorizers and whether or not its parcels get through.

* `Dialogue.Meets.advance`: what one advance preserves.
* `Handshake.Role.meets`: both sides sign only what somebody had them sign. The connecting side
  signs only once the proof of the host it connects to has come in, and an accepting side that
  succeeds has heard the proof that its mode asks for.
-/

namespace PeerServices

/-- Whoever is authorized is found under the address that was asked for. -/
def Authorizer.Lawful (view : Authorizer) : Prop :=
  ∀ ⦃peer service record⦄, view.authorized peer service = some record → record.address = peer

/-! ## Transcripts -/

/-- What a side has made and heard so far. -/
structure Transcript where
  made : List Parcel
  heard : List Received

namespace Transcript

def empty : Transcript := ⟨[], []⟩

def make (t : Transcript) (parcels : List Parcel) : Transcript :=
  { t with made := t.made ++ parcels }

def hear (t : Transcript) (frame : Received) : Transcript := { t with heard := t.heard ++ [frame] }

/-- A frame that came in holds this value. -/
def Heard {α : Type} [Serial α] (t : Transcript) (value : α) : Prop :=
  ∃ frame ∈ t.heard, Frame.decode α frame = .ok value

theorem make_nil (t : Transcript) : t.make [] = t := by simp only [make, List.append_nil]

theorem make_make (t : Transcript) (ps qs : List Parcel) :
    (t.make ps).make qs = t.make (ps ++ qs) := by
  simp only [make, List.append_assoc]

theorem heard_hear {α : Type} [Serial α] {t : Transcript} {frame : Received} {value : α}
    (h : Frame.decode α frame = .ok value) : (t.hear frame).Heard value :=
  ⟨frame, List.mem_append_right _ (List.mem_singleton_self frame), h⟩

theorem Heard.hear {α : Type} [Serial α] {t : Transcript} {value : α} (h : t.Heard value)
    (frame : Received) : (t.hear frame).Heard value := by
  obtain ⟨f, hMem, hDecode⟩ := h
  exact ⟨f, List.mem_append_left _ hMem, hDecode⟩

end Transcript

/-! ## Contracts of dialogues -/

/-- What a side keeps to whenever it rests, and what it has made sure of when it succeeds. -/
structure Contract (α : Type) where
  always : Transcript → Prop
  success : α → Transcript → Prop

namespace Dialogue

section Meets

variable {ε α : Type} {k : Contract α} {t : Transcript}

/-- From this transcript on, the dialogue keeps to the contract. -/
def Meets (k : Contract α) : Transcript → Dialogue (Except ε α) → Prop
  | t, .stop result => k.always t ∧ ∀ value, result = .ok value → k.success value t
  | t, .send parcel rest => ∀ sent, Meets k (t.make [parcel]) (rest sent)
  | t, .receive rest => k.always t ∧ ∀ frame, Meets k (t.hear frame) (rest frame)
  | t, .look rest => ∀ view : Authorizer, view.Lawful → Meets k t (rest view)

def Pause.Meets (k : Contract α) (t : Transcript) : Pause (Except ε α) → Prop
  | .over result => k.always t ∧ ∀ value, result = .ok value → k.success value t
  | .waiting rest => k.always t ∧ ∀ frame, (rest frame).Meets k (t.hear frame)

/-- The parcels that a dialogue makes, whether or not they can be sent, until it rests. -/
def makes {α : Type} (view : Authorizer) (reachable : Bool) : Dialogue α → List Parcel
  | .stop _ => []
  | .receive _ => []
  | .look rest => (rest view).makes view reachable
  | .send parcel rest => parcel :: (rest (parcel.sent reachable)).makes view reachable

theorem Meets.advance {d : Dialogue (Except ε α)} (h : d.Meets k t) {view : Authorizer}
    (hView : view.Lawful) (reachable : Bool) :
    (d.advance view reachable).2.Meets k (t.make (d.makes view reachable)) := by
  induction d generalizing t with
  | stop result =>
    rw [makes, Transcript.make_nil]
    exact h
  | receive rest ih =>
    rw [makes, Transcript.make_nil]
    exact h
  | look rest ih => exact ih view (h view hView)
  | send parcel rest ih =>
    rw [advance_send_snd, makes, ← List.singleton_append, ← Transcript.make_make]
    exact ih _ (h _)

theorem Pause.Meets.always {pause : Pause (Except ε α)} (h : pause.Meets k t) : k.always t := by
  cases pause with
  | «over» result => exact h.1
  | waiting rest => exact h.1

end Meets

end Dialogue

/-! ## Single moves -/

namespace Handshake

section Moves

variable {α β : Type} {k : Contract β} {t : Transcript}

theorem send_meets {parcel : Parcel} {next : Dialogue (Except HandshakeError β)}
    (hAlways : k.always (t.make [parcel])) (hNext : next.Meets k (t.make [parcel])) :
    (Dialogue.send parcel (ifSent next)).Meets k t := by
  intro sent
  cases sent with
  | error e => exact ⟨hAlways, fun _ h => nomatch h⟩
  | ok _ => exact hNext

theorem ifHolds_meets [Serial α] {next : α → Dialogue (Except HandshakeError β)}
    {frame : Received} (hAlways : k.always (t.hear frame))
    (hNext : ∀ value, (t.hear frame).Heard value → (next value).Meets k (t.hear frame)) :
    (ifHolds α next frame).Meets k (t.hear frame) := by
  unfold ifHolds
  cases hDecode : Frame.decode α frame with
  | error e => exact ⟨hAlways, fun _ h => nomatch h⟩
  | ok value => exact hNext value (Transcript.heard_hear hDecode)

theorem ifSome_meets {next : α → Dialogue (Except HandshakeError β)} {cause : HandshakeError}
    {value? : Option α} (hAlways : k.always t)
    (hNext : ∀ value, value? = some value → (next value).Meets k t) :
    (ifSome cause next value?).Meets k t := by
  cases value? with
  | none => exact ⟨hAlways, fun _ h => nomatch h⟩
  | some value => exact hNext value rfl

end Moves

/-! ## The contract of a side -/

/-- Which side of which handshake somebody is. -/
inductive Role
  | accepting (mode : Mode) (service : ServiceId)
  | connecting (mode : Mode) (host : PeerAddress)
deriving DecidableEq

namespace Role

/-- The side that plays a role. -/
def side (own : Credentials) (issued : Challenge) : Role → Side (Option PeerRecord)
  | .accepting mode service => Handshake.accepting own mode service issued
  | .connecting mode host => Handshake.connecting own mode host issued

/-- What has to have happened before a role signs anything. -/
def MaySign (issued : Challenge) (t : Transcript) : Role → Prop
  | .accepting _ _ => True
  | .connecting mode host =>
    (mode = .restricted ∨ mode = .admin) ∧ ∃ proof, t.Heard proof ∧ issued.signer? proof = some host

/-- The proof of a transcript signs a challenge that came in, and could be asked for. -/
def Signs (own : Credentials) (issued : Challenge) (t : Transcript) (role : Role)
    (proof : SignedData) : Prop :=
  ∃ challenge : Challenge, t.Heard challenge ∧
    proof = own.keypair.sign challenge.octets.toList ∧ role.MaySign issued t

/-- What an accepting side that succeeds has heard. -/
def Admits (own : Credentials) (issued : Challenge) (t : Transcript) (record? : Option PeerRecord) :
    Role → Prop
  | .accepting .restricted _ => ∃ proof record, t.Heard proof ∧ record? = some record ∧
      issued.signer? proof = some record.address
  | .accepting .admin _ => ∃ proof, t.Heard proof ∧ own.systemKey = some proof.publicKey ∧
      issued.signer? proof = some proof.signer
  | _ => True

def contract (own : Credentials) (issued : Challenge) (role : Role) :
    Contract (Option PeerRecord) where
  always t := ∀ proof, .proof proof ∈ t.made → role.Signs own issued t proof
  success record? t := role.Admits own issued t record?

section Preservation

variable {own : Credentials} {issued : Challenge} {t : Transcript} {role : Role}
  {proof : SignedData}

theorem MaySign.hear (h : role.MaySign issued t) (frame : Received) :
    role.MaySign issued (t.hear frame) := by
  cases role with
  | accepting mode service => trivial
  | connecting mode host =>
    obtain ⟨hMode, q, hHeard, hSigner⟩ := h
    exact ⟨hMode, q, hHeard.hear frame, hSigner⟩

theorem Signs.hear (h : role.Signs own issued t proof) (frame : Received) :
    role.Signs own issued (t.hear frame) proof := by
  obtain ⟨challenge, hHeard, hProof, hMay⟩ := h
  exact ⟨challenge, hHeard.hear frame, hProof, hMay.hear frame⟩

theorem always_empty : (role.contract own issued).always .empty :=
  fun _ h => nomatch h

theorem always_hear (h : (role.contract own issued).always t) (frame : Received) :
    (role.contract own issued).always (t.hear frame) :=
  fun proof hMade => (h proof hMade).hear frame

theorem always_challenge (h : (role.contract own issued).always t) (c : Challenge) :
    (role.contract own issued).always (t.make [.challenge c]) := by
  intro proof hMade
  rcases List.mem_append.mp hMade with hMade | hMade
  · exact h proof hMade
  · exact nomatch List.mem_singleton.mp hMade

theorem always_proof (h : (role.contract own issued).always t)
    (hSigns : role.Signs own issued t proof) :
    (role.contract own issued).always (t.make [.proof proof]) := by
  intro other hMade
  rcases List.mem_append.mp hMade with hMade | hMade
  · exact h other hMade
  · obtain rfl := Parcel.proof.inj (List.mem_singleton.mp hMade)
    exact hSigns

end Preservation

end Role

/-! ## Both sides keep to it -/

section Sides

variable {own : Credentials} {issued : Challenge} {t : Transcript}

theorem takeProof_meets {mode : Mode} {service : ServiceId}
    (hMode : mode = .restricted ∨ mode = .admin)
    (h : ((Role.accepting mode service).contract own issued).always t) (frame : Received) :
    (takeProof own mode service issued frame).Meets
      ((Role.accepting mode service).contract own issued) (t.hear frame) := by
  have hHear := Role.always_hear h frame
  refine ifHolds_meets hHear fun proof hProof => ifSome_meets hHear fun peer hPeer => ?_
  rcases hMode with rfl | rfl
  · intro view hView
    refine ifSome_meets hHear fun record hRecord => ⟨hHear, fun _ hOver => ?_⟩
    obtain rfl := Except.ok.inj hOver
    exact ⟨proof, record, hProof, rfl, by rw [hView hRecord, hPeer]⟩
  · dsimp only
    split
    next hKey =>
      refine ⟨hHear, fun _ _ => ⟨proof, hProof, of_decide_eq_true hKey, ?_⟩⟩
      obtain ⟨hData, hVerify, -⟩ := signer?_eq_some.mp hPeer
      exact signer?_eq_some.mpr ⟨hData, hVerify, rfl⟩
    · exact ⟨hHear, fun _ hOver => nomatch hOver⟩

theorem afterAnswer_meets {mode : Mode} {service : ServiceId}
    (h : ((Role.accepting mode service).contract own issued).always t) :
    (afterAnswer own service issued mode).Meets
      ((Role.accepting mode service).contract own issued) t := by
  cases mode with
  | anyone => exact ⟨h, fun _ _ => trivial⟩
  | system => exact ⟨h, fun _ _ => trivial⟩
  | restricted =>
    have hAsked := Role.always_challenge h issued
    exact send_meets hAsked ⟨hAsked, takeProof_meets (.inl rfl) hAsked⟩
  | admin =>
    have hAsked := Role.always_challenge h issued
    exact send_meets hAsked ⟨hAsked, takeProof_meets (.inr rfl) hAsked⟩

theorem accepting_meets (mode : Mode) (service : ServiceId) :
    (accepting own mode service issued).run.Meets
      ((Role.accepting mode service).contract own issued) .empty := by
  rw [run_accepting]
  refine ⟨Role.always_empty, fun frame => ?_⟩
  have hEmpty : ((Role.accepting mode service).contract own issued).always .empty :=
    Role.always_empty
  have hHear := Role.always_hear hEmpty frame
  refine ifHolds_meets hHear fun challenge hChallenge => ?_
  have hSigned := Role.always_proof hHear ⟨challenge, hChallenge, rfl, trivial⟩
  exact send_meets hSigned (afterAnswer_meets hSigned)

theorem answerHost_meets {mode : Mode} {host : PeerAddress}
    (h : ((Role.connecting mode host).contract own issued).always t)
    (hMay : (Role.connecting mode host).MaySign issued t) (record? : Option PeerRecord)
    (frame : Received) :
    (answerHost own record? frame).Meets ((Role.connecting mode host).contract own issued)
      (t.hear frame) := by
  have hHear := Role.always_hear h frame
  refine ifHolds_meets hHear fun challenge hChallenge => ?_
  have hSigned := Role.always_proof hHear ⟨challenge, hChallenge, rfl, hMay.hear frame⟩
  exact send_meets hSigned ⟨hSigned, fun _ _ => trivial⟩

/-- The proof of the host has to have come in for the modes in which this side signs. -/
theorem afterHostProof_meets {mode : Mode} {host : PeerAddress}
    (h : ((Role.connecting mode host).contract own issued).always t)
    (hProven : mode = .restricted ∨ mode = .admin →
      ∃ proof, t.Heard proof ∧ issued.signer? proof = some host) :
    (afterHostProof own host mode).Meets ((Role.connecting mode host).contract own issued) t := by
  cases mode with
  | anyone => exact ⟨h, fun _ _ => trivial⟩
  | system => exact ⟨h, fun _ _ => trivial⟩
  | restricted =>
    intro view hView
    refine ifSome_meets h fun record hRecord => ⟨h, fun frame => ?_⟩
    exact answerHost_meets h ⟨.inl rfl, hProven (.inl rfl)⟩ (some record) frame
  | admin => exact ⟨h, answerHost_meets h ⟨.inr rfl, hProven (.inr rfl)⟩ none⟩

theorem signer_eq_host {mode : Mode} {host signer : PeerAddress} {proof : SignedData}
    (hMode : mode = .restricted ∨ mode = .admin)
    (h : acceptsHost own mode host proof signer = true) : signer = host := by
  rcases hMode with rfl | rfl <;> exact of_decide_eq_true h

theorem connecting_meets (mode : Mode) (host : PeerAddress) :
    (connecting own mode host issued).run.Meets
      ((Role.connecting mode host).contract own issued) .empty := by
  rw [run_connecting]
  have hEmpty : ((Role.connecting mode host).contract own issued).always .empty :=
    Role.always_empty
  have hAsked := Role.always_challenge hEmpty issued
  split
  · exact ⟨Role.always_empty, fun _ hOver => nomatch hOver⟩
  · refine send_meets hAsked ⟨hAsked, fun frame => ?_⟩
    have hHear := Role.always_hear hAsked frame
    refine ifHolds_meets hHear fun proof hProof => ifSome_meets hHear fun signer hSigner => ?_
    split
    next hHost => exact afterHostProof_meets hHear fun hMode => ⟨proof, hProof, by
        rw [hSigner, signer_eq_host hMode hHost]⟩
    · exact ⟨hHear, fun _ hOver => nomatch hOver⟩

end Sides

namespace Role

theorem meets (own : Credentials) (issued : Challenge) (role : Role) :
    (role.side own issued).run.Meets (role.contract own issued) .empty := by
  cases role with
  | accepting mode service => exact accepting_meets mode service
  | connecting mode host => exact connecting_meets mode host

end Role

end Handshake

end PeerServices
