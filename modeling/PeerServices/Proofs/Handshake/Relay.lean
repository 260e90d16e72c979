import PeerServices.Proofs.Handshake.Interleaving
import PeerServices.Proofs.Wire.Parcel

/-!
# Signatures that somebody in the middle passes on

A proof signs the bytes of a challenge and nothing else.

* `Handshake.exists_signer_of_admitted`: if nobody else makes signatures under a key, then a side
  that admits its holder got a signature of the holder over the very challenge that it issued, made
  in a handshake, by an accepting side or by a connecting one whose host had proven itself.
* `Handshake.Relay.play_throughService`, `Handshake.Relay.play_throughProxy`: that handshake need
  not be one with the admitting host. A signature tells neither the role nor the host, so whoever
  the holder talks to can pass it on.
-/

namespace PeerServices.Handshake

/-! ## Signatures that are passed on -/

/-- What somebody learns who knows a single peer and grants it everything. -/
def View.knowing (record : PeerRecord) : View where
  val :=
    { known := fun peer => if record.address = peer then some record else none
      authorized := fun peer _ => if record.address = peer then some record else none }
  property peer service found h := by
    dsimp only at h
    split at h
    next hAddress => exact Option.some.inj h ▸ hAddress
    · exact nomatch h

namespace Run

variable {own : Credentials} {issued : Challenge} {t : Transcript} {view : View}

/-- A parcel that fits its frame is sent, and the side goes on. -/
theorem makes_send {parcel : Parcel} (h : parcel.sent true = .ok ())
    (next : Dialogue Result) (view : Authorizer) :
    (Dialogue.send parcel (ifSent next)).makes view true = parcel :: next.makes view true := by
  rw [Dialogue.makes, h]
  rfl

theorem begin_accepting (mode : Mode) (service : ServiceId) (reachable : Bool) :
    Run.begin own (.accepting mode service) issued view reachable =
      ⟨own, .accepting mode service, issued, ⟨[], []⟩,
        .waiting (takeChallenge own mode service issued)⟩ := by
  simp only [begin, Role.side, run_accepting]
  rfl

theorem begin_connecting (host : PeerAddress) :
    Run.begin own (.connecting .restricted host) issued view true =
      ⟨own, .connecting .restricted host, issued, ⟨[.challenge issued], []⟩,
        .waiting (takeHostProof own .restricted host issued)⟩ := by
  have hMode : ¬(Mode.restricted = .system ∧ own.systemKey = none) := fun h => nomatch h.1
  simp only [begin, Role.side, run_connecting, if_neg hMode,
    makes_send (Parcel.sent_challenge issued), advance_send (Parcel.sent_challenge issued)]
  rfl

theorem takeChallenge_challenge (mode : Mode) (service : ServiceId) (c : Challenge) :
    takeChallenge own mode service issued (.ok (Parcel.challenge c).body) =
      .send (.proof (own.keypair.sign c.octets.toList))
        (ifSent (afterAnswer own service issued mode)) := by
  unfold takeChallenge ifHolds
  rw [Frame.decode_challenge]

theorem hear_challenge_anyone (service : ServiceId) (c : Challenge) :
    Run.hear ⟨own, .accepting .anyone service, issued, t,
        .waiting (takeChallenge own .anyone service issued)⟩
      (.ok (Parcel.challenge c).body) view true =
      ⟨own, .accepting .anyone service, issued,
        (t.hear (.ok (Parcel.challenge c).body)).make
          [.proof (own.keypair.sign c.octets.toList)],
        .over (.ok none)⟩ := by
  have hSent := Parcel.sent_proof own.keypair c
  simp only [hear, takeChallenge_challenge, makes_send hSent, advance_send hSent]
  rfl

theorem hear_challenge_restricted (service : ServiceId) (c : Challenge) :
    Run.hear ⟨own, .accepting .restricted service, issued, t,
        .waiting (takeChallenge own .restricted service issued)⟩
      (.ok (Parcel.challenge c).body) view true =
      ⟨own, .accepting .restricted service, issued,
        (t.hear (.ok (Parcel.challenge c).body)).make
          [.proof (own.keypair.sign c.octets.toList), .challenge issued],
        .waiting (takeProof own .restricted service issued)⟩ := by
  have hSent := Parcel.sent_proof own.keypair c
  have hAsked := Parcel.sent_challenge issued
  simp only [hear, takeChallenge_challenge, makes_send hSent, advance_send hSent, afterAnswer,
    makes_send hAsked, advance_send hAsked]
  rfl

theorem signer?_sign {k : Keypair} {c : Challenge}
    (h : (k.sign c.octets.toList).verify = true) :
    c.signer? (k.sign c.octets.toList) = some k.address :=
  signer?_eq_some.mpr ⟨rfl, h, rfl⟩

theorem hear_proof_restricted {service : ServiceId} {k : Keypair} {record : PeerRecord}
    (hVerify : (k.sign issued.octets.toList).verify = true)
    (hRecord : view.1.authorized k.address service = some record) :
    Run.hear ⟨own, .accepting .restricted service, issued, t,
        .waiting (takeProof own .restricted service issued)⟩
      (.ok (Parcel.proof (k.sign issued.octets.toList)).body) view true =
      ⟨own, .accepting .restricted service, issued,
        t.hear (.ok (Parcel.proof (k.sign issued.octets.toList)).body),
        .over (.ok (some record))⟩ := by
  simp only [hear, takeProof, ifHolds, Frame.decode_proof, signer?_sign hVerify, ifSome,
    Dialogue.makes, Dialogue.advance, hRecord, Transcript.make_nil]

theorem hear_hostProof {k : Keypair} {record : PeerRecord}
    (hVerify : (k.sign issued.octets.toList).verify = true)
    (hRecord : view.1.known k.address = some record) :
    Run.hear ⟨own, .connecting .restricted k.address, issued, t,
        .waiting (takeHostProof own .restricted k.address issued)⟩
      (.ok (Parcel.proof (k.sign issued.octets.toList)).body) view true =
      ⟨own, .connecting .restricted k.address, issued,
        t.hear (.ok (Parcel.proof (k.sign issued.octets.toList)).body),
        .waiting (answerHost own (some record))⟩ := by
  simp only [hear, takeHostProof, ifHolds, Frame.decode_proof, signer?_sign hVerify, ifSome,
    acceptsHost, decide_true, if_true, afterHostProof, Dialogue.makes, Dialogue.advance, hRecord,
    Transcript.make_nil]

theorem hear_challenge_connecting (host : PeerAddress) (record? : Option PeerRecord)
    (c : Challenge) :
    Run.hear ⟨own, .connecting .restricted host, issued, t, .waiting (answerHost own record?)⟩
      (.ok (Parcel.challenge c).body) view true =
      ⟨own, .connecting .restricted host, issued,
        (t.hear (.ok (Parcel.challenge c).body)).make
          [.proof (own.keypair.sign c.octets.toList)],
        .over (.ok record?)⟩ := by
  have hSent := Parcel.sent_proof own.keypair c
  simp only [hear, answerHost, ifHolds, Frame.decode_challenge, makes_send hSent,
    advance_send hSent]
  rfl

end Run

/-! ## Relays -/

/-- A host that grants a service to a client, and somebody in the middle who holds neither key. -/
structure Relay where
  host : Credentials
  client : Credentials
  middle : Keypair
  /-- What the client calls on the middle for. -/
  offered : ServiceId
  service : ServiceId
  /-- The challenge of the host. -/
  issued : Challenge
  /-- The challenge of the client. -/
  counter : Challenge

namespace Relay

variable (r : Relay)

/-- What the host knows of the client. -/
def record : PeerRecord := .create r.client.address "client"

/-- What the client knows of the middle. -/
def contact : PeerRecord := .create r.middle.address "middle"

/-- The signature that is passed on. -/
def proof : SignedData := r.client.keypair.sign r.issued.octets.toList

/-- The host, before anything is passed on. -/
def startHost : Move :=
  .start r.host (.accepting .restricted r.service) r.issued (.knowing r.record) true

/-- The middle hands a parcel to a run. -/
def pass (run : Nat) (parcel : Parcel) (record : PeerRecord) : Move :=
  .deliver run (.ok parcel.body) (.knowing record) true

/-- The middle connects to the host and to a service of the client, and passes the challenge of the
host on to the client. -/
def throughService : List Move :=
  [ r.startHost
  , .start r.client (.accepting .anyone r.offered) r.counter (.knowing r.contact) true
  , pass 0 (.challenge r.counter) r.record
  , pass 1 (.challenge r.issued) r.contact
  , pass 0 (.proof r.proof) r.record ]

/-- The client connects to a service of the middle, which proves who it is and then passes the
challenge of the host on to the client. -/
def throughProxy : List Move :=
  [ r.startHost
  , .start r.client (.connecting .restricted r.middle.address) r.counter (.knowing r.contact) true
  , pass 0 (.challenge r.counter) r.record
  , pass 1 (.proof (r.middle.sign r.counter.octets.toList)) r.contact
  , pass 1 (.challenge r.issued) r.contact
  , pass 0 (.proof r.proof) r.record ]

/-- The run of the host in the end. -/
def admitting : Run where
  own := r.host
  role := .accepting .restricted r.service
  issued := r.issued
  transcript :=
    { made := [.proof (r.host.keypair.sign r.counter.octets.toList), .challenge r.issued]
      heard := [.ok (Parcel.challenge r.counter).body, .ok (Parcel.proof r.proof).body] }
  pause := .over (.ok (some r.record))

/-- The run of the client in the end, if it accepts. -/
def serving : Run where
  own := r.client
  role := .accepting .anyone r.offered
  issued := r.counter
  transcript := ⟨[.proof r.proof], [.ok (Parcel.challenge r.issued).body]⟩
  pause := .over (.ok none)

/-- The run of the client in the end, if it connects. -/
def calling : Run where
  own := r.client
  role := .connecting .restricted r.middle.address
  issued := r.counter
  transcript :=
    { made := [.challenge r.counter, .proof r.proof]
      heard := [.ok (Parcel.proof (r.middle.sign r.counter.octets.toList)).body,
        .ok (Parcel.challenge r.issued).body] }
  pause := .over (.ok (some r.contact))

variable {r}

theorem modify_first (f : Run → Run) (a b : Run) : [a, b].modify 0 f = [f a, b] := rfl

theorem modify_second (f : Run → Run) (a b : Run) : [a, b].modify 1 f = [a, f b] := rfl

theorem play_throughService (hVerify : r.proof.verify = true) :
    play r.throughService = [r.admitting, r.serving] := by
  have hRecord : (View.knowing r.record).1.authorized r.client.keypair.address r.service =
      some r.record := if_pos rfl
  unfold proof at hVerify
  simp only [play, throughService, startHost, pass, List.foldl_cons, List.foldl_nil, step,
    List.nil_append, List.cons_append, modify_first, modify_second, Run.begin_accepting,
    Run.hear_challenge_restricted, Run.hear_challenge_anyone, proof,
    Run.hear_proof_restricted hVerify hRecord]
  rfl

theorem play_throughProxy (hVerify : r.proof.verify = true)
    (hMiddle : (r.middle.sign r.counter.octets.toList).verify = true) :
    play r.throughProxy = [r.admitting, r.calling] := by
  have hRecord : (View.knowing r.record).1.authorized r.client.keypair.address r.service =
      some r.record := if_pos rfl
  have hContact : (View.knowing r.contact).1.known r.middle.address = some r.contact := if_pos rfl
  unfold proof at hVerify
  simp only [play, throughProxy, startHost, pass, List.foldl_cons, List.foldl_nil, step,
    List.nil_append, List.cons_append, modify_first, modify_second, Run.begin_accepting,
    Run.begin_connecting, Run.hear_challenge_restricted, proof,
    Run.hear_hostProof hMiddle hContact, Run.hear_challenge_connecting,
    Run.hear_proof_restricted hVerify hRecord]
  rfl

theorem admitting_admitted : r.admitting.Admitted r.client.keypair.publicKey :=
  .inl ⟨r.service, r.record, rfl, rfl, rfl⟩

/-- The host hears one proof only, the one that the client made. -/
theorem admitting_heard {proof : SignedData} (h : r.admitting.transcript.Heard proof) :
    proof = r.proof := by
  obtain ⟨frame, hMem, hDecode⟩ := h
  rcases List.mem_cons.mp hMem with rfl | hMem
  · rw [Frame.decode_proof_challenge] at hDecode
    exact nomatch hDecode
  · obtain rfl := List.mem_singleton.mp hMem
    rw [Relay.proof, Frame.decode_proof] at hDecode
    exact (Except.ok.inj hDecode).symm

theorem serving_heard {proof : SignedData} : ¬r.serving.transcript.Heard proof := by
  rintro ⟨frame, hMem, hDecode⟩
  obtain rfl := List.mem_singleton.mp hMem
  rw [Frame.decode_proof_challenge] at hDecode
  exact nomatch hDecode

theorem calling_heard {proof : SignedData} (h : r.calling.transcript.Heard proof) :
    proof = r.middle.sign r.counter.octets.toList := by
  obtain ⟨frame, hMem, hDecode⟩ := h
  rcases List.mem_cons.mp hMem with rfl | hMem
  · rw [Frame.decode_proof] at hDecode
    exact (Except.ok.inj hDecode).symm
  · obtain rfl := List.mem_singleton.mp hMem
    rw [Frame.decode_proof_challenge] at hDecode
    exact nomatch hDecode

theorem unforged_throughService (hVerify : r.proof.verify = true) :
    Unforged r.client.keypair.publicKey (play r.throughService) := by
  rw [play_throughService hVerify]
  intro run hMem proof hHeard _ _
  rcases List.mem_cons.mp hMem with rfl | hMem
  · obtain rfl := admitting_heard hHeard
    exact ⟨r.serving, by simp, rfl, r.proof, by simp [serving], rfl⟩
  · obtain rfl := List.mem_singleton.mp hMem
    exact absurd hHeard serving_heard

theorem unforged_throughProxy (hVerify : r.proof.verify = true)
    (hMiddle : (r.middle.sign r.counter.octets.toList).verify = true)
    (hOther : r.middle.address ≠ r.client.address) :
    Unforged r.client.keypair.publicKey (play r.throughProxy) := by
  rw [play_throughProxy hVerify hMiddle]
  intro run hMem proof hHeard _ hSigner
  rcases List.mem_cons.mp hMem with rfl | hMem
  · obtain rfl := admitting_heard hHeard
    exact ⟨r.calling, by simp, rfl, r.proof, by simp [calling], rfl⟩
  · obtain rfl := List.mem_singleton.mp hMem
    obtain rfl := calling_heard hHeard
    exact absurd hSigner hOther

/-! ## One relay -/

/-- A relay between three peers. -/
def sample : Relay where
  host := ⟨.ofSeed (.ofPadded 32 [2]), none⟩
  client := ⟨.ofSeed (.ofPadded 32 [1]), none⟩
  middle := .ofSeed (.ofPadded 32 [3])
  offered := ⟨7⟩
  service := ⟨9⟩
  issued := default
  counter := default

set_option maxRecDepth 100000 in
theorem sample_proofs : sample.proof.verify = true ∧
    (sample.middle.sign sample.counter.octets.toList).verify = true := by
  decide +kernel

set_option maxRecDepth 100000 in
theorem sample_addresses : sample.middle.address ≠ sample.client.address ∧
    sample.middle.address ≠ sample.host.address := by
  decide +kernel

end Relay

/-! ## What a signature proves -/

theorem exists_signer_of_admitted {moves : List Move} {key : PublicKey}
    (hUnforged : Unforged key (play moves)) {r : Run} (hMem : r ∈ play moves)
    (hAdmitted : r.Admitted key) :
    ∃ proof : SignedData, r.transcript.Heard proof ∧ proof.data = r.issued.octets.toList ∧
      proof.verify = true ∧ proof.signer = .ofPublicKey key ∧
      ∃ signer ∈ play moves, signer.SignedBy key r.issued ∧
        signer.role.MaySign signer.issued signer.transcript := by
  obtain ⟨proof, hHeard, hSigner⟩ := (play_keeps moves r hMem).exists_proof hAdmitted
  obtain ⟨hData, hVerify, hAddress⟩ := signer?_eq_some.mp hSigner
  obtain ⟨signer, hSignerMem, hOwn, made, hMade, hMadeData⟩ :=
    hUnforged r hMem proof hHeard hVerify hAddress
  obtain ⟨challenge, hChallenge, hSign, hMay⟩ := (play_keeps moves signer hSignerMem).signs hMade
  -- The signed bytes settle which challenge it was.
  have hSame : challenge = r.issued := by
    apply Challenge.eq_of_bytes
    rw [← hData, ← hMadeData, hSign]
    rfl
  subst hSame
  exact ⟨proof, hHeard, hData, hVerify, hAddress, signer, hSignerMem,
    ⟨hOwn, hChallenge, hSign ▸ hMade⟩, hMay⟩

namespace Relay

/-- In the relay through a service the signature comes from the client all the same. -/
theorem sample_exists_signer :
    Unforged sample.client.keypair.publicKey (play sample.throughService) ∧
      sample.admitting ∈ play sample.throughService ∧
      sample.admitting.Admitted sample.client.keypair.publicKey ∧
      ∃ proof : SignedData, sample.admitting.transcript.Heard proof ∧
        proof.data = sample.admitting.issued.octets.toList ∧ proof.verify = true ∧
        proof.signer = .ofPublicKey sample.client.keypair.publicKey ∧
        ∃ signer ∈ play sample.throughService,
          signer.SignedBy sample.client.keypair.publicKey sample.admitting.issued ∧
            signer.role.MaySign signer.issued signer.transcript := by
  have hUnforged := unforged_throughService sample_proofs.1
  have hMem : sample.admitting ∈ play sample.throughService := by
    rw [play_throughService sample_proofs.1]
    exact List.mem_cons_self
  exact ⟨hUnforged, hMem, admitting_admitted,
    exists_signer_of_admitted hUnforged hMem admitting_admitted⟩

end Relay

/-! ## What it does not prove -/

/-- Whoever is admitted as the holder of a key signed in a handshake with the admitting host. -/
def SignedTowardsHost (key : PublicKey) (runs : List Run) : Prop :=
  Unforged key runs → ∀ r ∈ runs, r.Admitted key →
    ∃ signer ∈ runs, signer.SignedBy key r.issued ∧
      ∃ mode, signer.role = .connecting mode r.own.address

namespace Relay

variable {r : Relay}

theorem not_signedTowardsHost_throughService (hVerify : r.proof.verify = true) :
    ¬SignedTowardsHost r.client.keypair.publicKey (play r.throughService) := by
  intro hLaw
  have hLaw := hLaw (unforged_throughService hVerify)
  rw [play_throughService hVerify] at hLaw
  obtain ⟨signer, hMem, -, mode, hRole⟩ := hLaw r.admitting (by simp) admitting_admitted
  rcases List.mem_cons.mp hMem with rfl | hMem
  · exact nomatch hRole
  · obtain rfl := List.mem_singleton.mp hMem
    exact nomatch hRole

theorem not_signedTowardsHost_throughProxy (hVerify : r.proof.verify = true)
    (hMiddle : (r.middle.sign r.counter.octets.toList).verify = true)
    (hOther : r.middle.address ≠ r.client.address) (hHost : r.middle.address ≠ r.host.address) :
    ¬SignedTowardsHost r.client.keypair.publicKey (play r.throughProxy) := by
  intro hLaw
  have hLaw := hLaw (unforged_throughProxy hVerify hMiddle hOther)
  rw [play_throughProxy hVerify hMiddle] at hLaw
  obtain ⟨signer, hMem, -, mode, hRole⟩ := hLaw r.admitting (by simp) admitting_admitted
  rcases List.mem_cons.mp hMem with rfl | hMem
  · exact nomatch hRole
  · obtain rfl := List.mem_singleton.mp hMem
    exact hHost (Role.connecting.inj hRole).2

/-- The host admits the client although the client never talked to it, be it that the middle came to
the client or that the client came to the middle. -/
theorem sample_impersonates :
    ¬SignedTowardsHost sample.client.keypair.publicKey (play sample.throughService) ∧
      ¬SignedTowardsHost sample.client.keypair.publicKey (play sample.throughProxy) :=
  ⟨not_signedTowardsHost_throughService sample_proofs.1,
    not_signedTowardsHost_throughProxy sample_proofs.1 sample_proofs.2 sample_addresses.1
      sample_addresses.2⟩

end Relay

end PeerServices.Handshake
