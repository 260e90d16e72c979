import PeerServices.Proofs.Handshake.Contract

/-!
# Interleaved handshakes on an untrusted network

Any number of peers run any number of handshakes, in either role. Nobody vouches for the frames:
each frame of each run is chosen freely, so every relay and every other strategy of somebody in
the middle is one list of moves, and every interleaving is one too.

* `Handshake.play_keeps`: in every such network every run keeps to the contract of its role.
* `Handshake.Run.Keeps.signs`: so a run signs only a challenge that came in, when its role may.
* `Handshake.Run.Keeps.exists_proof`: and a run that lets somebody in has heard the proof for it.
-/

namespace PeerServices.Handshake

/-! ## Runs and networks -/

/-- One side of one handshake, as far as it has come. -/
structure Run where
  own : Credentials
  role : Role
  issued : Challenge
  transcript : Transcript
  pause : Dialogue.Pause Result

/-- What a peer may learn when it looks somebody up. -/
abbrev View := { view : Authorizer // view.Lawful }

namespace Run

def begin (own : Credentials) (role : Role) (issued : Challenge) (view : View)
    (reachable : Bool) : Run :=
  let side := (role.side own issued).run
  { own, role, issued
    transcript := Transcript.empty.make (side.makes view.1 reachable)
    pause := (side.advance view.1 reachable).2 }

/-- A frame comes in. A side that is over takes none. -/
def hear (r : Run) (frame : Received) (view : View) (reachable : Bool) : Run :=
  match r.pause with
  | .over _ => r
  | .waiting rest =>
    { r with
      transcript := (r.transcript.hear frame).make ((rest frame).makes view.1 reachable)
      pause := ((rest frame).advance view.1 reachable).2 }

def Keeps (r : Run) : Prop := r.pause.Meets (r.role.contract r.own r.issued) r.transcript

/-- The run took its other end for the holder of a key and let it in. -/
def Admitted (r : Run) (key : PublicKey) : Prop :=
  (∃ service record, r.role = .accepting .restricted service ∧
    r.pause = .over (.ok (some record)) ∧ record.address = .ofPublicKey key) ∨
  (∃ service record?, r.role = .accepting .admin service ∧ r.pause = .over (.ok record?) ∧
    r.own.systemKey = some key)

/-- The holder of a key signed a challenge in this run. -/
def SignedBy (r : Run) (key : PublicKey) (challenge : Challenge) : Prop :=
  r.own.keypair.publicKey = key ∧ r.transcript.Heard challenge ∧
    .proof (r.own.keypair.sign challenge.octets.toList) ∈ r.transcript.made

end Run

inductive Move
  /-- Somebody begins a handshake. -/
  | start (own : Credentials) (role : Role) (issued : Challenge) (view : View) (reachable : Bool)
  /-- A frame, whoever made it, reaches a run. -/
  | deliver (run : Nat) (frame : Received) (view : View) (reachable : Bool)

def step (runs : List Run) : Move → List Run
  | .start own role issued view reachable => runs ++ [.begin own role issued view reachable]
  | .deliver run frame view reachable => runs.modify run fun r => r.hear frame view reachable

def play (moves : List Move) : List Run := moves.foldl step []

/-- Signatures that come in under a key, or under its address, were made by the holder of the key:
nobody else can sign under it or find another key with its address. -/
def Unforged (key : PublicKey) (runs : List Run) : Prop :=
  ∀ r ∈ runs, ∀ proof : SignedData, r.transcript.Heard proof → proof.verify = true →
    proof.signer = .ofPublicKey key →
    ∃ maker ∈ runs, maker.own.keypair.publicKey = key ∧
      ∃ made, .proof made ∈ maker.transcript.made ∧ made.data = proof.data

/-! ## Every run keeps to its contract -/

theorem Run.begin_keeps (own : Credentials) (role : Role) (issued : Challenge) (view : View)
    (reachable : Bool) : (Run.begin own role issued view reachable).Keeps :=
  (role.meets own issued).advance view.2 reachable

theorem Run.Keeps.hear {r : Run} (h : r.Keeps) (frame : Received) (view : View)
    (reachable : Bool) : (r.hear frame view reachable).Keeps := by
  unfold Run.hear
  cases hPause : r.pause with
  | «over» result => exact h
  | waiting rest =>
    unfold Run.Keeps at h
    rw [hPause] at h
    exact (h.2 frame).advance view.2 reachable

theorem step_keeps {runs : List Run} (h : ∀ r ∈ runs, r.Keeps) (move : Move) :
    ∀ r ∈ step runs move, r.Keeps := by
  intro r hMem
  cases move with
  | start own role issued view reachable =>
    rcases List.mem_append.mp hMem with hMem | hMem
    · exact h r hMem
    · rw [List.mem_singleton.mp hMem]
      exact Run.begin_keeps own role issued view reachable
  | deliver run frame view reachable =>
    obtain ⟨j, hj⟩ := List.mem_iff_getElem?.mp hMem
    simp only [step, List.getElem?_modify] at hj
    obtain ⟨old, hOld, rfl⟩ := Option.map_eq_some_iff.mp hj
    have hKeeps := h old (List.mem_iff_getElem?.mpr ⟨j, hOld⟩)
    split
    · exact hKeeps.hear frame view reachable
    · exact hKeeps

theorem play_keeps (moves : List Move) : ∀ r ∈ play moves, r.Keeps := by
  suffices h : ∀ runs : List Run, (∀ r ∈ runs, r.Keeps) → ∀ r ∈ moves.foldl step runs, r.Keeps from
    h [] fun _ hMem => nomatch hMem
  induction moves with
  | nil => exact fun _ h => h
  | cons move moves ih => exact fun runs h => ih (step runs move) (step_keeps h move)

/-! ## Who signed for a side that admits -/

namespace Run

variable {r : Run} {key : PublicKey}

/-- A run that signed anything heard the challenge and could be asked to sign it. -/
theorem Keeps.signs (h : r.Keeps) {proof : SignedData} (hMade : .proof proof ∈ r.transcript.made) :
    r.role.Signs r.own r.issued r.transcript proof :=
  Dialogue.Pause.Meets.always h proof hMade

/-- A run that admits the holder of a key heard a proof under its address. -/
theorem Keeps.exists_proof (h : r.Keeps) (hAdmitted : r.Admitted key) :
    ∃ proof : SignedData, r.transcript.Heard proof ∧
      r.issued.signer? proof = some (.ofPublicKey key) := by
  unfold Keeps at h
  rcases hAdmitted with ⟨service, record, hRole, hOver, hAddress⟩ |
    ⟨service, record?, hRole, hOver, hKey⟩
  · rw [hOver, hRole] at h
    obtain ⟨proof, other, hHeard, hRecord, hSigner⟩ := h.2 _ rfl
    obtain rfl := Option.some.inj hRecord
    exact ⟨proof, hHeard, by rw [hSigner, hAddress]⟩
  · rw [hOver, hRole] at h
    obtain ⟨proof, hHeard, hProofKey, hSigner⟩ := h.2 _ rfl
    obtain rfl := Option.some.inj (hKey.symm.trans hProofKey)
    exact ⟨proof, hHeard, hSigner⟩

end Run

end PeerServices.Handshake
