import PeerServices.Proofs.Codec.Varint
import PeerServices.Wire.Parcel

/-!
# Parcels of a handshake

Challenges and their proofs are far below the size limit of a frame, so on a connection that is
still there they are always sent. Each is read back from its frame.

* `Parcel.sent_challenge`, `Parcel.sent_proof`: they are sent.
* `Frame.decode_challenge`, `Frame.decode_proof`: they are read back.
* `Frame.decode_proof_challenge`: a challenge is never taken for a proof.
-/

namespace PeerServices

theorem Challenge.eq_of_bytes {a b : Challenge} (h : a.octets.toList = b.octets.toList) :
    a = b := by
  obtain ⟨⟨as, ha⟩⟩ := a
  obtain ⟨⟨bs, hb⟩⟩ := b
  obtain rfl : as = bs := h
  rfl

namespace Parcel

theorem sent_of_length_le {p : Parcel} (h : p.body.length ≤ Frame.maxSize) :
    p.sent true = .ok () := by
  unfold sent frame Frame.encode
  rw [if_pos h]
  rfl

theorem sent_of_length_gt {p : Parcel} (h : Frame.maxSize < p.body.length) (reachable : Bool) :
    p.sent reachable =
      .error (.frameTooLarge (min p.body.length Frame.maxHeader) Frame.maxSize) := by
  unfold sent frame Frame.encode
  rw [if_neg (Nat.not_le_of_gt h)]

theorem sent_challenge (c : Challenge) : (Parcel.challenge c).sent true = .ok () := by
  apply sent_of_length_le
  have hLength : (Parcel.challenge c).body.length = 16 := c.octets.length_eq
  rw [hLength]
  decide

theorem sent_proof (k : Keypair) (c : Challenge) :
    (Parcel.proof (k.sign c.octets.toList)).sent true = .ok () := by
  apply sent_of_length_le
  have hKey := (k.sign c.octets.toList).publicKey.length_eq
  have hSignature := (k.sign c.octets.toList).signature.length_eq
  have hData : (k.sign c.octets.toList).data.length = 16 := c.octets.length_eq
  have hPrefix := Varint.length_encode_le (UInt64.ofNat (k.sign c.octets.toList).data.length)
  simp only [body, Serial.encode, Codec.blob, List.length_append, Frame.maxSize, hKey, hSignature,
    hData]
  simp only [Varint.maxGroups, hData] at hPrefix
  omega

end Parcel

namespace Frame

theorem decode_challenge (c : Challenge) :
    decode Challenge (.ok (Parcel.challenge c).body) = .ok c :=
  decode_challenge_eq_ok_iff.mpr rfl

theorem decode_proof (k : Keypair) (c : Challenge) :
    decode SignedData (.ok (Parcel.proof (k.sign c.octets.toList)).body) =
      .ok (k.sign c.octets.toList) := by
  rw [decode_eq_ok_iff]
  refine ⟨_, rfl, SignedData.decode_encode _ ?_⟩
  change c.octets.toList.length ≤ _
  rw [c.octets.length_eq]
  decide

/-- A challenge is shorter than the key that a proof begins with. -/
theorem decode_proof_challenge (c : Challenge) :
    decode SignedData (.ok (Parcel.challenge c).body) = .error (.codec .endOfBuffer) := by
  have hShort : ¬((Parcel.challenge c).body.take 32).length = 32 := by
    have hLength : (Parcel.challenge c).body.length = 16 := c.octets.length_eq
    rw [List.length_take, hLength]
    decide
  have hRead : (Serial.read : Reader SignedData) (Parcel.challenge c).body =
      .error .endOfBuffer := by
    simp only [Serial.read, Reader.bind_apply, Reader.octets, dif_neg hShort]
  simp only [decode, Serial.decode, hRead]
  rfl

end Frame

end PeerServices
