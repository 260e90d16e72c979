import PeerServices.Node.Step
import PeerServices.Proofs.Directory.History

/-!
# What is left of a service that is offered no longer

When a node stops offering a service it drops the service's descriptors from what every peer was
granted. An id that was granted by itself is not dropped, and neither is a descriptor that has the
same id at another host. Whoever was granted the service in one of these ways stays granted, also
once a service with that id is offered again.

* `PeerRecord.Retains`: a record grants a service in a way that outlives it.
* `Node.deactivate_eq`: what the node makes of its directory.
* `Node.granted_after_deactivate`: who is still granted the service, and when nobody is.
* `Node.lending_still_grants`: a node on which somebody is.
-/

namespace PeerServices

/-- A record grants an id by itself, or through a descriptor of another address. -/
def PeerRecord.Retains (r : PeerRecord) (service : ServiceAddress) (id : ServiceId) : Prop :=
  id ∈ r.exported.ids.toList ∨
    ∃ x ∈ r.exported.descriptors.toList, x.address.id = id ∧ x.address ≠ service

namespace PeerRecord

variable {r r' : PeerRecord} {service : ServiceAddress} {id : ServiceId}

instance : Decidable (r.Retains service id) := inferInstanceAs (Decidable (_ ∨ _))

/-- What a record still grants once it has lost the descriptors of an address. -/
theorem Loses.granted_iff (h : r.Loses r' (service = ·)) :
    r'.granted id = true ↔ r.Retains service id := by
  rw [granted, GrantSet.grants_iff, h.ids]
  simp only [h.descriptors, Retains, and_assoc, and_comm (a := _ = id), eq_comm (a := service),
    ne_eq]

end PeerRecord

namespace Node

variable {n : Node} {id : ServiceId} {service : Service}

theorem commit_eq (n : Node) (change : Directory.Change) :
    n.commit change =
      { n with directory := change.1, effects := n.effects ++ change.2.map .changed } := by
  obtain ⟨directory, events⟩ := change
  simp only [commit]
  induction events generalizing n with
  | nil => simp
  | cons e events ih =>
    rw [List.foldl_cons]
    have hRest := ih (n.emit (.changed e))
    simp only [emit] at hRest ⊢
    rw [hRest]
    simp

/-- A service that is offered no longer is taken off the list, and its address is purged. -/
theorem deactivate_eq (hActive : n.services.find? id = some service) :
    n.deactivate id =
      { n with
        services := n.services.erase id
        directory := (n.directory.purge service.address).1
        effects := n.effects ++ (n.directory.purge service.address).2.map .changed } := by
  rw [deactivate, hActive]
  exact commit_eq _ _

theorem find?_deactivate (hActive : n.services.find? id = some service) (p : PeerAddress) :
    (n.deactivate id).directory.find? p = (n.directory.find? p).map fun r =>
      (r.removeService? service.address).getD r := by
  rw [deactivate_eq hActive]
  exact Directory.find?_changeAll n.directory _ p

theorem granted_of_find?_deactivate (hActive : n.services.find? id = some service)
    {p : PeerAddress} {r' : PeerRecord} (hFind : (n.deactivate id).directory.find? p = some r') :
    ∃ r, n.directory.find? p = some r ∧
      (r'.granted id = true ↔ r.Retains service.address id) := by
  rw [find?_deactivate hActive] at hFind
  obtain ⟨r, hr, rfl⟩ := Option.map_eq_some_iff.mp hFind
  exact ⟨r, hr, (r.removeService?_loses service.address).granted_iff⟩

/-- Once an active service is deactivated it is not offered, and everybody is as known as before. A
peer is still granted the service exactly if it was granted the bare id or a descriptor of the id at
another host. These peers, and for the exchange of grants all known ones, may use the service if one
with its id is offered again. So nobody is granted the service any more exactly if nobody was
granted it in these ways. -/
theorem granted_after_deactivate (n : Node) (id : ServiceId) (service : Service)
    (hActive : n.services.find? id = some service) :
    let after := n.deactivate id
    after.services.find? id = none ∧
    (∀ p, (after.directory.find? p).isSome = (n.directory.find? p).isSome) ∧
    (∀ p r', after.directory.find? p = some r' → ∃ r, n.directory.find? p = some r ∧
      (r'.granted id = true ↔ r.Retains service.address id)) ∧
    (∀ later, later = after ∨ (∃ again, later = after.activate again) → ∀ p,
      (later.directory.authorize p id).isSome = true ↔
        ∃ r, n.directory.find? p = some r ∧ (id = .exchange ∨ r.Retains service.address id)) ∧
    ((∀ p r', after.directory.find? p = some r' → r'.granted id = false) ↔
      ∀ p r, n.directory.find? p = some r → ¬r.Retains service.address id) := by
  intro after
  have hFind := find?_deactivate hActive
  have hGranted : ∀ p r', after.directory.find? p = some r' → ∃ r, n.directory.find? p = some r ∧
      (r'.granted id = true ↔ r.Retains service.address id) :=
    fun p r' => granted_of_find?_deactivate hActive
  have hLeft : ∀ p r, n.directory.find? p = some r → ∃ r', after.directory.find? p = some r' ∧
      (r'.granted id = true ↔ r.Retains service.address id) := by
    intro p r hr
    refine ⟨_, by rw [hFind, hr, Option.map_some], ?_⟩
    exact (r.removeService?_loses service.address).granted_iff
  refine ⟨?_, fun p => ?_, hGranted, fun later hLater p => ?_, ?_⟩
  · rw [show after = _ from deactivate_eq hActive]
    exact SortedMap.find?_erase_self n.services id
  · rw [hFind, Option.isSome_map]
  · have hSame : later.directory = after.directory := by
      rcases hLater with rfl | ⟨again, rfl⟩ <;> rfl
    rw [hSame, Directory.authorize_isSome_iff]
    constructor
    · rintro ⟨r', hr', hMay⟩
      obtain ⟨r, hr, hIff⟩ := hGranted p r' hr'
      exact ⟨r, hr, hMay.imp_right hIff.mp⟩
    · rintro ⟨r, hr, hMay⟩
      obtain ⟨r', hr', hIff⟩ := hLeft p r hr
      exact ⟨r', hr', hMay.imp_right hIff.mpr⟩
  · constructor
    · intro hNobody p r hr hRetains
      obtain ⟨r', hr', hIff⟩ := hLeft p r hr
      cases (hNobody p r' hr').symm.trans (hIff.mpr hRetains)
    · intro hNobody p r' hr'
      obtain ⟨r, hr, hIff⟩ := hGranted p r' hr'
      rw [← Bool.not_eq_true, hIff]
      exact hNobody p r hr

/-! ## A node that has granted a service in all ways -/

section Lending

/-- The service that is lent. -/
def lent : Service :=
  { address := ⟨⟨9⟩, .null⟩, mode := .restricted, descriptor := none
    behaviour := .application [] false }

/-- The address that ends with a byte. -/
def borrower (b : UInt8) : PeerAddress := ⟨.ofPadded 20 (List.replicate 19 0 ++ [b])⟩

/-- A node that has granted its service three times: by the id, through a descriptor of the id at
another host, and through a descriptor of the service. -/
def lending : Node :=
  let grants : List (UInt8 × List ServiceId × List Descriptor) :=
    [(1, [⟨9⟩], []), (2, [], [.basic ⟨⟨9⟩, borrower 4⟩ "lent" 0]),
      (3, [], [.basic lent.address "lent" 0])]
  let known := grants.foldl (fun n g => n.add (.create (borrower g.1) "guest"))
    ((create ⟨default, none⟩).activate lent)
  grants.foldl (fun n g => (n.grant (borrower g.1) g.2.1 g.2.2).toOption.getD n) known

theorem lending_active : lending.services.find? ⟨9⟩ = some lent := rfl

/-- All three may use the service. The first two still may when it is offered again. -/
theorem lending_revokes_third : lending.services.find? ⟨9⟩ = some lent ∧
    ∀ b ∈ [1, 2, 3], (lending.directory.authorize (borrower b) ⟨9⟩).isSome = true ∧
      ((((lending.deactivate ⟨9⟩).activate lent).directory.authorize (borrower b) ⟨9⟩).isSome =
        true ↔ b ≠ 3) := by
  have hGranted : ∀ b ∈ [1, 2, 3],
      (lending.directory.authorize (borrower b) ⟨9⟩).isSome = true := by
    decide +kernel
  have hRetains : ∀ b ∈ [1, 2, 3], ((lending.directory.find? (borrower b)).any fun r =>
      decide (r.Retains lent.address ⟨9⟩)) = decide (b ≠ 3) := by
    decide +kernel
  obtain ⟨-, -, -, hAuthorize, -⟩ := granted_after_deactivate lending ⟨9⟩ lent lending_active
  refine ⟨lending_active, fun b hMem => ⟨hGranted b hMem, ?_⟩⟩
  have hOther : (⟨9⟩ : ServiceId) ≠ .exchange := by decide
  rw [hAuthorize _ (.inr ⟨lent, rfl⟩), ← decide_eq_true_iff (p := b ≠ 3), ← hRetains b hMem]
  cases lending.directory.find? (borrower b) with
  | none => simp
  | some r => simp [hOther]

/-- So it is not true that nobody is granted a service any more once it is deactivated, nor that
nobody may use it. -/
theorem lending_still_grants :
    (¬∀ (n : Node) id service, n.services.find? id = some service →
      ∀ p r, (n.deactivate id).directory.find? p = some r → r.granted id = false) ∧
    ¬∀ (n : Node) id service, n.services.find? id = some service → id ≠ .exchange →
      ∀ p, (n.deactivate id).directory.authorize p id = none := by
  have hStill : ((lending.deactivate ⟨9⟩).directory.authorize (borrower 1) ⟨9⟩).isSome = true := by
    decide +kernel
  constructor
  · intro hRevoked
    obtain ⟨r, hFind, hMay⟩ := Directory.authorize_isSome_iff.mp hStill
    have hNot := hRevoked lending ⟨9⟩ lent lending_active (borrower 1) r hFind
    rcases hMay with hExchange | hGranted
    · cases hExchange
    · cases hNot.symm.trans hGranted
  · intro hRevoked
    rw [hRevoked lending ⟨9⟩ lent lending_active (by decide) (borrower 1)] at hStill
    cases hStill

end Lending

end Node

end PeerServices
