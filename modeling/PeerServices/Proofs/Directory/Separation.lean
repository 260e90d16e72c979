import PeerServices.Proofs.Directory.History

/-!
# What exchanges with one peer can change

An exchange changes the record of the peer with which it is, and there only what this peer grants
and whether the own grants still have to be told. Two directories that differ in no more than that
stay so whatever else is done to both, and let in the same peers.

* `PeerRecord.Alike`: two records of a peer that differ in nothing else.
* `Directory.alike_perform`: what an exchange does to every record.
* `Directory.Apart.perform`, `Directory.Apart.exchange`: two directories that are only told
  different things by one peer.
-/

namespace PeerServices

/-- The same record, but for what the other side grants and whether something waits to be told. -/
structure PeerRecord.Alike (r r' : PeerRecord) : Prop where
  address : r'.address = r.address
  name : r'.name = r.name
  exported : r'.exported = r.exported
  extension : r'.extension = r.extension

namespace PeerRecord

variable {r r' r'' : PeerRecord}

theorem Alike.refl (r : PeerRecord) : r.Alike r := ⟨rfl, rfl, rfl, rfl⟩

theorem Alike.symm (h : r.Alike r') : r'.Alike r :=
  ⟨h.address.symm, h.name.symm, h.exported.symm, h.extension.symm⟩

theorem Alike.trans (h : r.Alike r') (h' : r'.Alike r'') : r.Alike r'' :=
  ⟨h'.address.trans h.address, h'.name.trans h.name, h'.exported.trans h.exported,
    h'.extension.trans h.extension⟩

theorem alike_applyExchange (r : PeerRecord) (data : GrantSet) : r.Alike (r.applyExchange data) :=
  ⟨rfl, rfl, rfl, rfl⟩

theorem alike_answered (r : PeerRecord) (data : Option GrantSet) :
    r.Alike (Directory.answered r data) := by
  cases data <;> exact ⟨rfl, rfl, rfl, rfl⟩

theorem Alike.grant (h : r.Alike r') (ids : List ServiceId) (descriptors : List Descriptor) :
    (r.grant ids descriptors).Alike (r'.grant ids descriptors) where
  address := h.address
  name := h.name
  exported := by simp only [PeerRecord.grant, h.exported]
  extension := h.extension

theorem alike_removeImported? (r : PeerRecord) (service : ServiceAddress) :
    r.Alike ((r.removeImported? service).getD r) := by
  unfold removeImported?
  cases r.imported.without? service <;> exact ⟨rfl, rfl, rfl, rfl⟩

theorem Alike.removeExported? (h : r.Alike r') (service : ServiceAddress) :
    Option.Rel Alike (r.removeExported? service) (r'.removeExported? service) := by
  unfold PeerRecord.removeExported?
  rw [h.exported]
  cases r.exported.without? service with
  | none => exact .none
  | some s => exact .some ⟨h.address, h.name, rfl, h.extension⟩

theorem Alike.removeExported (h : r.Alike r') (service : ServiceAddress) :
    ((r.removeExported? service).getD r).Alike ((r'.removeExported? service).getD r') := by
  have hExported := h.removeExported? service
  generalize r.removeExported? service = left at hExported ⊢
  generalize r'.removeExported? service = right at hExported ⊢
  cases hExported with
  | none => exact h
  | some hRemoved => exact hRemoved

theorem Alike.removeService (h : r.Alike r') (service : ServiceAddress) :
    ((r.removeService? service).getD r).Alike ((r'.removeService? service).getD r') := by
  have hImported : ∀ {r r' : PeerRecord}, r.Alike r' →
      ((r.removeImported? service).getD r).Alike ((r'.removeImported? service).getD r') :=
    fun {r r'} h => (r.alike_removeImported? service).symm.trans
      (h.trans (r'.alike_removeImported? service))
  have hExported := h.removeExported? service
  unfold removeService?
  generalize r.removeExported? service = left at hExported ⊢
  generalize r'.removeExported? service = right at hExported ⊢
  cases hExported with
  | none => exact hImported h
  | some hRemoved => exact hImported hRemoved

end PeerRecord

namespace Directory

/-! ## Exchanges -/

/-- An exchange with a peer. -/
def Operation.Exchanges (p : PeerAddress) : Operation → Prop
  | .receiveExchange q _ | .exchanged q _ => q = p
  | _ => False

/-- A directory after an operation, if there is one. -/
def perform? (d : Directory) (op? : Option Operation) : Directory := op?.elim d d.perform

section Steps

variable {d : Directory} {p q : PeerAddress} {op : Operation} {known known' : Option PeerRecord}

theorem Operation.Exchanges.peer? (h : op.Exchanges p) : op.peer? = some p := by
  cases op with
  | receiveExchange q data | exchanged q data => exact congrArg some h
  | _ => exact h.elim

theorem rel_alike_refl (known : Option PeerRecord) : Option.Rel PeerRecord.Alike known known := by
  cases known with
  | none => exact .none
  | some r => exact .some (.refl r)

theorem rel_alike_symm (h : Option.Rel PeerRecord.Alike known known') :
    Option.Rel PeerRecord.Alike known' known := by
  cases h with
  | none => exact .none
  | some hRecords => exact .some hRecords.symm

theorem rel_alike_map {f g : PeerRecord → PeerRecord}
    (h : Option.Rel PeerRecord.Alike known known')
    (hAlike : ∀ r r', r.Alike r' → (f r).Alike (g r')) :
    Option.Rel PeerRecord.Alike (known.map f) (known'.map g) := by
  cases h with
  | none => exact .none
  | some hRecords => exact .some (hAlike _ _ hRecords)

theorem rel_alike_trans {known'' : Option PeerRecord}
    (h : Option.Rel PeerRecord.Alike known known')
    (h' : Option.Rel PeerRecord.Alike known' known'') :
    Option.Rel PeerRecord.Alike known known'' := by
  cases h with
  | none => exact h'
  | some hRecords =>
    cases h' with
    | some hRecords' => exact .some (hRecords.trans hRecords')

/-- An exchange changes no record but for what the other side grants and what waits to be told. -/
theorem Operation.alike_revise (h : op.Exchanges p) (q : PeerAddress) (known : Option PeerRecord) :
    Option.Rel PeerRecord.Alike known (op.revise q known) := by
  cases known with
  | none => cases op <;> first | exact h.elim | exact .none
  | some r =>
    cases op with
    | receiveExchange p' data =>
      apply Option.Rel.some
      split
      · exact r.alike_applyExchange data
      · exact .refl r
    | exchanged p' data =>
      apply Option.Rel.some
      split
      · exact r.alike_answered data
      · exact .refl r
    | _ => exact h.elim

/-- Whatever is done to two records of a peer that are alike, they stay so. -/
theorem Operation.revise_alike (op : Operation) (q : PeerAddress)
    (h : Option.Rel PeerRecord.Alike known known') :
    Option.Rel PeerRecord.Alike (op.revise q known) (op.revise q known') := by
  cases op with
  | add r =>
    simp only [revise]
    split
    · exact .some (.refl r)
    · exact h
  | update r =>
    apply rel_alike_map h
    intro _ _ hAlike
    split
    · exact .refl r
    · exact hAlike
  | delete p =>
    simp only [revise]
    split
    · exact .none
    · exact h
  | grant p ids descriptors =>
    apply rel_alike_map h
    intro _ _ hAlike
    split
    · exact hAlike.grant ids descriptors
    · exact hAlike
  | deleteService side service =>
    cases side with
    | imported =>
      apply rel_alike_map h
      intro r r' hAlike
      exact (r.alike_removeImported? service).symm.trans
        (hAlike.trans (r'.alike_removeImported? service))
    | exported => exact rel_alike_map h fun _ _ hAlike => hAlike.removeExported service
  | purge service => exact rel_alike_map h fun _ _ hAlike => hAlike.removeService service
  | receiveExchange p data =>
    apply rel_alike_map h
    intro r r' hAlike
    split
    · exact ((r.alike_applyExchange data).symm.trans hAlike).trans (r'.alike_applyExchange data)
    · exact hAlike
  | exchanged p data =>
    apply rel_alike_map h
    intro r r' hAlike
    split
    · exact ((r.alike_answered data).symm.trans hAlike).trans (r'.alike_answered data)
    · exact hAlike

theorem alike_perform (hKeyed : d.Keyed) (h : op.Exchanges p) (q : PeerAddress) :
    Option.Rel PeerRecord.Alike (d.find? q) ((d.perform op).find? q) := by
  rw [find?_perform hKeyed]
  exact Operation.alike_revise h q _

theorem find?_perform_of_exchanges (hKeyed : d.Keyed) (h : op.Exchanges p) (hNe : q ≠ p) :
    (d.perform op).find? q = d.find? q := by
  rw [find?_perform hKeyed, Operation.revise_of_peer? h.peer? hNe.symm]

/-- Only the owner makes somebody known. -/
theorem find?_perform_of_unknown (hKeyed : d.Keyed) (hUnknown : d.find? p = none)
    (hNot : ¬op.Adds p) : (d.perform op).find? p = none := by
  have hRevised := Operation.revise_isSome op p none
  rw [find?_perform hKeyed, hUnknown, ← Option.not_isSome_iff_eq_none, hRevised]
  simp [hNot]

/-- Whoever may use a service may use it by a record that is alike. -/
theorem authorize_of_alike {d' : Directory}
    (h : Option.Rel PeerRecord.Alike (d.find? q) (d'.find? q)) (s : ServiceId) :
    (d'.authorize q s).isSome = (d.authorize q s).isSome := by
  unfold authorize
  generalize d.find? q = known at h ⊢
  generalize d'.find? q = known' at h ⊢
  cases h with
  | none => rfl
  | some hAlike => simp only [Option.isSome_filter, Option.any_some, PeerRecord.granted,
      hAlike.exported]

end Steps

/-! ## Two directories -/

/-- Two directories that were told different things by this peer, and differ in nothing else. -/
structure Apart (p : PeerAddress) (d d' : Directory) : Prop where
  keyed : d.Keyed
  keyed' : d'.Keyed
  alike : ∀ q, Option.Rel PeerRecord.Alike (d.find? q) (d'.find? q)
  others : ∀ q, q ≠ p → d'.find? q = d.find? q

section Apart

variable {d d' : Directory} {p : PeerAddress} {op : Operation}

theorem Apart.refl (h : d.Keyed) (p : PeerAddress) : Apart p d d where
  keyed := h
  keyed' := h
  alike q := rel_alike_refl (d.find? q)
  others _ _ := rfl

theorem Apart.symm (h : Apart p d d') : Apart p d' d where
  keyed := h.keyed'
  keyed' := h.keyed
  alike q := rel_alike_symm (h.alike q)
  others q hNe := (h.others q hNe).symm

/-- The same is done to both. -/
theorem Apart.perform (h : Apart p d d') (op : Operation) :
    Apart p (d.perform op) (d'.perform op) where
  keyed := h.keyed.perform op
  keyed' := h.keyed'.perform op
  alike q := by
    rw [find?_perform h.keyed, find?_perform h.keyed']
    exact Operation.revise_alike op q (h.alike q)
  others q hNe := by
    rw [find?_perform h.keyed, find?_perform h.keyed', h.others q hNe]

theorem Apart.perform? (h : Apart p d d') (op? : Option Operation) :
    Apart p (d.perform? op?) (d'.perform? op?) := by
  cases op? with
  | none => exact h
  | some op => exact h.perform op

/-- One of them is told something by the peer. -/
theorem Apart.exchange (h : Apart p d d') (hExchanges : op.Exchanges p) :
    Apart p (d.perform op) d' where
  keyed := h.keyed.perform op
  keyed' := h.keyed'
  alike q := rel_alike_trans (rel_alike_symm (alike_perform h.keyed hExchanges q)) (h.alike q)
  others q hNe := by
    rw [find?_perform_of_exchanges h.keyed hExchanges hNe, h.others q hNe]

end Apart

end Directory

end PeerServices
