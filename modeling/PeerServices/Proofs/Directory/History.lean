import PeerServices.Proofs.Collection.Growing
import PeerServices.Proofs.Collection.SortedSet
import PeerServices.Proofs.Directory.Correspondence

/-!
# Who may use what, told from the history

A directory begins with nobody and takes one operation after another, of its owner or of an
exchange. Whether a peer may use a service is settled by the history of the owner's operations
alone.

* `Directory.find?_perform`: what an operation makes of every record.
* `Directory.Registered`, `Directory.Installed`: the two things that count in a history.
* `Directory.after_tells`: what a directory keeps of a peer is what its history says.
* `Directory.authorize_after`: so is whom it lets in.
-/

namespace PeerServices

/-! ## Grant sets -/

namespace GrantSet

theorem descriptor?_isSome {s : GrantSet} {id : ServiceId} :
    (s.descriptor? id).isSome = true ↔ ∃ x ∈ s.descriptors.toList, x.address.id = id := by
  simp only [descriptor?, List.find?_isSome, decide_eq_true_eq]

theorem grants_iff {s : GrantSet} {id : ServiceId} : s.grants id = true ↔
    id ∈ s.ids.toList ∨ ∃ x ∈ s.descriptors.toList, x.address.id = id := by
  rw [grants, Bool.or_eq_true, List.contains_iff_mem, descriptor?_isSome]

/-- What is left of a set without an address, whether it had one or not. -/
theorem without?_getD (s : GrantSet) (address : ServiceAddress) :
    ((s.without? address).getD s).ids = s.ids ∧
      ∀ x, x ∈ ((s.without? address).getD s).descriptors.toList ↔
        x ∈ s.descriptors.toList ∧ x.address ≠ address := by
  unfold without?
  split
  · refine ⟨rfl, fun x => ?_⟩
    simp [SortedSet.filter]
  next hNone =>
    refine ⟨rfl, fun x => ⟨fun hMem => ⟨hMem, fun hAddress => hNone ?_⟩, And.left⟩⟩
    exact List.any_eq_true.mpr ⟨x, hMem, decide_eq_true hAddress⟩

end GrantSet

/-- A record exports no descriptors of certain addresses any more, and is otherwise granted what it
was before. -/
structure PeerRecord.Loses (r r' : PeerRecord) (lost : ServiceAddress → Prop) : Prop where
  address : r'.address = r.address
  ids : r'.exported.ids = r.exported.ids
  descriptors : ∀ x, x ∈ r'.exported.descriptors.toList ↔
    x ∈ r.exported.descriptors.toList ∧ ¬lost x.address

namespace PeerRecord

theorem Loses.of_same {r r' : PeerRecord} {lost : ServiceAddress → Prop}
    (hAddress : r'.address = r.address) (hExported : r'.exported = r.exported)
    (hLost : ∀ address, ¬lost address) : r.Loses r' lost where
  address := hAddress
  ids := congrArg GrantSet.ids hExported
  descriptors x := by rw [hExported, and_iff_left (hLost x.address)]

theorem removeExported?_loses (r : PeerRecord) (address : ServiceAddress) :
    r.Loses ((r.removeExported? address).getD r) (address = ·) := by
  obtain ⟨hIds, hDescriptors⟩ := r.exported.without?_getD address
  unfold removeExported?
  cases hWithout : r.exported.without? address with
  | none =>
    rw [hWithout] at hDescriptors
    exact ⟨rfl, rfl, fun x => by rw [eq_comm (a := address)]; exact hDescriptors x⟩
  | some s =>
    rw [hWithout] at hIds hDescriptors
    exact ⟨rfl, hIds, fun x => by rw [eq_comm (a := address)]; exact hDescriptors x⟩

theorem removeImported?_getD (r : PeerRecord) (address : ServiceAddress) :
    ((r.removeImported? address).getD r).address = r.address ∧
      ((r.removeImported? address).getD r).exported = r.exported := by
  unfold removeImported?
  cases r.imported.without? address <;> exact ⟨rfl, rfl⟩

theorem removeService?_loses (r : PeerRecord) (address : ServiceAddress) :
    r.Loses ((r.removeService? address).getD r) (address = ·) := by
  have hLoses := r.removeExported?_loses address
  unfold removeService?
  split
  next hNone =>
    obtain ⟨hAddress, hExported⟩ := r.removeImported?_getD address
    rw [hNone, Option.getD_none] at hLoses
    exact ⟨hAddress, hExported ▸ hLoses.ids, hExported ▸ hLoses.descriptors⟩
  next r' hSome =>
    obtain ⟨hAddress, hExported⟩ := r'.removeImported?_getD address
    rw [hSome, Option.getD_some] at hLoses
    rw [Option.getD_some]
    exact ⟨hAddress.trans hLoses.address, hExported ▸ hLoses.ids, hExported ▸ hLoses.descriptors⟩

end PeerRecord

namespace Directory

/-! ## Operations -/

inductive Operation
  | add (r : PeerRecord)
  | update (r : PeerRecord)
  | delete (q : PeerAddress)
  | grant (q : PeerAddress) (ids : List ServiceId) (descriptors : List Descriptor)
  | deleteService (side : GrantSide) (service : ServiceAddress)
  | purge (service : ServiceAddress)
  /-- A peer asks and is answered. -/
  | receiveExchange (q : PeerAddress) (data : GrantSet)
  /-- A peer that was asked has answered. -/
  | exchanged (q : PeerAddress) (data : Option GrantSet)

/-- A directory after an operation. One that is refused changes nothing. -/
def perform (d : Directory) : Operation → Directory
  | .add r => (d.add r).1
  | .update r =>
    match d.update r with
    | .ok (d', _) => d'
    | .error _ => d
  | .delete q => (d.delete q).1
  | .grant q ids descriptors =>
    match d.grant q ids descriptors with
    | .ok (d', _) => d'
    | .error _ => d
  | .deleteService side service => (d.deleteService side service).1
  | .purge service => (d.purge service).1
  | .receiveExchange q data =>
    match d.receiveExchange q data with
    | .ok (_, d', _) => d'
    | .error _ => d
  | .exchanged q data => (d.exchanged q data).1

/-- A directory with a history. -/
def after (ops : List Operation) : Directory := ops.foldl perform .empty

theorem after_concat (ops : List Operation) (op : Operation) :
    after (ops ++ [op]) = (after ops).perform op := List.foldl_append

namespace Operation

/-- The peer to which an operation is addressed. -/
def peer? : Operation → Option PeerAddress
  | .add r | .update r => some r.address
  | .delete q | .grant q _ _ | .receiveExchange q _ | .exchanged q _ => some q
  | .deleteService .. | .purge _ => none

/-- An operation has nothing to do with what the owner grants. -/
def Spares : Operation → Prop
  | .deleteService .imported _ | .receiveExchange .. | .exchanged .. => True
  | _ => False

def Adds (p : PeerAddress) : Operation → Prop
  | .add r => r.address = p
  | _ => False

def Deletes (p : PeerAddress) : Operation → Prop
  | .delete q => q = p
  | _ => False

/-- The ids and the descriptors of the grants that an operation installs for a peer. -/
def installs? (p : PeerAddress) : Operation → Option (List ServiceId × List Descriptor)
  | .add r | .update r =>
    if r.address = p then some (r.exported.ids.toList, r.exported.descriptors.toList) else none
  | .grant q ids descriptors => if q = p then some (ids, descriptors) else none
  | _ => none

/-- An operation takes a service away from everybody to whom it is granted. -/
def Withdraws (address : ServiceAddress) : Operation → Prop
  | .deleteService .exported service | .purge service => service = address
  | _ => False

/-- What an operation makes of the record of a peer. -/
def revise (p : PeerAddress) (op : Operation) (known : Option PeerRecord) : Option PeerRecord :=
  match op with
  | .add r => if p = r.address then some r else known
  | .update r => known.map fun r' => if r.address = p then r else r'
  | .delete q => if q = p then none else known
  | .grant q ids descriptors => known.map fun r => if q = p then r.grant ids descriptors else r
  | .deleteService .imported service => known.map fun r => (r.removeImported? service).getD r
  | .deleteService .exported service => known.map fun r => (r.removeExported? service).getD r
  | .purge service => known.map fun r => (r.removeService? service).getD r
  | .receiveExchange q data => known.map fun r => if q = p then r.applyExchange data else r
  | .exchanged q data => known.map fun r => if q = p then answered r data else r

end Operation

/-! ## What an operation makes of a record -/

section Steps

variable {d : Directory} {p : PeerAddress} {op : Operation}

theorem answered_exported (r : PeerRecord) (data : Option GrantSet) :
    (answered r data).exported = r.exported := by
  cases data <;> rfl

theorem find?_delete (d : Directory) (q p : PeerAddress) :
    (d.delete q).1.find? p = if q = p then none else d.find? p := by
  unfold delete
  split
  next hNone =>
    split
    next hq => exact hq ▸ hNone
    · rfl
  next r hSome =>
    split
    next hq => exact hq ▸ SortedMap.find?_erase_self d.records q
    next hq => exact SortedMap.find?_erase_of_ne (Ne.symm hq) d.records

/-- An operation revises every record. -/
theorem find?_perform (hKeyed : d.Keyed) (op : Operation) (p : PeerAddress) :
    (d.perform op).find? p = op.revise p (d.find? p) := by
  cases op with
  | add r => exact find?_add d r p
  | update r =>
    simp only [perform, update]
    cases hr : d.find? r.address with
    | none => exact find?_unknown (fun _ => r) hr p
    | some r₀ => exact hKeyed.find?_changed (fun _ => r) hr (hKeyed _ _ hr).symm p
  | delete q => exact find?_delete d q p
  | grant q ids descriptors =>
    simp only [perform, grant]
    cases hq : d.find? q with
    | none => exact find?_unknown (·.grant ids descriptors) hq p
    | some r₀ => exact hKeyed.find?_changed (·.grant ids descriptors) hq rfl p
  | deleteService side service => cases side <;> exact find?_changeAll d _ p
  | purge service => exact find?_changeAll d _ p
  | receiveExchange q data =>
    simp only [perform, receiveExchange]
    cases hq : d.find? q with
    | none => exact find?_unknown (·.applyExchange data) hq p
    | some r₀ => exact hKeyed.find?_changed (·.applyExchange data) hq rfl p
  | exchanged q data =>
    simp only [perform, exchanged]
    cases hq : d.find? q with
    | none => exact find?_unknown (answered · data) hq p
    | some r₀ => exact hKeyed.find?_changed (answered · data) hq (answered_address r₀ data) p

theorem Operation.revise_isSome (op : Operation) (p : PeerAddress) (known : Option PeerRecord) :
    (op.revise p known).isSome = true ↔
      op.Adds p ∨ (known.isSome = true ∧ ¬op.Deletes p) := by
  cases op with
  | add r =>
    simp only [revise, Adds, Deletes]
    split
    next hp => simp [hp]
    next hp => simp [Ne.symm hp]
  | delete q =>
    simp only [revise, Adds, Deletes]
    split
    next hq => simp [hq]
    next hq => simp [hq]
  | deleteService side service => cases side <;> simp [revise, Adds, Deletes]
  | update r | grant q ids descriptors | purge service | receiveExchange q data
  | exchanged q data => simp [revise, Adds, Deletes]

/-- What an operation that installs grants for a peer makes of its record. -/
theorem Operation.revise_of_installs {known : Option PeerRecord} {r' : PeerRecord}
    {ids : List ServiceId} {descriptors : List Descriptor}
    (h : op.installs? p = some (ids, descriptors)) (hr : op.revise p known = some r') :
    (r'.address = p ∨ ∃ r, known = some r ∧ r'.address = r.address) ∧
      (∀ s, s ∈ r'.exported.ids.toList ↔ s ∈ ids) ∧
      ∀ x, x ∈ r'.exported.descriptors.toList ↔ x ∈ descriptors := by
  cases op with
  | add r =>
    obtain ⟨hp, hLists⟩ := Option.ite_none_right_eq_some.mp h
    simp only [revise, if_pos hp.symm, Option.some.injEq] at hr
    cases hLists
    subst hr
    exact ⟨.inl hp, fun _ => .rfl, fun _ => .rfl⟩
  | update r =>
    obtain ⟨hp, hLists⟩ := Option.ite_none_right_eq_some.mp h
    obtain ⟨_, -, hr⟩ := Option.map_eq_some_iff.mp hr
    rw [if_pos hp] at hr
    cases hLists
    subst hr
    exact ⟨.inl hp, fun _ => .rfl, fun _ => .rfl⟩
  | grant q ids' descriptors' =>
    obtain ⟨hp, hLists⟩ := Option.ite_none_right_eq_some.mp h
    obtain ⟨r, hKnown, hr⟩ := Option.map_eq_some_iff.mp hr
    rw [if_pos hp] at hr
    cases hLists
    subst hr
    exact ⟨.inr ⟨r, hKnown, rfl⟩, fun _ => SortedSet.mem_ofList, fun _ => SortedSet.mem_ofList⟩
  | delete | deleteService | purge | receiveExchange | exchanged => cases h

/-- What an operation that installs nothing for a peer makes of its record. -/
theorem Operation.revise_of_not_installs {known : Option PeerRecord} {r' : PeerRecord}
    (h : op.installs? p = none) (hr : op.revise p known = some r') :
    ∃ r, known = some r ∧ r.Loses r' op.Withdraws := by
  cases op with
  | add r =>
    have hp : r.address ≠ p := fun hp => by simp [installs?, hp] at h
    simp only [revise, if_neg hp.symm] at hr
    exact ⟨r', hr, .of_same rfl rfl fun _ => id⟩
  | update r₁ =>
    have hp : r₁.address ≠ p := fun hp => by simp [installs?, hp] at h
    obtain ⟨r, hKnown, rfl⟩ := Option.map_eq_some_iff.mp hr
    rw [if_neg hp]
    exact ⟨r, hKnown, .of_same rfl rfl fun _ => id⟩
  | grant q ids descriptors =>
    have hp : q ≠ p := fun hp => by simp [installs?, hp] at h
    obtain ⟨r, hKnown, rfl⟩ := Option.map_eq_some_iff.mp hr
    rw [if_neg hp]
    exact ⟨r, hKnown, .of_same rfl rfl fun _ => id⟩
  | delete q =>
    simp only [revise] at hr
    split at hr
    · cases hr
    · exact ⟨r', hr, .of_same rfl rfl fun _ => id⟩
  | deleteService side service =>
    cases side with
    | imported =>
      obtain ⟨r, hKnown, rfl⟩ := Option.map_eq_some_iff.mp hr
      obtain ⟨hAddress, hExported⟩ := r.removeImported?_getD service
      exact ⟨r, hKnown, .of_same hAddress hExported fun _ => id⟩
    | exported =>
      obtain ⟨r, hKnown, rfl⟩ := Option.map_eq_some_iff.mp hr
      exact ⟨r, hKnown, r.removeExported?_loses service⟩
  | purge service =>
    obtain ⟨r, hKnown, rfl⟩ := Option.map_eq_some_iff.mp hr
    exact ⟨r, hKnown, r.removeService?_loses service⟩
  | receiveExchange q data =>
    obtain ⟨r, hKnown, rfl⟩ := Option.map_eq_some_iff.mp hr
    refine ⟨r, hKnown, ?_⟩
    split <;> exact .of_same rfl rfl fun _ => id
  | exchanged q data =>
    obtain ⟨r, hKnown, rfl⟩ := Option.map_eq_some_iff.mp hr
    refine ⟨r, hKnown, ?_⟩
    split
    · exact .of_same (answered_address r data) (answered_exported r data) fun _ => id
    · exact .of_same rfl rfl fun _ => id

theorem Keyed.perform (h : d.Keyed) (op : Operation) : (d.perform op).Keyed := by
  intro p r' hFind
  rw [find?_perform h] at hFind
  cases hInstalls : op.installs? p with
  | some lists =>
    rcases (Operation.revise_of_installs hInstalls hFind).1 with hp | ⟨r, hKnown, hAddress⟩
    · exact hp
    · exact hAddress.trans (h p r hKnown)
  | none =>
    obtain ⟨r, hKnown, hLoses⟩ := Operation.revise_of_not_installs hInstalls hFind
    exact hLoses.address.trans (h p r hKnown)

/-- An operation that is addressed to another peer leaves a record alone. -/
theorem Operation.revise_of_peer? {q : PeerAddress} (h : op.peer? = some q) (hNe : q ≠ p)
    (known : Option PeerRecord) : op.revise p known = known := by
  cases op with
  | deleteService | purge => cases h
  | add r =>
    obtain rfl := Option.some.inj h
    exact if_neg (Ne.symm hNe)
  | update | delete | grant | receiveExchange | exchanged =>
    obtain rfl := Option.some.inj h
    simp [revise, hNe]

/-- An operation that has nothing to do with the own grants leaves them alone. -/
theorem Operation.revise_of_spares (h : op.Spares) {r : PeerRecord} :
    ∃ r', op.revise p (some r) = some r' ∧ ∀ s, r'.granted s = r.granted s := by
  have hExported : ∀ r' : PeerRecord, r'.exported = r.exported → ∀ s,
      r'.granted s = r.granted s := fun r' h s => by rw [PeerRecord.granted, h, PeerRecord.granted]
  cases op with
  | deleteService side service =>
    cases side with
    | exported => exact h.elim
    | imported => exact ⟨_, rfl, hExported _ (r.removeImported?_getD service).2⟩
  | receiveExchange q data =>
    refine ⟨_, rfl, hExported _ ?_⟩
    split <;> rfl
  | exchanged q data =>
    refine ⟨_, rfl, hExported _ ?_⟩
    split
    · exact answered_exported r data
    · rfl
  | add | update | delete | grant | purge => exact h.elim

theorem Operation.revise_none_of_spares (h : op.Spares) : op.revise p none = none := by
  cases op with
  | add | update | delete | grant | purge => exact h.elim
  | deleteService side service => cases side <;> rfl
  | receiveExchange | exchanged => rfl

end Steps

/-! ## What counts in a history -/

/-- A peer was added, and neither added again nor deleted since. -/
def Registered (ops : List Operation) (p : PeerAddress) : Prop :=
  ∃ earlier op since, ops = earlier ++ op :: since ∧ op.Adds p ∧
    ∀ op' ∈ since, ¬op'.Adds p ∧ ¬op'.Deletes p

/-- These ids and descriptors were installed last for a peer, and this happened since. -/
def Installed (ops : List Operation) (p : PeerAddress) (ids : List ServiceId)
    (descriptors : List Descriptor) (since : List Operation) : Prop :=
  ∃ earlier op, ops = earlier ++ op :: since ∧ op.installs? p = some (ids, descriptors) ∧
    ∀ op' ∈ since, op'.installs? p = none

section Histories

variable {ops : List Operation} {op : Operation} {p : PeerAddress} {ids : List ServiceId}
  {descriptors : List Descriptor} {since : List Operation}

theorem registered_concat :
    Registered (ops ++ [op]) p ↔ op.Adds p ∨ (Registered ops p ∧ ¬op.Deletes p) := by
  constructor
  · rintro ⟨earlier, first, since, hSplit, hAdds, hSince⟩
    rcases concat_eq_append_cons_iff.mp hSplit with ⟨-, -, rfl⟩ | ⟨since', rfl, rfl⟩
    · exact .inl hAdds
    · have hLast := hSince op (List.mem_append_right since' List.mem_cons_self)
      have hEarlier : ∀ op' ∈ since', ¬op'.Adds p ∧ ¬op'.Deletes p := fun op' hMem =>
        hSince op' (List.mem_append_left [op] hMem)
      exact .inr ⟨⟨earlier, first, since', rfl, hAdds, hEarlier⟩, hLast.2⟩
  · intro h
    by_cases hAdds : op.Adds p
    · exact ⟨ops, op, [], rfl, hAdds, fun _ hMem => nomatch hMem⟩
    · obtain ⟨⟨earlier, first, since, rfl, hFirst, hSince⟩, hDeletes⟩ := h.resolve_left hAdds
      refine ⟨earlier, first, since ++ [op], by simp, hFirst, fun op' hMem => ?_⟩
      rcases List.mem_append.mp hMem with hMem | hMem
      · exact hSince op' hMem
      · rw [List.mem_singleton.mp hMem]
        exact ⟨hAdds, hDeletes⟩

theorem installed_concat :
    Installed (ops ++ [op]) p ids descriptors since ↔
      (since = [] ∧ op.installs? p = some (ids, descriptors)) ∨
        ∃ since', since = since' ++ [op] ∧ op.installs? p = none ∧
          Installed ops p ids descriptors since' := by
  constructor
  · rintro ⟨earlier, first, hSplit, hFirst, hSince⟩
    rcases concat_eq_append_cons_iff.mp hSplit with ⟨rfl, -, rfl⟩ | ⟨since', rfl, rfl⟩
    · exact .inl ⟨rfl, hFirst⟩
    · have hLast := hSince op (List.mem_append_right since' List.mem_cons_self)
      have hEarlier : ∀ op' ∈ since', op'.installs? p = none := fun op' hMem =>
        hSince op' (List.mem_append_left [op] hMem)
      exact .inr ⟨since', rfl, hLast, earlier, first, rfl, hFirst, hEarlier⟩
  · rintro (⟨rfl, hInstalls⟩ | ⟨since', rfl, hLast, earlier, first, rfl, hFirst, hSince⟩)
    · exact ⟨ops, op, rfl, hInstalls, fun _ hMem => nomatch hMem⟩
    · refine ⟨earlier, first, by simp, hFirst, fun op' hMem => ?_⟩
      rcases List.mem_append.mp hMem with hMem | hMem
      · exact hSince op' hMem
      · rw [List.mem_singleton.mp hMem]
        exact hLast

end Histories

/-! ## What a directory keeps of a peer -/

/-- A record exports what was installed last for a peer, less what was withdrawn since. -/
def Exports (r : PeerRecord) (ops : List Operation) (p : PeerAddress) : Prop :=
  ∀ ids descriptors since, Installed ops p ids descriptors since →
    (∀ s, s ∈ r.exported.ids.toList ↔ s ∈ ids) ∧
      ∀ x, x ∈ r.exported.descriptors.toList ↔
        x ∈ descriptors ∧ ∀ op ∈ since, ¬op.Withdraws x.address

/-- A directory keeps of every peer what a history says of it. -/
structure Tells (d : Directory) (ops : List Operation) : Prop where
  keyed : d.Keyed
  registered : ∀ p, (d.find? p).isSome = true ↔ Registered ops p
  installed : ∀ p r, d.find? p = some r → ∃ ids descriptors since,
    Installed ops p ids descriptors since
  exports : ∀ p r, d.find? p = some r → Exports r ops p

theorem empty_tells : Tells .empty [] where
  keyed := fun _ _ h => nomatch h
  registered := fun p => iff_of_false nofun fun ⟨earlier, op, since, h, _⟩ => by simp at h
  installed := fun _ _ h => nomatch h
  exports := fun _ _ h => nomatch h

theorem Tells.perform {d : Directory} {ops : List Operation} (h : d.Tells ops) (op : Operation) :
    (d.perform op).Tells (ops ++ [op]) := by
  constructor
  case keyed => exact h.keyed.perform op
  case registered =>
    intro p
    rw [find?_perform h.keyed, Operation.revise_isSome, h.registered, registered_concat]
  case installed =>
    intro p r' hFind
    rw [find?_perform h.keyed] at hFind
    cases hInstalls : op.installs? p with
    | some lists => exact ⟨lists.1, lists.2, [], installed_concat.mpr (.inl ⟨rfl, hInstalls⟩)⟩
    | none =>
      obtain ⟨r, hKnown, -⟩ := Operation.revise_of_not_installs hInstalls hFind
      obtain ⟨ids, descriptors, since, hInstalled⟩ := h.installed p r hKnown
      exact ⟨ids, descriptors, since ++ [op],
        installed_concat.mpr (.inr ⟨since, rfl, hInstalls, hInstalled⟩)⟩
  case exports =>
    intro p r' hFind ids descriptors since hInstalled
    rw [find?_perform h.keyed] at hFind
    -- Grants that were installed just now are whole; from older ones the operation may take some.
    rcases installed_concat.mp hInstalled with
      ⟨rfl, hInstalls⟩ | ⟨since', rfl, hInstalls, hInstalled'⟩
    · obtain ⟨-, hIds, hDescriptors⟩ := Operation.revise_of_installs hInstalls hFind
      exact ⟨hIds, fun x => by simp [hDescriptors]⟩
    · obtain ⟨r, hKnown, hLoses⟩ := Operation.revise_of_not_installs hInstalls hFind
      obtain ⟨hIds, hDescriptors⟩ := h.exports p r hKnown ids descriptors since' hInstalled'
      refine ⟨fun s => by rw [hLoses.ids, hIds], fun x => ?_⟩
      rw [hLoses.descriptors, hDescriptors, and_assoc]
      simp only [List.forall_mem_append, List.forall_mem_singleton]

theorem after_tells (ops : List Operation) : (after ops).Tells ops := by
  induction ops using concat_induction with
  | nil => exact empty_tells
  | concat ops op ih =>
    rw [after_concat]
    exact ih.perform op

/-! ## Who may use what -/

section Authorize

variable {d : Directory} {p : PeerAddress} {s : ServiceId} {op : Operation}

theorem authorize_eq_some_iff {r : PeerRecord} :
    d.authorize p s = some r ↔ d.find? p = some r ∧ (s = .exchange ∨ r.granted s = true) := by
  rw [authorize, Option.filter_eq_some_iff]
  simp

theorem authorize_isSome_iff : (d.authorize p s).isSome = true ↔
    ∃ r, d.find? p = some r ∧ (s = .exchange ∨ r.granted s = true) := by
  simp only [Option.isSome_iff_exists, authorize_eq_some_iff]

theorem authorize_congr {d' : Directory} (h : d'.find? p = d.find? p) :
    d'.authorize p s = d.authorize p s := by
  rw [authorize, authorize, h]

/-- A peer may use what its record tells in a history. -/
theorem granted_iff {r : PeerRecord} {ops : List Operation} {ids : List ServiceId}
    {descriptors : List Descriptor} {since : List Operation} (h : Exports r ops p)
    (hInstalled : Installed ops p ids descriptors since) :
    r.granted s = true ↔ s ∈ ids ∨ ∃ x ∈ descriptors, x.address.id = s ∧
      ∀ op ∈ since, ¬op.Withdraws x.address := by
  obtain ⟨hIds, hDescriptors⟩ := h ids descriptors since hInstalled
  rw [PeerRecord.granted, GrantSet.grants_iff, hIds]
  simp only [hDescriptors, and_assoc, and_comm (a := _ = s)]

/-- A registered peer may exchange grants, and may use what was installed for it last and not
withdrawn since. Nobody else may use anything, and what is addressed to others or has nothing to do
with the own grants makes no difference. -/
theorem authorize_after (ops : List Operation) (p : PeerAddress) (s : ServiceId) :
    (((after ops).authorize p s).isSome = true ↔
        Registered ops p ∧ (s = .exchange ∨ ∃ ids descriptors since,
          Installed ops p ids descriptors since ∧
            (s ∈ ids ∨ ∃ x ∈ descriptors, x.address.id = s ∧
              ∀ op ∈ since, ¬op.Withdraws x.address))) ∧
      (∀ r, (after ops).authorize p s = some r → (after ops).find? p = some r ∧ r.address = p) ∧
      (∀ op q, op.peer? = some q → q ≠ p →
        (after (ops ++ [op])).authorize p s = (after ops).authorize p s) ∧
      ∀ op, op.Spares →
        ((after (ops ++ [op])).authorize p s).isSome = ((after ops).authorize p s).isSome := by
  have hTells := after_tells ops
  refine ⟨?_, fun r hr => ?_, fun op q hPeer hNe => ?_, fun op hSpares => ?_⟩
  · rw [authorize_isSome_iff]
    constructor
    · rintro ⟨r, hFind, hMay⟩
      refine ⟨(hTells.registered p).mp (Option.isSome_of_mem hFind), hMay.imp_right fun h => ?_⟩
      obtain ⟨ids, descriptors, since, hInstalled⟩ := hTells.installed p r hFind
      exact ⟨ids, descriptors, since, hInstalled,
        (granted_iff (hTells.exports p r hFind) hInstalled).mp h⟩
    · rintro ⟨hRegistered, hMay⟩
      obtain ⟨r, hFind⟩ := Option.isSome_iff_exists.mp ((hTells.registered p).mpr hRegistered)
      refine ⟨r, hFind, hMay.imp_right ?_⟩
      rintro ⟨ids, descriptors, since, hInstalled, h⟩
      exact (granted_iff (hTells.exports p r hFind) hInstalled).mpr h
  · obtain ⟨hFind, -⟩ := authorize_eq_some_iff.mp hr
    exact ⟨hFind, hTells.keyed p r hFind⟩
  · apply authorize_congr
    rw [after_concat, find?_perform hTells.keyed, Operation.revise_of_peer? hPeer hNe]
  · rw [after_concat, authorize, authorize, find?_perform hTells.keyed]
    cases (after ops).find? p with
    | none => rw [Operation.revise_none_of_spares hSpares]
    | some r =>
      obtain ⟨r', hRevise, hGranted⟩ := Operation.revise_of_spares hSpares
      rw [hRevise]
      simp only [Option.isSome_filter, Option.any_some, hGranted]

end Authorize

end Directory

end PeerServices
