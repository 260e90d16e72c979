import PeerServices.Directory
import PeerServices.Proofs.Collection.SortedMap
import PeerServices.Proofs.Service.Order

/-!
# Looking records up after a change

Every change of a single record is seen under the address of that record and nowhere else.

* `Directory.grant_of_known`, `Directory.receiveExchange_of_known`,
  `Directory.exchanged_of_known`: what a grant and the two sides of an exchange make of the record
  that they change.
* `Directory.deleteService_of_known`, `Directory.purge_of_known`: what dropping a service makes of
  every record.
-/

namespace PeerServices

/-! ## Records that lose a service -/

/-- A service was dropped from a record, or it was not there: what is exported counts up its version
when it changes, and nothing waits because of that. -/
structure PeerRecord.Dropped (r r' : PeerRecord) : Prop where
  address : r'.address = r.address
  pending : r'.pending = r.pending
  imported : r'.imported.version = r.imported.version
  exported : r'.exported = r.exported ∨ r'.exported.version = r.exported.version + 1

namespace PeerRecord

theorem Dropped.refl (r : PeerRecord) : r.Dropped r := ⟨rfl, rfl, rfl, .inl rfl⟩

theorem Dropped.of_getD {r : PeerRecord} {changed? : Option PeerRecord}
    (h : ∀ r', changed? = some r' → r.Dropped r') : r.Dropped (changed?.getD r) := by
  cases changed? with
  | none => exact .refl r
  | some r' => exact h r' rfl

theorem version_of_without? {s s' : GrantSet} {service : ServiceAddress}
    (h : s.without? service = some s') : s'.version = s.version := by
  unfold GrantSet.without? at h
  split at h
  · obtain rfl := Option.some.inj h
    rfl
  · cases h

theorem removeExported?_dropped {r r' : PeerRecord} {service : ServiceAddress}
    (h : r.removeExported? service = some r') :
    r.Dropped r' ∧ r'.imported = r.imported := by
  obtain ⟨s, hWithout, rfl⟩ := Option.map_eq_some_iff.mp h
  exact ⟨⟨rfl, rfl, rfl, .inr (congrArg (· + 1) (version_of_without? hWithout))⟩, rfl⟩

theorem removeImported?_dropped {r r' : PeerRecord} {service : ServiceAddress}
    (h : r.removeImported? service = some r') : r.Dropped r' ∧ r'.exported = r.exported := by
  obtain ⟨s, hWithout, rfl⟩ := Option.map_eq_some_iff.mp h
  exact ⟨⟨rfl, rfl, version_of_without? hWithout, .inl rfl⟩, rfl⟩

theorem removeService?_dropped {r r' : PeerRecord} {service : ServiceAddress}
    (h : r.removeService? service = some r') : r.Dropped r' := by
  unfold removeService? at h
  split at h
  · exact (removeImported?_dropped h).1
  next r₁ hExported =>
    obtain ⟨hDropped, -⟩ := removeExported?_dropped hExported
    obtain rfl := Option.some.inj h
    cases hImported : r₁.removeImported? service with
    | none => exact hDropped
    | some r₂ =>
      obtain ⟨hDropped', hSame⟩ := removeImported?_dropped hImported
      constructor
      case address => exact hDropped'.address.trans hDropped.address
      case pending => exact hDropped'.pending.trans hDropped.pending
      case imported => exact hDropped'.imported.trans hDropped.imported
      case exported =>
        rw [Option.getD_some, hSame]
        exact hDropped.exported

end PeerRecord

/-! ## Directories -/

namespace Directory

variable {d : Directory} {peer : PeerAddress} {r : PeerRecord}

theorem find?_store (d : Directory) (r : PeerRecord) : (d.store r).find? r.address = some r :=
  SortedMap.find?_insert_self d.records r.address r

theorem find?_store_of_ne (h : peer ≠ r.address) (d : Directory) :
    (d.store r).find? peer = d.find? peer :=
  SortedMap.find?_insert_of_ne h d.records r

theorem grant_of_known (h : d.find? peer = some r) (hAddress : r.address = peer)
    (ids : List ServiceId) (descriptors : List Descriptor) :
    ∃ d' events, d.grant peer ids descriptors = .ok (d', events) ∧
      d'.find? peer = some (r.grant ids descriptors) := by
  unfold grant
  rw [h]
  exact ⟨_, _, rfl, hAddress ▸ find?_store d (r.grant ids descriptors)⟩

theorem receiveExchange_of_known (h : d.find? peer = some r) (hAddress : r.address = peer)
    (data : GrantSet) :
    ∃ d' events, d.receiveExchange peer data =
        .ok (if r.pending then some r.exported else none, d', events) ∧
      d'.find? peer = some (r.applyExchange data) := by
  unfold receiveExchange
  rw [h]
  exact ⟨_, _, rfl, hAddress ▸ find?_store d (r.applyExchange data)⟩

/-- What an answer makes of the record. -/
def answered (r : PeerRecord) (data : Option GrantSet) : PeerRecord :=
  match data with
  | some data => r.applyExchange data
  | none => { r with pending := false }

theorem answered_address (r : PeerRecord) (data : Option GrantSet) :
    (answered r data).address = r.address := by
  cases data <;> rfl

/-- A record takes what the other side of an exchange told: it keeps what that side grants, if it
was told, and waits for nothing any more. All other records stay as they are. -/
structure Takes (d : Directory) (r : PeerRecord) (data : Option GrantSet) (d' : Directory) :
    Prop where
  record : d'.find? r.address =
    some { r with imported := data.getD r.imported, pending := false }
  others : ∀ p, p ≠ r.address → d'.find? p = d.find? p

theorem takes_finishExchange (d : Directory) (r : PeerRecord) (data : Option GrantSet) :
    d.Takes r data (d.finishExchange r.pending (answered r data)).1 := by
  have hAddress := answered_address r data
  constructor
  case record =>
    change (d.store (answered r data)).find? r.address = _
    rw [← hAddress, find?_store]
    cases data <;> rfl
  case others =>
    intro p hp
    exact find?_store_of_ne (hAddress ▸ hp) d

/-- What a peer answered with is taken by its record. -/
theorem takes_exchanged (h : d.find? peer = some r) (data : Option GrantSet) :
    d.Takes r data (d.exchanged peer data).1 := by
  unfold exchanged
  rw [h]
  exact takes_finishExchange d r data

theorem exchanged_of_known (h : d.find? peer = some r) (hAddress : r.address = peer)
    (data : Option GrantSet) : (d.exchanged peer data).1.find? peer = some (answered r data) := by
  unfold exchanged
  rw [h]
  change (d.store (answered r data)).find? peer = _
  rw [← hAddress, ← answered_address r data]
  exact find?_store d (answered r data)

theorem find?_changeAll (d : Directory) (change? : PeerRecord → Option PeerRecord)
    (peer : PeerAddress) :
    (d.changeAll change?).1.find? peer = (d.find? peer).map fun r => (change? r).getD r :=
  SortedMap.find?_mapValues d.records _ peer

theorem changeAll_dropped {change? : PeerRecord → Option PeerRecord}
    (hChange : ∀ r r', change? r = some r' → r.Dropped r') (h : d.find? peer = some r) :
    ∃ r', (d.changeAll change?).1.find? peer = some r' ∧ r.Dropped r' := by
  exact ⟨(change? r).getD r, by rw [find?_changeAll, h, Option.map_some], .of_getD (hChange r)⟩

theorem deleteService_of_known (h : d.find? peer = some r) (side : GrantSide)
    (service : ServiceAddress) :
    ∃ r', (d.deleteService side service).1.find? peer = some r' ∧ r.Dropped r' := by
  apply changeAll_dropped _ h
  intro r r' hResult
  cases side with
  | imported => exact (PeerRecord.removeImported?_dropped hResult).1
  | exported => exact (PeerRecord.removeExported?_dropped hResult).1

theorem purge_of_known (h : d.find? peer = some r) (service : ServiceAddress) :
    ∃ r', (d.purge service).1.find? peer = some r' ∧ r.Dropped r' :=
  changeAll_dropped (fun _ _ => PeerRecord.removeService?_dropped) h

end Directory

end PeerServices
