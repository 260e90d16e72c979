import PeerServices.Proofs.Directory.History

/-!
# Following a directory by what it tells

Whoever starts with no records and does what each event says keeps the records of the directory, at
the end of every operation.

* `Directory.announced`: what happened in an operation; `Directory.stream`: in a history.
* `Directory.apply`: what a follower makes of an event.
* `Directory.foldl_announced`: one operation, followed by its events.
* `Directory.announced_eq_nil_iff`: when there is nothing to tell.
* `Directory.announced_of_settles`: grants and exchanges tell whether a record waits, and then the
  record.
* `Directory.foldl_stream`: a whole history.
-/

namespace PeerServices

/-! ## Services that a record lists -/

namespace GrantSet

/-- A descriptor of the set has the address. -/
def Lists (s : GrantSet) (address : ServiceAddress) : Prop :=
  ∃ x ∈ s.descriptors.toList, x.address = address

theorem without?_eq_none_iff {s : GrantSet} {address : ServiceAddress} :
    s.without? address = none ↔ ¬s.Lists address := by
  unfold without? Lists
  split
  next hAny => simpa using hAny
  next hAny => simpa using hAny

end GrantSet

namespace PeerRecord

variable {r r' : PeerRecord} {address : ServiceAddress}

theorem removeExported?_eq_none_iff :
    r.removeExported? address = none ↔ ¬r.exported.Lists address := by
  rw [removeExported?, Option.map_eq_none_iff, GrantSet.without?_eq_none_iff]

theorem removeImported?_eq_none_iff :
    r.removeImported? address = none ↔ ¬r.imported.Lists address := by
  rw [removeImported?, Option.map_eq_none_iff, GrantSet.without?_eq_none_iff]

theorem removeService?_eq_none_iff :
    r.removeService? address = none ↔ ¬r.exported.Lists address ∧ ¬r.imported.Lists address := by
  rw [← removeExported?_eq_none_iff, ← removeImported?_eq_none_iff, removeService?]
  split
  next hNone => exact (and_iff_right hNone).symm
  next hSome => simp [hSome]

end PeerRecord

namespace Directory

/-! ## Events of a history -/

/-- What happened in an operation. Nothing did in one that is refused. -/
def announced (d : Directory) : Operation → List DirectoryEvent
  | .add r => (d.add r).2
  | .update r =>
    match d.update r with
    | .ok (_, events) => events
    | .error _ => []
  | .delete q => (d.delete q).2
  | .grant q ids descriptors =>
    match d.grant q ids descriptors with
    | .ok (_, events) => events
    | .error _ => []
  | .deleteService side service => (d.deleteService side service).2
  | .purge service => (d.purge service).2
  | .receiveExchange q data =>
    match d.receiveExchange q data with
    | .ok (_, _, events) => events
    | .error _ => []
  | .exchanged q data => (d.exchanged q data).2

/-- All that happened since a directory. -/
def streamFrom (d : Directory) : List Operation → List DirectoryEvent
  | [] => []
  | op :: ops => d.announced op ++ (d.perform op).streamFrom ops

/-- All that happened in a history. -/
def stream (ops : List Operation) : List DirectoryEvent := empty.streamFrom ops

/-- The records of a follower after an event: a record that comes with it is kept under its own
address. -/
def apply (d : Directory) : DirectoryEvent → Directory
  | .added r | .updated r | .exchanged r => ⟨d.records.insert r.address r⟩
  | .deleted q => ⟨d.records.erase q⟩
  | .pendingChanged q pending => ⟨d.records.modify q ({ · with pending })⟩

variable {d : Directory} {op : Operation} {q : PeerAddress} {r : PeerRecord}

theorem streamFrom_concat (d : Directory) (ops : List Operation) (op : Operation) :
    d.streamFrom (ops ++ [op]) = d.streamFrom ops ++ (ops.foldl perform d).announced op := by
  induction ops generalizing d with
  | nil => simp [streamFrom]
  | cons op' ops ih => simp [streamFrom, ih]

theorem stream_concat (ops : List Operation) (op : Operation) :
    stream (ops ++ [op]) = stream ops ++ (after ops).announced op :=
  streamFrom_concat .empty ops op

/-! ## Many records at once -/

/-- Of records stored one after another, the last under an address counts. -/
theorem find?_foldl_store (d : Directory) (records : List PeerRecord) (p : PeerAddress) :
    (records.foldl store d).find? p =
      (records.filter (·.address = p)).getLast?.or (d.find? p) := by
  induction records using concat_induction with
  | nil => rfl
  | concat records r ih =>
    rw [List.foldl_append, List.filter_append, List.getLast?_append, Option.or_assoc, ← ih]
    change ((records.foldl store d).store r).find? p = _
    by_cases hp : p = r.address
    · subst hp
      rw [find?_store]
      simp
    · rw [find?_store_of_ne hp]
      simp [Ne.symm hp]

theorem mem_values_iff : r ∈ d.records.values ↔ ∃ p, d.find? p = some r := by
  simp only [SortedMap.values, List.mem_map, find?, ← SortedMap.mem_toList_iff]
  constructor
  · rintro ⟨⟨p, r'⟩, hMem, rfl⟩
    exact ⟨p, hMem⟩
  · rintro ⟨p, hMem⟩
    exact ⟨(p, r), hMem, rfl⟩

theorem foldl_apply_updated (d : Directory) (records : List PeerRecord) :
    (records.map .updated).foldl apply d = records.foldl store d :=
  List.foldl_map

section ChangeAll

variable {change? : PeerRecord → Option PeerRecord}

/-- Storing the records that a change gives, one after another, is changing all at once. -/
theorem foldl_changeAll (hKeyed : d.Keyed)
    (hAddress : ∀ r r', change? r = some r' → r'.address = r.address) :
    (d.changeAll change?).2.foldl apply d = (d.changeAll change?).1 := by
  have hSame : ∀ p r, d.find? p = some r → ∀ r' ∈ d.records.values.filterMap change?,
      r'.address = p → change? r = some r' := by
    intro p r hFind r' hMem hp
    obtain ⟨r₀, hMem₀, hChange⟩ := List.mem_filterMap.mp hMem
    obtain ⟨p₀, hFind₀⟩ := mem_values_iff.mp hMem₀
    -- Every record is under its own address, so there is one record for `r'` to come from.
    have hp₀ : p₀ = p := (hKeyed p₀ r₀ hFind₀).symm.trans ((hAddress r₀ r' hChange).symm.trans hp)
    subst hp₀
    rw [hFind₀] at hFind
    exact Option.some.inj hFind ▸ hChange
  have hEqual : ∀ p, (((d.records.values.filterMap change?).map .updated).foldl apply d).find? p =
      (d.changeAll change?).1.find? p := by
    intro p
    rw [foldl_apply_updated, find?_foldl_store, find?_changeAll]
    cases hLast : ((d.records.values.filterMap change?).filter (·.address = p)).getLast? with
    | some r' =>
      obtain ⟨hMem, hp⟩ := List.mem_filter.mp (List.mem_of_getLast? hLast)
      obtain ⟨r, hMemValues, hChange⟩ := List.mem_filterMap.mp hMem
      obtain ⟨p₀, hFind⟩ := mem_values_iff.mp hMemValues
      have hp₀ : p₀ = p := (hKeyed p₀ r hFind).symm.trans
        ((hAddress r r' hChange).symm.trans (of_decide_eq_true hp))
      rw [← hp₀, hFind, Option.map_some, hChange]
      rfl
    | none =>
      cases hFind : d.find? p with
      | none => rfl
      | some r =>
        have hNone : change? r = none := by
          rw [List.getLast?_eq_none_iff, List.filter_eq_nil_iff] at hLast
          rw [Option.eq_none_iff_forall_not_mem]
          intro r' hChange
          have hp : r'.address = p := (hAddress r r' hChange).trans (hKeyed p r hFind)
          have hMem := List.mem_filterMap.mpr ⟨r, mem_values_iff.mpr ⟨p, hFind⟩, hChange⟩
          exact hLast r' hMem (decide_eq_true hp)
        rw [Option.map_some, hNone]
        rfl
  exact congrArg Directory.mk (SortedMap.ext_find? hEqual)

theorem changeAll_eq_nil_iff :
    (d.changeAll change?).2 = [] ↔ ∀ p r, d.find? p = some r → change? r = none := by
  rw [changeAll, List.map_eq_nil_iff, List.filterMap_eq_nil_iff]
  constructor
  · exact fun h p r hFind => h r (mem_values_iff.mpr ⟨p, hFind⟩)
  · intro h r hMem
    obtain ⟨p, hFind⟩ := mem_values_iff.mp hMem
    exact h p r hFind

end ChangeAll

/-! ## One operation -/

/-- Once a record is stored it makes no difference whether its flag was set before. -/
theorem store_apply_pendingChanged (d : Directory) (r : PeerRecord) (pending : Bool) :
    (d.apply (.pendingChanged r.address pending)).store r = d.store r :=
  congrArg Directory.mk (SortedMap.insert_modify d.records r.address _ r)

theorem foldl_finishExchange (d : Directory) (wasPending : Bool) (r : PeerRecord) :
    (d.finishExchange wasPending r).2.foldl apply d = (d.finishExchange wasPending r).1 := by
  cases wasPending with
  | false => rfl
  | true => exact store_apply_pendingChanged d r false

/-- A follower that does what the events of an operation say has the directory after it. -/
theorem foldl_announced (hKeyed : d.Keyed) (op : Operation) :
    (d.announced op).foldl apply d = d.perform op := by
  cases op with
  | add r => rfl
  | update r =>
    simp only [announced, perform, update]
    cases d.find? r.address <;> rfl
  | delete q =>
    simp only [announced, perform, delete]
    cases d.find? q <;> rfl
  | grant q ids descriptors =>
    simp only [announced, perform, grant]
    cases hFind : d.find? q with
    | none => rfl
    | some r =>
      have hq : (r.grant ids descriptors).address = q := hKeyed q r hFind
      change List.foldl apply d ((if r.pending then [] else [.pendingChanged q true]) ++
        [.updated (r.grant ids descriptors)]) = d.store (r.grant ids descriptors)
      split
      · rfl
      · rw [← hq]
        exact store_apply_pendingChanged d (r.grant ids descriptors) true
  | deleteService side service =>
    apply foldl_changeAll hKeyed
    intro r r' hChange
    cases side with
    | imported => exact (PeerRecord.removeImported?_dropped hChange).1.address
    | exported => exact (PeerRecord.removeExported?_dropped hChange).1.address
  | purge service =>
    exact foldl_changeAll hKeyed fun _ _ hChange => (PeerRecord.removeService?_dropped hChange).address
  | receiveExchange q data =>
    simp only [announced, perform, receiveExchange]
    cases d.find? q with
    | none => rfl
    | some r => exact foldl_finishExchange d r.pending (r.applyExchange data)
  | exchanged q data =>
    simp only [announced, perform, exchanged]
    cases d.find? q with
    | none => rfl
    | some r => exact foldl_finishExchange d r.pending (answered r data)

/-- An operation has nothing to do: its peer is not known, or no record lists the service that it
removes. -/
def Operation.Misses (d : Directory) : Operation → Prop
  | .add _ => False
  | .update r => d.find? r.address = none
  | .delete q | .grant q _ _ | .receiveExchange q _ | .exchanged q _ => d.find? q = none
  | .deleteService .imported service => ∀ p r, d.find? p = some r → ¬r.imported.Lists service
  | .deleteService .exported service => ∀ p r, d.find? p = some r → ¬r.exported.Lists service
  | .purge service => ∀ p r, d.find? p = some r →
      ¬r.exported.Lists service ∧ ¬r.imported.Lists service

theorem finishExchange_ne_nil (d : Directory) (wasPending : Bool) (r : PeerRecord) :
    (d.finishExchange wasPending r).2 ≠ [] := List.concat_ne_nil _ _

theorem announced_eq_nil_iff : d.announced op = [] ↔ op.Misses d := by
  cases op with
  | add r => exact iff_of_false (List.cons_ne_nil _ _) id
  | update r =>
    simp only [announced, update, Operation.Misses]
    cases d.find? r.address <;> simp
  | delete q =>
    simp only [announced, delete, Operation.Misses]
    cases d.find? q <;> simp
  | grant q ids descriptors =>
    simp only [announced, grant, Operation.Misses]
    cases d.find? q <;> simp
  | deleteService side service =>
    cases side with
    | imported =>
      refine changeAll_eq_nil_iff.trans ?_
      simp only [PeerRecord.removeImported?_eq_none_iff, Operation.Misses]
    | exported =>
      refine changeAll_eq_nil_iff.trans ?_
      simp only [PeerRecord.removeExported?_eq_none_iff, Operation.Misses]
  | purge service =>
    refine changeAll_eq_nil_iff.trans ?_
    simp only [PeerRecord.removeService?_eq_none_iff, Operation.Misses]
  | receiveExchange q data =>
    simp only [announced, receiveExchange, Operation.Misses]
    cases d.find? q with
    | none => simp
    | some r => simp [finishExchange_ne_nil]
  | exchanged q data =>
    simp only [announced, exchanged, Operation.Misses]
    cases d.find? q with
    | none => simp
    | some r => simp [finishExchange_ne_nil]

/-- The peer for whose record an operation settles whether it waits, and the event that carries the
new record. -/
def Operation.settles? : Operation → Option (PeerAddress × (PeerRecord → DirectoryEvent))
  | .grant q _ _ => some (q, .updated)
  | .receiveExchange q _ | .exchanged q _ => some (q, .exchanged)
  | .add _ | .update _ | .delete _ | .deleteService .. | .purge _ => none

theorem finishExchange_tells {r r' : PeerRecord} (hPending : r'.pending = false)
    (d : Directory) : (d.finishExchange r.pending r').2 =
      (if r'.pending = r.pending then [] else [.pendingChanged r'.address r'.pending]) ++
        [.exchanged r'] := by
  rw [finishExchange, hPending]
  cases r.pending <;> rfl

/-- A grant and either side of an exchange tell whether the record waits now if it did not before,
or the other way round, and then the new record. -/
theorem announced_of_settles {carry : PeerRecord → DirectoryEvent} (hKeyed : d.Keyed)
    (h : op.settles? = some (q, carry)) (hFind : d.find? q = some r) :
    ∃ r', (d.perform op).find? q = some r' ∧ d.announced op =
      (if r'.pending = r.pending then [] else [.pendingChanged q r'.pending]) ++ [carry r'] := by
  have hq : r.address = q := hKeyed q r hFind
  rw [find?_perform hKeyed, hFind]
  cases op with
  | add | update | delete | deleteService | purge => cases h
  | grant q' ids descriptors =>
    cases h
    refine ⟨r.grant ids descriptors, by simp [Operation.revise], ?_⟩
    simp only [announced, grant, hFind]
    have hPending : (r.grant ids descriptors).pending = true := rfl
    cases hWas : r.pending <;> simp [hPending]
  | receiveExchange q' data =>
    cases h
    refine ⟨r.applyExchange data, by simp [Operation.revise], ?_⟩
    simp only [announced, receiveExchange, hFind]
    rw [← hq]
    exact finishExchange_tells rfl d
  | exchanged q' data =>
    cases h
    refine ⟨answered r data, by simp [Operation.revise], ?_⟩
    simp only [announced, exchanged, hFind]
    have hAnswered : (answered r data).address = q := (answered_address r data).trans hq
    have hPending : (answered r data).pending = false := by cases data <;> rfl
    rw [← hAnswered]
    exact finishExchange_tells hPending d

/-! ## A whole history -/

theorem foldl_stream (ops : List Operation) : (stream ops).foldl apply .empty = after ops := by
  induction ops using concat_induction with
  | nil => rfl
  | concat ops op ih =>
    rw [stream_concat, List.foldl_append, ih, after_concat]
    exact foldl_announced (after_tells ops).keyed op

/-- After every history a follower of all that happened has the very records of the directory, each
under its own address. The next operation tells nothing just if it has nothing to do, and then it
changes nothing. Grants and exchanges tell that a record waits, or waits no longer, just if that
changed, and before they tell the new record. -/
theorem stream_describes (ops : List Operation) :
    (stream ops).foldl apply .empty = after ops ∧
      (∀ p r, (after ops).find? p = some r → r.address = p) ∧
      ∀ op, stream (ops ++ [op]) = stream ops ++ (after ops).announced op ∧
        ((after ops).announced op = [] ↔ op.Misses (after ops)) ∧
        (op.Misses (after ops) → after (ops ++ [op]) = after ops) ∧
        ∀ q carry r, op.settles? = some (q, carry) → (after ops).find? q = some r →
          ∃ r', (after (ops ++ [op])).find? q = some r' ∧ (after ops).announced op =
            (if r'.pending = r.pending then [] else [.pendingChanged q r'.pending]) ++
              [carry r'] := by
  have hKeyed := (after_tells ops).keyed
  refine ⟨foldl_stream ops, hKeyed, fun op => ⟨stream_concat ops op, announced_eq_nil_iff, ?_, ?_⟩⟩
  · intro hMisses
    have hFollowed := foldl_announced hKeyed op
    rw [announced_eq_nil_iff.mpr hMisses] at hFollowed
    rw [after_concat, ← hFollowed]
    rfl
  · intro q carry r hSettles hFind
    rw [after_concat]
    exact announced_of_settles hKeyed hSettles hFind

/-- A peer becomes known, an exchange with it settles that it waits for nothing, and a grant makes it
wait again. Before it is forgotten its follower has the record with that grant. -/
example :
    let p : PeerAddress := ⟨.ofPadded 20 [2]⟩
    let r : PeerRecord := .create p "other"
    let settled := { r with pending := false }
    let granted := settled.grant [⟨9⟩] []
    stream [.add r, .exchanged p none, .grant p [⟨9⟩] [], .delete p, .delete p] =
        [.added r, .pendingChanged p false, .exchanged settled, .pendingChanged p true,
          .updated granted, .deleted p] ∧
      ((stream [.add r, .exchanged p none, .grant p [⟨9⟩] []]).foldl apply .empty).find? p =
        some granted := by
  decide +kernel

end Directory

end PeerServices
