import PeerServices.Proofs.Directory.Correspondence
import PeerServices.Proofs.Directory.Following

/-!
# Dropping a service from every record

A service is dropped from what records import, from what they export, or from both. Each time the
descriptors of its address go and nothing else does. What is exported counts up its version if it
lost a descriptor; what is imported keeps the version that it was told with.

* `PeerRecord.Stripped`: what a removal may change in a record, and what it may not.
* `PeerRecord.strip`: a removal as a function, with `PeerRecord.strip_comm` and
  `PeerRecord.strip_strip`.
* `Directory.find?_remove`, `Directory.remove_tells`: every record after a removal, and the events.
* `Correspondence.received?_ask`, `Correspondence.received?_answer`: grants that were taken from a
  record before removals reach the other peer as they were.
* `Directory.removal_exact`: all of it.
-/

namespace PeerServices

/-- From which sides of all records a service is dropped. -/
inductive Removal
  | side (side : GrantSide)
  | both
deriving DecidableEq

def Removal.Covers : Removal → GrantSide → Prop
  | .side s, s' => s = s'
  | .both, _ => True

instance (removal : Removal) (side : GrantSide) : Decidable (removal.Covers side) :=
  match removal with
  | .side s => inferInstanceAs (Decidable (s = side))
  | .both => .isTrue trivial

/-! ## Grant sets -/

namespace GrantSet

variable {s : GrantSet} {a b : ServiceAddress}

instance (s : GrantSet) (a : ServiceAddress) : Decidable (s.Lists a) :=
  inferInstanceAs (Decidable (∃ x ∈ s.descriptors.toList, x.address = a))

/-- The set without the descriptors of an address, if there are any. -/
def without (s : GrantSet) (a : ServiceAddress) : GrantSet :=
  { s with descriptors := s.descriptors.filter (·.address ≠ a) }

/-- The set without the descriptors of an address, and a version later if there were any. -/
def advance (s : GrantSet) (a : ServiceAddress) : GrantSet :=
  if s.Lists a then { s.without a with version := s.version + 1 } else s

theorem mem_without {x : Descriptor} :
    x ∈ (s.without a).descriptors.toList ↔ x ∈ s.descriptors.toList ∧ x.address ≠ a := by
  change x ∈ s.descriptors.toList.filter (·.address ≠ a) ↔ _
  simp

theorem without_eq_self (h : ¬s.Lists a) : s.without a = s := by
  have hKept : s.descriptors.toList.filter (·.address ≠ a) = s.descriptors.toList := by
    rw [List.filter_eq_self]
    intro x hx
    exact decide_eq_true fun hAddress => h ⟨x, hx, hAddress⟩
  have hSet : (s.without a).descriptors = s.descriptors := SortedSet.ext_toList hKept
  exact congrArg (GrantSet.mk s.version s.ids) hSet

theorem without?_eq (s : GrantSet) (a : ServiceAddress) :
    s.without? a = if s.Lists a then some (s.without a) else none := by
  split
  next hLists =>
    obtain ⟨x, hx, hAddress⟩ := hLists
    exact if_pos (List.any_eq_true.mpr ⟨x, hx, decide_eq_true hAddress⟩)
  next hLists => exact without?_eq_none_iff.mpr hLists

theorem without_lists_iff : (s.without a).Lists b ↔ s.Lists b ∧ b ≠ a := by
  constructor
  · rintro ⟨x, hx, rfl⟩
    obtain ⟨hMem, hNe⟩ := mem_without.mp hx
    exact ⟨⟨x, hMem, rfl⟩, hNe⟩
  · rintro ⟨⟨x, hx, rfl⟩, hNe⟩
    exact ⟨x, mem_without.mpr ⟨hx, hNe⟩, rfl⟩

theorem without_comm (s : GrantSet) (a b : ServiceAddress) :
    (s.without a).without b = (s.without b).without a := by
  have hKept : (s.descriptors.toList.filter (·.address ≠ a)).filter (·.address ≠ b) =
      (s.descriptors.toList.filter (·.address ≠ b)).filter (·.address ≠ a) := by
    simp only [List.filter_filter, Bool.and_comm]
  have hSet : ((s.without a).without b).descriptors = ((s.without b).without a).descriptors :=
    SortedSet.ext_toList hKept
  exact congrArg (GrantSet.mk s.version s.ids) hSet

theorem advance_of_lists (h : s.Lists a) :
    s.advance a = { s.without a with version := s.version + 1 } := if_pos h

theorem advance_eq_self (h : ¬s.Lists a) : s.advance a = s := if_neg h

theorem ids_advance (s : GrantSet) (a : ServiceAddress) : (s.advance a).ids = s.ids := by
  unfold advance
  split <;> rfl

theorem descriptors_advance (s : GrantSet) (a : ServiceAddress) :
    (s.advance a).descriptors = (s.without a).descriptors := by
  unfold advance
  split
  · rfl
  next h => rw [without_eq_self h]

theorem advance_lists_iff : (s.advance a).Lists b ↔ s.Lists b ∧ b ≠ a := by
  rw [← without_lists_iff, Lists, descriptors_advance]
  rfl

theorem advance_comm (s : GrantSet) (a b : ServiceAddress) :
    (s.advance a).advance b = (s.advance b).advance a := by
  by_cases hEq : a = b
  · rw [hEq]
  have hb : (s.advance a).Lists b ↔ s.Lists b :=
    advance_lists_iff.trans (and_iff_left (Ne.symm hEq))
  have ha : (s.advance b).Lists a ↔ s.Lists a := advance_lists_iff.trans (and_iff_left hEq)
  by_cases hListsA : s.Lists a
  · by_cases hListsB : s.Lists b
    · rw [advance_of_lists (hb.mpr hListsB), advance_of_lists (ha.mpr hListsA),
        advance_of_lists hListsA, advance_of_lists hListsB]
      exact congrArg (fun t : GrantSet => { t with version := s.version + 1 + 1 })
        (without_comm s a b)
    · rw [advance_eq_self (mt hb.mp hListsB), advance_eq_self hListsB]
  · rw [advance_eq_self hListsA, advance_eq_self (mt ha.mp hListsA)]

end GrantSet

/-! ## Records -/

namespace PeerRecord

/-- The record once an address is dropped, if that changes it. -/
def remove? (r : PeerRecord) : Removal → ServiceAddress → Option PeerRecord
  | .side .imported, a => r.removeImported? a
  | .side .exported, a => r.removeExported? a
  | .both, a => r.removeService? a

/-- The record without the descriptors of an address on the sides that are covered. -/
def strip (r : PeerRecord) (removal : Removal) (a : ServiceAddress) : PeerRecord :=
  { r with
    exported := if removal.Covers .exported then r.exported.advance a else r.exported
    imported := if removal.Covers .imported then r.imported.without a else r.imported }

/-- A descriptor of the address stands on a side that is covered. -/
def Offers (r : PeerRecord) (removal : Removal) (a : ServiceAddress) : Prop :=
  (removal.Covers .exported ∧ r.exported.Lists a) ∨ (removal.Covers .imported ∧ r.imported.Lists a)

instance (r : PeerRecord) (removal : Removal) (a : ServiceAddress) :
    Decidable (r.Offers removal a) :=
  inferInstanceAs (Decidable (_ ∨ _))

/-- What is exported to the peer of one record and not any more to that of another. -/
def Withdraws (r r' : PeerRecord) : Prop :=
  ∃ x ∈ r.exported.descriptors.toList, x ∉ r'.exported.descriptors.toList

instance (r r' : PeerRecord) : Decidable (r.Withdraws r') :=
  inferInstanceAs (Decidable (∃ x ∈ r.exported.descriptors.toList, _))

/-- What dropping an address makes of a record: the descriptors of the address are gone from the
sides that are covered, the exported set counts up its version exactly if it lost one, and all else
is as it was. A record without such a descriptor is the same. -/
structure Stripped (removal : Removal) (a : ServiceAddress) (r r' : PeerRecord) : Prop where
  address : r'.address = r.address
  name : r'.name = r.name
  pending : r'.pending = r.pending
  extension : r'.extension = r.extension
  ids : r'.exported.ids = r.exported.ids ∧ r'.imported.ids = r.imported.ids
  exported : ∀ x, x ∈ r'.exported.descriptors.toList ↔
    x ∈ r.exported.descriptors.toList ∧ ¬(removal.Covers .exported ∧ x.address = a)
  imported : ∀ x, x ∈ r'.imported.descriptors.toList ↔
    x ∈ r.imported.descriptors.toList ∧ ¬(removal.Covers .imported ∧ x.address = a)
  importedVersion : r'.imported.version = r.imported.version
  exportedVersion : r'.exported.version = r.exported.version + 1 ↔ r.Withdraws r'
  /-- Below the largest version, counting up is adding one to a number. -/
  counted : r.Withdraws r' → r.exported.version ≠ Int64.maxValue →
    r'.exported.version.toInt = r.exported.version.toInt + 1
  /-- Under the version of a set that was taken before stands no other set. -/
  snapshot : r'.exported.version = r.exported.version ↔ r'.exported = r.exported
  changed : r' ≠ r ↔ r.Offers removal a

variable {r : PeerRecord} {removal removal' : Removal} {a b : ServiceAddress}

/-! ## A removal as a function -/

theorem strip_eq_self (r : PeerRecord) (h : ¬r.Offers removal a) : r.strip removal a = r := by
  obtain ⟨hExported, hImported⟩ := not_or.mp h
  have hAdvance : (if removal.Covers .exported then r.exported.advance a else r.exported) =
      r.exported := by
    split
    next hCovers => exact GrantSet.advance_eq_self fun hLists => hExported ⟨hCovers, hLists⟩
    · rfl
  have hWithout : (if removal.Covers .imported then r.imported.without a else r.imported) =
      r.imported := by
    split
    next hCovers => exact GrantSet.without_eq_self fun hLists => hImported ⟨hCovers, hLists⟩
    · rfl
  rw [strip, hAdvance, hWithout]

theorem removeExported?_eq (r : PeerRecord) (a : ServiceAddress) : r.removeExported? a =
    if r.exported.Lists a then some (r.strip (.side .exported) a) else none := by
  rw [removeExported?, GrantSet.without?_eq]
  split
  next h => simp [strip, Removal.Covers, GrantSet.advance_of_lists h, GrantSet.without]
  · rfl

theorem removeImported?_eq (r : PeerRecord) (a : ServiceAddress) : r.removeImported? a =
    if r.imported.Lists a then some (r.strip (.side .imported) a) else none := by
  rw [removeImported?, GrantSet.without?_eq]
  split
  · simp [strip, Removal.Covers]
  · rfl

theorem strip_both (r : PeerRecord) (a : ServiceAddress) :
    (r.strip (.side .exported) a).strip (.side .imported) a = r.strip .both a := rfl

theorem getD_removeImported? (r : PeerRecord) (a : ServiceAddress) :
    (r.removeImported? a).getD r = r.strip (.side .imported) a := by
  rw [removeImported?_eq]
  split
  · rfl
  next h => exact (strip_eq_self r (by simp [Offers, Removal.Covers, h])).symm

/-- Both sides are looked at, whether or not the first one changes. -/
theorem removeService?_eq (r : PeerRecord) (a : ServiceAddress) : r.removeService? a =
    if r.Offers .both a then some (r.strip .both a) else none := by
  unfold removeService?
  rw [removeExported?_eq, ← strip_both]
  by_cases hExported : r.exported.Lists a
  · have hOffers : r.Offers .both a := .inl ⟨trivial, hExported⟩
    rw [if_pos hExported, if_pos hOffers]
    exact congrArg some (getD_removeImported? _ a)
  · have hOffers : r.Offers .both a ↔ r.imported.Lists a := by
      simp [Offers, Removal.Covers, hExported]
    have hSame : r.strip (.side .exported) a = r :=
      strip_eq_self r (by simp [Offers, Removal.Covers, hExported])
    simp only [if_neg hExported, removeImported?_eq, hOffers, hSame]

theorem remove?_eq (r : PeerRecord) (removal : Removal) (a : ServiceAddress) :
    r.remove? removal a = if r.Offers removal a then some (r.strip removal a) else none := by
  match removal with
  | .side .imported =>
    rw [remove?, removeImported?_eq]
    simp [Offers, Removal.Covers]
  | .side .exported =>
    rw [remove?, removeExported?_eq]
    simp [Offers, Removal.Covers]
  | .both => exact removeService?_eq r a

/-! ## What a removal leaves -/

theorem mem_exported_strip {x : Descriptor} :
    x ∈ (r.strip removal a).exported.descriptors.toList ↔
      x ∈ r.exported.descriptors.toList ∧ ¬(removal.Covers .exported ∧ x.address = a) := by
  by_cases hCovers : removal.Covers .exported
  · simp only [strip, hCovers, if_true, GrantSet.descriptors_advance, GrantSet.mem_without, ne_eq,
      true_and]
  · simp only [strip, hCovers, if_false, false_and, not_false_iff, and_true]

theorem mem_imported_strip {x : Descriptor} :
    x ∈ (r.strip removal a).imported.descriptors.toList ↔
      x ∈ r.imported.descriptors.toList ∧ ¬(removal.Covers .imported ∧ x.address = a) := by
  by_cases hCovers : removal.Covers .imported
  · simp only [strip, hCovers, if_true, GrantSet.mem_without, ne_eq, true_and]
  · simp only [strip, hCovers, if_false, false_and, not_false_iff, and_true]

theorem withdraws_strip_iff :
    r.Withdraws (r.strip removal a) ↔ removal.Covers .exported ∧ r.exported.Lists a := by
  constructor
  · rintro ⟨x, hx, hGone⟩
    rw [mem_exported_strip, not_and, Decidable.not_not] at hGone
    exact ⟨(hGone hx).1, x, hx, (hGone hx).2⟩
  · rintro ⟨hCovers, x, hx, hAddress⟩
    exact ⟨x, hx, fun hKept => (mem_exported_strip.mp hKept).2 ⟨hCovers, hAddress⟩⟩

theorem version_strip_of_withdraws (h : r.Withdraws (r.strip removal a)) :
    (r.strip removal a).exported.version = r.exported.version + 1 := by
  obtain ⟨hCovers, hLists⟩ := withdraws_strip_iff.mp h
  simp only [strip, hCovers, if_true, GrantSet.advance_of_lists hLists]

theorem exported_strip_of_not_withdraws (h : ¬r.Withdraws (r.strip removal a)) :
    (r.strip removal a).exported = r.exported := by
  simp only [strip]
  split
  next hCovers =>
    exact GrantSet.advance_eq_self fun hLists => h (withdraws_strip_iff.mpr ⟨hCovers, hLists⟩)
  · rfl

theorem strip_not_offers (r : PeerRecord) (removal : Removal) (a : ServiceAddress) :
    ¬(r.strip removal a).Offers removal a := by
  rintro (⟨hCovers, x, hx, hAddress⟩ | ⟨hCovers, x, hx, hAddress⟩)
  · exact (mem_exported_strip.mp hx).2 ⟨hCovers, hAddress⟩
  · exact (mem_imported_strip.mp hx).2 ⟨hCovers, hAddress⟩

theorem strip_ne_self_iff : r.strip removal a ≠ r ↔ r.Offers removal a := by
  constructor
  · intro h
    exact Decidable.byContradiction fun hOffers => h (strip_eq_self r hOffers)
  · intro hOffers hSame
    exact strip_not_offers r removal a (hSame.symm ▸ hOffers)

/-- Below the largest version, the next one is a number that is greater by one. -/
theorem toInt_version_succ {v : Int64} (h : v ≠ Int64.maxValue) :
    (v + 1).toInt = v.toInt + 1 := by
  have hNe : v.toInt ≠ 2 ^ 63 - 1 := fun hEq =>
    h (Int64.toInt_inj.mp (hEq.trans Int64.toInt_maxValue.symm))
  have hLt : v.toInt < 2 ^ 63 := v.toInt_lt
  have hLe : -2 ^ 63 ≤ v.toInt := v.le_toInt
  have hOne : (1 : Int64).toInt = 1 := rfl
  rw [Int64.toInt_add, hOne]
  apply Int.bmod_eq_of_le <;> omega

theorem stripped (r : PeerRecord) (removal : Removal) (a : ServiceAddress) :
    Stripped removal a r (r.strip removal a) := by
  have hNext : r.exported.version + 1 ≠ r.exported.version := by simp
  have hIds : (r.strip removal a).exported.ids = r.exported.ids := by
    simp only [strip]
    split
    · exact GrantSet.ids_advance r.exported a
    · rfl
  have hImported : (r.strip removal a).imported.ids = r.imported.ids ∧
      (r.strip removal a).imported.version = r.imported.version := by
    simp only [strip]
    split <;> exact ⟨rfl, rfl⟩
  have hVersion : ¬r.Withdraws (r.strip removal a) →
      (r.strip removal a).exported.version = r.exported.version := fun h =>
    congrArg GrantSet.version (exported_strip_of_not_withdraws h)
  constructor
  case address | name | pending | extension => rfl
  case ids => exact ⟨hIds, hImported.1⟩
  case exported => exact fun _ => mem_exported_strip
  case imported => exact fun _ => mem_imported_strip
  case importedVersion => exact hImported.2
  case exportedVersion =>
    refine ⟨fun hLater => ?_, version_strip_of_withdraws⟩
    exact Decidable.byContradiction fun h => hNext (hLater.symm.trans (hVersion h))
  case counted =>
    intro hWithdraws hMax
    rw [version_strip_of_withdraws hWithdraws, toInt_version_succ hMax]
  case snapshot =>
    refine ⟨fun hSame => exported_strip_of_not_withdraws fun h => ?_, congrArg GrantSet.version⟩
    exact hNext ((version_strip_of_withdraws h).symm.trans hSame)
  case changed => exact strip_ne_self_iff

/-! ## Several removals -/

theorem strip_strip (r : PeerRecord) (removal : Removal) (a : ServiceAddress) :
    (r.strip removal a).strip removal a = r.strip removal a :=
  strip_eq_self _ (strip_not_offers r removal a)

theorem strip_comm (r : PeerRecord) (removal removal' : Removal) (a b : ServiceAddress) :
    (r.strip removal a).strip removal' b = (r.strip removal' b).strip removal a := by
  simp only [strip, PeerRecord.mk.injEq, true_and, and_true]
  constructor
  · split <;> split <;> first | rfl | exact GrantSet.advance_comm r.exported a b
  · split <;> split <;> first | rfl | exact GrantSet.without_comm r.imported a b

end PeerRecord

/-! ## Directories -/

namespace Directory

variable {d : Directory} {removal : Removal} {a : ServiceAddress} {p : PeerAddress}

/-- Drops a service from the sides of every record that are covered. -/
def remove (d : Directory) (removal : Removal) (a : ServiceAddress) : Change :=
  match removal with
  | .side side => d.deleteService side a
  | .both => d.purge a

theorem remove_eq (d : Directory) (removal : Removal) (a : ServiceAddress) :
    d.remove removal a = d.changeAll (·.remove? removal a) :=
  match removal with
  | .side .imported | .side .exported | .both => rfl

theorem find?_remove (d : Directory) (removal : Removal) (a : ServiceAddress) (p : PeerAddress) :
    (d.remove removal a).1.find? p = (d.find? p).map (·.strip removal a) := by
  rw [remove_eq, find?_changeAll]
  congr 1
  funext r
  rw [PeerRecord.remove?_eq]
  split
  · rfl
  next h => exact (PeerRecord.strip_eq_self r h).symm

/-- A change of many records tells each record that it changed, once. -/
theorem changeAll_tells {change? : PeerRecord → Option PeerRecord}
    (hChange : ∀ r r', change? r = some r' → r' ≠ r) :
    ∃ changed : List (PeerAddress × PeerRecord), (changed.map Prod.fst).Nodup ∧
      (∀ p r', (p, r') ∈ changed ↔
        (d.changeAll change?).1.find? p = some r' ∧ d.find? p ≠ some r') ∧
      (d.changeAll change?).2 = changed.map fun e => .updated e.2 := by
  refine ⟨d.records.toList.filterMap fun e => (change? e.2).map (e.1, ·), ?_, ?_, ?_⟩
  · rw [List.Nodup, List.pairwise_map, List.pairwise_filterMap]
    refine d.records.sorted.imp fun {e e'} hLt b hb b' hb' hEq => ?_
    obtain ⟨_, -, rfl⟩ := Option.map_eq_some_iff.mp hb
    obtain ⟨_, -, rfl⟩ := Option.map_eq_some_iff.mp hb'
    simp only at hEq
    simp [hEq] at hLt
  · intro p r'
    rw [find?_changeAll, List.mem_filterMap]
    constructor
    · rintro ⟨⟨q, r⟩, hMem, hEntry⟩
      obtain ⟨_, hSome, hPair⟩ := Option.map_eq_some_iff.mp hEntry
      obtain ⟨rfl, rfl⟩ := Prod.mk.inj hPair
      have hFind : d.find? q = some r := SortedMap.mem_toList_iff.mp hMem
      refine ⟨by rw [hFind, Option.map_some, hSome, Option.getD_some], fun hSame => ?_⟩
      exact hChange r _ hSome (Option.some.inj (hSame.symm.trans hFind))
    · rintro ⟨hAfter, hNe⟩
      obtain ⟨r, hFind, hResult⟩ := Option.map_eq_some_iff.mp hAfter
      refine ⟨(p, r), SortedMap.mem_toList_iff.mpr hFind, ?_⟩
      cases hSome : change? r with
      | none =>
        rw [hSome, Option.getD_none] at hResult
        exact absurd (hResult ▸ hFind) hNe
      | some r₁ =>
        rw [hSome, Option.getD_some] at hResult
        rw [hResult, Option.map_some]
  · simp [changeAll, SortedMap.values, List.filterMap_map, List.map_filterMap, Function.comp_def]

theorem remove_tells (d : Directory) (removal : Removal) (a : ServiceAddress) :
    ∃ changed : List (PeerAddress × PeerRecord), (changed.map Prod.fst).Nodup ∧
      (∀ p r', (p, r') ∈ changed ↔
        (d.remove removal a).1.find? p = some r' ∧ d.find? p ≠ some r') ∧
      (d.remove removal a).2 = changed.map fun e => .updated e.2 := by
  rw [remove_eq]
  apply changeAll_tells
  intro r r' hSome
  rw [PeerRecord.remove?_eq] at hSome
  split at hSome
  next hOffers => exact Option.some.inj hSome ▸ PeerRecord.strip_ne_self_iff.mpr hOffers
  · cases hSome

theorem ext_find? {d d' : Directory} (h : ∀ p, d.find? p = d'.find? p) : d = d' :=
  congrArg Directory.mk (SortedMap.ext_find? h)

theorem remove_remove (d : Directory) (removal : Removal) (a : ServiceAddress) :
    (d.remove removal a).1.remove removal a = ((d.remove removal a).1, []) := by
  have hRecords : ((d.remove removal a).1.remove removal a).1 = (d.remove removal a).1 := by
    apply ext_find?
    intro p
    rw [find?_remove, find?_remove, Option.map_map]
    simp only [Function.comp_def, PeerRecord.strip_strip]
  have hEvents : ((d.remove removal a).1.remove removal a).2 = [] := by
    rw [remove_eq, changeAll_eq_nil_iff]
    intro p r hFind
    rw [find?_remove] at hFind
    obtain ⟨r₀, -, rfl⟩ := Option.map_eq_some_iff.mp hFind
    rw [PeerRecord.remove?_eq, if_neg (PeerRecord.strip_not_offers r₀ removal a)]
  exact Prod.ext hRecords hEvents

theorem remove_comm (d : Directory) (removal removal' : Removal) (a b : ServiceAddress) :
    ((d.remove removal a).1.remove removal' b).1 =
      ((d.remove removal' b).1.remove removal a).1 := by
  apply ext_find?
  intro p
  simp only [find?_remove, Option.map_map, Function.comp_def,
    PeerRecord.strip_comm _ removal removal' a b]

theorem remove_sides (d : Directory) (a : ServiceAddress) :
    ((d.deleteService .imported a).1.deleteService .exported a).1 = (d.purge a).1 := by
  apply ext_find?
  intro p
  change (((d.remove (.side .imported) a).1.remove (.side .exported) a).1.find? p) =
    (d.remove .both a).1.find? p
  simp only [find?_remove, Option.map_map, Function.comp_def]
  rfl

end Directory

/-! ## Grants on their way -/

namespace Correspondence

variable {c : Correspondence} {q : PeerAddress} {r : PeerRecord}

/-- Services are dropped one after another, while other things are under way. -/
def removeAll (c : Correspondence) (removals : List (Removal × ServiceAddress)) : Correspondence :=
  c.run (removals.map fun
    | (.side side, a) => .drop side a
    | (.both, a) => .purge a)

theorem removeAll_underway (c : Correspondence) (removals : List (Removal × ServiceAddress)) :
    (c.removeAll removals).inquiries = c.inquiries ∧
      (c.removeAll removals).replies = c.replies := by
  unfold removeAll
  induction removals generalizing c with
  | nil => exact ⟨rfl, rfl⟩
  | cons e removals ih =>
    obtain ⟨removal, a⟩ := e
    rw [List.map_cons, run, List.foldl_cons]
    cases removal with
    | side side => exact ih (c.step (.drop side a))
    | both => exact ih (c.step (.purge a))

/-- A request tells what was exported when it was sent, whatever is dropped before it arrives. -/
theorem received?_ask (hr : c.record? q = some r) (removals : List (Removal × ServiceAddress)) :
    ((c.step (.ask q)).removeAll removals).received? q (.reach c.inquiries.length) =
      some r.exported := by
  have hFind : c.directory.find? q = some r := hr
  have hSent : (c.step (.ask q)).inquiries = c.inquiries ++ [⟨q, r.exported, false⟩] := by
    simp only [step, ask, hFind]
  simp [received?, (removeAll_underway _ removals).1, hSent]

/-- An answer tells what was exported when it was given, whatever is dropped before it arrives. -/
theorem received?_answer (hr : c.record? q = some r) (hPending : r.pending = true)
    (data : GrantSet) (removals : List (Removal × ServiceAddress)) :
    ((c.step (.answer q data)).removeAll removals).received? q (.reachReply c.replies.length) =
      some r.exported := by
  have hFind : c.directory.find? q = some r := hr
  have hSent : (c.step (.answer q data)).replies = c.replies ++ [(q, r.exported)] := by
    simp [step, answer, Directory.receiveExchange, hFind, hPending]
  simp [received?, (removeAll_underway _ removals).2, hSent]

end Correspondence

/-- In every directory, dropping an address from the imported sets, the exported sets or both takes
its descriptors from the sets that are covered and changes nothing else but the version of the
exported sets that lost one. Each record that changed is told once, and nothing else. Doing it again
changes and tells nothing; two removals can be done in either order; dropping the address from the
imported and then from the exported sets leaves what dropping it from both does. Exported sets that
were taken before, to be sent in a request or an answer, arrive as they were. -/
theorem Directory.removal_exact :
    (∀ (d : Directory) (removal : Removal) (a : ServiceAddress),
      (∀ p, Option.Rel (PeerRecord.Stripped removal a) (d.find? p)
        ((d.remove removal a).1.find? p)) ∧
      (∃ changed : List (PeerAddress × PeerRecord), (changed.map Prod.fst).Nodup ∧
        (∀ p r', (p, r') ∈ changed ↔
          (d.remove removal a).1.find? p = some r' ∧ d.find? p ≠ some r') ∧
        (d.remove removal a).2 = changed.map fun e => .updated e.2) ∧
      (d.remove removal a).1.remove removal a = ((d.remove removal a).1, []) ∧
      ∀ removal' b, ((d.remove removal a).1.remove removal' b).1 =
        ((d.remove removal' b).1.remove removal a).1) ∧
    (∀ (d : Directory) a,
      ((d.deleteService .imported a).1.deleteService .exported a).1 = (d.purge a).1) ∧
    ∀ (c : Correspondence) q r, c.record? q = some r → ∀ removals,
      ((c.step (.ask q)).removeAll removals).received? q (.reach c.inquiries.length) =
        some r.exported ∧
      (r.pending = true → ∀ data,
        ((c.step (.answer q data)).removeAll removals).received? q (.reachReply c.replies.length) =
          some r.exported) := by
  refine ⟨fun d removal a => ⟨fun p => ?_, d.remove_tells removal a, d.remove_remove removal a,
    fun removal' b => d.remove_comm removal removal' a b⟩, remove_sides, ?_⟩
  · rw [find?_remove]
    cases d.find? p with
    | none => exact .none
    | some r => exact .some (r.stripped removal a)
  · intro c q r hr removals
    exact ⟨Correspondence.received?_ask hr removals,
      fun hPending data => Correspondence.received?_answer hr hPending data removals⟩

/-! ## A guest who loses a service -/

/-- A peer that was granted two services, one of them with a descriptor. -/
def guest : PeerRecord :=
  (PeerRecord.create .null "carol").grant [⟨7⟩] [.basic ⟨⟨9⟩, .null⟩ "files" 1]

/-- The guest is told of both services, though one of them is dropped before the request arrives. -/
theorem guest_told_before_removal :
    let c := Correspondence.start [] guest
    let service : ServiceAddress := ⟨⟨9⟩, .null⟩
    c.record? .null = some guest ∧ guest.pending = true ∧
      ((c.directory.purge service).1.find? .null).map (·.exported) = some (.ofLists 2 [⟨7⟩] []) ∧
      ((c.step (.ask .null)).removeAll [(.both, service)]).received? .null (.reach 0) =
        some guest.exported ∧
      ((c.step (.answer .null .empty)).removeAll [(.both, service)]).received? .null
        (.reachReply 0) = some guest.exported := by
  intro c service
  have hKnown : c.record? .null = some guest := rfl
  obtain ⟨hAsked, hAnswered⟩ :=
    Directory.removal_exact.2.2 c .null guest hKnown [(.both, service)]
  exact ⟨hKnown, rfl, by decide, hAsked, hAnswered rfl .empty⟩

end PeerServices
