import PeerServices.Session.Outstanding

/-!
# Entries of outstanding requests

* `Outstanding.find?_insert_self`, `Outstanding.find?_erase_self` and the same for other uids:
  look-ups after a change.
* `Outstanding.mem_listeners_erase`, `Outstanding.mem_listeners_insert`: who waits after a change.
* `Outstanding.chosen?_eq_some_iff`, `chosen?_singleton`: which listener takes a response.
-/

namespace PeerServices.Outstanding

variable {κ : Type} {t : Outstanding κ} {uid uid' : Int64} {ls : List (Listener κ)}

/-! ## Look-ups -/

theorem find?_erase_self (t : Outstanding κ) (uid : Int64) : (t.erase uid).find? uid = none := by
  simp [find?, erase, List.find?_filter]

theorem find?_erase_of_ne (h : uid' ≠ uid) (t : Outstanding κ) :
    (t.erase uid).find? uid' = t.find? uid' := by
  unfold find? erase
  rw [List.find?_filter]
  congr 2
  funext e
  by_cases hUid : e.1 = uid' <;> simp [hUid, h]

theorem find?_insert_self (t : Outstanding κ) (uid : Int64) (ls : List (Listener κ)) :
    (t.insert uid ls).find? uid = some ls := by
  have hErased := find?_erase_self t uid
  simp only [find?, Option.map_eq_none_iff] at hErased
  simp [find?, insert, hErased]

theorem find?_insert_of_ne (h : uid' ≠ uid) (t : Outstanding κ) (ls : List (Listener κ)) :
    (t.insert uid ls).find? uid' = t.find? uid' := by
  rw [← find?_erase_of_ne h t]
  simp [find?, insert, Ne.symm h]

theorem erase_of_find?_none (h : t.find? uid = none) : t.erase uid = t := by
  obtain ⟨entries⟩ := t
  simp only [find?, Option.map_eq_none_iff, List.find?_eq_none, decide_eq_true_eq] at h
  simp only [erase, mk.injEq, List.filter_eq_self, decide_eq_true_eq]
  exact h

theorem erase_insert (h : t.find? uid = none) (ls : List (Listener κ)) :
    (t.insert uid ls).erase uid = t := by
  have hErased : (t.insert uid ls).erase uid = (t.erase uid).erase uid := by
    simp [erase, insert]
  rw [hErased, erase_of_find?_none (find?_erase_self t uid), erase_of_find?_none h]

/-! ## Who waits -/

theorem mem_listeners_erase {l : Listener κ} (h : l ∈ (t.erase uid).listeners) :
    l ∈ t.listeners := by
  obtain ⟨entry, hEntry, hMem⟩ := List.mem_flatMap.mp h
  exact List.mem_flatMap.mpr ⟨entry, (List.mem_filter.mp hEntry).1, hMem⟩

theorem mem_listeners_insert {l : Listener κ} (h : l ∈ (t.insert uid ls).listeners) :
    l ∈ t.listeners ∨ l ∈ ls := by
  obtain ⟨entry, hEntry, hMem⟩ := List.mem_flatMap.mp h
  rcases List.mem_append.mp hEntry with hEntry | hEntry
  · exact .inl (mem_listeners_erase (List.mem_flatMap.mpr ⟨entry, hEntry, hMem⟩))
  · rw [List.mem_singleton.mp hEntry] at hMem
    exact .inr hMem

theorem mem_listeners_of_find? (h : t.find? uid = some ls) {l : Listener κ} (hMem : l ∈ ls) :
    l ∈ t.listeners := by
  obtain ⟨entry, hEntry, rfl⟩ := Option.map_eq_some_iff.mp h
  exact List.mem_flatMap.mpr ⟨entry, List.mem_of_find?_eq_some hEntry, hMem⟩

/-! ## Who takes a response -/

/-- An error goes to the first listener; any other response goes to the first one that waits for
its code. -/
def Takes (m : Message) (ls : List (Listener κ)) (l : Listener κ) : Prop :=
  ∃ before after, ls = before ++ l :: after ∧
    ((m.status = .error ∧ before = []) ∨
      (m.status ≠ .error ∧ l.code = m.code ∧ ∀ l' ∈ before, l'.code ≠ m.code))

theorem chosen?_eq_some_iff {m : Message} {l : Listener κ} :
    chosen? m ls = some l ↔ Takes m ls l := by
  unfold chosen? Takes
  by_cases hError : m.status = .error
  · simp only [Message.isError, hError, decide_true, if_true, true_and, ne_eq, not_true,
      false_and, or_false]
    constructor
    · intro hHead
      obtain ⟨after, rfl⟩ := List.head?_eq_some_iff.mp hHead
      exact ⟨[], after, rfl, rfl⟩
    · rintro ⟨_, after, rfl, rfl⟩
      rfl
  · simp only [Message.isError, hError, decide_false, Bool.false_eq_true, if_false, false_and,
      false_or, ne_eq, not_false_eq_true, true_and, List.find?_eq_some_iff_append,
      decide_eq_true_eq, Bool.not_eq_true', decide_eq_false_iff_not]
    constructor
    · rintro ⟨hCode, before, after, hSplit, hBefore⟩
      exact ⟨before, after, hSplit, hCode, hBefore⟩
    · rintro ⟨before, after, hSplit, hCode, hBefore⟩
      exact ⟨hCode, before, after, hSplit, hBefore⟩

/-- A single listener takes an error, and a response with the code that it waits for. -/
theorem chosen?_singleton (m : Message) (l : Listener κ) :
    chosen? m [l] = if m.status = .error ∨ m.code = l.code then some l else none := by
  unfold chosen? Message.isError
  by_cases hError : m.status = .error
  · simp [hError]
  · by_cases hCode : m.code = l.code
    · simp [hError, hCode]
    · simp [hError, hCode, Ne.symm hCode]

end PeerServices.Outstanding
