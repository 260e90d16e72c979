import PeerServices.Collection.SortedMap

/-!
# Looking values up after a change

Maps whose keys compare equal only if they are equal.

* `SortedMap.find?_insert_self`, `SortedMap.find?_insert_of_ne` and the same for `erase`, `modify`:
  a change is seen under its own key and nowhere else.
* `SortedMap.modify_modify`, `SortedMap.modify_eq_self`: changes of one value after another.
* `SortedMap.ext_find?`: maps in which every key has the same value are the same.
* `SortedMap.erase_erase_comm`, `SortedMap.erase_insert_comm` and the same for `modify`: changes under
  different keys, in either order.
-/

namespace PeerServices.SortedMap

variable {κ ν : Type} [Ord κ] [Std.TransOrd κ] [Std.LawfulEqOrd κ]

theorem find?_insert_self (m : SortedMap κ ν) (k : κ) (v : ν) :
    (m.insert k v).find? k = some v := by
  rw [find?_insert, if_pos Std.ReflCmp.compare_self]

theorem find?_insert_of_ne {k j : κ} (h : j ≠ k) (m : SortedMap κ ν) (v : ν) :
    (m.insert k v).find? j = m.find? j := by
  rw [find?_insert, if_neg fun hEq => h (Std.LawfulEqOrd.eq_of_compare hEq)]

omit [Std.TransOrd κ] in
/-- The entries of a map are the values that are found under their keys. -/
theorem mem_toList_iff {m : SortedMap κ ν} {k : κ} {v : ν} :
    (k, v) ∈ m.toList ↔ m.find? k = some v := by
  obtain ⟨l, hSorted⟩ := m
  change (k, v) ∈ l ↔ findList? k l = some v
  induction l with
  | nil => simp [findList?]
  | cons e rest ih =>
    obtain ⟨hFirst, hRest⟩ := List.pairwise_cons.mp hSorted
    rw [List.mem_cons, findList?]
    split
    next hEq =>
      obtain rfl := Std.LawfulEqOrd.eq_of_compare hEq
      constructor
      · rintro (h | h)
        · rw [← h]
        · have hLt := hFirst _ h
          have hSelf : compare e.1 e.1 = .eq := Std.ReflCmp.compare_self
          cases hSelf.symm.trans hLt
      · intro h
        exact .inl (by rw [← Option.some.inj h])
    next hNe =>
      rw [← ih hRest]
      constructor
      · rintro (h | h)
        · rw [← h] at hNe
          exact absurd Std.ReflCmp.compare_self hNe
        · exact h
      · exact .inr

theorem ext_find? {m n : SortedMap κ ν} (h : ∀ k, m.find? k = n.find? k) : m = n := by
  have hNodup : ∀ l : SortedMap κ ν, l.toList.Nodup := fun l =>
    l.sorted.imp fun hLt hEq => by simp [hEq] at hLt
  have hPerm : m.toList.Perm n.toList := by
    rw [List.perm_ext_iff_of_nodup (hNodup m) (hNodup n)]
    rintro ⟨k, v⟩
    rw [mem_toList_iff, mem_toList_iff, h]
  have hAntisymm : ∀ a b : κ × ν, compare a.1 b.1 = .lt → compare b.1 a.1 = .lt → a = b :=
    fun a b hLt hGt => by
      have hGt' := Std.OrientedCmp.gt_of_lt hLt
      cases hGt.symm.trans hGt'
  exact ext_toList (hPerm.eq_of_pairwise (fun a b _ _ => hAntisymm a b) m.sorted n.sorted)

theorem find?_erase_self (m : SortedMap κ ν) (k : κ) : (m.erase k).find? k = none := by
  rw [find?_erase, if_pos Std.ReflCmp.compare_self]

theorem find?_erase_of_ne {k j : κ} (h : j ≠ k) (m : SortedMap κ ν) :
    (m.erase k).find? j = m.find? j := by
  rw [find?_erase, if_neg fun hEq => h (Std.LawfulEqOrd.eq_of_compare hEq)]

theorem find?_modify_self (m : SortedMap κ ν) (k : κ) (f : ν → ν) :
    (m.modify k f).find? k = (m.find? k).map f := by
  unfold modify
  cases h : m.find? k with
  | none => exact h
  | some v => exact find?_insert_self m k (f v)

theorem find?_modify_of_ne {k j : κ} (h : j ≠ k) (m : SortedMap κ ν) (f : ν → ν) :
    (m.modify k f).find? j = m.find? j := by
  unfold modify
  split
  · rfl
  · exact find?_insert_of_ne h m _

theorem find?_insert_eq_some {m : SortedMap κ ν} {k j : κ} {v w : ν}
    (h : (m.insert k v).find? j = some w) : (j = k ∧ w = v) ∨ (j ≠ k ∧ m.find? j = some w) := by
  by_cases hKey : j = k
  · subst hKey
    rw [find?_insert_self] at h
    exact .inl ⟨rfl, (Option.some.inj h).symm⟩
  · rw [find?_insert_of_ne hKey] at h
    exact .inr ⟨hKey, h⟩

theorem find?_modify_eq_some {m : SortedMap κ ν} {k j : κ} {f : ν → ν} {w : ν}
    (h : (m.modify k f).find? j = some w) :
    (j = k ∧ ∃ v, m.find? k = some v ∧ w = f v) ∨ (j ≠ k ∧ m.find? j = some w) := by
  by_cases hKey : j = k
  · subst hKey
    rw [find?_modify_self, Option.map_eq_some_iff] at h
    obtain ⟨v, hFind, hValue⟩ := h
    exact .inl ⟨rfl, v, hFind, hValue.symm⟩
  · rw [find?_modify_of_ne hKey] at h
    exact .inr ⟨hKey, h⟩

theorem find?_erase_eq_some {m : SortedMap κ ν} {k j : κ} {w : ν}
    (h : (m.erase k).find? j = some w) : j ≠ k ∧ m.find? j = some w := by
  by_cases hKey : j = k
  · subst hKey
    rw [find?_erase_self] at h
    cases h
  · rw [find?_erase_of_ne hKey] at h
    exact ⟨hKey, h⟩

omit [Std.TransOrd κ] in
theorem find?_mapValues {μ : Type} (m : SortedMap κ ν) (f : κ → ν → μ) (k : κ) :
    (m.mapValues f).find? k = (m.find? k).map (f k) := by
  obtain ⟨l, hSorted⟩ := m
  change findList? k (l.map fun e => (e.1, f e.1 e.2)) = (findList? k l).map (f k)
  clear hSorted
  induction l with
  | nil => rfl
  | cons e rest ih =>
    rw [List.map_cons, findList?, findList?]
    split
    next hEq =>
      rw [Std.LawfulEqOrd.eq_of_compare hEq]
      rfl
    · exact ih

/-! ## One value after another -/

section Modify

variable {m : SortedMap κ ν} {k : κ} {f g : ν → ν}

omit [Std.TransOrd κ] in
theorem insertList_insertList (k : κ) (v w : ν) (l : List (κ × ν)) :
    insertList k v (insertList k w l) = insertList k v l := by
  have hSelf : compare k k = .eq := Std.ReflCmp.compare_self
  induction l with
  | nil => simp only [insertList, hSelf]
  | cons e rest ih =>
    cases hCompare : compare k e.1 with
    | lt | eq => simp only [insertList, hCompare, hSelf]
    | gt => simp only [insertList, hCompare, ih]

theorem insert_insert (m : SortedMap κ ν) (k : κ) (v w : ν) :
    (m.insert k w).insert k v = m.insert k v :=
  ext_toList (insertList_insertList k v w m.toList)

theorem insert_of_find? {v : ν} (h : m.find? k = some v) : m.insert k v = m := by
  obtain ⟨l, hSorted⟩ := m
  apply ext_toList
  change insertList k v l = l
  induction l with
  | nil => cases h
  | cons e rest ih =>
    obtain ⟨hFirst, hRest⟩ := List.pairwise_cons.mp hSorted
    change findList? k (e :: rest) = some v at h
    rw [findList?] at h
    cases hCompare : compare k e.1 with
    | eq =>
      obtain rfl := Std.LawfulEqOrd.eq_of_compare hCompare
      rw [if_pos hCompare] at h
      obtain rfl := Option.some.inj h
      simp only [insertList, hCompare]
    | gt =>
      rw [if_neg (by simp [hCompare])] at h
      simp only [insertList, hCompare, ih hRest h]
    | lt =>
      -- The key stands behind a greater one, which cannot be.
      rw [if_neg (by simp [hCompare])] at h
      have hMem : (k, v) ∈ rest := (mem_toList_iff (m := ⟨rest, hRest⟩)).mpr h
      have hGreater := Std.OrientedCmp.gt_of_lt (hFirst _ hMem)
      cases hCompare.symm.trans hGreater

theorem insert_modify (m : SortedMap κ ν) (k : κ) (f : ν → ν) (v : ν) :
    (m.modify k f).insert k v = m.insert k v := by
  cases hFind : m.find? k with
  | none => simp only [modify, hFind]
  | some w => simp only [modify, hFind, insert_insert]

theorem modify_modify : (m.modify k f).modify k g = m.modify k fun v => g (f v) := by
  cases hFind : m.find? k with
  | none => simp only [modify, hFind]
  | some v => simp only [modify, hFind, find?_insert_self, insert_insert]

omit [Std.LawfulEqOrd κ] in
theorem modify_congr (h : ∀ v, m.find? k = some v → f v = g v) :
    m.modify k f = m.modify k g := by
  cases hFind : m.find? k with
  | none => simp only [modify, hFind]
  | some v => simp only [modify, hFind, h v hFind]

theorem modify_eq_self (h : ∀ v, m.find? k = some v → f v = v) : m.modify k f = m := by
  cases hFind : m.find? k with
  | none => simp only [modify, hFind]
  | some v => simp only [modify, hFind, h v hFind, insert_of_find? hFind]

end Modify

/-! ## Changes under two keys -/

section Commute

variable {k j : κ}

theorem erase_erase_comm (m : SortedMap κ ν) (k j : κ) :
    (m.erase k).erase j = (m.erase j).erase k := by
  apply ext_find?
  intro i
  simp only [find?_erase]
  split <;> split <;> rfl

theorem erase_insert_comm (h : j ≠ k) (m : SortedMap κ ν) (v : ν) :
    (m.insert j v).erase k = (m.erase k).insert j v := by
  apply ext_find?
  intro i
  by_cases hi : i = k
  · subst hi
    rw [find?_erase_self, find?_insert_of_ne (Ne.symm h), find?_erase_self]
  · rw [find?_erase_of_ne hi, find?_insert, find?_insert, find?_erase_of_ne hi]

theorem erase_insert_self (m : SortedMap κ ν) (k : κ) (v : ν) :
    (m.insert k v).erase k = m.erase k := by
  apply ext_find?
  intro i
  by_cases hi : i = k
  · subst hi
    rw [find?_erase_self, find?_erase_self]
  · rw [find?_erase_of_ne hi, find?_erase_of_ne hi, find?_insert_of_ne hi]

theorem erase_modify_comm (h : j ≠ k) (m : SortedMap κ ν) (f : ν → ν) :
    (m.modify j f).erase k = (m.erase k).modify j f := by
  unfold modify
  rw [find?_erase_of_ne h]
  cases m.find? j with
  | none => rfl
  | some v => exact erase_insert_comm h m (f v)

theorem erase_modify_self (m : SortedMap κ ν) (k : κ) (f : ν → ν) :
    (m.modify k f).erase k = m.erase k := by
  apply ext_find?
  intro i
  by_cases hi : i = k
  · subst hi
    rw [find?_erase_self, find?_erase_self]
  · rw [find?_erase_of_ne hi, find?_erase_of_ne hi, find?_modify_of_ne hi]

theorem erase_of_find?_none {m : SortedMap κ ν} (h : m.find? k = none) : m.erase k = m := by
  apply ext_find?
  intro i
  by_cases hi : i = k
  · subst hi
    rw [find?_erase_self, h]
  · exact find?_erase_of_ne hi m

theorem modify_modify_comm (h : j ≠ k) (m : SortedMap κ ν) (f g : ν → ν) :
    (m.modify j f).modify k g = (m.modify k g).modify j f := by
  apply ext_find?
  intro i
  by_cases hj : i = j
  · subst hj
    rw [find?_modify_of_ne h, find?_modify_self, find?_modify_self, find?_modify_of_ne h]
  · rw [find?_modify_of_ne hj]
    by_cases hk : i = k
    · subst hk
      rw [find?_modify_self, find?_modify_self, find?_modify_of_ne hj]
    · rw [find?_modify_of_ne hk, find?_modify_of_ne hk, find?_modify_of_ne hj]

end Commute

end PeerServices.SortedMap
