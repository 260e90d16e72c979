import PeerServices.Collection.SortedSet

/-!
# Sets from lists

* `SortedSet.mem_ofList`: the set of a list has the members of the list.
* `SortedSet.mem_insert_iff`, `SortedSet.mem_erase_iff`: members after one was added or removed.
* `SortedSet.ofList_congr`: lists with the same members give the same set.
* `SortedSet.ofList_toList`: a set is the set of its own members.
* `SortedSet.length_flatMap_ofList_le`: a set has no more in it than its list.
-/

namespace PeerServices.SortedSet

variable {α : Type} [Ord α] [Std.TransOrd α]

/-! ## Members -/

theorem mem_of_mem_foldl_insert {x : α} {l : List α} {s : SortedSet α}
    (h : x ∈ (l.foldl insert s).toList) : x ∈ s.toList ∨ x ∈ l := by
  induction l generalizing s with
  | nil => exact .inl h
  | cons a l ih =>
    rcases ih h with hInsert | hMem
    · rcases mem_insertList hInsert with rfl | hMem
      · exact .inr List.mem_cons_self
      · exact .inl hMem
    · exact .inr (List.mem_cons_of_mem a hMem)

/-- Also where unequal elements are not told apart, a set has no members but those of its list. -/
theorem mem_of_mem_ofList {x : α} {l : List α} (h : x ∈ (ofList l).toList) : x ∈ l :=
  (mem_of_mem_foldl_insert h).resolve_left List.not_mem_nil

section Members

variable [Std.LawfulEqOrd α]

omit [Std.TransOrd α] in
theorem mem_insertList_iff {a x : α} {l : List α} : x ∈ insertList a l ↔ x = a ∨ x ∈ l := by
  refine ⟨mem_insertList, fun h => ?_⟩
  induction l with
  | nil => simpa [insertList] using h
  | cons b rest ih =>
    simp only [insertList]
    split
    · exact List.mem_cons.mpr h
    next hEq =>
      obtain rfl := Std.LawfulEqOrd.eq_of_compare hEq
      rcases h with rfl | h
      · exact List.mem_cons_self
      · exact h
    · rcases h with rfl | h
      · exact List.mem_cons_of_mem _ (ih (.inl rfl))
      · rcases List.mem_cons.mp h with rfl | h
        · exact List.mem_cons_self
        · exact List.mem_cons_of_mem _ (ih (.inr h))

theorem mem_insert_iff {s : SortedSet α} {a x : α} :
    x ∈ (s.insert a).toList ↔ x = a ∨ x ∈ s.toList := mem_insertList_iff

omit [Std.TransOrd α] in
theorem toList_erase [DecidableEq α] (s : SortedSet α) (a : α) :
    (s.erase a).toList = s.toList.filter (· ≠ a) := by
  change s.toList.filter (compare a · != .eq) = _
  congr 1
  funext x
  by_cases hx : a = x
  · simp [hx]
  · simp [hx, Ne.symm hx]

omit [Std.TransOrd α] in
theorem mem_erase_iff {s : SortedSet α} {a x : α} :
    x ∈ (s.erase a).toList ↔ x ∈ s.toList ∧ x ≠ a := by
  change x ∈ s.toList.filter (compare a · != .eq) ↔ _
  simp [eq_comm (a := a)]

omit [Std.TransOrd α] in
theorem contains_iff {s : SortedSet α} {a : α} : s.contains a = true ↔ a ∈ s.toList := by
  simp [contains]

theorem mem_foldl_insert {x : α} {l : List α} {s : SortedSet α} :
    x ∈ (l.foldl insert s).toList ↔ x ∈ s.toList ∨ x ∈ l := by
  induction l generalizing s with
  | nil => simp
  | cons a l ih =>
    rw [List.foldl_cons, ih, mem_insert_iff, List.mem_cons, or_comm (a := x = a), or_assoc]

theorem mem_ofList {x : α} {l : List α} : x ∈ (ofList l).toList ↔ x ∈ l := by
  have hEmpty : x ∉ (empty : SortedSet α).toList := List.not_mem_nil
  rw [ofList, mem_foldl_insert]
  exact or_iff_right hEmpty

/-- Lists in order with the same members are the same. -/
theorem eq_of_sorted_of_mem_iff {l l' : List α} (h : l.Pairwise (compare · · = .lt))
    (h' : l'.Pairwise (compare · · = .lt)) (hMem : ∀ x, x ∈ l ↔ x ∈ l') : l = l' := by
  induction l generalizing l' with
  | nil =>
    cases l' with
    | nil => rfl
    | cons b l' => exact nomatch (hMem b).mpr List.mem_cons_self
  | cons a l ih =>
    cases l' with
    | nil => exact nomatch (hMem a).mp List.mem_cons_self
    | cons b l' =>
      obtain ⟨ha, hl⟩ := List.pairwise_cons.mp h
      obtain ⟨hb, hl'⟩ := List.pairwise_cons.mp h'
      have hIrrefl : ∀ x : α, compare x x ≠ .lt := fun x => by simp
      have hFirst : a = b := by
        rcases List.mem_cons.mp ((hMem a).mp List.mem_cons_self) with hEq | hA
        · exact hEq
        · rcases List.mem_cons.mp ((hMem b).mpr List.mem_cons_self) with hEq | hB
          · exact hEq.symm
          · exact absurd (Std.TransCmp.lt_trans (ha b hB) (hb a hA)) (hIrrefl a)
      subst hFirst
      congr 1
      refine ih hl hl' fun x => ⟨fun hx => ?_, fun hx => ?_⟩
      · refine (List.mem_cons.mp ((hMem x).mp (List.mem_cons_of_mem _ hx))).resolve_left ?_
        rintro rfl
        exact hIrrefl _ (ha _ hx)
      · refine (List.mem_cons.mp ((hMem x).mpr (List.mem_cons_of_mem _ hx))).resolve_left ?_
        rintro rfl
        exact hIrrefl _ (hb _ hx)

theorem ofList_congr {l l' : List α} (h : ∀ x, x ∈ l ↔ x ∈ l') : ofList l = ofList l' :=
  ext_toList (eq_of_sorted_of_mem_iff (ofList l).sorted (ofList l').sorted fun x => by
    rw [mem_ofList, mem_ofList, h])

/-- A set without a member is the same, whether that was put into it before or not. -/
theorem erase_insert_self (s : SortedSet α) (a : α) : (s.insert a).erase a = s.erase a := by
  refine ext_toList (eq_of_sorted_of_mem_iff (SortedSet.sorted _) (SortedSet.sorted _) fun x => ?_)
  rw [mem_erase_iff, mem_erase_iff, mem_insert_iff]
  exact and_congr_left fun hx => or_iff_right hx

end Members

/-! ## Lists in order -/

/-- What comes after all members goes to the end. -/
theorem insertList_of_forall_lt {a : α} {l : List α} (h : ∀ b ∈ l, compare b a = .lt) :
    insertList a l = l ++ [a] := by
  induction l with
  | nil => rfl
  | cons b rest ih =>
    have hGreater : compare a b = .gt := Std.OrientedCmp.gt_of_lt (h b List.mem_cons_self)
    simp only [insertList, hGreater]
    rw [ih fun c hc => h c (List.mem_cons_of_mem b hc)]
    rfl

theorem foldl_insert_of_sorted {l : List α} {s : SortedSet α}
    (h : (s.toList ++ l).Pairwise (compare · · = .lt)) :
    (l.foldl insert s).toList = s.toList ++ l := by
  induction l generalizing s with
  | nil => exact (List.append_nil _).symm
  | cons a l ih =>
    have hBefore : ∀ b ∈ s.toList, compare b a = .lt := fun b hb =>
      (List.pairwise_append.mp h).2.2 b hb a List.mem_cons_self
    have hInsert : (s.insert a).toList = s.toList ++ [a] := insertList_of_forall_lt hBefore
    have hSorted : ((s.insert a).toList ++ l).Pairwise (compare · · = .lt) := by
      rw [hInsert, List.append_assoc]
      exact h
    rw [List.foldl_cons, ih hSorted, hInsert, List.append_assoc]
    rfl

theorem toList_ofList_of_sorted {l : List α} (h : l.Pairwise (compare · · = .lt)) :
    (ofList l).toList = l :=
  foldl_insert_of_sorted (s := empty) h

theorem ofList_toList (s : SortedSet α) : ofList s.toList = s :=
  ext_toList (toList_ofList_of_sorted s.sorted)

/-! ## Sizes -/

section Sizes

variable {β : Type}

omit [Std.TransOrd α] in
theorem length_flatMap_insertList_le (f : α → List β) (a : α) (l : List α) :
    ((insertList a l).flatMap f).length ≤ (f a).length + (l.flatMap f).length := by
  induction l with
  | nil => simp [insertList]
  | cons b l ih =>
    simp only [insertList]
    split
    · simp
    · simp
    · simp only [List.flatMap_cons, List.length_append]
      omega

/-- A set has no more in it than the list that it is made of. -/
theorem length_flatMap_ofList_le (f : α → List β) (l : List α) :
    ((ofList l).toList.flatMap f).length ≤ (l.flatMap f).length := by
  suffices h : ∀ s : SortedSet α, ((l.foldl insert s).toList.flatMap f).length ≤
      (s.toList.flatMap f).length + (l.flatMap f).length by
    have hEmpty := h empty
    rw [show (empty : SortedSet α).toList = [] from rfl, List.flatMap_nil, List.length_nil,
      Nat.zero_add] at hEmpty
    exact hEmpty
  induction l with
  | nil => exact fun _ => Nat.le_refl _
  | cons a l ih =>
    intro s
    have hInsert := length_flatMap_insertList_le f a s.toList
    have hRest := ih (s.insert a)
    simp only [List.foldl_cons, List.flatMap_cons, List.length_append]
    simp only [insert] at hRest ⊢
    omega

theorem size_ofList_le (l : List α) : (ofList l).size ≤ l.length := by
  have h := length_flatMap_ofList_le (fun a => [a]) l
  rwa [List.flatMap_singleton', List.flatMap_singleton'] at h

end Sizes

end PeerServices.SortedSet
