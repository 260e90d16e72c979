/-!
# Maps in order

A finite map kept as the list of its entries with strictly increasing keys, so equal maps have equal
lists and the order of entries is part of the type.

* `find?_insert`, `find?_erase`: what each change does to a look-up.
-/

namespace PeerServices

/-- A finite map as the list of its entries, in the strict order of their keys. -/
structure SortedMap (κ : Type) [Ord κ] (ν : Type) where
  toList : List (κ × ν)
  sorted : toList.Pairwise (compare ·.1 ·.1 = .lt)

namespace SortedMap

variable {κ ν : Type} [Ord κ]

theorem ext_toList {m n : SortedMap κ ν} (h : m.toList = n.toList) : m = n := by
  cases m; cases n; simp_all

def empty : SortedMap κ ν := ⟨[], .nil⟩

instance : Inhabited (SortedMap κ ν) := ⟨empty⟩

instance : EmptyCollection (SortedMap κ ν) := ⟨empty⟩

def size (m : SortedMap κ ν) : Nat := m.toList.length

def values (m : SortedMap κ ν) : List ν := m.toList.map (·.2)

def keys (m : SortedMap κ ν) : List κ := m.toList.map (·.1)

def findList? (k : κ) : List (κ × ν) → Option ν
  | [] => none
  | e :: rest => if compare k e.1 = .eq then some e.2 else findList? k rest

def find? (m : SortedMap κ ν) (k : κ) : Option ν := findList? k m.toList

def contains (m : SortedMap κ ν) (k : κ) : Bool := (m.find? k).isSome

/-- Puts an entry at its place in a list, instead of one with the same key. -/
def insertList (k : κ) (v : ν) : List (κ × ν) → List (κ × ν)
  | [] => [(k, v)]
  | e :: rest =>
    match compare k e.1 with
    | .lt => (k, v) :: e :: rest
    | .eq => (k, v) :: rest
    | .gt => e :: insertList k v rest

theorem mem_insertList {k : κ} {v : ν} {x : κ × ν} {l : List (κ × ν)}
    (h : x ∈ insertList k v l) : x = (k, v) ∨ x ∈ l := by
  induction l with
  | nil => simpa [insertList] using h
  | cons e rest ih =>
    simp only [insertList] at h
    split at h
    · simpa using h
    · rcases List.mem_cons.1 h with rfl | h <;> simp [*]
    · rcases List.mem_cons.1 h with rfl | h
      · simp
      · rcases ih h with rfl | h <;> simp [*]

variable [Std.TransOrd κ]

theorem sorted_insertList (k : κ) (v : ν) {l : List (κ × ν)}
    (h : l.Pairwise (compare ·.1 ·.1 = .lt)) :
    (insertList k v l).Pairwise (compare ·.1 ·.1 = .lt) := by
  induction l with
  | nil => simp [insertList]
  | cons e rest ih =>
    obtain ⟨he, hrest⟩ := List.pairwise_cons.1 h
    simp only [insertList]
    split
    · next hk =>
      refine List.pairwise_cons.2 ⟨fun x hx => ?_, h⟩
      rcases List.mem_cons.1 hx with rfl | hx
      · exact hk
      · exact Std.TransCmp.lt_trans hk (he x hx)
    · next hk =>
      refine List.pairwise_cons.2 ⟨fun x hx => ?_, hrest⟩
      exact Std.TransCmp.lt_of_eq_of_lt hk (he x hx)
    · next hk =>
      refine List.pairwise_cons.2 ⟨fun x hx => ?_, ih hrest⟩
      rcases mem_insertList hx with rfl | hx
      · exact Std.OrientedCmp.lt_of_gt hk
      · exact he x hx

def insert (m : SortedMap κ ν) (k : κ) (v : ν) : SortedMap κ ν :=
  ⟨insertList k v m.toList, sorted_insertList k v m.sorted⟩

def erase (m : SortedMap κ ν) (k : κ) : SortedMap κ ν :=
  ⟨m.toList.filter (compare k ·.1 ≠ .eq), m.sorted.filter _⟩

/-- Changes the value of a key, if it has one. -/
def modify (m : SortedMap κ ν) (k : κ) (f : ν → ν) : SortedMap κ ν :=
  match m.find? k with
  | none => m
  | some v => m.insert k (f v)

def mapValues {μ : Type} (m : SortedMap κ ν) (f : κ → ν → μ) : SortedMap κ μ :=
  ⟨m.toList.map fun e => (e.1, f e.1 e.2), List.pairwise_map.2 m.sorted⟩

/-- The map of a list's entries; of entries with equal keys the last counts. -/
def ofList (l : List (κ × ν)) : SortedMap κ ν := l.foldl (fun m e => m.insert e.1 e.2) empty

/-! ## Look-ups after changes -/

omit [Std.TransOrd κ] in
@[simp] theorem find?_empty (k : κ) : (empty : SortedMap κ ν).find? k = none := rfl

theorem findList?_insertList (k j : κ) (v : ν) (l : List (κ × ν)) :
    findList? j (insertList k v l) = if compare j k = .eq then some v else findList? j l := by
  induction l with
  | nil => rfl
  | cons e rest ih =>
    simp only [insertList]
    split
    · rfl
    · next hk =>
      have : compare j e.1 = .eq → compare j k = .eq := fun he =>
        Std.TransCmp.eq_trans he (Std.OrientedCmp.eq_symm hk)
      grind [findList?]
    · next hk =>
      have : compare j k = .eq → compare j e.1 ≠ .eq := fun h he => by
        have := Std.TransCmp.eq_trans (Std.OrientedCmp.eq_symm h) he
        simp_all
      grind [findList?]

/-- An insertion is seen at its own key and nowhere else. -/
theorem find?_insert (m : SortedMap κ ν) (k j : κ) (v : ν) :
    (m.insert k v).find? j = if compare j k = .eq then some v else m.find? j :=
  findList?_insertList k j v m.toList

theorem findList?_filter (k j : κ) (l : List (κ × ν)) :
    findList? j (l.filter (compare k ·.1 ≠ .eq)) =
      if compare j k = .eq then none else findList? j l := by
  induction l with
  | nil => simp [findList?]
  | cons e rest ih =>
    have forth : compare k e.1 = .eq → compare j e.1 = .eq → compare j k = .eq := fun hk he =>
      Std.TransCmp.eq_trans he (Std.OrientedCmp.eq_symm hk)
    have back : compare j k = .eq → compare j e.1 = .eq → compare k e.1 = .eq := fun h he =>
      Std.TransCmp.eq_trans (Std.OrientedCmp.eq_symm h) he
    grind [findList?]

/-- An erasure is seen at its own key and nowhere else. -/
theorem find?_erase (m : SortedMap κ ν) (k j : κ) :
    (m.erase k).find? j = if compare j k = .eq then none else m.find? j :=
  findList?_filter k j m.toList

end SortedMap

end PeerServices
