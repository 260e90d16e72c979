/-!
# Sets in order

A finite set kept as its strictly increasing list of members, so equal sets have equal lists and the
order of members is part of the type.

* `SortedSet.insert` keeps the member that is there already.
* `SortedSet.ofList` forgets the order and the repetitions of a list.
-/

namespace PeerServices

/-- A finite set as the strictly increasing list of its members. -/
structure SortedSet (α : Type) [Ord α] where
  toList : List α
  sorted : toList.Pairwise (compare · · = .lt)

namespace SortedSet

variable {α : Type} [Ord α]

theorem ext_toList {s t : SortedSet α} (h : s.toList = t.toList) : s = t := by
  cases s; cases t; simp_all

instance [DecidableEq α] : DecidableEq (SortedSet α) := fun s t =>
  if h : s.toList = t.toList then isTrue (ext_toList h) else isFalse fun e => h (e ▸ rfl)

def empty : SortedSet α := ⟨[], .nil⟩

instance : Inhabited (SortedSet α) := ⟨empty⟩

instance : EmptyCollection (SortedSet α) := ⟨empty⟩

def isEmpty (s : SortedSet α) : Bool := s.toList.isEmpty

def size (s : SortedSet α) : Nat := s.toList.length

def contains (s : SortedSet α) (a : α) : Bool := s.toList.any (compare a · == .eq)

/-- Puts `a` at its place in a list, unless an equal element is there. -/
def insertList (a : α) : List α → List α
  | [] => [a]
  | b :: rest =>
    match compare a b with
    | .lt => a :: b :: rest
    | .eq => b :: rest
    | .gt => b :: insertList a rest

theorem mem_insertList {a x : α} {l : List α} (h : x ∈ insertList a l) : x = a ∨ x ∈ l := by
  induction l with
  | nil => simpa [insertList] using h
  | cons b rest ih =>
    simp only [insertList] at h
    split at h
    · simpa using h
    · exact .inr h
    · rcases List.mem_cons.1 h with rfl | h
      · simp
      · rcases ih h with rfl | h <;> simp [*]

theorem sorted_insertList [Std.TransOrd α] (a : α) {l : List α}
    (h : l.Pairwise (compare · · = .lt)) : (insertList a l).Pairwise (compare · · = .lt) := by
  induction l with
  | nil => simp [insertList]
  | cons b rest ih =>
    obtain ⟨hb, hrest⟩ := List.pairwise_cons.1 h
    simp only [insertList]
    split
    · next hab =>
      refine List.pairwise_cons.2 ⟨fun x hx => ?_, h⟩
      rcases List.mem_cons.1 hx with rfl | hx
      · exact hab
      · exact Std.TransCmp.lt_trans hab (hb x hx)
    · exact h
    · next hab =>
      refine List.pairwise_cons.2 ⟨fun x hx => ?_, ih hrest⟩
      rcases mem_insertList hx with rfl | hx
      · exact Std.OrientedCmp.lt_of_gt hab
      · exact hb x hx

/-- Adds a member, unless an equal one is there. -/
def insert [Std.TransOrd α] (s : SortedSet α) (a : α) : SortedSet α :=
  ⟨insertList a s.toList, sorted_insertList a s.sorted⟩

/-- The set of a list's elements; of equal ones the first is kept. -/
def ofList [Std.TransOrd α] (l : List α) : SortedSet α := l.foldl insert empty

def filter (p : α → Bool) (s : SortedSet α) : SortedSet α :=
  ⟨s.toList.filter p, s.sorted.filter p⟩

/-- Removes a member. -/
def erase (s : SortedSet α) (a : α) : SortedSet α := s.filter (compare a · != .eq)

end SortedSet

end PeerServices
