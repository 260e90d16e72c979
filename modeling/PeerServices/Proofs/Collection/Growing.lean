/-!
# Lists that grow at their end

A history is a list to which its next event is added at the end.

* `concat_induction`: what holds of the empty history, and of a longer one if it did before.
* `concat_eq_append_cons_iff`: an event of a longer history is the new one or an old one.
-/

namespace PeerServices

variable {α : Type}

theorem concat_induction {P : List α → Prop} (nil : P [])
    (concat : ∀ l a, P l → P (l ++ [a])) (l : List α) : P l := by
  have hAll : ∀ later earlier, P earlier → P (earlier ++ later) := by
    intro later
    induction later with
    | nil =>
      intro earlier h
      rw [List.append_nil]
      exact h
    | cons a later ih =>
      intro earlier h
      rw [List.append_cons]
      exact ih (earlier ++ [a]) (concat earlier a h)
  exact hAll l [] nil

theorem concat_eq_append_cons_iff {l earlier since : List α} {a b : α} :
    l ++ [b] = earlier ++ a :: since ↔
      (since = [] ∧ l = earlier ∧ b = a) ∨
        ∃ since', since = since' ++ [b] ∧ l = earlier ++ a :: since' := by
  constructor
  · intro h
    rcases List.eq_nil_or_concat since with rfl | ⟨since', c, hConcat⟩
    · obtain ⟨hEarlier, hLast⟩ := List.append_inj' h rfl
      exact .inl ⟨rfl, hEarlier, List.head_eq_of_cons_eq hLast⟩
    · obtain rfl := hConcat.trans List.concat_eq_append
      have hSplit : l ++ [b] = (earlier ++ a :: since') ++ [c] := by simpa using h
      obtain ⟨hEarlier, hLast⟩ := List.append_inj' hSplit rfl
      rw [List.head_eq_of_cons_eq hLast]
      exact .inr ⟨since', rfl, hEarlier⟩
  · rintro (⟨rfl, rfl, rfl⟩ | ⟨since', rfl, rfl⟩)
    · rfl
    · simp

end PeerServices
