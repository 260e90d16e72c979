import PeerServices.Service.Description

/-!
# Descriptions that were made once can be made again

A description that is read from bytes passes the rules for new ones. One that was made passes them
as it is: a cut title is short enough not to be cut again, and holds the reserved keyword only if
the whole title does. The lowercase form of a beginning of a text need not be a beginning of the
lowercase form of the text, since a capital sigma at its end may become a final one; the keyword has
no sigma of either kind.

* `Text.lowercaseFrom_take`: the two forms agree up to that.
* `Description.create_of_created`: making a description from its own parts gives it back.
-/

namespace PeerServices

/-! ## Lowercase beginnings -/

namespace Text

theorem occursIn_iff {part l : List Char} : occursIn part l = true ↔ part <:+: l := by
  induction l with
  | nil => simp [occursIn]
  | cons c l ih =>
    rw [occursIn, Bool.or_eq_true, List.isPrefixOf_iff_prefix, ih, List.infix_cons_iff]

/-- A small sigma instead of a final one. -/
def plainSigma (c : Char) : Char := if c = 'ς' then 'σ' else c

theorem lowercaseFrom_take (before cs : List Char) (n : Nat) :
    (lowercaseFrom before (cs.take n)).map plainSigma <+:
      (lowercaseFrom before cs).map plainSigma := by
  induction cs generalizing before n with
  | nil => simp
  | cons c cs ih =>
    cases n with
    | zero => simp [lowercaseFrom]
    | succ n =>
      have hSigma : ∀ final : Bool, plainSigma (if final then 'ς' else 'σ') = 'σ' := by decide
      simp only [List.take_succ_cons, lowercaseFrom, List.map_append]
      by_cases hc : c = 'Σ'
      · simp only [hc, if_true, List.map_cons, List.map_nil, hSigma]
        exact List.prefix_append_right_inj _ |>.mpr (hc ▸ ih (c :: before) n)
      · simp only [if_neg hc]
        exact List.prefix_append_right_inj _ |>.mpr (ih (c :: before) n)

/-- A part without a sigma occurs in a text if it does so up to the kinds of sigmas. -/
theorem infix_of_map_plainSigma {part l : List Char} (hPart : ∀ c ∈ part, c ≠ 'σ')
    (h : part <:+: l.map plainSigma) : part <:+: l := by
  obtain ⟨before, after, hSplit⟩ := h
  obtain ⟨front, back', hl, hFront, -⟩ := List.map_eq_append_iff.mp hSplit.symm
  obtain ⟨before', middle, rfl, -, hMiddle⟩ := List.map_eq_append_iff.mp hFront
  have hSame : middle = part := by
    have hFixed : ∀ c ∈ middle, plainSigma c = c := by
      intro c hc
      have hNe := hPart (plainSigma c) (hMiddle ▸ List.mem_map_of_mem hc)
      unfold plainSigma at hNe ⊢
      split
      next hFinal => exact absurd (if_pos hFinal) hNe
      · rfl
    rw [← hMiddle, List.map_congr_left hFixed, List.map_id']
  exact ⟨before', back', by rw [hl, hSame]⟩

end Text

namespace Description

theorem mem_reservedKeyword {c : Char} (h : c ∈ reservedKeyword.toList) : c ≠ 'σ' ∧ c ≠ 'ς' := by
  have hAll : reservedKeyword.toList.all (fun c => c ≠ 'σ' ∧ c ≠ 'ς') = true := by decide
  exact of_decide_eq_true (List.all_eq_true.mp hAll c h)

/-- A beginning of a title holds the keyword only if the title does. -/
theorem usesReservedKeyword_crop {title : String} {limit : Nat}
    (h : usesReservedKeyword (crop limit title) = true) : usesReservedKeyword title = true := by
  unfold usesReservedKeyword at h ⊢
  rw [Text.occursIn_iff] at h ⊢
  rw [crop, String.toList_ofList] at h
  have hKeyword : reservedKeyword.toList.map Text.plainSigma = reservedKeyword.toList := by
    have hFixed : ∀ c ∈ reservedKeyword.toList, Text.plainSigma c = c := fun c hc =>
      if_neg (mem_reservedKeyword hc).2
    rw [List.map_congr_left hFixed, List.map_id']
  have hBeginning := (Text.lowercaseFrom_take [] title.toList limit).isInfix
  apply Text.infix_of_map_plainSigma fun c hc => (mem_reservedKeyword hc).1
  have hMapped := h.map Text.plainSigma
  rw [hKeyword] at hMapped
  exact hMapped.trans hBeginning

theorem crop_crop (limit : Nat) (s : String) : crop limit (crop limit s) = crop limit s := by
  rw [crop, crop, String.toList_ofList, List.take_take, Nat.min_self]

/-- A description was made from some title, blurb and image. -/
def Created (d : Description) : Prop := ∃ title blurb image, create title blurb image = .ok d

theorem create_of_created {d : Description} (h : d.Created) :
    create d.title d.blurb d.image = .ok d := by
  obtain ⟨title, blurb, image, hCreate⟩ := h
  unfold create at hCreate
  split at hCreate
  next hReserved => cases hCreate
  next hFree =>
    obtain rfl := Except.ok.inj hCreate
    have hCut : ¬usesReservedKeyword (crop maxTitleLength title) = true := fun h =>
      hFree (usesReservedKeyword_crop h)
    simp only [create, if_neg hCut, crop_crop]

end Description

end PeerServices
