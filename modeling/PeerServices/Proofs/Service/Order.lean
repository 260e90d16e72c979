import PeerServices.Service.Descriptor

/-!
# Orders that tell values apart

Addresses, ids and descriptors that compare equal are equal, so a set has a member exactly if it has
an equal one.
-/

namespace PeerServices

theorem compareOn_self {α β : Type} [Ord β] [Std.ReflOrd β] (f : α → β) (a : α) :
    compareOn f a a = .eq := Std.ReflCmp.compare_self

instance : Std.LawfulEqOrd PeerAddress where
  compare_self {a} := compareOn_self PeerAddress.octets a
  eq_of_compare {a b} h := by
    have hOctets : a.octets = b.octets := Std.LawfulEqOrd.eq_of_compare h
    cases a
    cases b
    exact congrArg PeerAddress.mk hOctets

instance : Std.LawfulEqOrd ServiceId where
  compare_self {a} := compareOn_self ServiceId.value a
  eq_of_compare {a b} h := by
    have hValue : a.value = b.value := Std.LawfulEqOrd.eq_of_compare h
    cases a
    cases b
    exact congrArg ServiceId.mk hValue

instance : Std.LawfulEqOrd ServiceAddress where
  compare_self {a} :=
    compareLex_eq_eq.mpr ⟨compareOn_self ServiceAddress.id a, compareOn_self ServiceAddress.host a⟩
  eq_of_compare {a b} h := by
    obtain ⟨hId, hHost⟩ := compareLex_eq_eq.mp h
    have hId : a.id = b.id := Std.LawfulEqOrd.eq_of_compare hId
    have hHost : a.host = b.host := Std.LawfulEqOrd.eq_of_compare hHost
    cases a
    cases b
    exact congr (congrArg ServiceAddress.mk hId) hHost

instance : Std.LawfulEqOrd Scope where
  compare_self {a} := compareOn_self Scope.ordinal a
  eq_of_compare {a b} h := by
    have hOrdinal : a.ordinal = b.ordinal := Std.LawfulEqOrd.eq_of_compare h
    cases a <;> cases b <;> first | rfl | cases hOrdinal

instance : Std.LawfulEqOrd Description where
  compare_self {a} := compareLex_eq_eq.mpr ⟨compareOn_self Description.title a,
    compareLex_eq_eq.mpr ⟨compareOn_self Description.blurb a, compareOn_self Description.image a⟩⟩
  eq_of_compare {a b} h := by
    obtain ⟨hTitle, h⟩ := compareLex_eq_eq.mp h
    obtain ⟨hBlurb, hImage⟩ := compareLex_eq_eq.mp h
    have hTitle : a.title = b.title := Std.LawfulEqOrd.eq_of_compare hTitle
    have hBlurb : a.blurb = b.blurb := Std.LawfulEqOrd.eq_of_compare hBlurb
    have hImage : a.image = b.image := Std.LawfulEqOrd.eq_of_compare hImage
    cases a
    cases b
    simp_all only

instance : Std.LawfulEqOrd Descriptor where
  compare_self {a} := compareLex_eq_eq.mpr ⟨compareOn_self Descriptor.address a,
    compareLex_eq_eq.mpr ⟨compareOn_self Descriptor.kind a,
    compareLex_eq_eq.mpr ⟨compareOn_self Descriptor.scope a,
    compareLex_eq_eq.mpr ⟨compareOn_self Descriptor.group a,
    compareLex_eq_eq.mpr ⟨compareOn_self Descriptor.rawTags a,
    compareLex_eq_eq.mpr ⟨compareOn_self Descriptor.description a,
      compareOn_self Descriptor.extension a⟩⟩⟩⟩⟩⟩
  eq_of_compare {a b} h := by
    obtain ⟨hAddress, h⟩ := compareLex_eq_eq.mp h
    obtain ⟨hKind, h⟩ := compareLex_eq_eq.mp h
    obtain ⟨hScope, h⟩ := compareLex_eq_eq.mp h
    obtain ⟨hGroup, h⟩ := compareLex_eq_eq.mp h
    obtain ⟨hTags, h⟩ := compareLex_eq_eq.mp h
    obtain ⟨hDescription, hExtension⟩ := compareLex_eq_eq.mp h
    have hAddress : a.address = b.address := Std.LawfulEqOrd.eq_of_compare hAddress
    have hKind : a.kind = b.kind := Std.LawfulEqOrd.eq_of_compare hKind
    have hScope : a.scope = b.scope := Std.LawfulEqOrd.eq_of_compare hScope
    have hGroup : a.group = b.group := Std.LawfulEqOrd.eq_of_compare hGroup
    have hTags : a.rawTags = b.rawTags := Std.LawfulEqOrd.eq_of_compare hTags
    have hDescription : a.description = b.description :=
      Std.LawfulEqOrd.eq_of_compare hDescription
    have hExtension : a.extension = b.extension := Std.LawfulEqOrd.eq_of_compare hExtension
    cases a
    cases b
    simp_all only

end PeerServices
