/-
# The first match in another order

Of the items of a list that meet a test, each is the first in some order. So whether the
first one is accepted depends on no order exactly where all of them are accepted or
none is, `forall_perm_find?_iff`.
-/

import Mathlib.Data.List.Perm.Basic

namespace Soulbase.Foundation

variable {α : Type*} {test : α → Bool} {accepts : α → Prop} {items : List α} {item : α}

/-- Each match is the first one in some order. -/
theorem exists_perm_find?_eq (hmem : item ∈ items) (htest : test item = true) :
    ∃ others : List α, others.Perm items ∧ others.find? test = some item := by
  obtain ⟨before, after, rfl⟩ := List.append_of_mem hmem
  exact ⟨item :: (before ++ after), List.perm_middle.symm, List.find?_cons_of_pos htest⟩

/-- Whether the first match is accepted, in whatever order. -/
theorem forall_perm_find?_iff :
    (∀ others : List α, others.Perm items →
        ((∃ first, others.find? test = some first ∧ accepts first) ↔
          ∃ first, items.find? test = some first ∧ accepts first)) ↔
      (∀ item ∈ items, test item = true → accepts item) ∨
        ∀ item ∈ items, test item = true → ¬accepts item := by
  constructor
  · intro h
    by_cases hfirst : ∃ first, items.find? test = some first ∧ accepts first
    · left
      intro item hmem htest
      obtain ⟨others, hperm, hfound⟩ := exists_perm_find?_eq hmem htest
      obtain ⟨first, hsame, haccepts⟩ := (h others hperm).mpr hfirst
      cases hfound.symm.trans hsame
      exact haccepts
    · right
      intro item hmem htest haccepts
      obtain ⟨others, hperm, hfound⟩ := exists_perm_find?_eq hmem htest
      exact hfirst ((h others hperm).mp ⟨item, hfound, haccepts⟩)
  · intro h others hperm
    rcases h with hall | hnone
    · have hexists : ∀ {given : List α}, given.Perm items →
          ((∃ first, given.find? test = some first ∧ accepts first) ↔
            ∃ item ∈ items, test item = true) := by
        intro given hgiven
        constructor
        · rintro ⟨first, hfound, _⟩
          exact ⟨first, hgiven.subset (List.mem_of_find?_eq_some hfound), List.find?_some hfound⟩
        · rintro ⟨item, hmem, htest⟩
          have hsome : (given.find? test).isSome = true :=
            List.find?_isSome.mpr ⟨item, hgiven.symm.subset hmem, htest⟩
          obtain ⟨first, hfound⟩ := Option.isSome_iff_exists.mp hsome
          exact ⟨first, hfound, hall first (hgiven.subset (List.mem_of_find?_eq_some hfound))
            (List.find?_some hfound)⟩
      rw [hexists hperm, hexists (List.Perm.refl items)]
    · have hrejected : ∀ {given : List α}, given.Perm items →
          ¬∃ first, given.find? test = some first ∧ accepts first := by
        rintro given hgiven ⟨first, hfound, haccepts⟩
        exact hnone first (hgiven.subset (List.mem_of_find?_eq_some hfound))
          (List.find?_some hfound) haccepts
      exact iff_of_false (hrejected hperm) (hrejected (List.Perm.refl items))

end Soulbase.Foundation
