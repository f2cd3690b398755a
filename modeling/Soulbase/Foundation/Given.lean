/-
# Bounds that may be absent

An upper bound that is not given bounds nothing. The least of several bounds is the
least of those that are given, and is itself absent where none of them is. Joining two
lists of bounds is taking the lesser of their least bounds.
-/

import Mathlib.Order.Bounds.Basic

namespace Soulbase.Foundation

variable {α : Type*}

/-- The bounds of a list that are given. -/
def given (bounds : List (Option α)) : Set α := {bound | some bound ∈ bounds}

@[simp]
theorem mem_given {bounds : List (Option α)} {bound : α} :
    bound ∈ given bounds ↔ some bound ∈ bounds := Iff.rfl

@[simp]
theorem given_append (first second : List (Option α)) :
    given (first ++ second) = given first ∪ given second := by
  ext bound
  simp

/-- The least of the bounds that are given, and none exactly where none is given. -/
def IsLeastGiven [Preorder α] (bounds : List (Option α)) : Option α → Prop
  | none => given bounds = ∅
  | some least => IsLeast (given bounds) least

/-- The lesser of two bounds. -/
def minGiven [Min α] : Option α → Option α → Option α
  | some x, some y => some (min x y)
  | some x, none => some x
  | none, some y => some y
  | none, none => none

section Preorder

variable [Preorder α] {bounds : List (Option α)} {least : Option α}

theorem isLeastGiven_singleton (bound : Option α) : IsLeastGiven [bound] bound := by
  cases bound with
  | none =>
      ext bound
      simp
  | some bound =>
      constructor
      · simp
      · intro other hother
        simp at hother
        exact le_of_eq hother.symm

/-- What keeps to the least bound keeps to every bound. -/
theorem IsLeastGiven.le {bound amount : α} (h : IsLeastGiven bounds least)
    (hbound : some bound ∈ bounds) (hamount : ∀ max, least = some max → amount ≤ max) :
    amount ≤ bound := by
  cases least with
  | none =>
      have hmem : bound ∈ given bounds := hbound
      rw [h] at hmem
      cases hmem
  | some least => exact (hamount least rfl).trans (h.2 hbound)

end Preorder

/-- The least bound of two lists is the lesser of their least bounds. -/
theorem IsLeastGiven.append [LinearOrder α] {first second : List (Option α)}
    {least least' : Option α} (hfirst : IsLeastGiven first least)
    (hsecond : IsLeastGiven second least') :
    IsLeastGiven (first ++ second) (minGiven least least') := by
  cases least with
  | none =>
      have hnone : given first = ∅ := hfirst
      cases least' with
      | none =>
          have hnone' : given second = ∅ := hsecond
          simp [minGiven, IsLeastGiven, hnone, hnone']
      | some y => simpa [minGiven, IsLeastGiven, hnone] using hsecond
  | some x =>
      cases least' with
      | none =>
          have hnone' : given second = ∅ := hsecond
          simpa [minGiven, IsLeastGiven, hnone'] using hfirst
      | some y =>
          change IsLeast (given (first ++ second)) (min x y)
          rw [given_append]
          exact hfirst.union hsecond

end Soulbase.Foundation
