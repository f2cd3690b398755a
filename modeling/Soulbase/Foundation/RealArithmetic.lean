/-
# Floating-point operations read over the reals

Operations of floating-point numbers read as exact arithmetic, over any ordered field with a floor:
`clamp` with its assertion, and the cast to a signed integer, which drops the fraction and
saturates. A quantity between two natural numbers stays between them when it is cast.
-/

import Mathlib.Algebra.Order.Floor.Ring
import Mathlib.Data.Nat.Cast.Order.Ring
import Soulbase.Foundation.MachineInt

namespace Soulbase.Foundation

section Clamp

variable {K : Type*} [LinearOrder K] {value low high result : K}

/-- `f64::clamp`, where `none` is the failure of its assertion that the bounds are in order. -/
def clamp (value low high : K) : Option K :=
  if low ≤ high then some (max low (min value high)) else none

theorem clamp_of_lt (h : high < low) : clamp value low high = none :=
  if_neg (not_le.mpr h)

theorem exists_clamp (value : K) (h : low ≤ high) : ∃ result, clamp value low high = some result :=
  ⟨_, if_pos h⟩

theorem le_of_clamp (h : clamp value low high = some result) : low ≤ result := by
  obtain ⟨-, hresult⟩ := Option.ite_none_right_eq_some.mp h
  rw [← Option.some.inj hresult]
  exact le_max_left _ _

theorem le_high_of_clamp (h : clamp value low high = some result) : result ≤ high := by
  obtain ⟨hbounds, hresult⟩ := Option.ite_none_right_eq_some.mp h
  rw [← Option.some.inj hresult]
  exact max_le hbounds (min_le_right _ _)

theorem clamp_mono {other result' : K} (hle : value ≤ other)
    (h : clamp value low high = some result) (h' : clamp other low high = some result') :
    result ≤ result' := by
  obtain ⟨-, hresult⟩ := Option.ite_none_right_eq_some.mp h
  obtain ⟨-, hresult'⟩ := Option.ite_none_right_eq_some.mp h'
  rw [← Option.some.inj hresult, ← Option.some.inj hresult']
  exact max_le_max_left _ (min_le_min_right _ hle)

end Clamp

section Cast

variable {K : Type*} [Field K] [LinearOrder K] [IsStrictOrderedRing K] [FloorRing K]
variable {value other : K} {bound : ℕ}

/-- `as i64` of a floating-point number: the part before the point, saturating at both ends. -/
def truncateToInt64 (value : K) : Int64 :=
  Int64.ofIntClamp (if 0 ≤ value then ⌊value⌋ else ⌈value⌉)

omit [IsStrictOrderedRing K] in
theorem toInt_truncateToInt64 (h : 0 ≤ value) :
    (truncateToInt64 value).toInt = min ⌊value⌋ Int64.maxValue.toInt := by
  have hfloor : 0 ≤ ⌊value⌋ := Int.floor_nonneg.mpr h
  have hmin : Int64.minValue.toInt ≤ 0 := by decide
  rw [truncateToInt64, if_pos h, toInt_ofIntClamp]
  exact max_eq_right (hmin.trans (le_min hfloor (by decide)))

theorem le_toInt_truncateToInt64 (h : (bound : K) ≤ value) :
    min (bound : ℤ) Int64.maxValue.toInt ≤ (truncateToInt64 value).toInt := by
  have hfloor : (bound : ℤ) ≤ ⌊value⌋ := Int.le_floor.mpr (by exact_mod_cast h)
  rw [toInt_truncateToInt64 ((Nat.cast_nonneg bound).trans h)]
  exact min_le_min_right _ hfloor

theorem toInt_truncateToInt64_le (hnonneg : 0 ≤ value) (h : value ≤ bound) :
    (truncateToInt64 value).toInt ≤ min (bound : ℤ) Int64.maxValue.toInt := by
  have hfloor : ⌊value⌋ ≤ (bound : ℤ) := by
    have hmono := Int.floor_le_floor h
    rwa [Int.floor_natCast] at hmono
  rw [toInt_truncateToInt64 hnonneg]
  exact min_le_min_right _ hfloor

omit [IsStrictOrderedRing K] in
theorem toInt_truncateToInt64_mono (hnonneg : 0 ≤ value) (h : value ≤ other) :
    (truncateToInt64 value).toInt ≤ (truncateToInt64 other).toInt := by
  rw [toInt_truncateToInt64 hnonneg, toInt_truncateToInt64 (hnonneg.trans h)]
  exact min_le_min_right _ (Int.floor_le_floor h)

end Cast

end Soulbase.Foundation
