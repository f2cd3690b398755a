/-
# Fixed-width arithmetic

Unsigned integers in their order, and saturating operations on machine integers, with the facts
that turn a comparison of machine integers into one of integers. The plain operators of `Int64`,
`UInt32` and `UInt64` wrap around, as the release build of the modelled code does.
-/

import Mathlib.Algebra.Group.Nat.Defs
import Mathlib.Algebra.Ring.Int.Defs
import Mathlib.Order.Basic

namespace Soulbase.Foundation

instance linearOrderUInt32 : LinearOrder UInt32 where
  le_refl := UInt32.le_refl
  le_trans _ _ _ := UInt32.le_trans
  le_antisymm _ _ := UInt32.le_antisymm
  le_total := UInt32.le_total
  lt_iff_le_not_ge a b := by
    rw [UInt32.not_le]
    exact ⟨fun h => ⟨UInt32.le_of_lt h, h⟩, And.right⟩
  toDecidableLE := inferInstance

instance linearOrderUInt64 : LinearOrder UInt64 where
  le_refl := UInt64.le_refl
  le_trans _ _ _ := UInt64.le_trans
  le_antisymm _ _ := UInt64.le_antisymm
  le_total := UInt64.le_total
  lt_iff_le_not_ge a b := by
    rw [UInt64.not_le]
    exact ⟨fun h => ⟨UInt64.le_of_lt h, h⟩, And.right⟩
  toDecidableLE := inferInstance

/-- `i64::checked_add`, which is what the plain operator computes in a build that checks for
overflow. -/
def checkedAdd (left right : Int64) : Option Int64 :=
  if Int64.minValue.toInt ≤ left.toInt + right.toInt ∧
      left.toInt + right.toInt ≤ Int64.maxValue.toInt then
    some (left + right)
  else none

/-- `i64::saturating_sub`. -/
def saturatingSub (left right : Int64) : Int64 :=
  Int64.ofIntClamp (left.toInt - right.toInt)

/-- `u64::saturating_add`. -/
def saturatingAdd (left right : UInt64) : UInt64 :=
  if left.toNat + right.toNat < 2 ^ 64 then left + right else .ofNat (2 ^ 64 - 1)

/-- `u32::saturating_add(1)`. -/
def saturatingSucc (count : UInt32) : UInt32 :=
  if count = UInt32.ofNat (2 ^ 32 - 1) then count else count + 1

/-- A sum of two numbers that are not negative does not wrap where it fits. -/
theorem toInt_add_of_fits {left right : Int64} (hleft : 0 ≤ left) (hright : 0 ≤ right)
    (h : left.toInt + right.toInt ≤ Int64.maxValue.toInt) :
    (left + right).toInt = left.toInt + right.toInt := by
  have hleft_nonneg : 0 ≤ left.toInt := Int64.le_iff_toInt_le.mp hleft
  have hright_nonneg : 0 ≤ right.toInt := Int64.le_iff_toInt_le.mp hright
  have hmax : Int64.maxValue.toInt = 2 ^ 63 - 1 := rfl
  rw [Int64.toInt_add]
  apply Int.bmod_eq_of_le <;> omega

/-- A sum that is computed is the sum of the integers. -/
theorem toInt_of_checkedAdd {left right sum : Int64} (h : checkedAdd left right = some sum) :
    sum.toInt = left.toInt + right.toInt := by
  have hmin : Int64.minValue.toInt = -2 ^ 63 := rfl
  have hmax : Int64.maxValue.toInt = 2 ^ 63 - 1 := rfl
  obtain ⟨⟨hlow, hhigh⟩, hsum⟩ := Option.ite_none_right_eq_some.mp h
  rw [← Option.some.inj hsum, Int64.toInt_add]
  apply Int.bmod_eq_of_le <;> omega

/-- A sum is computed where it fits. -/
theorem exists_checkedAdd (left right : Int64)
    (hlow : Int64.minValue.toInt ≤ left.toInt + right.toInt)
    (hhigh : left.toInt + right.toInt ≤ Int64.maxValue.toInt) :
    ∃ sum, checkedAdd left right = some sum :=
  ⟨left + right, if_pos ⟨hlow, hhigh⟩⟩

/-- Saturation is the nearest number in the range. -/
theorem toInt_ofIntClamp (value : ℤ) :
    (Int64.ofIntClamp value).toInt =
      max Int64.minValue.toInt (min value Int64.maxValue.toInt) := by
  have hmin : Int64.minValue.toInt = -2 ^ 63 := rfl
  have hmax : Int64.maxValue.toInt = 2 ^ 63 - 1 := rfl
  unfold Int64.ofIntClamp
  split
  case isFalse hlow => omega
  case isTrue hlow =>
    split
    case isTrue hhigh => rw [Int64.toInt_ofIntLE, Int.min_eq_left hhigh, Int.max_eq_right hlow]
    case isFalse hhigh => rw [Int.min_eq_right (by omega), Int.max_eq_right (by omega)]

/-- The difference of a signed number and an unsigned one that is cast, before it wraps around. -/
theorem toInt_sub_toInt64 (left : Int64) (right : UInt64) :
    (left - right.toInt64).toInt = (left.toInt - right.toNat).bmod (2 ^ 64) := by
  have hcast : right.toInt64.toInt = (right.toNat : ℤ).bmod (2 ^ 64) :=
    BitVec.toInt_eq_toNat_bmod right.toBitVec
  rw [Int64.toInt_sub, hcast, Int.sub_bmod_bmod]

/-- A difference that is not negative is clamped from above only. -/
theorem toInt_saturatingSub_of_le {now since : Int64} (h : since ≤ now) :
    (saturatingSub now since).toInt =
      min (now.toInt - since.toInt) Int64.maxValue.toInt := by
  have hle : since.toInt ≤ now.toInt := Int64.le_iff_toInt_le.mp h
  have hmin : Int64.minValue.toInt = -2 ^ 63 := rfl
  have hmax : Int64.maxValue.toInt = 2 ^ 63 - 1 := rfl
  rw [saturatingSub, toInt_ofIntClamp]
  omega

/-- The time from `since` to `now`, cast to unsigned, when `now` is not the
earlier one: the integer difference, except that it saturates. -/
theorem toNat_saturatingSub_of_le {now since : Int64} (h : since ≤ now) :
    ((saturatingSub now since).toUInt64.toNat : Int) =
      min (now.toInt - since.toInt) Int64.maxValue.toInt := by
  have hle : since.toInt ≤ now.toInt := Int64.le_iff_toInt_le.mp h
  have hmax : Int64.maxValue.toInt = 2 ^ 63 - 1 := rfl
  have hvalue := toInt_saturatingSub_of_le h
  have hnonneg : 0 ≤ saturatingSub now since := by
    rw [Int64.le_iff_toInt_le, hvalue]
    simp only [Int64.toInt_zero, hmax]
    omega
  rw [Int64.toNat_toUInt64_of_le hnonneg, Int64.cast_toNatClampNeg _ hnonneg, hvalue]

/-- A difference that is negative is clamped from below only, and cast to unsigned it is at least
half of the range. -/
theorem toNat_saturatingSub_of_lt {now since : Int64} (h : now < since) :
    ((saturatingSub now since).toUInt64.toNat : Int) =
      2 ^ 64 + max (now.toInt - since.toInt) Int64.minValue.toInt := by
  have hlt : now.toInt < since.toInt := Int64.lt_iff_toInt_lt.mp h
  have hmin : Int64.minValue.toInt = -2 ^ 63 := rfl
  have hmax : Int64.maxValue.toInt = 2 ^ 63 - 1 := rfl
  have hvalue : (saturatingSub now since).toInt =
      max (now.toInt - since.toInt) Int64.minValue.toInt := by
    rw [saturatingSub, toInt_ofIntClamp]
    omega
  have hbits : (saturatingSub now since).toBitVec.toInt = (saturatingSub now since).toInt := rfl
  have hsign := BitVec.toInt_eq_toNat_cond (saturatingSub now since).toBitVec
  rw [hbits, hvalue, Int64.toNat_toBitVec] at hsign
  split at hsign <;> omega

/-- The saturation of the elapsed time never makes it longer. -/
theorem toNat_saturatingSub_le {now since : Int64} (h : since ≤ now) :
    ((saturatingSub now since).toUInt64.toNat : Int) ≤ now.toInt - since.toInt := by
  rw [toNat_saturatingSub_of_le h]
  exact Int.min_le_left _ _

/-- A counter that is not at its maximum is incremented without wrapping. -/
theorem toNat_succ {count : UInt32} (h : count.toNat + 1 < 2 ^ 32) :
    (count + 1).toNat = count.toNat + 1 := by
  rw [UInt32.toNat_add, UInt32.toNat_one, Nat.mod_eq_of_lt h]

/-- A counter that is not at its maximum does not saturate. -/
theorem saturatingSucc_eq {count : UInt32} (h : count.toNat + 1 < 2 ^ 32) :
    saturatingSucc count = count + 1 := by
  have htop : (UInt32.ofNat (2 ^ 32 - 1)).toNat = 2 ^ 32 - 1 := rfl
  apply if_neg
  intro hmax
  rw [hmax, htop] at h
  omega

/-- A counter stays at its maximum. -/
theorem toNat_saturatingSucc (count : UInt32) :
    (saturatingSucc count).toNat = min (count.toNat + 1) (UInt32.size - 1) := by
  have htop : (UInt32.ofNat (2 ^ 32 - 1)).toNat = 2 ^ 32 - 1 := rfl
  have hsize : UInt32.size = 2 ^ 32 := rfl
  have hlt := count.toNat_lt
  by_cases hmax : count = UInt32.ofNat (2 ^ 32 - 1)
  · rw [saturatingSucc, if_pos hmax, hmax, htop]
    omega
  · have hne : count.toNat ≠ 2 ^ 32 - 1 := fun h => hmax (UInt32.toNat_inj.mp h)
    have hroom : count.toNat + 1 < 2 ^ 32 := by omega
    rw [saturatingSucc_eq hroom, UInt32.toNat_add, UInt32.toNat_one, Nat.mod_eq_of_lt hroom]
    omega

end Soulbase.Foundation
