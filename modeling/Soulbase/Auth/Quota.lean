/-
# The in-memory quota store

A key has a limit and what was used of it. A use that keeps within the limit is added, in
64 bits. `checkAndConsume_cases` says what becomes of the entry of the key; the entries of
other keys are left alone.
-/

import Soulbase.Auth.Model
import Soulbase.Foundation.FiniteMap

namespace Soulbase.Auth

open Soulbase.Foundation

/-- `MemoryQuotaStore`: for each key its limit, and what was used of it. -/
structure MemoryQuotaStore where
  limits : HashMap QuotaKey (Int64 × Int64)

namespace MemoryQuotaStore

/-- `MemoryQuotaStore::with_limits`. -/
def withLimits (limits : HashMap QuotaKey Int64) : MemoryQuotaStore where
  limits := limits.mapValues fun limit => (limit, 0)

/-- `MemoryQuotaStore::check_and_consume`. A key without a limit gets the largest one. -/
def checkAndConsume (store : MemoryQuotaStore) (key : QuotaKey) (cost : Int64) :
    QuotaOutcome × MemoryQuotaStore :=
  let entry := (store.limits.get key).getD (Int64.maxValue, 0)
  let limit := entry.1
  let used := entry.2
  if used ≥ limit then (.budgetExceeded, ⟨store.limits.put key entry⟩)
  else if used + cost > limit then (.rateLimited, ⟨store.limits.put key entry⟩)
  else (.allowed, ⟨store.limits.put key (limit, used + cost)⟩)

variable {store : MemoryQuotaStore} {key other : QuotaKey} {limit used cost : Int64}

/-- The entries of other keys are left alone. -/
theorem get_checkAndConsume_of_ne (h : other ≠ key) :
    (store.checkAndConsume key cost).2.limits.get other = store.limits.get other := by
  unfold checkAndConsume
  dsimp only
  split
  case isTrue => rw [HashMap.get_put, if_neg h]
  case isFalse => split <;> rw [HashMap.get_put, if_neg h]

/-- An allowed use was within the limit and is added, and another one leaves the entry alone. -/
theorem checkAndConsume_cases (h : store.limits.get key = some (limit, used)) :
    ((store.checkAndConsume key cost).1 ≠ .allowed ∧
        (store.checkAndConsume key cost).2.limits.get key = some (limit, used)) ∨
      ((store.checkAndConsume key cost).1 = .allowed ∧ used < limit ∧ used + cost ≤ limit ∧
        (store.checkAndConsume key cost).2.limits.get key = some (limit, used + cost)) := by
  simp only [checkAndConsume, h, Option.getD_some]
  split
  case isTrue hexhausted => exact .inl ⟨by simp, HashMap.get_put_self _ _ _⟩
  case isFalse hroom =>
    split
    case isTrue hlimited => exact .inl ⟨by simp, HashMap.get_put_self _ _ _⟩
    case isFalse hfits =>
      exact .inr ⟨rfl, Int64.not_le.mp hroom, Int64.not_lt.mp hfits, HashMap.get_put_self _ _ _⟩

end MemoryQuotaStore

end Soulbase.Auth
