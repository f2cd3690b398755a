/-
# The in-memory decision cache

An entry counts until its time to live has passed since it was stored; one without any counts
for ever. A lookup that finds none drops what is there.
-/

import Soulbase.Auth.Facade

namespace Soulbase.Auth

open Soulbase.Foundation

/-- `MemoryDecisionCache`. -/
structure MemoryDecisionCache where
  inner : HashMap DecisionKey (Decision × Instant × UInt32)

namespace MemoryDecisionCache

/-- `MemoryDecisionCache::default`. -/
def default : MemoryDecisionCache := ⟨∅⟩

/-- `MemoryDecisionCache::get`. -/
def get (cache : MemoryDecisionCache) (key : DecisionKey) (now : Instant) :
    Option Decision × MemoryDecisionCache :=
  match cache.inner.get key with
  | some (decision, stored, ttl) =>
      if ttl = 0 ∨ now - stored ≤ ttl.toNat * 1000000 then (some decision, cache)
      else (none, ⟨cache.inner.remove key⟩)
  | none => (none, ⟨cache.inner.remove key⟩)

/-- `MemoryDecisionCache::put`. -/
def put (cache : MemoryDecisionCache) (key : DecisionKey) (decision : Decision)
    (now : Instant) : MemoryDecisionCache :=
  ⟨cache.inner.put key (decision, now, decision.cacheTtlMs)⟩

/-- The cache holds the decision at the key, for however long. -/
def Holds (cache : MemoryDecisionCache) (key : DecisionKey) (decision : Decision) : Prop :=
  ∃ entry, cache.inner.get key = some (decision, entry)

variable {cache : MemoryDecisionCache} {key other : DecisionKey} {decision kept : Decision}
variable {now : Instant}

theorem not_holds_default : ¬default.Holds key decision := by
  rintro ⟨entry, h⟩
  simp [default] at h

/-- Only what is there is found. -/
theorem holds_of_get (h : (cache.get key now).1 = some decision) : cache.Holds key decision := by
  unfold get at h
  split at h
  case h_1 found stored ttl hget =>
    split at h
    case isTrue =>
      cases h
      exact ⟨(stored, ttl), hget⟩
    case isFalse => cases h
  case h_2 => cases h

/-- A lookup adds nothing. -/
theorem holds_of_holds_get (h : (cache.get key now).2.Holds other decision) :
    cache.Holds other decision := by
  have hremove : ∀ entry, (cache.inner.remove key).get other = some (decision, entry) →
      cache.Holds other decision := by
    intro entry hentry
    rw [HashMap.get_remove] at hentry
    split at hentry
    case isTrue => cases hentry
    case isFalse => exact ⟨entry, hentry⟩
  obtain ⟨entry, hentry⟩ := h
  unfold get at hentry
  split at hentry
  case h_1 =>
    split at hentry
    case isTrue => exact ⟨entry, hentry⟩
    case isFalse => exact hremove entry hentry
  case h_2 => exact hremove entry hentry

/-- What is there after a decision is stored. -/
theorem holds_put_iff :
    (cache.put key kept now).Holds other decision ↔
      if other = key then decision = kept else cache.Holds other decision := by
  unfold Holds put
  simp only [HashMap.get_put]
  split
  case isTrue => simp [eq_comm]
  case isFalse => exact Iff.rfl

/-- A decision that is stored is the only one that is new. -/
theorem holds_of_holds_put (h : (cache.put key kept now).Holds other decision) :
    (other = key ∧ decision = kept) ∨ cache.Holds other decision := by
  rw [holds_put_iff] at h
  split at h
  case isTrue hother => exact .inl ⟨hother, h⟩
  case isFalse => exact .inr h

end MemoryDecisionCache

end Soulbase.Auth
