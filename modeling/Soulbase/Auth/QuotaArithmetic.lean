/-
# What calls make of a quota

Calls of `check_and_consume` follow one another, with costs that are not negative and limits
that are not. What was used of a limit should stay between zero and the limit, a call that is
refused should leave it alone, and one that is allowed should raise it by its cost.

What was used and the cost are added in 64 bits before the sum is compared with the limit. A sum
that does not fit wraps around to a negative number, which is below every limit: the call is
allowed, and what was used becomes negative. The history `[1, i64::MAX]` does this under any
limit above one. `meters_iff_fits` says that nothing else goes wrong.
-/

import Soulbase.Auth.Quota
import Soulbase.Foundation.Lockstep
import Soulbase.Foundation.MachineInt

namespace Soulbase.Auth

open Soulbase.Foundation

/-- A call of `check_and_consume`, with a cost that is not negative. -/
structure QuotaUse where
  key : QuotaKey
  cost : Int64
  nonneg : 0 ≤ cost

namespace MemoryQuotaStore

/-- The store as a machine that answers the calls. -/
def serve : Machine MemoryQuotaStore QuotaUse fun _ => QuotaOutcome := fun store use =>
  store.checkAndConsume use.key use.cost

/-- The limit of a key. It is the largest one where none is configured. -/
def limitOf (store : MemoryQuotaStore) (key : QuotaKey) : Int64 :=
  ((store.limits.get key).getD (Int64.maxValue, 0)).1

/-- What was used of it. -/
def usedOf (store : MemoryQuotaStore) (key : QuotaKey) : Int64 :=
  ((store.limits.get key).getD (Int64.maxValue, 0)).2

/-- What was used of every limit is neither negative nor above it. -/
def WithinLimits (store : MemoryQuotaStore) : Prop :=
  ∀ key, 0 ≤ store.usedOf key ∧ store.usedOf key ≤ store.limitOf key

/-- A call does the arithmetic of quotas. -/
structure Metered (store : MemoryQuotaStore) (use : QuotaUse) : Prop where
  /-- The addition, which is done where something is left, does not overflow. -/
  exact : store.usedOf use.key < store.limitOf use.key →
    (store.usedOf use.key + use.cost).toInt = (store.usedOf use.key).toInt + use.cost.toInt
  within : (serve store use).2.WithinLimits
  limits : ∀ key, (serve store use).2.limitOf key = store.limitOf key
  others : ∀ key, key ≠ use.key → (serve store use).2.usedOf key = store.usedOf key
  refused : (serve store use).1 ≠ .allowed →
    (serve store use).2.usedOf use.key = store.usedOf use.key
  allowed : (serve store use).1 = .allowed →
    ((serve store use).2.usedOf use.key).toInt = (store.usedOf use.key).toInt + use.cost.toInt

/-- Where something is left of the limit, what was used and the cost are together a number of
64 bits. -/
def Fits (store : MemoryQuotaStore) (use : QuotaUse) : Prop :=
  store.usedOf use.key < store.limitOf use.key →
    (store.usedOf use.key).toInt + use.cost.toInt ≤ Int64.maxValue.toInt

section Call

variable {store : MemoryQuotaStore} {use : QuotaUse} {key : QuotaKey} {limit used : Int64}

/-- The entry of the key is what is put there. -/
theorem entry_of_serve {outcome : QuotaOutcome} {entry : Int64 × Int64}
    (h : serve store use = (outcome, ⟨store.limits.put use.key entry⟩)) :
    (serve store use).2.limitOf use.key = entry.1 ∧
      (serve store use).2.usedOf use.key = entry.2 := by
  rw [h, limitOf, usedOf, HashMap.get_put_self, Option.getD_some]
  exact ⟨rfl, rfl⟩

/-- The entries of other keys are left alone. -/
theorem limitOf_serve_of_ne (h : key ≠ use.key) :
    (serve store use).2.limitOf key = store.limitOf key := by
  rw [limitOf, serve, get_checkAndConsume_of_ne h, limitOf]

theorem usedOf_serve_of_ne (h : key ≠ use.key) :
    (serve store use).2.usedOf key = store.usedOf key := by
  rw [usedOf, serve, get_checkAndConsume_of_ne h, usedOf]

/-- What a call makes of the key it names. -/
inductive Served (store : MemoryQuotaStore) (use : QuotaUse) : Prop
  | refused (hrefused : (serve store use).1 ≠ .allowed)
      (hused : (serve store use).2.usedOf use.key = store.usedOf use.key)
  | allowed (hallowed : (serve store use).1 = .allowed)
      (hroom : store.usedOf use.key < store.limitOf use.key)
      (hwithin : store.usedOf use.key + use.cost ≤ store.limitOf use.key)
      (hused : (serve store use).2.usedOf use.key = store.usedOf use.key + use.cost)

theorem served_of_refused {outcome : QuotaOutcome} (hrefused : outcome ≠ .allowed)
    (h : serve store use = (outcome,
      ⟨store.limits.put use.key (store.limitOf use.key, store.usedOf use.key)⟩)) :
    Served store use ∧ (serve store use).2.limitOf use.key = store.limitOf use.key := by
  obtain ⟨hlimit, hused⟩ := entry_of_serve h
  refine ⟨.refused ?_ hused, hlimit⟩
  rw [h]
  exact hrefused

/-- The limit of the key stays what it was. -/
theorem served (store : MemoryQuotaStore) (use : QuotaUse) :
    Served store use ∧ (serve store use).2.limitOf use.key = store.limitOf use.key := by
  by_cases hroom : store.usedOf use.key ≥ store.limitOf use.key
  · exact served_of_refused (by decide : QuotaOutcome.budgetExceeded ≠ .allowed) (if_pos hroom)
  · by_cases hfits : store.usedOf use.key + use.cost > store.limitOf use.key
    · exact served_of_refused (by decide : QuotaOutcome.rateLimited ≠ .allowed)
        ((if_neg hroom).trans (if_pos hfits))
    · have hserve : serve store use = (.allowed,
          ⟨store.limits.put use.key (store.limitOf use.key, store.usedOf use.key + use.cost)⟩) :=
        (if_neg hroom).trans (if_neg hfits)
      obtain ⟨hlimit, hused⟩ := entry_of_serve hserve
      exact ⟨.allowed (by rw [hserve]) (Int64.not_le.mp hroom) (Int64.not_lt.mp hfits) hused,
        hlimit⟩

theorem limitOf_serve (store : MemoryQuotaStore) (use : QuotaUse) (key : QuotaKey) :
    (serve store use).2.limitOf key = store.limitOf key := by
  by_cases hkey : key = use.key
  · rw [hkey, (served store use).2]
  · exact limitOf_serve_of_ne hkey

/-- Where the sum fits, an allowed use is between what was used before and the limit. -/
theorem WithinLimits.serve (h : store.WithinLimits) (hfits : store.Fits use) :
    (store.serve use).2.WithinLimits := by
  intro key
  rw [limitOf_serve]
  by_cases hkey : key = use.key
  · subst hkey
    obtain ⟨hnonneg, hle⟩ := h use.key
    rcases (served store use).1 with ⟨_, hused⟩ | ⟨_, hroom, hwithin, hused⟩
    · rw [hused]
      exact ⟨hnonneg, hle⟩
    · rw [hused]
      refine ⟨?_, hwithin⟩
      have hsum := toInt_add_of_fits hnonneg use.nonneg (hfits hroom)
      have hbefore : 0 ≤ (store.usedOf use.key).toInt := Int64.le_iff_toInt_le.mp hnonneg
      have hcost : 0 ≤ use.cost.toInt := Int64.le_iff_toInt_le.mp use.nonneg
      rw [Int64.le_iff_toInt_le, hsum]
      exact Int.add_nonneg hbefore hcost
  · rw [usedOf_serve_of_ne hkey]
    exact h key

/-- A call does the arithmetic of quotas exactly if the sum fits. -/
theorem metered_iff_fits_call (h : store.WithinLimits) : store.Metered use ↔ store.Fits use := by
  constructor
  · intro hmetered hroom
    rw [← hmetered.exact hroom]
    exact Int64.toInt_le _
  · intro hfits
    have hexact : store.usedOf use.key < store.limitOf use.key →
        (store.usedOf use.key + use.cost).toInt =
          (store.usedOf use.key).toInt + use.cost.toInt :=
      fun hroom => toInt_add_of_fits (h use.key).1 use.nonneg (hfits hroom)
    refine
      { exact := hexact
        within := h.serve hfits
        limits := limitOf_serve store use
        others := fun key hkey => usedOf_serve_of_ne hkey
        refused := ?_
        allowed := ?_ }
    · intro hrefused
      rcases (served store use).1 with ⟨_, hused⟩ | ⟨hallowed, _, _, _⟩
      · exact hused
      · exact absurd hallowed hrefused
    · intro hallowed
      rcases (served store use).1 with ⟨hrefused, _⟩ | ⟨_, hroom, _, hused⟩
      · exact absurd hallowed hrefused
      · rw [hused, hexact hroom]

end Call

theorem withinLimits_withLimits {limits : HashMap QuotaKey Int64}
    (h : ∀ key limit, limits.get key = some limit → 0 ≤ limit) :
    (withLimits limits).WithinLimits := by
  intro key
  rw [usedOf, limitOf, withLimits, HashMap.get_mapValues]
  cases hlimit : limits.get key with
  | none => decide
  | some limit => exact ⟨Int64.le_refl 0, h key limit hlimit⟩

end MemoryQuotaStore

/-- The calls of a history do the arithmetic of quotas. -/
def Meters (limits : HashMap QuotaKey Int64) (uses : List QuotaUse) : Prop :=
  Machine.Throughout MemoryQuotaStore.serve MemoryQuotaStore.Metered (.withLimits limits) uses

/-- They do as long as what was used and the cost fit in 64 bits together. -/
theorem meters_iff_fits (limits : HashMap QuotaKey Int64)
    (hlimits : ∀ key limit, limits.get key = some limit → 0 ≤ limit) (uses : List QuotaUse) :
    Meters limits uses ↔
      Machine.Throughout MemoryQuotaStore.serve MemoryQuotaStore.Fits (.withLimits limits)
        uses := by
  unfold Meters
  apply Machine.throughout_iff MemoryQuotaStore.WithinLimits
  · exact fun _ _ h => MemoryQuotaStore.metered_iff_fits_call h
  · exact fun _ _ h hfits => h.serve hfits
  · exact MemoryQuotaStore.withinLimits_withLimits hlimits

namespace WrappedUse

def key : QuotaKey := ⟨"t", "u", ⟨"r"⟩, .read⟩

/-- The limit is ten, one is used, and then the most that a number of 64 bits can be. -/
def limits : HashMap QuotaKey Int64 := HashMap.put ∅ key 10

def uses : List QuotaUse := [⟨key, 1, by decide⟩, ⟨key, Int64.maxValue, by decide⟩]

theorem nonneg_limits (other : QuotaKey) (limit : Int64) (h : limits.get other = some limit) :
    0 ≤ limit := by
  rw [limits, HashMap.get_put] at h
  split at h
  · cases h
    decide
  · cases h

end WrappedUse

/-- Two uses of one that fit. -/
theorem meters_iff_fits_twice :
    Meters WrappedUse.limits [⟨WrappedUse.key, 1, by decide⟩, ⟨WrappedUse.key, 1, by decide⟩] := by
  refine (meters_iff_fits WrappedUse.limits WrappedUse.nonneg_limits _).mpr ?_
  exact ⟨fun _ => by decide, fun _ => by decide, trivial⟩

/-- The second use is allowed, and then less than nothing was used. -/
theorem not_meters_wrapped :
    ¬∀ (limits : HashMap QuotaKey Int64),
      (∀ key limit, limits.get key = some limit → 0 ≤ limit) → ∀ uses, Meters limits uses := by
  intro h
  have hmeters := h WrappedUse.limits WrappedUse.nonneg_limits WrappedUse.uses
  have hused := (hmeters.2.1.within WrappedUse.key).1
  exact absurd hused (by decide)

end Soulbase.Auth
