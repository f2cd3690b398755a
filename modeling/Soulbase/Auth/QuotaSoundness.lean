/-
# What was allowed is within the limits

Calls of a facade with an in-memory decision cache and an in-memory quota store follow one
another. For every key with a limit, the costs of the calls that were allowed should not
exceed it.

A decision that the cache knows is returned before the quota is asked. So the same request may
be made again and again at the cost of the first, as long as the decision lives. Besides, what
was used and the cost are added in 64 bits, and a cost that is large enough wraps around. The
limits are kept by every run in which neither happens.
-/

import Mathlib.Algebra.BigOperators.Group.List.Basic
import Mathlib.Algebra.Ring.Int.Defs
import Soulbase.Auth.Authorizations
import Soulbase.Foundation.MachineInt
import Soulbase.Foundation.Transition

namespace Soulbase.Auth

open Soulbase.Foundation

/-- A call of the facade, with a cost that is not negative, and any decision. -/
structure Charge where
  asked : Asked
  judges : Judges
  nonneg : 0 ≤ asked.ctx.cost

/-- The stores, with the calls that were made and what they have returned, the latest first. -/
structure QuotaRun where
  world : AuthWorld MemoryDecisionCache MemoryQuotaStore
  past : List (Asked × Except AuthError AuthResult)

/-- What a call has cost a key: nothing, unless it was allowed. -/
def charged (key : QuotaKey) : Asked × Except AuthError AuthResult → ℤ
  | (asked, .ok result) =>
      if result.decision.allow = true ∧ asked.quotaKey result.subject = key then
        asked.ctx.cost.toInt
      else 0
  | (_, .error _) => 0

namespace QuotaRun

/-- The in-memory stores. -/
def stores : AuthStores MemoryDecisionCache MemoryQuotaStore where
  cache := memoryCache
  quota := memoryQuota

/-- Nothing is known, and nothing was used. -/
def start (limits : HashMap QuotaKey Int64) : QuotaRun where
  world :=
    { cache := .default
      quota := .withLimits limits }
  past := []

/-- The next call. -/
def next (facade : AuthFacade) (run : QuotaRun) (charge : Charge) : Option QuotaRun :=
  let outcome := facade.authorizeIn stores charge.judges charge.asked run.world
  some
    { world := outcome.2
      past := (charge.asked, outcome.1) :: run.past }

/-- The runs of a facade with limits. -/
def system (facade : AuthFacade) (limits : HashMap QuotaKey Int64) :
    TransitionSystem QuotaRun Charge :=
  .ofNext (start limits) (next facade)

/-- What all calls have cost a key. -/
def total (run : QuotaRun) (key : QuotaKey) : ℤ := (run.past.map (charged key)).sum

end QuotaRun

/-- The calls that were allowed are within the limits. -/
def QuotaSound (limits : HashMap QuotaKey Int64) (T : TransitionSystem QuotaRun Charge) : Prop :=
  ∀ run, T.Reachable run → ∀ key limit, limits.get key = some limit →
    run.total key ≤ limit.toInt

/-- A call under a key with a limit is free where the cache knows that it is allowed, and what it
costs, with what was used, is a number of 64 bits. -/
structure Metered (facade : AuthFacade) (limits : HashMap QuotaKey Int64) (run : QuotaRun)
    (charge : Charge) : Prop where
  free : ∀ subject limit decision, charge.asked.authenticate charge.asked.ctx.input = .ok subject →
    limits.get (charge.asked.quotaKey subject) = some limit →
      (run.world.cache.get (charge.asked.key facade subject) charge.asked.lookedUpAt).1 =
        some decision → decision.allow = true → charge.asked.ctx.cost = 0
  fits : ∀ subject limit used, charge.asked.authenticate charge.asked.ctx.input = .ok subject →
    limits.get (charge.asked.quotaKey subject) = some limit →
      run.world.quota.limits.get (charge.asked.quotaKey subject) = some (limit, used) →
        used < limit → used.toInt + charge.asked.ctx.cost.toInt ≤ Int64.maxValue.toInt

section Uses

variable {facade : AuthFacade} {limits : HashMap QuotaKey Int64} {run next : QuotaRun}
variable {charge : Charge} {key : QuotaKey} {limit used : Int64}

/-- What a call makes of a limit. -/
inductive Uses (key : QuotaKey) (limit used : Int64) (charge : Charge)
    (outcome : Except AuthError AuthResult × AuthWorld MemoryDecisionCache MemoryQuotaStore) : Prop
  | nothing (hentry : outcome.2.quota.limits.get key = some (limit, used))
      (hcharged : charged key (charge.asked, outcome.1) = 0) : Uses key limit used charge outcome
  | cost {subject : Subject}
      (hsubject : charge.asked.authenticate charge.asked.ctx.input = .ok subject)
      (hkey : charge.asked.quotaKey subject = key) (hroom : used < limit)
      (hwithin : used + charge.asked.ctx.cost ≤ limit)
      (hentry : outcome.2.quota.limits.get key = some (limit, used + charge.asked.ctx.cost))
      (hcharged : charged key (charge.asked, outcome.1) = charge.asked.ctx.cost.toInt) :
      Uses key limit used charge outcome

/-- A call that the authorizer decides uses what it costs, and only where it is allowed. -/
theorem uses_of_decides {subject : Subject}
    {world : AuthWorld MemoryDecisionCache MemoryQuotaStore}
    {outcome : Except AuthError AuthResult × AuthWorld MemoryDecisionCache MemoryQuotaStore}
    (hsubject : charge.asked.authenticate charge.asked.ctx.input = .ok subject)
    (h : Decides facade QuotaRun.stores charge.judges charge.asked subject world outcome)
    (hentry : world.quota.limits.get key = some (limit, used)) :
    Uses key limit used charge outcome := by
  cases h with
  | undecided _ => exact .nothing hentry rfl
  | unconsented _ _ _ => exact .nothing hentry rfl
  | denied _ hdenied => exact .nothing hentry (if_neg (by simp [hdenied]))
  | exhausted _ _ _ hchecked hrefused =>
      obtain ⟨rfl, rfl⟩ := Prod.ext_iff.mp hchecked
      refine .nothing ?_ rfl
      by_cases hkey : key = charge.asked.quotaKey subject
      · subst hkey
        rcases MemoryQuotaStore.checkAndConsume_cases hentry with ⟨_, hsame⟩ | ⟨hallowed, _⟩
        · exact hsame
        · exact absurd (congrArg Except.ok hallowed) hrefused
      · exact (MemoryQuotaStore.get_checkAndConsume_of_ne hkey).trans hentry
  | allowed _ hallow _ hchecked =>
      obtain ⟨hallowed, rfl⟩ := Prod.ext_iff.mp hchecked
      by_cases hkey : key = charge.asked.quotaKey subject
      · subst hkey
        rcases MemoryQuotaStore.checkAndConsume_cases hentry with
          ⟨hrefused, _⟩ | ⟨_, hroom, hwithin, hused⟩
        · exact absurd (Except.ok.inj hallowed) hrefused
        · exact .cost hsubject rfl hroom hwithin hused (if_pos ⟨hallow, rfl⟩)
      · refine .nothing ((MemoryQuotaStore.get_checkAndConsume_of_ne hkey).trans hentry) ?_
        exact if_neg fun h => hkey h.2.symm

/-- A metered call uses what it costs, and only where it is allowed. -/
theorem uses_of_metered (hlimit : limits.get key = some limit)
    (hentry : run.world.quota.limits.get key = some (limit, used))
    (hmetered : Metered facade limits run charge) :
    Uses key limit used charge
      (facade.authorizeIn QuotaRun.stores charge.judges charge.asked run.world) := by
  generalize houtcome : facade.authorizeIn QuotaRun.stores charge.judges charge.asked run.world =
    outcome
  have hcomes := comes facade QuotaRun.stores charge.judges charge.asked run.world
  rw [houtcome] at hcomes
  cases hcomes with
  | unauthenticated _ => exact .nothing hentry rfl
  | @cached subject decision _ hsubject hfound =>
      refine .nothing hentry ?_
      by_cases hcounts : decision.allow = true ∧ charge.asked.quotaKey subject = key
      · obtain ⟨hallow, rfl⟩ := hcounts
        have hfree := hmetered.free subject limit decision hsubject hlimit
          (congrArg Prod.fst hfound) hallow
        rw [charged, hfree, if_pos ⟨hallow, rfl⟩]
        rfl
      · exact if_neg hcounts
  | anew hsubject _ hdecides => exact uses_of_decides hsubject hdecides hentry

end Uses

/-- What was used of a limit is what was allowed. -/
structure Accounted (run : QuotaRun) (key : QuotaKey) (limit used : Int64) : Prop where
  entry : run.world.quota.limits.get key = some (limit, used)
  total : used.toInt = run.total key
  nonneg : 0 ≤ used
  within : used ≤ limit

section Invariant

variable {facade : AuthFacade} {limits : HashMap QuotaKey Int64} {run next : QuotaRun}
variable {charge : Charge} {key : QuotaKey} {limit used : Int64}

theorem accounted_start (hlimit : limits.get key = some limit) (hnonneg : 0 ≤ limit) :
    Accounted (.start limits) key limit 0 where
  entry := by
    change (limits.mapValues fun limit => (limit, (0 : Int64))).get key = _
    rw [HashMap.get_mapValues, hlimit]
    rfl
  total := rfl
  nonneg := Int64.le_refl 0
  within := hnonneg

/-- A metered call keeps the accounts. -/
theorem Accounted.step (h : Accounted run key limit used) (hlimit : limits.get key = some limit)
    (hmetered : Metered facade limits run charge) (hnext : run.next facade charge = some next) :
    ∃ used', Accounted next key limit used' := by
  cases hnext
  cases uses_of_metered hlimit h.entry hmetered with
  | nothing hentry hcharged =>
      refine ⟨used, hentry, ?_, h.nonneg, h.within⟩
      rw [QuotaRun.total, List.map_cons, List.sum_cons, hcharged, zero_add]
      exact h.total
  | @cost subject hsubject hkey hroom hwithin hentry hcharged =>
      subst hkey
      have hfits := hmetered.fits subject limit used hsubject hlimit h.entry hroom
      have hsum := toInt_add_of_fits h.nonneg charge.nonneg hfits
      refine ⟨used + charge.asked.ctx.cost, hentry, ?_, ?_, hwithin⟩
      · rw [QuotaRun.total, List.map_cons, List.sum_cons, hcharged, hsum, h.total, add_comm]
        rfl
      · have hused : 0 ≤ used.toInt := Int64.le_iff_toInt_le.mp h.nonneg
        have hcost : 0 ≤ charge.asked.ctx.cost.toInt := Int64.le_iff_toInt_le.mp charge.nonneg
        rw [Int64.le_iff_toInt_le, hsum]
        exact Int.add_nonneg hused hcost

end Invariant

/-- The limits that are not negative are kept by every run of metered calls. -/
theorem quotaSound_metered_iff (facade : AuthFacade) (limits : HashMap QuotaKey Int64) :
    QuotaSound limits ((QuotaRun.system facade limits).restrict (Metered facade limits)) ↔
      ∀ key limit, limits.get key = some limit → 0 ≤ limit := by
  constructor
  · intro hsound key limit hlimit
    exact Int64.le_iff_toInt_le.mpr (hsound _ (.init rfl) key limit hlimit)
  · intro hnonneg run hreach key limit hlimit
    have haccounted : ∃ used, Accounted run key limit used := by
      refine TransitionSystem.invariant (fun run => ∃ used, Accounted run key limit used) ?_ ?_
        hreach
      · rintro state rfl
        exact ⟨0, accounted_start hlimit (hnonneg key limit hlimit)⟩
      · rintro source charge target _ ⟨used, hsource⟩ ⟨hmetered, hstep⟩
        exact hsource.step hlimit hmetered hstep
    obtain ⟨used, haccounted⟩ := haccounted
    rw [← haccounted.total]
    exact Int64.le_iff_toInt_le.mp haccounted.within

namespace MadeTwice

open BrowserTool

def charge : Charge where
  asked := asked none
  judges :=
    { decide := fun _ => .ok decision
      verify := fun _ _ => .ok true }
  nonneg := by decide

def key : QuotaKey := charge.asked.quotaKey subject

/-- The limit is what the request costs. -/
def limits : HashMap QuotaKey Int64 := HashMap.put ∅ key 1

/-- What has happened then. -/
def run : QuotaRun :=
  (TransitionSystem.replay (QuotaRun.next facade) (.start limits) [charge, charge]).getD
    (.start limits)

theorem reachable_run : (QuotaRun.system facade limits).Reachable run :=
  TransitionSystem.reachable_of_replay [charge, charge] rfl

end MadeTwice

/-- The second time it is answered from the cache, at the cost of the first. -/
theorem not_quotaSound_twice :
    ¬∀ facade limits, QuotaSound limits (QuotaRun.system facade limits) := by
  intro h
  have hwithin := h _ _ _ MadeTwice.reachable_run MadeTwice.key 1 rfl
  have htotal : MadeTwice.run.total MadeTwice.key = 2 := rfl
  rw [htotal] at hwithin
  exact absurd hwithin (by decide)

end Soulbase.Auth
