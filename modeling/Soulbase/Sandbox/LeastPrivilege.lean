/-
# Least privilege

A profile allows what the grant, the manifest and the policy all allow, and no more. For
each of its entries this says what the most restrictive combination of the three is, and
`build` takes it, whatever is given and whatever is not.
-/

import Soulbase.Sandbox.Profile

namespace Soulbase.Sandbox

open Soulbase.Foundation SandboxError

/-- A capability that the manifest has, and the policy too where it lists any. -/
def Permits (manifest : ToolManifest) (policy : PolicyConfig) (capability : Capability) : Prop :=
  capability ∈ manifest.capabilities ∧
    (policy.capabilities ≠ [] → capability ∈ policy.capabilities)

instance (manifest : ToolManifest) (policy : PolicyConfig) :
    DecidablePred (Permits manifest policy) := by
  intro capability
  unfold Permits
  infer_instance

/-- An amount of a budget as a bound. Zero is none. -/
def budgetBound (amount : UInt64) : Option UInt64 := if amount = 0 then none else some amount

/-- The limits are the least of those that are given. -/
structure LeastLimits (manifest policy : Option Limits) (budget : Budget) (limits : Limits) :
    Prop where
  maxBytesIn : IsLeastGiven
    [manifest.bind (·.maxBytesIn), policy.bind (·.maxBytesIn), budgetBound budget.bytesIn]
    limits.maxBytesIn
  maxBytesOut : IsLeastGiven
    [manifest.bind (·.maxBytesOut), policy.bind (·.maxBytesOut), budgetBound budget.bytesOut]
    limits.maxBytesOut
  maxFiles : IsLeastGiven
    [manifest.bind (·.maxFiles), policy.bind (·.maxFiles), budgetBound budget.fileCount]
    limits.maxFiles
  maxDepth : IsLeastGiven [manifest.bind (·.maxDepth), policy.bind (·.maxDepth)] limits.maxDepth
  maxConcurrency : IsLeastGiven
    [manifest.bind (·.maxConcurrency), policy.bind (·.maxConcurrency)] limits.maxConcurrency

/-- The profile is the most restrictive combination. -/
structure LeastPrivileged (grant : Grant) (manifest : ToolManifest) (policy : PolicyConfig)
    (profile : Profile) : Prop where
  /-- The granted capabilities that are permitted, in the order of the grant. -/
  capabilities : profile.capabilities = grant.capabilities.filter (Permits manifest policy ·)
  limits : LeastLimits manifest.limits policy.limits grant.budget profile.limits
  safety : IsGreatest {manifest.safety, policy.safetyClass} profile.safety
  sortedEffects : profile.sideEffects.Pairwise (· < ·)
  sideEffects : ∀ effect, effect ∈ profile.sideEffects ↔
    effect ∈ manifest.sideEffects ∨ effect ∈ policy.sideEffects
  timeout : given [manifest.timeoutMs, policy.timeoutMs, policy.defaultTimeoutMs] ≠ ∅ →
    IsLeastGiven [manifest.timeoutMs, policy.timeoutMs, policy.defaultTimeoutMs]
      (some profile.timeoutMs)
  /-- Where no timeout is given there still is one. -/
  timeoutDefault : given [manifest.timeoutMs, policy.timeoutMs, policy.defaultTimeoutMs] = ∅ →
    profile.timeoutMs = 30000

section Parts

variable {limit : Option UInt64} {amount : UInt64} {budget : Budget}

/-- Capping with an amount is taking the lesser of the two bounds. -/
theorem capped_eq_minGiven : capped limit amount = minGiven limit (budgetBound amount) := by
  unfold capped budgetBound
  by_cases hzero : amount = 0
  · subst hzero
    cases limit <;> rfl
  · have hpos : amount > 0 := UInt64.pos_iff_ne_zero.mpr hzero
    rw [if_pos hpos, if_neg hzero]
    cases limit with
    | none => simp [minGiven]
    | some bound => rfl

theorem isLeastGiven_capped (manifest policy : Option UInt64) (amount : UInt64) :
    IsLeastGiven [manifest, policy, budgetBound amount]
      (capped (minOpt manifest policy) amount) := by
  rw [capped_eq_minGiven]
  have hboth := (isLeastGiven_singleton manifest).append (isLeastGiven_singleton policy)
  exact hboth.append (isLeastGiven_singleton (budgetBound amount))

theorem isLeastGiven_minOptU32 (manifest policy : Option UInt32) :
    IsLeastGiven [manifest, policy] (minOptU32 manifest policy) :=
  (isLeastGiven_singleton manifest).append (isLeastGiven_singleton policy)

theorem leastLimits_mergeLimits (manifest policy : Option Limits) (budget : Budget) :
    LeastLimits manifest policy budget (mergeLimits manifest policy budget) where
  maxBytesIn := isLeastGiven_capped _ _ _
  maxBytesOut := isLeastGiven_capped _ _ _
  maxFiles := isLeastGiven_capped _ _ _
  maxDepth := isLeastGiven_minOptU32 _ _
  maxConcurrency := isLeastGiven_minOptU32 _ _

theorem isGreatest_maxSafety (a b : SafetyClass) : IsGreatest {a, b} (maxSafety a b) := by
  constructor
  · rcases le_total a b with hle | hle
    · exact .inr (max_eq_right hle)
    · exact .inl (max_eq_left hle)
  · rintro safety (rfl | rfl)
    · exact le_max_left _ _
    · exact le_max_right _ _

theorem mem_unionSideEffects_iff {a b : List SideEffect} {effect : SideEffect} :
    effect ∈ unionSideEffects a b ↔ effect ∈ a ∨ effect ∈ b := by
  simp [unionSideEffects]

theorem pairwise_unionSideEffects (a b : List SideEffect) :
    (unionSideEffects a b).Pairwise (· < ·) := by
  have hsorted : (unionSideEffects a b).Pairwise (· ≤ ·) := List.pairwise_insertionSort _ _
  have hnodup : (unionSideEffects a b).Nodup :=
    (List.perm_insertionSort _ _).nodup_iff.mpr (List.nodup_dedup _)
  exact (hsorted.and hnodup).imp fun h => lt_of_le_of_ne h.1 h.2

theorem mem_given_iff_mem_toList {manifest policy defaultTimeout : Option UInt64}
    {timeout : UInt64} :
    timeout ∈ given [manifest, policy, defaultTimeout] ↔
      timeout ∈ manifest.toList ++ policy.toList ++ defaultTimeout.toList := by
  simp [eq_comm]

theorem minTimeout_of_given_eq_empty {manifest policy defaultTimeout : Option UInt64}
    (h : given [manifest, policy, defaultTimeout] = ∅) :
    minTimeout manifest policy defaultTimeout = 30000 := by
  have hnone : manifest.toList ++ policy.toList ++ defaultTimeout.toList = [] := by
    rw [List.eq_nil_iff_forall_not_mem]
    intro timeout hmem
    have hgiven := mem_given_iff_mem_toList.mpr hmem
    rw [h] at hgiven
    cases hgiven
  simp [minTimeout, hnone]

theorem isLeastGiven_minTimeout {manifest policy defaultTimeout : Option UInt64}
    (h : given [manifest, policy, defaultTimeout] ≠ ∅) :
    IsLeastGiven [manifest, policy, defaultTimeout]
      (some (minTimeout manifest policy defaultTimeout)) := by
  obtain ⟨timeout, htimeout⟩ := Set.nonempty_iff_ne_empty.mpr h
  cases hmin : (manifest.toList ++ policy.toList ++ defaultTimeout.toList).min? with
  | none =>
      have hmem := mem_given_iff_mem_toList.mp htimeout
      rw [List.min?_eq_none_iff.mp hmin] at hmem
      cases hmem
  | some least =>
      obtain ⟨hmem, hle⟩ := List.min?_eq_some_iff.mp hmin
      have hleast : minTimeout manifest policy defaultTimeout = least := by
        simp only [minTimeout, hmin, Option.getD_some]
      rw [hleast]
      constructor
      · exact mem_given_iff_mem_toList.mpr hmem
      · intro other hother
        exact hle other (mem_given_iff_mem_toList.mp hother)

theorem intersectCapabilities_eq_filter {grant : List Capability} {manifest : ToolManifest}
    {policy : PolicyConfig} :
    intersectCapabilities grant manifest.capabilities policy.capabilities =
      grant.filter (Permits manifest policy ·) := by
  unfold intersectCapabilities
  apply List.filter_congr
  intro capability _
  cases hpolicy : policy.capabilities with
  | nil => simp [Permits, hpolicy]
  | cons first rest => simp [Permits, hpolicy]

end Parts

section Builder

variable {hashing : Hashing} {grant : Grant} {manifest : ToolManifest} {policy : PolicyConfig}

/-- The builder fails in one way only. -/
theorem build_eq_error_iff {error : SandboxError} :
    DefaultProfileBuilder.build hashing grant manifest policy = .error error ↔
      (∀ capability ∈ grant.capabilities, ¬Permits manifest policy capability) ∧
        error = forbidden "capability set is empty after intersection" := by
  simp only [DefaultProfileBuilder.build, intersectCapabilities_eq_filter]
  cases hempty : (grant.capabilities.filter (Permits manifest policy ·)).isEmpty with
  | true =>
      have hnone : ∀ capability ∈ grant.capabilities, ¬Permits manifest policy capability := by
        simpa using hempty
      constructor
      · intro h
        cases h
        exact ⟨hnone, rfl⟩
      · rintro ⟨_, rfl⟩
        rfl
  | false =>
      constructor
      · intro h
        cases h
      · rintro ⟨hnone, _⟩
        rw [List.isEmpty_eq_false_iff] at hempty
        exact absurd (by simpa using hnone) hempty

theorem leastPrivileged_of_build {profile : Profile}
    (h : DefaultProfileBuilder.build hashing grant manifest policy = .ok profile) :
    LeastPrivileged grant manifest policy profile := by
  obtain ⟨_, hbuilt⟩ := rejectIf_bind_eq_ok_iff.mp h
  cases hbuilt
  constructor
  case capabilities => exact intersectCapabilities_eq_filter
  case limits => exact leastLimits_mergeLimits _ _ _
  case safety => exact isGreatest_maxSafety _ _
  case sortedEffects => exact pairwise_unionSideEffects _ _
  case sideEffects => exact fun _ => mem_unionSideEffects_iff
  case timeout => exact isLeastGiven_minTimeout
  case timeoutDefault => exact minTimeout_of_given_eq_empty

end Builder

/-- Whatever is granted, declared and configured: there is no profile exactly where no
granted capability is permitted, and otherwise it is the most restrictive one. -/
theorem leastPrivilege_build (hashing : Hashing) (grant : Grant) (manifest : ToolManifest)
    (policy : PolicyConfig) :
    ((∃ error, DefaultProfileBuilder.build hashing grant manifest policy = .error error) ↔
        ∀ capability ∈ grant.capabilities, ¬Permits manifest policy capability) ∧
      ∀ profile, DefaultProfileBuilder.build hashing grant manifest policy = .ok profile →
        LeastPrivileged grant manifest policy profile := by
  constructor
  · simp only [build_eq_error_iff, exists_and_left, exists_eq, and_true]
  · exact fun profile => leastPrivileged_of_build

end Soulbase.Sandbox
