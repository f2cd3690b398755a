/-
# Building a profile

`DefaultProfileBuilder` makes a profile of a grant, a manifest and a policy: it intersects
the capabilities, takes the larger class and all effects, and the least of the limits. What
counts as not given differs: a limit or a timeout that is `None`, an amount of the budget
that is zero, a list of a whitelist that is empty.
-/

import Mathlib.Data.List.Dedup
import Mathlib.Data.List.Sort
import Soulbase.Foundation.Given
import Soulbase.Foundation.MachineInt
import Soulbase.Sandbox.Errors
import Soulbase.Sandbox.Model

namespace Soulbase.Sandbox

open Soulbase.Foundation SandboxError

/-- `intersect_list`. -/
def intersectList (a b : List String) : List String :=
  if a.isEmpty then b
  else if b.isEmpty then a
  else a.filter fun item => b.contains item

/-- `merge_whitelists`. -/
def mergeWhitelists : Option Whitelists → Option Whitelists → Whitelists
  | some m, some p =>
      { domains := intersectList m.domains p.domains
        paths := intersectList m.paths p.paths
        tools := intersectList m.tools p.tools
        mimeAllow := intersectList m.mimeAllow p.mimeAllow
        methods := intersectList m.methods p.methods }
  | some m, none => m
  | none, some p => p
  | none, none => {}

section Lists

variable {a b : List String} {item : String}

@[simp]
theorem intersectList_nil_left : intersectList [] b = b := rfl

@[simp]
theorem intersectList_nil_right : intersectList a [] = a := by
  cases a <;> rfl

/-- Of two lists with entries, only common entries are left. -/
theorem mem_intersectList_iff (ha : a ≠ []) (hb : b ≠ []) :
    item ∈ intersectList a b ↔ item ∈ a ∧ item ∈ b := by
  simp [intersectList, ha, hb]

/-- Where there is no common entry, nothing is left, which is the same as no list. -/
theorem intersectList_eq_nil_iff (ha : a ≠ []) (hb : b ≠ []) :
    intersectList a b = [] ↔ ¬∃ item ∈ a, item ∈ b := by
  simp only [List.eq_nil_iff_forall_not_mem, mem_intersectList_iff ha hb, not_exists]

theorem intersectList_self (a : List String) : intersectList a a = a := by
  by_cases ha : a = []
  · rw [ha, intersectList_nil_left]
  · simp [intersectList, ha]

/-- Merging a whitelist with itself changes nothing. -/
theorem mergeWhitelists_self (whitelists : Option Whitelists) :
    mergeWhitelists whitelists whitelists = whitelists.getD {} := by
  cases whitelists with
  | none => rfl
  | some lists => simp [mergeWhitelists, intersectList_self]

end Lists

/-- `intersect_capabilities`. Without capabilities of its own, the policy allows those of
the manifest. -/
def intersectCapabilities (grant manifest policy : List Capability) : List Capability :=
  let policySet := if policy.isEmpty then manifest else policy
  grant.filter fun cap => manifest.contains cap && policySet.contains cap

theorem intersectCapabilities_self (capabilities : List Capability) :
    intersectCapabilities capabilities capabilities capabilities = capabilities := by
  rw [intersectCapabilities, List.filter_eq_self]
  intro capability hmem
  cases capabilities with
  | nil => cases hmem
  | cons first rest => simpa using hmem

/-- `max_safety`. -/
def maxSafety (a b : SafetyClass) : SafetyClass := max a b

/-- `union_side_effects`. -/
def unionSideEffects (a b : List SideEffect) : List SideEffect :=
  (a ++ b).dedup.insertionSort (· ≤ ·)

/-- `min_opt`. -/
def minOpt : Option UInt64 → Option UInt64 → Option UInt64 := minGiven

/-- `min_opt_u32`. -/
def minOptU32 : Option UInt32 → Option UInt32 → Option UInt32 := minGiven

/-- What `merge_limits` makes of a limit for an amount of the budget. -/
def capped (limit : Option UInt64) (amount : UInt64) : Option UInt64 :=
  if amount > 0 then some (min (limit.getD amount) amount) else limit

/-- `merge_limits`, with a budget. -/
def mergeLimits (manifest policy : Option Limits) (budget : Budget) : Limits where
  maxBytesIn :=
    capped (minOpt (manifest.bind (·.maxBytesIn)) (policy.bind (·.maxBytesIn))) budget.bytesIn
  maxBytesOut :=
    capped (minOpt (manifest.bind (·.maxBytesOut)) (policy.bind (·.maxBytesOut)))
      budget.bytesOut
  maxFiles :=
    capped (minOpt (manifest.bind (·.maxFiles)) (policy.bind (·.maxFiles))) budget.fileCount
  maxDepth := minOptU32 (manifest.bind (·.maxDepth)) (policy.bind (·.maxDepth))
  maxConcurrency :=
    minOptU32 (manifest.bind (·.maxConcurrency)) (policy.bind (·.maxConcurrency))

/-- `merge_mappings`. -/
def mergeMappings (manifest policy : Option Mappings) : Mappings where
  rootFs := (policy.bind (·.rootFs)).orElse fun _ => manifest.bind (·.rootFs)
  tmpDir := (policy.bind (·.tmpDir)).orElse fun _ => manifest.bind (·.tmpDir)

/-- `min_timeout`. -/
def minTimeout (manifest policy defaultTimeout : Option UInt64) : UInt64 :=
  let timeouts := manifest.toList ++ policy.toList ++ defaultTimeout.toList
  timeouts.min?.getD 30000

/-- What `serde_json` and `sha2` make of a policy and of a profile. -/
structure Hashing where
  /-- `serde_json::to_vec` of a policy. -/
  policyBytes : PolicyConfig → Option (List UInt8)
  /-- `serde_json::to_vec` of a profile. -/
  profileBytes : Profile → Option (List UInt8)
  /-- `hex::encode` of the SHA-256 digest. -/
  sha256Hex : List UInt8 → String

/-- No bytes and no digests. -/
def Hashing.none : Hashing where
  policyBytes _ := Option.none
  profileBytes _ := Option.none
  sha256Hex _ := ""

/-- `Profile::hash`. -/
def Profile.hash (hashing : Hashing) (profile : Profile) : String :=
  hashing.sha256Hex ((hashing.profileBytes profile).getD [])

/-- `compute_policy_hash`. -/
def computePolicyHash (hashing : Hashing) (policy : PolicyConfig) : Option String :=
  match policy.policyHash with
  | some hash => some hash
  | none => (hashing.policyBytes policy).map hashing.sha256Hex

/-- `DefaultProfileBuilder::build`. -/
def DefaultProfileBuilder.build (hashing : Hashing) (grant : Grant) (manifest : ToolManifest)
    (policy : PolicyConfig) : SandboxResult Profile := do
  let caps := intersectCapabilities grant.capabilities manifest.capabilities policy.capabilities
  rejectIf caps.isEmpty (forbidden "capability set is empty after intersection")
  let policyHash := computePolicyHash hashing policy
  let profile : Profile := {
    tenant := grant.tenant
    subjectId := grant.subjectId
    toolName := manifest.name
    callId := grant.callId
    capabilities := caps
    safety := maxSafety manifest.safety policy.safetyClass
    sideEffects := unionSideEffects manifest.sideEffects policy.sideEffects
    limits := mergeLimits manifest.limits policy.limits grant.budget
    whitelists := mergeWhitelists manifest.whitelists policy.whitelists
    mappings := mergeMappings manifest.mappings policy.mappings
    timeoutMs := minTimeout manifest.timeoutMs policy.timeoutMs policy.defaultTimeoutMs
    profileHash := ""
    policyHash := policyHash
    configVersion := policy.configVersion
    configHash := policy.configHash.orElse fun _ => policyHash }
  return { profile with profileHash := profile.hash hashing }

section Built

variable {hashing : Hashing} {grant : Grant} {manifest : ToolManifest} {policy : PolicyConfig}
variable {profile : Profile}

/-- What the guard looks at in a profile. -/
theorem DefaultProfileBuilder.of_build (h : build hashing grant manifest policy = .ok profile) :
    profile.capabilities =
        intersectCapabilities grant.capabilities manifest.capabilities policy.capabilities ∧
      profile.whitelists = mergeWhitelists manifest.whitelists policy.whitelists ∧
        profile.mappings = mergeMappings manifest.mappings policy.mappings := by
  obtain ⟨_, hprofile⟩ := rejectIf_bind_eq_ok_iff.mp h
  rw [← Except.ok.inj hprofile]
  exact ⟨rfl, rfl, rfl⟩

end Built

end Soulbase.Sandbox
