/-
# The order of granted capabilities

The first capability of the grant that is permitted and covers the operation is chosen,
and the guard looks at that one only. Another one that covers the operation, too, may
fare differently with the whitelist, and the order decides which of them is tried.

`orderFree_iff` says when it does not: where the guard accepts all of them or none, or
the request is refused whichever is tried.
-/

import Soulbase.Foundation.FirstMatch
import Soulbase.Sandbox.Admission
import Soulbase.Sandbox.LeastPrivilege
import Soulbase.Sandbox.ReferenceMonitor

namespace Soulbase.Sandbox

open Soulbase.Foundation

/-- The request passes the selection, the check of the consent, the guard and the lookup. -/
def Passes (host : DefaultSandbox) (request : ExecuteRequest) (now : DateTime) : Prop :=
  ∃ found, answeredValue (host.reply now) (lookUp host.sandbox request) = .ok found

/-- The same request with these capabilities in the grant. -/
def ExecuteRequest.withCapabilities (request : ExecuteRequest)
    (capabilities : List Capability) : ExecuteRequest :=
  { request with grant := { request.grant with capabilities := capabilities } }

/-- Whether a capability covers the operation. -/
def coversOp (crates : Crates) : ExecOp → Capability → Bool
  | .fsRead path _ _, capability =>
      capability.kind = .fsRead && coversPath (normalizePath path) capability
  | .fsWrite path _ _, capability =>
      capability.kind = .fsWrite && coversPath (normalizePath path) capability
  | .fsList path, capability =>
      capability.kind = .fsList && coversPath (normalizePath path) capability
  | .netHttp method url _ _, capability =>
      (crates.parseUrl url).any fun parsed => parsed.hostStr.any fun host =>
        capability.isNet && coversUrl crates parsed host method capability
  | .browserNav _, capability | .browserScreenshot .., capability =>
      capability.kind = .browserUse
  | .procExec tool _ _, capability => capability = .procExec tool
  | .tmpAlloc _, capability => capability.kind = .tmpUse

/-- What the guard asks of the target of a capability. -/
def GuardAccepts (mappings : Mappings) (whitelists : Whitelists) : Capability → Prop
  | .fsRead path | .fsWrite path _ | .fsList path =>
      (∀ root, mappings.rootFs = some root →
          Text.startsWith (normalizePath path) (normalizePath root) = true) ∧
        (whitelists.paths ≠ [] →
          ∃ allowed ∈ whitelists.paths, Text.startsWith (normalizePath path) allowed = true)
  | .netHttp host _ _ _ => ∃ allowed ∈ whitelists.domains, Text.endsWith host allowed = true
  | .procExec tool => tool ∈ whitelists.tools
  | .browserUse _ | .tmpUse | .sysGpu _ => True

/-- What the guard asks in the profile of a request. -/
def ExecuteRequest.GuardAccepts (request : ExecuteRequest) : Capability → Prop :=
  Sandbox.GuardAccepts (mergeMappings request.manifest.mappings request.policy.mappings)
    (mergeWhitelists request.manifest.whitelists request.policy.whitelists)

/-- The capability may be chosen, in some order. -/
structure Eligible (crates : Crates) (request : ExecuteRequest) (capability : Capability) :
    Prop where
  granted : capability ∈ request.grant.capabilities
  permitted : Permits request.manifest request.policy capability
  covers : coversOp crates request.op capability = true

/-- The consent that the operation needs is there and has not expired. -/
def ConsentGiven (crates : Crates) (request : ExecuteRequest) (now : DateTime) : Prop :=
  ∀ profile : Profile,
    profile.safety = maxSafety request.manifest.safety request.policy.safetyClass →
      NeedsConsent crates profile request.op →
        ConsentedAt now request.grant.consent

/-- The guard treats all eligible capabilities alike, or all fail for another reason. -/
inductive OrderFree (host : DefaultSandbox) (request : ExecuteRequest) (now : DateTime) : Prop
  | accepted (hall : ∀ capability, Eligible host.crates request capability →
      request.GuardAccepts capability)
  | rejected (hnone : ∀ capability, Eligible host.crates request capability →
      ¬request.GuardAccepts capability)
  | unconsented (hconsent : ¬ConsentGiven host.crates request now)
  | unregistered (hexecutor : host.executors request.op.kind = none)

section Selection

variable {crates : Crates} {profile : Profile} {op : ExecOp} {capability : Capability}

/-- The selection takes the first capability that covers the operation. -/
theorem selectCapability_eq_ok_iff :
    selectCapability crates profile op = .ok capability ↔
      profile.capabilities.find? (coversOp crates op) = some capability := by
  cases op with
  | fsRead path _ _ | fsWrite path _ _ | fsList path =>
      simp only [selectCapability, findFsCapability, okOr_eq_ok_iff, List.find?_filter,
        Bool.decide_and, Bool.decide_eq_true]
      rfl
  | netHttp method url headers bodyB64 =>
      have hcoversOp : ∀ {parsed host}, crates.parseUrl url = some parsed →
          parsed.hostStr = some host → coversOp crates (.netHttp method url headers bodyB64) =
            fun capability =>
              capability.isNet && coversUrl crates parsed host method capability := by
        intro parsed host hparsed hhost
        funext capability
        simp [coversOp, hparsed, hhost]
      constructor
      · intro h
        obtain ⟨parsed, hparsed, h⟩ := bind_eq_ok_iff.mp h
        obtain ⟨host, hhost, h⟩ := bind_eq_ok_iff.mp h
        rw [hcoversOp (okOr_eq_ok_iff.mp hparsed) (okOr_eq_ok_iff.mp hhost)]
        simpa [List.find?_filter] using okOr_eq_ok_iff.mp h
      · intro h
        have hcovers := List.find?_some h
        simp only [coversOp, Option.any_eq_true] at hcovers
        obtain ⟨parsed, hparsed, host, hhost, _⟩ := hcovers
        rw [hcoversOp hparsed hhost] at h
        refine bind_eq_ok_iff.mpr ⟨parsed, okOr_eq_ok_iff.mpr hparsed, ?_⟩
        refine bind_eq_ok_iff.mpr ⟨host, okOr_eq_ok_iff.mpr hhost, okOr_eq_ok_iff.mpr ?_⟩
        simpa [List.find?_filter] using h
  | browserNav _ | browserScreenshot _ _ | tmpAlloc _ | procExec _ _ _ => exact okOr_eq_ok_iff

theorem validate_eq_ok_iff :
    DefaultPolicyGuard.validate profile capability = .ok () ↔
      capability ∈ profile.capabilities ∧
        GuardAccepts profile.mappings profile.whitelists capability := by
  refine rejectIf_bind_eq_ok_iff.trans ?_
  simp only [Bool.not_eq_false', List.contains_iff_mem]
  apply and_congr_right
  intro _
  cases capability with
  | fsRead path | fsWrite path _ | fsList path =>
      exact validatePath_eq_ok_iff.trans
        (and_congr validateRoot_eq_ok_iff validateListed_eq_ok_iff)
  | netHttp host _ _ _ => exact validateDomain_eq_ok_iff
  | procExec tool => exact validateTool_eq_ok_iff
  | browserUse _ | tmpUse | sysGpu _ => exact iff_of_true rfl trivial

end Selection

section Passing

variable {host : DefaultSandbox} {request : ExecuteRequest} {now : DateTime}

/-- What the profile of a request is made of. -/
theorem profile_of_build {hashing : Hashing} {profile : Profile}
    (h : DefaultProfileBuilder.build hashing request.grant request.manifest request.policy =
      .ok profile) :
    profile.capabilities =
        request.grant.capabilities.filter (Permits request.manifest request.policy ·) ∧
      profile.safety = maxSafety request.manifest.safety request.policy.safetyClass ∧
      profile.mappings = mergeMappings request.manifest.mappings request.policy.mappings ∧
      profile.whitelists =
        mergeWhitelists request.manifest.whitelists request.policy.whitelists := by
  obtain ⟨_, hbuilt⟩ := rejectIf_bind_eq_ok_iff.mp h
  cases hbuilt
  exact ⟨intersectCapabilities_eq_filter, rfl, rfl, rfl⟩

/-- The rule of consents looks at the class of a profile only. -/
theorem needsConsent_congr {crates : Crates} {op : ExecOp} {profile other : Profile}
    (h : profile.safety = other.safety) :
    NeedsConsent crates profile op ↔ NeedsConsent crates other op := by
  cases op <;> simp only [NeedsConsent, h]

theorem consentGiven_iff {crates : Crates} {profile : Profile}
    (h : profile.safety = maxSafety request.manifest.safety request.policy.safetyClass) :
    ConsentGiven crates request now ↔
      (NeedsConsent crates profile request.op → ConsentedAt now request.grant.consent) := by
  constructor
  · exact fun hgiven => hgiven profile h
  · intro hgiven other hother hneeds
    exact hgiven ((needsConsent_congr (hother.trans h.symm)).mp hneeds)

/-- Whether a capability is permitted and covers the operation. -/
def Matches (crates : Crates) (request : ExecuteRequest) (capability : Capability) : Bool :=
  Permits request.manifest request.policy capability && coversOp crates request.op capability

theorem eligible_iff {crates : Crates} {capability : Capability} :
    Eligible crates request capability ↔
      capability ∈ request.grant.capabilities ∧ Matches crates request capability = true := by
  simp only [Matches, Bool.and_eq_true, decide_eq_true_eq]
  constructor
  · exact fun h => ⟨h.granted, h.permitted, h.covers⟩
  · exact fun h => ⟨h.1, h.2.1, h.2.2⟩

theorem Eligible.matches {crates : Crates} {capability : Capability}
    (h : Eligible crates request capability) : Matches crates request capability = true :=
  (eligible_iff.mp h).2

theorem find?_profile {crates : Crates} {hashing : Hashing} {profile : Profile}
    (h : DefaultProfileBuilder.build hashing request.grant request.manifest request.policy =
      .ok profile) :
    profile.capabilities.find? (coversOp crates request.op) =
      request.grant.capabilities.find? (Matches crates request) := by
  rw [(profile_of_build h).1, List.find?_filter]
  congr 1
  funext capability
  simp [Matches]

/-- For a capability that is chosen from a profile, the two rules of consents agree. -/
theorem consentGiven_iff_required {hashing : Hashing} {profile : Profile}
    {capability : Capability} {crates : Crates}
    (hbuilt : DefaultProfileBuilder.build hashing request.grant request.manifest
      request.policy = .ok profile)
    (hselected : selectCapability crates profile request.op = .ok capability) :
    ConsentGiven crates request now ↔
      (requiresConsent crates capability request.op profile = true →
        ConsentedAt now request.grant.consent) := by
  rw [consentGiven_iff (profile_of_build hbuilt).2.1,
    requiresConsent_iff (mem_and_kind_of_selectCapability hselected).2]

/-- A request passes iff the first capability that matches is accepted, and nothing else
fails. -/
theorem passes_iff :
    Passes host request now ↔
      ∃ first, request.grant.capabilities.find? (Matches host.crates request) = some first ∧
        request.GuardAccepts first ∧ ConsentGiven host.crates request now ∧
          host.executors request.op.kind ≠ none := by
  rw [Passes, DefaultSandbox.answeredValue_lookUp]
  simp only [bind_eq_ok_iff, DefaultSandbox.ensureConsent_eq_ok_iff, rejectIf_eq_ok_iff,
    Bool.not_eq_false']
  constructor
  · rintro ⟨_, profile, hbuilt, capability, hselected, _, hconsent, _, hguard, _, hregistered, _⟩
    obtain ⟨_, _, hmappings, hwhitelists⟩ := profile_of_build hbuilt
    have haccepts := (validate_eq_ok_iff.mp hguard).2
    rw [hmappings, hwhitelists] at haccepts
    rw [(mem_and_kind_of_selectCapability hselected).2] at hregistered
    refine ⟨capability, ?_, haccepts, (consentGiven_iff_required hbuilt hselected).mpr hconsent,
      Option.isSome_iff_ne_none.mp hregistered⟩
    rw [← find?_profile hbuilt]
    exact selectCapability_eq_ok_iff.mp hselected
  · rintro ⟨first, hfound, haccepts, hconsent, hregistered⟩
    have hmatches := List.find?_some hfound
    simp only [Matches, Bool.and_eq_true, decide_eq_true_eq] at hmatches
    cases hbuilt : DefaultProfileBuilder.build host.hashing request.grant request.manifest
        request.policy with
    | error error =>
        have hnone := (build_eq_error_iff.mp hbuilt).1 first (List.mem_of_find?_eq_some hfound)
        exact absurd hmatches.1 hnone
    | ok profile =>
        have hselected : selectCapability host.crates profile request.op = .ok first :=
          selectCapability_eq_ok_iff.mpr ((find?_profile hbuilt).trans hfound)
        obtain ⟨hmem, hkind⟩ := mem_and_kind_of_selectCapability hselected
        obtain ⟨_, _, hmappings, hwhitelists⟩ := profile_of_build hbuilt
        have hguard : DefaultPolicyGuard.validate profile first = .ok () := by
          rw [validate_eq_ok_iff, hmappings, hwhitelists]
          exact ⟨hmem, haccepts⟩
        refine ⟨(profile, first), profile, rfl, first, hselected, (),
          (consentGiven_iff_required hbuilt hselected).mp hconsent, (), hguard, (), ?_, rfl⟩
        rw [hkind]
        exact Option.isSome_iff_ne_none.mpr hregistered

end Passing

/-- Whether a request passes is the same for all orders of the granted capabilities iff the
guard treats all of them that may be chosen alike, or all fail for another reason. -/
theorem orderFree_iff (host : DefaultSandbox) (request : ExecuteRequest) (now : DateTime) :
    (∀ capabilities : List Capability, capabilities.Perm request.grant.capabilities →
        (Passes host (request.withCapabilities capabilities) now ↔ Passes host request now)) ↔
      OrderFree host request now := by
  have hpasses : ∀ capabilities : List Capability,
      Passes host (request.withCapabilities capabilities) now ↔
        ∃ first, capabilities.find? (Matches host.crates request) = some first ∧
          request.GuardAccepts first ∧ ConsentGiven host.crates request now ∧
            host.executors request.op.kind ≠ none :=
    fun capabilities => passes_iff
  have hself : Passes host request now ↔ _ := hpasses request.grant.capabilities
  simp only [hpasses, hself, forall_perm_find?_iff]
  constructor
  · rintro (hall | hnone)
    · exact .accepted fun capability heligible =>
        (hall capability heligible.granted heligible.matches).1
    · by_cases hconsent : ConsentGiven host.crates request now
      · by_cases hexecutor : host.executors request.op.kind = none
        · exact .unregistered hexecutor
        · exact .rejected fun capability heligible haccepts =>
            hnone capability heligible.granted heligible.matches ⟨haccepts, hconsent, hexecutor⟩
      · exact .unconsented hconsent
  · intro h
    cases h with
    | accepted hall =>
        by_cases hothers : ConsentGiven host.crates request now ∧
            host.executors request.op.kind ≠ none
        · left
          intro capability hmem hmatches
          exact ⟨hall capability (eligible_iff.mpr ⟨hmem, hmatches⟩), hothers⟩
        · right
          exact fun capability hmem hmatches hpasses => hothers hpasses.2
    | rejected hnone =>
        right
        intro capability hmem hmatches hpasses
        exact hnone capability (eligible_iff.mpr ⟨hmem, hmatches⟩) hpasses.1
    | unconsented hconsent =>
        exact .inr fun capability hmem hmatches hpasses => hconsent hpasses.2.1
    | unregistered hexecutor =>
        exact .inr fun capability hmem hmatches hpasses => hpasses.2.2 hexecutor

namespace NestedGrants

/-- Reading `/data/public` and all of `/data` is granted, in this order. -/
def grant : Grant := .forCall "reader" [.fsRead "/data/public", .fsRead "/data"]

/-- The manifest whitelists the public directory, and a file of it is read. -/
def request : ExecuteRequest :=
  { grant.request (.fsRead "/data/public/list" none none) with
    manifest := { grant.manifest with whitelists := some { paths := ["/data/public"] } } }

/-- The executor of the file system is registered. -/
def host : DefaultSandbox := .withExecutor .fsRead .fs

end NestedGrants

/-- The request passes, and does not if the capabilities change places. -/
theorem not_orderFree_nestedGrants :
    ¬∀ (host : DefaultSandbox) (request : ExecuteRequest) (now : DateTime)
      (capabilities : List Capability), capabilities.Perm request.grant.capabilities →
        (Passes host (request.withCapabilities capabilities) now ↔ Passes host request now) := by
  intro h
  have hsame := h NestedGrants.host NestedGrants.request ⟨0⟩
    [.fsRead "/data", .fsRead "/data/public"] (List.Perm.swap _ _ _)
  have hpasses : Passes NestedGrants.host NestedGrants.request ⟨0⟩ := ⟨_, rfl⟩
  have hrefused : answeredValue (NestedGrants.host.reply ⟨0⟩) (lookUp NestedGrants.host.sandbox
      (NestedGrants.request.withCapabilities [.fsRead "/data", .fsRead "/data/public"])) =
        .error (.policyViolation "path not in whitelist") := rfl
  obtain ⟨_, hfound⟩ := hsame.mpr hpasses
  cases hrefused.symm.trans hfound

end Soulbase.Sandbox
