/-
# A manifest and its own whitelist

Preflight builds a whitelist from the declarations of a manifest and then asks the guard whether
it accepts the capabilities of the same declarations. Hosts and tools are compared as they are
declared, and always pass. A path is normalised before it is compared, and the entries of the
whitelist are not, so that a declared path passes iff its normalised form begins with a declared
path as it is written. One with a slash at its end does not.
-/

import Soulbase.Tools.Preflight

namespace Soulbase.Tools

open Soulbase.Foundation
open Soulbase.Sandbox (Capability Profile normalizePath validateDomain_eq_ok_iff
  validateListed_eq_ok_iff validatePath_eq_ok_iff validateRoot_eq_ok_iff validateTool_eq_ok_iff)

/-- The resources that are declared for a domain. -/
def declared (domain : String) (decls : List CapabilityDecl) : List String :=
  (decls.filter (·.domain = domain)).map (·.resource)

section Declared

variable {upper : Char → List Char} {decls : List CapabilityDecl} {decl : CapabilityDecl}
variable {whitelists : Option Sandbox.Whitelists}

theorem mem_declared {domain resource : String} :
    resource ∈ declared domain decls ↔
      ∃ decl ∈ decls, decl.domain = domain ∧ decl.resource = resource := by
  simp [declared, and_assoc]

theorem declared_append {domain : String} :
    declared domain [decl] ++ declared domain decls = declared domain (decl :: decls) := by
  rw [declared, declared, ← List.map_append, ← List.filter_append]
  rfl

/-- A declaration adds its resource to the list of its domain. -/
theorem lists_addToWhitelists :
    ((addToWhitelists upper whitelists decl).getD {}).paths =
        (whitelists.getD {}).paths ++ declared "fs" [decl] ∧
      ((addToWhitelists upper whitelists decl).getD {}).domains =
          (whitelists.getD {}).domains ++ declared "net.http" [decl] ∧
        ((addToWhitelists upper whitelists decl).getD {}).tools =
          (whitelists.getD {}).tools ++ declared "proc" [decl] := by
  unfold addToWhitelists
  split
  case h_1 hdomain => simp [declared, hdomain]
  case h_2 hdomain => simp [declared, hdomain]
  case h_3 hdomain => simp [declared, hdomain]
  case h_4 hnet hfs hproc => simpa [declared] using ⟨hfs, hnet, hproc⟩

theorem lists_foldl_addToWhitelists :
    ((decls.foldl (addToWhitelists upper) whitelists).getD {}).paths =
        (whitelists.getD {}).paths ++ declared "fs" decls ∧
      ((decls.foldl (addToWhitelists upper) whitelists).getD {}).domains =
          (whitelists.getD {}).domains ++ declared "net.http" decls ∧
        ((decls.foldl (addToWhitelists upper) whitelists).getD {}).tools =
          (whitelists.getD {}).tools ++ declared "proc" decls := by
  induction decls generalizing whitelists with
  | nil => simp [declared]
  | cons first rest ih =>
      obtain ⟨hpath, hdomain, htool⟩ : _ ∧ _ ∧ _ := @lists_addToWhitelists upper first whitelists
      rw [List.foldl_cons, ih.1, ih.2.1, ih.2.2, hpath, hdomain, htool]
      simp only [List.append_assoc, declared_append, and_self]

/-- The whitelist has what is declared. -/
theorem lists_buildWhitelists {manifest : ToolManifest} :
    ((buildWhitelists upper manifest).getD {}).paths = declared "fs" manifest.capabilities ∧
      ((buildWhitelists upper manifest).getD {}).domains =
          declared "net.http" manifest.capabilities ∧
        ((buildWhitelists upper manifest).getD {}).tools = declared "proc" manifest.capabilities :=
  lists_foldl_addToWhitelists

end Declared

/-- A declaration of files for an action that there is a capability for. -/
def CapabilityDecl.NamesPath (decl : CapabilityDecl) : Prop :=
  decl.domain = "fs" ∧ (decl.action = "read" ∨ decl.action = "write" ∨ decl.action = "list")

/-- The normalised form of every path with a capability begins with a declared path. -/
def ToolManifest.PathsListed (manifest : ToolManifest) : Prop :=
  ∀ decl ∈ manifest.capabilities, decl.NamesPath →
    ∃ other ∈ manifest.capabilities, other.domain = "fs" ∧
      Text.startsWith (normalizePath decl.resource) other.resource = true

section Guard

variable {upper : Char → List Char} {manifest : ToolManifest} {profile : Profile}
variable {decl : CapabilityDecl} {capability : Capability}

/-- There is a capability for such a declaration. -/
theorem exists_capability (upper : Char → List Char) (h : decl.NamesPath) :
    ∃ capability, decl.toCapability upper = some capability := by
  obtain ⟨hdomain, haction⟩ := h
  unfold CapabilityDecl.toCapability
  rw [hdomain]
  rcases haction with haction | haction | haction <;> rw [haction] <;> exact ⟨_, rfl⟩

theorem absurd_path {holds : Prop} (h : decl.domain ≠ "fs") : decl.NamesPath → holds :=
  fun hpath => absurd hpath.1 h

theorem iff_implies {names holds : Prop} (h : names) : holds ↔ (names → holds) :=
  ⟨fun hholds _ => hholds, fun himplies => himplies h⟩

/-- What the guard looks at in a profile that is built from a manifest alone. -/
structure BuiltFrom (upper : Char → List Char) (manifest : ToolManifest) (profile : Profile) :
    Prop where
  capabilities : profile.capabilities = manifestToCapabilities upper manifest
  whitelists : profile.whitelists = (buildWhitelists upper manifest).getD {}
  rootFs : profile.mappings.rootFs = none

theorem builtFrom_of_build {hashing : Sandbox.Hashing} {toolCall : ToolCall} {spec : AvailableSpec}
    {fingerprint : ConfigFingerprint}
    (h : Sandbox.DefaultProfileBuilder.build hashing (buildGrant upper toolCall spec.manifest)
      (toSandboxManifest upper spec.manifest) (buildPolicyConfig upper spec fingerprint) =
        .ok profile) : BuiltFrom upper spec.manifest profile := by
  obtain ⟨hcapabilities, hwhitelists, hmappings⟩ := Sandbox.DefaultProfileBuilder.of_build h
  exact ⟨hcapabilities.trans (Sandbox.intersectCapabilities_self _),
    hwhitelists.trans (Sandbox.mergeWhitelists_self _), by rw [hmappings]; rfl⟩

namespace BuiltFrom

theorem validatePath_iff (h : BuiltFrom upper manifest profile) {path : String}
    (hdeclared : path ∈ declared "fs" manifest.capabilities) :
    Sandbox.validatePath path profile = .ok () ↔
      ∃ other ∈ manifest.capabilities, other.domain = "fs" ∧
        Text.startsWith (normalizePath path) other.resource = true := by
  rw [validatePath_eq_ok_iff, validateRoot_eq_ok_iff, validateListed_eq_ok_iff, h.whitelists,
    lists_buildWhitelists.1, h.rootFs]
  have hne := List.ne_nil_of_mem hdeclared
  constructor
  · rintro ⟨-, hlisted⟩
    obtain ⟨allowed, hallowed, hstarts⟩ := hlisted hne
    obtain ⟨other, hother, hdomain, rfl⟩ := mem_declared.mp hallowed
    exact ⟨other, hother, hdomain, hstarts⟩
  · rintro ⟨other, hother, hdomain, hstarts⟩
    exact ⟨by simp, fun _ => ⟨_, mem_declared.mpr ⟨other, hother, hdomain, rfl⟩, hstarts⟩⟩

theorem validateDomain_of_mem (h : BuiltFrom upper manifest profile) {host : String}
    (hdeclared : host ∈ declared "net.http" manifest.capabilities) :
    Sandbox.validateDomain host profile = .ok () := by
  rw [validateDomain_eq_ok_iff, h.whitelists, lists_buildWhitelists.2.1]
  exact ⟨host, hdeclared, Text.endsWith_iff.mpr List.suffix_rfl⟩

theorem validateTool_of_mem (h : BuiltFrom upper manifest profile) {tool : String}
    (hdeclared : tool ∈ declared "proc" manifest.capabilities) :
    Sandbox.validateTool tool profile = .ok () := by
  rw [validateTool_eq_ok_iff, h.whitelists, lists_buildWhitelists.2.2]
  exact hdeclared

/-- The guard accepts the capability of a declaration, unless that is a path that is not listed. -/
theorem validate_iff_of_mem (h : BuiltFrom upper manifest profile)
    (hdecl : decl ∈ manifest.capabilities) (hcap : decl.toCapability upper = some capability) :
    Sandbox.DefaultPolicyGuard.validate profile capability = .ok () ↔
      (decl.NamesPath → ∃ other ∈ manifest.capabilities, other.domain = "fs" ∧
        Text.startsWith (normalizePath decl.resource) other.resource = true) := by
  have hmem : profile.capabilities.contains capability = true := by
    rw [h.capabilities, List.contains_iff_mem]
    exact mem_manifestToCapabilities_iff.mpr ⟨decl, hdecl, hcap⟩
  unfold Sandbox.DefaultPolicyGuard.validate
  rw [hmem, Bool.not_true, Sandbox.rejectIf_bind_eq_ok_iff, and_iff_right rfl]
  unfold CapabilityDecl.toCapability at hcap
  split at hcap
  case h_1 hdomain =>
    have hdeclared : decl.resource ∈ declared "fs" manifest.capabilities :=
      mem_declared.mpr ⟨decl, hdecl, hdomain, rfl⟩
    split at hcap
    case h_1 haction =>
      obtain rfl := Option.some.inj hcap
      exact (h.validatePath_iff hdeclared).trans (iff_implies ⟨hdomain, .inl haction⟩)
    case h_2 haction =>
      obtain rfl := Option.some.inj hcap
      exact (h.validatePath_iff hdeclared).trans (iff_implies ⟨hdomain, .inr (.inl haction)⟩)
    case h_3 haction =>
      obtain rfl := Option.some.inj hcap
      exact (h.validatePath_iff hdeclared).trans (iff_implies ⟨hdomain, .inr (.inr haction)⟩)
    case h_4 => cases hcap
  case h_2 hdomain =>
    obtain rfl := Option.some.inj hcap
    refine iff_of_true ?_ (absurd_path (by simp [hdomain]))
    exact h.validateDomain_of_mem (mem_declared.mpr ⟨decl, hdecl, hdomain, rfl⟩)
  case h_3 hdomain =>
    obtain rfl := Option.some.inj hcap
    exact iff_of_true rfl (absurd_path (by simp [hdomain]))
  case h_4 hdomain =>
    obtain rfl := Option.some.inj hcap
    exact iff_of_true rfl (absurd_path (by simp [hdomain]))
  case h_5 hdomain =>
    obtain rfl := Option.some.inj hcap
    refine iff_of_true ?_ (absurd_path (by simp [hdomain]))
    exact h.validateTool_of_mem (mem_declared.mpr ⟨decl, hdecl, hdomain, rfl⟩)
  case h_6 => cases hcap

/-- The guard accepts all capabilities where every path is listed. -/
theorem validate_all_iff (h : BuiltFrom upper manifest profile) :
    (∀ capability ∈ manifestToCapabilities upper manifest,
        Sandbox.DefaultPolicyGuard.validate profile capability = .ok ()) ↔
      manifest.PathsListed := by
  constructor
  · intro haccepts decl hdecl hpath
    obtain ⟨capability, hcap⟩ := exists_capability upper hpath
    have hmem := mem_manifestToCapabilities_iff.mpr ⟨decl, hdecl, hcap⟩
    exact (h.validate_iff_of_mem hdecl hcap).mp (haccepts capability hmem) hpath
  · intro hlisted capability hmem
    obtain ⟨decl, hdecl, hcap⟩ := mem_manifestToCapabilities_iff.mp hmem
    exact (h.validate_iff_of_mem hdecl hcap).mpr (hlisted decl hdecl)

end BuiltFrom

end Guard

section Preflight

variable {crates : ToolCrates} {toolCall : ToolCall} {spec : AvailableSpec}
variable {fingerprint : ConfigFingerprint} {profile : Profile}

/-- The guard accepts all capabilities of a manifest, for a profile that is built from it, exactly
where the normalised form of every declared path begins with a declared path. -/
theorem guard_accepts_iff
    (hbuilt : Sandbox.DefaultProfileBuilder.build crates.hashing
      (buildGrant crates.sandbox.upper toolCall spec.manifest)
      (toSandboxManifest crates.sandbox.upper spec.manifest)
      (buildPolicyConfig crates.sandbox.upper spec fingerprint) = .ok profile) :
    (∀ capability ∈ manifestToCapabilities crates.sandbox.upper spec.manifest,
        Sandbox.DefaultPolicyGuard.validate profile capability = .ok ()) ↔
      spec.manifest.PathsListed :=
  (builtFrom_of_build hbuilt).validate_all_iff

/-- So preflight builds a profile, and no capability is blocked, exactly there. -/
theorem buildProfile_eq_ok_iff :
    buildProfile crates toolCall spec fingerprint = .ok profile ↔
      Sandbox.DefaultProfileBuilder.build crates.hashing
          (buildGrant crates.sandbox.upper toolCall spec.manifest)
          (toSandboxManifest crates.sandbox.upper spec.manifest)
          (buildPolicyConfig crates.sandbox.upper spec fingerprint) = .ok profile ∧
        spec.manifest.PathsListed := by
  constructor
  · intro h
    obtain ⟨built, hbuilt, hrest⟩ := except_bind_eq_ok_iff.mp h
    obtain ⟨_, haccepts, hreturn⟩ := except_bind_eq_ok_iff.mp hrest
    cases hreturn
    have hbuilt := blocked_eq_ok_iff.mp hbuilt
    have haccepts := validateAll_eq_ok_iff.mp haccepts
    exact ⟨hbuilt, (builtFrom_of_build hbuilt).validate_all_iff.mp haccepts⟩
  · rintro ⟨hbuilt, hlisted⟩
    have haccepts := (builtFrom_of_build hbuilt).validate_all_iff.mpr hlisted
    exact except_bind_eq_ok_iff.mpr ⟨profile, blocked_eq_ok_iff.mpr hbuilt,
      except_bind_eq_ok_iff.mpr ⟨(), validateAll_eq_ok_iff.mpr haccepts, rfl⟩⟩

/-- The registered tool, for a declaration to read files. -/
def readerSpec (resource : String) : AvailableSpec :=
  (InMemoryRegistry.fresh (echoManifest [⟨"fs", "read", resource⟩])).convert

theorem guard_accepts_iff_data :
    ∃ profile, (∀ capability ∈
        manifestToCapabilities echoCrates.sandbox.upper (readerSpec "/data").manifest,
        Sandbox.DefaultPolicyGuard.validate profile capability = .ok ()) ↔
      (readerSpec "/data").manifest.PathsListed :=
  ⟨_, @guard_accepts_iff echoCrates (echoCall "tenant-a" "") (readerSpec "/data") {} _ rfl⟩

/-- A declared path with a slash at its end is not accepted. -/
theorem not_guard_accepts_slash :
    ¬ ∀ (crates : ToolCrates) (toolCall : ToolCall) (spec : AvailableSpec)
        (fingerprint : ConfigFingerprint) (profile : Profile),
        spec.manifest.validate crates.validator = .ok () →
        Sandbox.DefaultProfileBuilder.build crates.hashing
            (buildGrant crates.sandbox.upper toolCall spec.manifest)
            (toSandboxManifest crates.sandbox.upper spec.manifest)
            (buildPolicyConfig crates.sandbox.upper spec fingerprint) = .ok profile →
          ∀ capability ∈ manifestToCapabilities crates.sandbox.upper spec.manifest,
            Sandbox.DefaultPolicyGuard.validate profile capability = .ok () := by
  intro h
  have haccepts := h echoCrates (echoCall "tenant-a" "") (readerSpec "/data/") {} _ rfl rfl
  have hlisted := (@builtFrom_of_build _ _ echoCrates.hashing (echoCall "tenant-a" "")
    (readerSpec "/data/") {} rfl).validate_all_iff.mp haccepts
  obtain ⟨other, hother, -, hstarts⟩ := hlisted _ List.mem_cons_self ⟨rfl, .inl rfl⟩
  obtain rfl := List.mem_singleton.mp hother
  exact absurd hstarts (by decide)

end Preflight

end Soulbase.Tools
