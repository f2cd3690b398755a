/-
# The policy guard

`DefaultPolicyGuard` looks at a capability, not at an operation. It compares paths,
domains and tools with the lists of the profile as texts: a path and a domain pass
where they begin or end like an entry, a tool passes where it is one.

`normalizePath` is the text of the directory that the path leads to from the root,
`normalizePath_eq_text`.
-/

import Soulbase.Foundation.LexicalPath
import Soulbase.Sandbox.Errors
import Soulbase.Sandbox.Model

namespace Soulbase.Sandbox

open Soulbase.Foundation SandboxError

/-- A round of the loop of `normalize_path`. The root is an empty segment. -/
def pushComponent (segments : List String) : Component → List String
  | .rootDir => [""]
  | .curDir => segments
  | .parentDir => segments.dropLast
  | .normal part => segments ++ [part]

/-- `normalize_path`. -/
def normalizePath (path : String) : String :=
  let segments := (LexicalPath.components path).foldl pushComponent []
  if segments.isEmpty then "/"
  else
    let value := "/".intercalate segments
    if value = "" then "/"
    else if Text.startsWith value "/" then value
    else "/" ++ value

/-- The part of `validate_path` about the mapped root. -/
def validateRoot (normalized : String) (profile : Profile) : SandboxResult Unit :=
  match profile.mappings.rootFs with
  | none => .ok ()
  | some root =>
      rejectIf (!Text.startsWith normalized (normalizePath root))
        (policyViolation "path outside of mapped root")

/-- The part of `validate_path` about the whitelist. Its entries are not normalised. -/
def validateListed (normalized : String) (paths : List String) : SandboxResult Unit :=
  rejectIf (!paths.isEmpty && !paths.any (Text.startsWith normalized ·))
    (policyViolation "path not in whitelist")

/-- `validate_path`. -/
def validatePath (path : String) (profile : Profile) : SandboxResult Unit := do
  let normalized := normalizePath path
  validateRoot normalized profile
  validateListed normalized profile.whitelists.paths

/-- `validate_domain`. -/
def validateDomain (domain : String) (profile : Profile) : SandboxResult Unit := do
  rejectIf profile.whitelists.domains.isEmpty (policyViolation "network domains not declared")
  rejectIf (!profile.whitelists.domains.any (Text.endsWith domain ·))
    (policyViolation "domain not allowed")

/-- `validate_tool`. -/
def validateTool (tool : String) (profile : Profile) : SandboxResult Unit := do
  rejectIf profile.whitelists.tools.isEmpty (policyViolation "no allowed tools configured")
  rejectIf (!profile.whitelists.tools.any (· = tool)) (policyViolation "tool not allowed")

/-- `DefaultPolicyGuard::validate`. -/
def DefaultPolicyGuard.validate (profile : Profile) (capability : Capability) :
    SandboxResult Unit := do
  rejectIf (!profile.capabilities.contains capability)
    (permissionDenied "capability not allowed in profile")
  match capability with
  | .fsRead path | .fsWrite path _ | .fsList path => validatePath path profile
  | .netHttp host _ _ _ => validateDomain host profile
  | .procExec tool => validateTool tool profile
  | .browserUse _ | .tmpUse | .sysGpu _ => pure ()

section Accepts

variable {profile : Profile} {path domain tool normalized : String} {capability : Capability}
variable {paths : List String}

theorem validateRoot_eq_ok_iff :
    validateRoot normalized profile = .ok () ↔
      ∀ root, profile.mappings.rootFs = some root →
        Text.startsWith normalized (normalizePath root) = true := by
  unfold validateRoot
  cases profile.mappings.rootFs <;> simp

theorem validateListed_eq_ok_iff :
    validateListed normalized paths = .ok () ↔
      (paths ≠ [] → ∃ allowed ∈ paths, Text.startsWith normalized allowed = true) := by
  simp [validateListed]

theorem validatePath_eq_ok_iff :
    validatePath path profile = .ok () ↔
      validateRoot (normalizePath path) profile = .ok () ∧
        validateListed (normalizePath path) profile.whitelists.paths = .ok () := by
  rw [validatePath, bind_eq_ok_iff]
  constructor
  · rintro ⟨⟨⟩, hroot, hlisted⟩
    exact ⟨hroot, hlisted⟩
  · rintro ⟨hroot, hlisted⟩
    exact ⟨(), hroot, hlisted⟩

theorem validateDomain_eq_ok_iff :
    validateDomain domain profile = .ok () ↔
      ∃ allowed ∈ profile.whitelists.domains, Text.endsWith domain allowed = true := by
  simp only [validateDomain, rejectIf_bind_eq_ok_iff, rejectIf_eq_ok_iff, Bool.not_eq_false',
    List.any_eq_true]
  constructor
  · exact fun h => h.2
  · rintro ⟨allowed, hallowed, hends⟩
    exact ⟨by simp [List.ne_nil_of_mem hallowed], allowed, hallowed, hends⟩

theorem validateTool_eq_ok_iff :
    validateTool tool profile = .ok () ↔ tool ∈ profile.whitelists.tools := by
  simp only [validateTool, rejectIf_bind_eq_ok_iff, rejectIf_eq_ok_iff, Bool.not_eq_false',
    List.any_eq_true, decide_eq_true_eq, exists_eq_right]
  constructor
  · exact fun h => h.2
  · exact fun h => ⟨by simp [List.ne_nil_of_mem h], h⟩

theorem DefaultPolicyGuard.validatePath_of_validate (h : validate profile capability = .ok ())
    (hpath : capability.path? = some path) : validatePath path profile = .ok () := by
  have htarget := (rejectIf_bind_eq_ok_iff.mp h).2
  cases capability with
  | fsRead _ | fsWrite _ _ | fsList _ =>
      cases hpath
      exact htarget
  | netHttp _ _ _ _ | browserUse _ | procExec _ | tmpUse | sysGpu _ => cases hpath

end Accepts

section Normalized

variable {path : String} {segments names : List String}

/-- The segments are the names of a directory, behind an empty segment for the root or
without it. -/
def IsSegments (segments names : List String) : Prop := segments = names ∨ segments = "" :: names

theorem IsSegments.push (h : IsSegments segments names) (component : Component) :
    IsSegments (pushComponent segments component) (LexicalPath.follow names component) := by
  cases component with
  | rootDir => exact .inr rfl
  | curDir => exact h
  | parentDir =>
      rcases h with rfl | rfl
      · exact .inl rfl
      · cases names with
        | nil => exact .inl rfl
        | cons name rest => exact .inr rfl
  | normal part =>
      rcases h with rfl | rfl
      · exact .inl rfl
      · exact .inr rfl

theorem IsSegments.pushAll (h : IsSegments segments names) (steps : List Component) :
    IsSegments (steps.foldl pushComponent segments) (steps.foldl LexicalPath.follow names) := by
  induction steps generalizing segments names with
  | nil => exact h
  | cons step rest ih => exact ih (h.push step)

/-- Names with slashes between them do not begin with a slash. -/
theorem startsWith_intercalate {name : String} (hname : LexicalPath.IsName name)
    (rest : List String) : Text.startsWith ("/".intercalate (name :: rest)) "/" = false := by
  have hnonempty : name.toList ≠ [] := by simpa using hname.nonempty
  obtain ⟨letter, letters, hletters⟩ := List.exists_cons_of_ne_nil hnonempty
  have hslash : letter ≠ '/' := by
    rintro rfl
    exact hname.noSlash (by simp [hletters])
  cases rest <;> simp [Text.startsWith, List.isPrefixOf, hletters, hslash.symm]

/-- `normalize_path` gives the path, from the root, of the directory that a path leads
to from the root. -/
theorem normalizePath_eq_text : normalizePath path = (Directory.root.resolve path).text := by
  have hsegments : IsSegments ((LexicalPath.components path).foldl pushComponent [])
      (Directory.root.resolve path).names :=
    IsSegments.pushAll (.inl rfl) _
  have hnames := (Directory.root.resolve path).areNames
  rw [normalizePath, Directory.text, LexicalPath.text]
  generalize (Directory.root.resolve path).names = names at hsegments hnames
  rcases hsegments with hplain | hrooted
  · rw [hplain]
    cases names with
    | nil => rfl
    | cons name rest =>
        have hstarts := startsWith_intercalate (hnames name List.mem_cons_self) rest
        have hne : "/".intercalate (name :: rest) ≠ "" := by
          have hname := (hnames name List.mem_cons_self).nonempty
          cases rest <;> simp [hname]
        simp [hstarts, hne]
  · rw [hrooted]
    cases names with
    | nil => rfl
    | cons name rest =>
        rw [String.intercalate_cons_cons, String.empty_append]
        simp [Text.startsWith]

end Normalized

end Soulbase.Sandbox
