/-
# Choosing a capability

`select_capability` takes the first capability of the profile that covers an
operation. Paths and hosts are compared as texts, by their beginning and their end.

What the code uses of other crates, and of the Unicode tables, is collected in
`Crates`, and nothing is assumed of it.
-/

import Soulbase.Sandbox.Exec
import Soulbase.Sandbox.Guard

namespace Soulbase.Sandbox

open Soulbase.Foundation SandboxError

/-- `url::Url`, as far as it is looked at. A port that is the default of the scheme is
not there. -/
structure Url where
  scheme : String
  hostStr : Option String
  port : Option UInt16
  deriving DecidableEq

/-- What the sandbox calls outside of itself for a computation. -/
structure Crates where
  /-- `Url::parse`. -/
  parseUrl : String → Option Url
  /-- The upper case of a character. -/
  upper : Char → List Char
  /-- `BASE64.decode`. -/
  decodeBase64 : String → Option (List UInt8)
  /-- `BASE64.encode`. -/
  encodeBase64 : List UInt8 → String
  /-- `digest_value`: the SHA-256 digest of the JSON text of a value. -/
  digestValue : Json.Value → DataDigest

/-- Crates for ASCII texts, without URLs, payloads and digests. -/
def Crates.ascii : Crates where
  parseUrl _ := none
  upper letter := [letter.toUpper]
  decodeBase64 _ := none
  encodeBase64 _ := ""
  digestValue _ := { algo := "sha256", b64 := "", size := 0 }

/-- `Option::ok_or_else`. -/
def okOr {α : Type} (error : SandboxError) : Option α → SandboxResult α
  | some value => .ok value
  | none => .error error

@[simp]
theorem okOr_eq_ok_iff {α : Type} {error : SandboxError} {found : Option α} {value : α} :
    okOr error found = .ok value ↔ found = some value := by
  cases found <;> simp [okOr]

/-- `find_first`. -/
def findFirst (profile : Profile) (kind : CapabilityKind) : SandboxResult Capability :=
  okOr (capabilityMissing "required capability not granted")
    (profile.capabilities.find? (·.kind = kind))

/-- The test of `find_fs_capability`. -/
def coversPath (normalized : String) (capability : Capability) : Bool :=
  capability.path?.any fun path => Text.startsWith normalized (normalizePath path)

/-- `find_fs_capability`. -/
def findFsCapability (profile : Profile) (kind : CapabilityKind) (path : String) :
    SandboxResult Capability :=
  let normalized := normalizePath path
  okOr (capabilityMissing "filesystem path not covered by capability")
    ((profile.capabilities.filter (·.kind = kind)).find? (coversPath normalized))

/-- Whether a list of methods is empty or has the method. -/
def allowsMethod (crates : Crates) (methods : List String) (method : String) : Bool :=
  methods.isEmpty ||
    methods.any (Text.eqIgnoreAsciiCase · (Text.toUppercase crates.upper method))

/-- The test of `find_net_capability`. -/
def coversUrl (crates : Crates) (url : Url) (host method : String) : Capability → Bool
  | .netHttp allowedHost allowedPort allowedScheme methods =>
      allowsMethod crates methods method &&
        allowedScheme.all (Text.eqIgnoreAsciiCase · url.scheme) &&
          allowedPort.all (some · = url.port) && Text.endsWith host allowedHost
  | _ => false

/-- Whether it is a capability of the network. -/
def Capability.isNet : Capability → Bool
  | netHttp .. => true
  | _ => false

/-- `find_net_capability`. -/
def findNetCapability (crates : Crates) (profile : Profile) (url method : String) :
    SandboxResult Capability := do
  let parsed ← okOr (policyViolation "invalid URL") (crates.parseUrl url)
  let host ← okOr (policyViolation "URL missing host") parsed.hostStr
  okOr (capabilityMissing "network host not allowed")
    ((profile.capabilities.filter Capability.isNet).find? (coversUrl crates parsed host method))

/-- `find_proc_capability`. -/
def findProcCapability (profile : Profile) (tool : String) : SandboxResult Capability :=
  okOr (capabilityMissing "process tool not allowed")
    (profile.capabilities.find? (· = .procExec tool))

/-- `select_capability`. -/
def selectCapability (crates : Crates) (profile : Profile) : ExecOp → SandboxResult Capability
  | .fsRead path _ _ => findFsCapability profile .fsRead path
  | .fsWrite path _ _ => findFsCapability profile .fsWrite path
  | .fsList path => findFsCapability profile .fsList path
  | .netHttp method url _ _ => findNetCapability crates profile url method
  | .browserNav _ | .browserScreenshot .. => findFirst profile .browserUse
  | .procExec tool _ _ => findProcCapability profile tool
  | .tmpAlloc _ => findFirst profile .tmpUse

section Chosen

variable {crates : Crates} {profile : Profile} {op : ExecOp} {capability : Capability}
variable {path : String}

theorem findFsCapability_eq_ok {kind : CapabilityKind}
    (h : findFsCapability profile kind path = .ok capability) :
    capability ∈ profile.capabilities ∧ capability.kind = kind ∧
      coversPath (normalizePath path) capability = true := by
  have hfind := okOr_eq_ok_iff.mp h
  obtain ⟨hmem, hkind⟩ := List.mem_filter.mp (List.mem_of_find?_eq_some hfind)
  exact ⟨hmem, by simpa using hkind, List.find?_some hfind⟩

theorem findNetCapability_eq_ok {url method : String}
    (h : findNetCapability crates profile url method = .ok capability) :
    ∃ parsed host, crates.parseUrl url = some parsed ∧ parsed.hostStr = some host ∧
      capability ∈ profile.capabilities ∧
        coversUrl crates parsed host method capability = true := by
  obtain ⟨parsed, hparsed, h⟩ := bind_eq_ok_iff.mp h
  obtain ⟨host, hhost, h⟩ := bind_eq_ok_iff.mp h
  have hfind := okOr_eq_ok_iff.mp h
  obtain ⟨hmem, _⟩ := List.mem_filter.mp (List.mem_of_find?_eq_some hfind)
  exact ⟨parsed, host, okOr_eq_ok_iff.mp hparsed, okOr_eq_ok_iff.mp hhost, hmem,
    List.find?_some hfind⟩

theorem findFirst_eq_ok {kind : CapabilityKind} (h : findFirst profile kind = .ok capability) :
    capability ∈ profile.capabilities ∧ capability.kind = kind := by
  have hfind := okOr_eq_ok_iff.mp h
  have hkind := List.find?_some hfind
  exact ⟨List.mem_of_find?_eq_some hfind, by simpa using hkind⟩

/-- The capability for an operation on the file system covers its path. -/
theorem coversPath_of_selectCapability (hpath : op.path? = some path)
    (h : selectCapability crates profile op = .ok capability) :
    coversPath (normalizePath path) capability = true := by
  cases op with
  | fsRead _ _ _ | fsWrite _ _ _ | fsList _ =>
      cases hpath
      exact (findFsCapability_eq_ok h).2.2
  | netHttp _ _ _ _ | browserNav _ | browserScreenshot _ _ | procExec _ _ _ | tmpAlloc _ =>
      cases hpath

/-- The capability that is chosen is one of the profile, of the kind that the operation
needs. -/
theorem mem_and_kind_of_selectCapability
    (h : selectCapability crates profile op = .ok capability) :
    capability ∈ profile.capabilities ∧ capability.kind = op.kind := by
  cases op with
  | fsRead _ _ _ | fsWrite _ _ _ | fsList _ =>
      obtain ⟨hmem, hkind, _⟩ := findFsCapability_eq_ok h
      exact ⟨hmem, hkind⟩
  | netHttp method url headers bodyB64 =>
      obtain ⟨_, _, _, _, hmem, hcovers⟩ := findNetCapability_eq_ok h
      refine ⟨hmem, ?_⟩
      cases capability with
      | netHttp _ _ _ _ => rfl
      | fsRead _ | fsWrite _ _ | fsList _ | browserUse _ | procExec _ | tmpUse | sysGpu _ =>
          cases hcovers
  | browserNav _ | browserScreenshot _ _ | tmpAlloc _ => exact findFirst_eq_ok h
  | procExec tool args timeoutMs =>
      have hfind := okOr_eq_ok_iff.mp h
      have htool := List.find?_some hfind
      simp only [decide_eq_true_eq] at htool
      subst htool
      exact ⟨List.mem_of_find?_eq_some hfind, rfl⟩

end Chosen

end Soulbase.Sandbox
