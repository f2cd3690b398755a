/-
# Preflight

`PreflightService::preflight` as a program over the calls it makes of the registry, the
authorisation, the configuration, the clock and the metrics. The profile and the guard are
those of the sandbox. The guard is asked about the declared capabilities, before anything is
executed.
-/

import Soulbase.Auth.Model
import Soulbase.Foundation.Program
import Soulbase.Sandbox.Guard
import Soulbase.Sandbox.Profile
import Soulbase.Sandbox.Select
import Soulbase.Tools.Mapping

namespace Soulbase.Tools

open Soulbase.Foundation Soulbase.Errors ToolError
open Soulbase.Auth (Obligation)
open Soulbase.Sandbox (Grant PolicyConfig Profile ExecOp)

/-- `ToolOrigin`. -/
inductive ToolOrigin
  | llm
  | api
  | system
  deriving DecidableEq

/-- `ToolCall`. -/
structure ToolCall where
  toolId : ToolId
  callId : Id
  actor : Subject
  tenant : TenantId
  origin : ToolOrigin
  args : Json.Value
  consent : Option Consent
  idempotencyKey : Option String

/-- `ConfigFingerprint`. -/
structure ConfigFingerprint where
  version : Option String := none
  hash : Option String := none
  deriving DecidableEq

/-- `ConfigFingerprint::is_empty`. -/
def ConfigFingerprint.isEmpty (fingerprint : ConfigFingerprint) : Bool :=
  fingerprint.version.isNone && fingerprint.hash.isNone

/-- `PreflightPlan`. -/
structure PreflightPlan where
  spec : AvailableSpec
  sandboxManifest : Sandbox.ToolManifest
  grant : Grant
  policy : PolicyConfig
  profile : Profile
  obligations : List Obligation
  budgetSnapshot : Json.Value
  plannedOps : List ExecOp
  configVersion : Option String
  configHash : Option String

/-- `PreflightOutput`. -/
structure PreflightOutput where
  allow : Bool
  reason : Option String
  errorCode : Option String
  plan : Option PreflightPlan

namespace PreflightOutput

/-- `denied_with_code`. -/
def deniedWithCode (reason code : String) : PreflightOutput where
  allow := false
  reason := some reason
  errorCode := some code
  plan := none

/-- `allowed`. -/
def allowed (plan : PreflightPlan) : PreflightOutput where
  allow := true
  reason := none
  errorCode := none
  plan := some plan

end PreflightOutput

/-- `AuthDecision`. -/
structure AuthDecision where
  allow : Bool
  obligations : List Obligation
  reason : Option String
  errorCode : Option String

/-- `ConsentFailure`. -/
structure ConsentFailure where
  reason : String
  code : String
  deriving DecidableEq

/-- What the tools call of other crates for a computation. -/
structure ToolCrates where
  sandbox : Sandbox.Crates
  hashing : Sandbox.Hashing
  validator : SchemaValidator
  /-- `serde_json::to_vec`. -/
  toVec : Json.Value → Option (List UInt8)

/-- What `preflight` calls. -/
inductive PreflightOp
  /-- `ToolRegistry::get`. -/
  | registryGet (id : ToolId) (tenant : TenantId)
  /-- `ToolRegistry::update_config_fingerprint`. -/
  | updateConfigFingerprint (id : ToolId) (version hash : Option String)
  /-- `AuthProvider::authorize`. -/
  | authorize (call : ToolCall) (spec : AvailableSpec)
  /-- `ConfigProvider::current`. -/
  | currentConfig
  /-- `Utc::now`. -/
  | now
  /-- `ToolMetrics::record_preflight`. -/
  | recordPreflight (tenant : TenantId) (tool : ToolId) (origin : ToolOrigin) (allow : Bool)
      (code : Option String)

/-- What a call returns. -/
abbrev PreflightOp.Answer : PreflightOp → Type
  | registryGet .. => Option AvailableSpec
  | updateConfigFingerprint .. => ToolResult Unit
  | authorize .. => ToolResult AuthDecision
  | currentConfig => Option ConfigFingerprint
  | now => DateTime
  | recordPreflight .. => Unit

/-- A computation of `preflight`. -/
abbrev PreflightComputation := ExceptT ToolError (Program PreflightOp PreflightOp.Answer)

namespace PreflightComputation

/-- Make a call. -/
def call (op : PreflightOp) : PreflightComputation op.Answer := ExceptT.lift (perform op)

/-- The question mark operator. -/
def ofResult {α : Type} (result : ToolResult α) : PreflightComputation α :=
  ExceptT.mk (.done result)

end PreflightComputation

/-- `to_sandbox_safety`. -/
def toSandboxSafety : SafetyClass → Sandbox.SafetyClass
  | .low => .low
  | .medium => .medium
  | .high => .high

/-- `to_sandbox_side`. -/
def toSandboxSide : SideEffect → Sandbox.SideEffect
  | .none => .none
  | .read => .read
  | .write => .write
  | .network => .network
  | .filesystem => .filesystem
  | .browser => .browser
  | .process => .process

/-- The limits of a manifest, for the sandbox. -/
def Limits.toSandbox (limits : Limits) : Sandbox.Limits where
  maxBytesIn := some limits.maxBytesIn
  maxBytesOut := some limits.maxBytesOut
  maxFiles := some limits.maxFiles
  maxDepth := some limits.maxDepth
  maxConcurrency := some limits.maxConcurrency

/-- The body of the loop of `build_whitelists`. -/
def addToWhitelists (upper : Char → List Char) (whitelists : Option Sandbox.Whitelists)
    (decl : CapabilityDecl) : Option Sandbox.Whitelists :=
  let listed := whitelists.getD {}
  match decl.domain with
  | "net.http" => some { listed with
      domains := listed.domains ++ [decl.resource]
      methods := listed.methods ++ [Text.toUppercase upper decl.action] }
  | "fs" => some { listed with paths := listed.paths ++ [decl.resource] }
  | "proc" => some { listed with tools := listed.tools ++ [decl.resource] }
  | _ => whitelists

/-- `build_whitelists`. -/
def buildWhitelists (upper : Char → List Char) (manifest : ToolManifest) :
    Option Sandbox.Whitelists :=
  manifest.capabilities.foldl (addToWhitelists upper) none

/-- `build_grant`. -/
def buildGrant (upper : Char → List Char) (call : ToolCall) (manifest : ToolManifest) : Grant where
  tenant := call.tenant
  subjectId := call.actor.subjectId
  toolName := manifest.id.asStr
  callId := call.callId
  capabilities := manifestToCapabilities upper manifest
  expiresAt := 0
  budget :=
    { calls := 1
      bytesOut := manifest.limits.maxBytesOut
      bytesIn := manifest.limits.maxBytesIn
      cpuMs := 0
      gpuMs := 0
      fileCount := manifest.limits.maxFiles }
  decisionFingerprint := "tool-preflight"
  consent := call.consent

/-- `build_policy_config`. -/
def buildPolicyConfig (upper : Char → List Char) (spec : AvailableSpec)
    (fingerprint : ConfigFingerprint) : PolicyConfig where
  capabilities := manifestToCapabilities upper spec.manifest
  safetyClass := toSandboxSafety spec.manifest.safetyClass
  sideEffects := [toSandboxSide spec.manifest.sideEffect]
  limits := some spec.manifest.limits.toSandbox
  whitelists := buildWhitelists upper spec.manifest
  mappings := none
  timeoutMs := some spec.manifest.limits.timeoutMs
  defaultTimeoutMs := none
  policyHash := some spec.policyHash
  configVersion := fingerprint.version
  configHash := fingerprint.hash

/-- `to_sandbox_manifest`. -/
def toSandboxManifest (upper : Char → List Char) (manifest : ToolManifest) :
    Sandbox.ToolManifest where
  name := manifest.id.asStr
  version := manifest.version
  capabilities := manifestToCapabilities upper manifest
  safety := toSandboxSafety manifest.safetyClass
  sideEffects := [toSandboxSide manifest.sideEffect]
  limits := some manifest.limits.toSandbox
  whitelists := buildWhitelists upper manifest
  mappings := none
  timeoutMs := some manifest.limits.timeoutMs
  metadata := manifest.metadata

/-- `budget_snapshot`. -/
def budgetSnapshot (crates : ToolCrates) (args : Json.Value) (now : DateTime) : Json.Value :=
  .object [("args_size_bytes", .number (.posInt (.ofNat ((crates.toVec args).elim 0 List.length)))),
    ("timestamp_ms", .ofInt64 now.timestampMillis)]

/-! ## The consent -/

/-- A failure of `ensure_consent`. -/
def consentFailure (reason : String) : ConsentFailure := ⟨reason, codes.authForbidden.value⟩

/-- The part of `ensure_consent` that compares a consent with the time. -/
def checkExpiry (policy : ConsentPolicy) (expiresAt now : Int64) : Except ConsentFailure Unit :=
  if expiresAt < now then .error (consentFailure "consent expired")
  else if policy.maxTtlMs.any fun maxTtl => expiresAt - now > maxTtl.toInt64 then
    .error (consentFailure "consent ttl exceeds policy")
  else .ok ()

/-- The part of `ensure_consent` about scopes. -/
def checkScopes (manifest : ToolManifest) (consent : Consent) : Except ConsentFailure Unit :=
  let granted := consent.scopes.map fun scope => (scope.resource, scope.action)
  if manifest.scopes.all fun scope => granted.contains (scope.resource, scope.action) then .ok ()
  else .error (consentFailure "consent scopes insufficient")

/-- `ensure_consent`. -/
def ensureConsent (manifest : ToolManifest) (call : ToolCall) :
    Program PreflightOp PreflightOp.Answer (Except ConsentFailure Unit) :=
  if manifest.consent.required then
    match call.consent with
    | none => return .error (consentFailure "consent required")
    | some consent =>
        match consent.expiresAt with
        | none => return checkScopes manifest consent
        | some expiresAt => do
            let now : DateTime ← perform PreflightOp.now
            return checkExpiry manifest.consent expiresAt.asMillis now.timestampMillis >>= fun _ =>
              checkScopes manifest consent
  else return .ok ()

open PreflightComputation

/-- An outcome that denies, with its entry in the metrics. -/
def deny (toolCall : ToolCall) (reason code : String) : PreflightComputation PreflightOutput := do
  call (.recordPreflight toolCall.tenant toolCall.toolId toolCall.origin false (some code))
  return .deniedWithCode reason code

/-- `map_err` to `ToolError::sandbox_blocked`. -/
def blocked {α : Type} : Sandbox.SandboxResult α → ToolResult α
  | .ok value => .ok value
  | .error err => .error (sandboxBlocked err.toPublic.message)

/-- The loop of `preflight` over the capabilities of the manifest. -/
def validateAll (profile : Profile) (capabilities : List Sandbox.Capability) : ToolResult Unit :=
  capabilities.forM fun capability =>
    blocked (Sandbox.DefaultPolicyGuard.validate profile capability)

theorem blocked_eq_ok_iff {α : Type} {result : Sandbox.SandboxResult α} {value : α} :
    blocked result = .ok value ↔ result = .ok value := by
  cases result <;> simp [blocked]

/-- The loop ends where the guard accepts every capability. -/
theorem validateAll_eq_ok_iff {profile : Profile} {capabilities : List Sandbox.Capability} :
    validateAll profile capabilities = .ok () ↔
      ∀ capability ∈ capabilities,
        Sandbox.DefaultPolicyGuard.validate profile capability = .ok () := by
  refine except_forM_eq_ok_iff.trans ?_
  exact forall₂_congr fun _ _ => blocked_eq_ok_iff

/-- The part of `preflight` that records the configuration. -/
def refresh (spec : AvailableSpec) (fingerprint : ConfigFingerprint) :
    PreflightComputation AvailableSpec :=
  if fingerprint.isEmpty then return spec
  else do
    ofResult (← call
      (.updateConfigFingerprint spec.manifest.id fingerprint.version fingerprint.hash))
    return { spec with configVersion := fingerprint.version, configHash := fingerprint.hash }

/-- The profile of a plan, accepted by the guard. -/
def buildProfile (crates : ToolCrates) (toolCall : ToolCall) (spec : AvailableSpec)
    (fingerprint : ConfigFingerprint) : ToolResult Profile := do
  let upper := crates.sandbox.upper
  let profile ← blocked (Sandbox.DefaultProfileBuilder.build crates.hashing
    (buildGrant upper toolCall spec.manifest) (toSandboxManifest upper spec.manifest)
    (buildPolicyConfig upper spec fingerprint))
  validateAll profile (manifestToCapabilities upper spec.manifest)
  return profile

/-- The plan for a call. -/
def assemble (crates : ToolCrates) (toolCall : ToolCall) (spec : AvailableSpec)
    (fingerprint : ConfigFingerprint) (profile : Profile) (obligations : List Obligation)
    (plannedOps : List ExecOp) (now : DateTime) : PreflightPlan :=
  let upper := crates.sandbox.upper
  { spec := spec
    sandboxManifest := toSandboxManifest upper spec.manifest
    grant := buildGrant upper toolCall spec.manifest
    policy := buildPolicyConfig upper spec fingerprint
    profile := profile
    obligations := obligations
    budgetSnapshot := budgetSnapshot crates toolCall.args now
    plannedOps := plannedOps
    configVersion := fingerprint.version
    configHash := fingerprint.hash }

/-- The part of `preflight` after the authorisation. -/
def planCall (crates : ToolCrates) (toolCall : ToolCall) (spec : AvailableSpec)
    (obligations : List Obligation) : PreflightComputation PreflightOutput := do
  let plannedOps ← ofResult (planExecOps crates.sandbox.upper spec.manifest toolCall.args)
  ofResult (rejectIf plannedOps.isEmpty (invalidManifest "no executable operations planned"))
  let current ← call .currentConfig
  let fingerprint := current.getD {}
  let spec ← refresh spec fingerprint
  let profile ← ofResult (buildProfile crates toolCall spec fingerprint)
  let now ← call .now
  let plan := assemble crates toolCall spec fingerprint profile obligations plannedOps now
  call (.recordPreflight toolCall.tenant toolCall.toolId toolCall.origin true none)
  return .allowed plan

/-- The part of `preflight` that asks for an authorisation. -/
def authorizeCall (crates : ToolCrates) (toolCall : ToolCall) (spec : AvailableSpec) :
    PreflightComputation PreflightOutput := do
  let decision ← ofResult (← call (.authorize toolCall spec))
  if decision.allow then planCall crates toolCall spec decision.obligations
  else
    deny toolCall (decision.reason.getD "denied")
      (decision.errorCode.getD codes.authForbidden.value)

/-- The part of `preflight` for a tool that is enabled. -/
def screen (crates : ToolCrates) (toolCall : ToolCall) (spec : AvailableSpec) :
    PreflightComputation PreflightOutput :=
  if spec.manifest.idempotency = .keyed ∧ toolCall.idempotencyKey = none then
    deny toolCall "idempotency key required" codes.policyDenyTool.value
  else if toolCall.origin = .llm ∧ spec.visibleToLlm = false then
    deny toolCall "tool not visible to LLM" codes.policyDenyTool.value
  else do
    ofResult (crates.validator.check "input" spec.manifest.inputSchema toolCall.args)
    match ← ExceptT.lift (ensureConsent spec.manifest toolCall) with
    | .error failure => deny toolCall failure.reason failure.code
    | .ok () => authorizeCall crates toolCall spec

/-- `PreflightService::preflight`. -/
def preflight (crates : ToolCrates) (toolCall : ToolCall) :
    PreflightComputation PreflightOutput := do
  match ← call (.registryGet toolCall.toolId toolCall.tenant) with
  | none => deny toolCall "tool not available" codes.policyDenyTool.value
  | some spec =>
      if spec.enabled then screen crates toolCall spec
      else deny toolCall "tool disabled" codes.policyDenyTool.value

/-- Other crates, as far as they matter for an address and an ASCII text. -/
def echoCrates : ToolCrates where
  sandbox :=
    { Sandbox.Crates.ascii with
      parseUrl := fun url =>
        if Text.startsWith url "https://example.com/" then
          some { scheme := "https", hostStr := some "example.com", port := none }
        else none
      decodeBase64 := fun _ => some [] }
  hashing :=
    { policyBytes := fun _ => some []
      profileBytes := fun _ => some []
      sha256Hex := fun _ => "e3b0c442" }
  validator := ⟨fun _ => .ok fun _ => []⟩
  toVec _ := some []

/-- A tool that may read from an address or from files. -/
def echoManifest (capabilities : List CapabilityDecl) : ToolManifest where
  id := ⟨"net.echo.get"⟩
  version := "1.0.0"
  inputSchema := .object []
  outputSchema := .object []
  scopes := []
  capabilities := capabilities
  sideEffect := .read
  safetyClass := .low
  consent := {}
  limits := {}
  idempotency := .keyed
  concurrency := .serial
  metadata := .null
  deprecated := false

/-- The tool is registered for an address. -/
def echoSpec : AvailableSpec :=
  (InMemoryRegistry.fresh (echoManifest [⟨"net.http", "get", "example.com"⟩])).convert

/-- A call of the tool by a tenant. -/
def echoCall (tenant : String) (url : String) : ToolCall where
  toolId := ⟨"net.echo.get"⟩
  callId := ⟨"call-1"⟩
  actor := { kind := .service, subjectId := ⟨"svc-1"⟩, tenant := ⟨tenant⟩, claims := [] }
  tenant := ⟨tenant⟩
  origin := .llm
  args := .object [("url", .string url)]
  consent := none
  idempotencyKey := some "key-123"

/-- What is answered where a tool is available and everybody may use it. -/
def echoReply (spec : AvailableSpec) : (op : PreflightOp) → op.Answer
  | .registryGet .. => some spec
  | .updateConfigFingerprint .. => .ok ()
  | .authorize .. =>
      .ok { allow := true, obligations := [], reason := none, errorCode := none }
  | .currentConfig => none
  | .now => ⟨0⟩
  | .recordPreflight .. => ()

/-- What `preflight` comes to then. -/
def echoOutput (spec : AvailableSpec) (toolCall : ToolCall) : ToolResult PreflightOutput :=
  ((preflight echoCrates toolCall).run.answered (echoReply spec)).2

/-- The plan, where there is one. -/
def echoPlan (spec : AvailableSpec) (toolCall : ToolCall) : Option PreflightPlan :=
  (echoOutput spec toolCall).toOption.bind (·.plan)

end Soulbase.Tools
