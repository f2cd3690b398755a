/-
# Executing a request

`Sandbox::execute` as a program over the calls it makes of the clock, the revocation
watcher, the profile builder, the guard, the meter, the evidence sink and the executors.
Nothing is said here of what these answer.
-/

import Soulbase.Foundation.Program
import Soulbase.Sandbox.Evidence
import Soulbase.Sandbox.Select

namespace Soulbase.Sandbox

open Soulbase.Foundation SandboxError

/-- `ExecuteRequest`. -/
structure ExecuteRequest where
  grant : Grant
  manifest : ToolManifest
  policy : PolicyConfig
  op : ExecOp
  envelopeId : Id

/-- The request for a granted operation, under the default policy. -/
def Grant.request (grant : Grant) (op : ExecOp) : ExecuteRequest where
  grant := grant
  manifest := grant.manifest
  policy := .default
  op := op
  envelopeId := ⟨"e"⟩

@[simp]
theorem Grant.grant_request (grant : Grant) (op : ExecOp) : (grant.request op).grant = grant := rfl

/-- `ExecutionOutcome`. -/
structure ExecutionOutcome where
  begin : EvidenceEvent
  finish : EvidenceEvent
  result : ExecResult

/-- What `Sandbox` calls. -/
inductive SandboxOp
  /-- `Utc::now`. -/
  | now
  /-- `RevocationWatcher::is_revoked`. -/
  | isRevoked (grant : Grant)
  /-- `ProfileBuilder::build`. -/
  | build (grant : Grant) (manifest : ToolManifest) (policy : PolicyConfig)
  /-- `PolicyGuard::validate`. -/
  | validate (profile : Profile) (capability : Capability)
  /-- `BudgetMeter::reserve`. -/
  | reserve (request : Budget)
  /-- `BudgetMeter::commit`. -/
  | commit (used : Budget)
  /-- `BudgetMeter::rollback`. -/
  | rollback (used : Budget)
  /-- `EvidenceSink::emit`. -/
  | emit (event : EvidenceEvent)
  /-- `SandboxExecutor::execute`, of the executor that is registered for a kind. -/
  | execute (kind : CapabilityKind) (profile : Profile) (op : ExecOp)

/-- What a call returns. -/
abbrev SandboxOp.Answer : SandboxOp → Type
  | now => DateTime
  | isRevoked _ => SandboxResult Bool
  | build .. => SandboxResult Profile
  | validate .. => SandboxResult Unit
  | reserve _ => SandboxResult Unit
  | commit _ => Unit
  | rollback _ => Unit
  | emit _ => Unit
  | execute .. => SandboxResult ExecResult

/-- A call that was made and answered. -/
abbrev SandboxCall := Sigma SandboxOp.Answer

/-- A computation of the sandbox. -/
abbrev SandboxComputation := ExceptT SandboxError (Program SandboxOp SandboxOp.Answer)

namespace SandboxComputation

/-- Make a call. -/
def call (op : SandboxOp) : SandboxComputation op.Answer := ExceptT.lift (perform op)

/-- The question mark operator. -/
def ofResult {α : Type} (result : SandboxResult α) : SandboxComputation α :=
  ExceptT.mk (.done result)

end SandboxComputation

set_option linter.dupNamespace false in
/-- `Sandbox`: what it computes with, and for which kinds an executor is registered. -/
structure Sandbox where
  crates : Crates
  registered : CapabilityKind → Bool

open SandboxComputation

/-- `ensure_grant_active`. -/
def ensureGrantActive (grant : Grant) : SandboxComputation Unit :=
  if grant.expiresAt > 0 then do
    let now ← call .now
    ofResult (rejectIf (grant.expiresAt ≤ now.timestampMillis) (permissionDenied "grant expired"))
  else pure ()

/-- `requires_consent`. -/
def requiresConsent (crates : Crates) (capability : Capability) (op : ExecOp)
    (profile : Profile) : Bool :=
  match capability with
  | .fsWrite .. | .procExec _ => true
  | .netHttp .. =>
      match op with
      | .netHttp method _ _ _ =>
          let upper := Text.toUppercase crates.upper method
          !(upper = "GET" || upper = "HEAD")
      | _ => false
  | .tmpUse | .fsRead _ | .fsList _ => false
  | .browserUse _ | .sysGpu _ => profile.safety = .high

/-- The part of `ensure_consent` that looks at the time. -/
def ensureUnexpired (consent : Consent) : SandboxComputation Unit :=
  match consent.expiresAt with
  | none => pure ()
  | some expiresAt => do
      let now ← call .now
      ofResult
        (rejectIf (expiresAt.asMillis ≤ now.timestampMillis) (permissionDenied "consent expired"))

/-- `ensure_consent`. -/
def ensureConsent (crates : Crates) (grant : Grant) (capability : Capability) (op : ExecOp)
    (profile : Profile) : SandboxComputation Unit :=
  if requiresConsent crates capability op profile then do
    let consent ← ofResult (okOr (permissionDenied "consent required") grant.consent)
    ensureUnexpired consent
  else pure ()

/-- `decoded_len`. -/
def decodedLen (crates : Crates) (dataB64 : String) : SandboxResult UInt64 := do
  let bytes ← okOr (policyViolation "invalid base64 payload") (crates.decodeBase64 dataB64)
  return .ofNat bytes.length

/-- `estimate_budget`. -/
def estimateBudget (crates : Crates) : ExecOp → SandboxResult Budget
  | .fsRead _ _ len => return { calls := 1, bytesIn := len.getD 0 }
  | .fsWrite _ bytesB64 _ => return { calls := 1, bytesOut := ← decodedLen crates bytesB64 }
  | .netHttp _ _ _ (some body) => return { calls := 1, bytesOut := ← decodedLen crates body }
  | .fsList _ | .netHttp _ _ _ none | .browserNav _ | .browserScreenshot .. | .procExec .. =>
      return { calls := 1 }
  | .tmpAlloc sizeBytes => return { calls := 1, bytesOut := sizeBytes }

/-- `ensure_usage_within_limits`. -/
def ensureUsageWithinLimits (profile : Profile) (usage : ExecUsage) : SandboxResult Unit := do
  rejectIf (profile.limits.maxBytesIn.any (usage.bytesIn > ·))
    (policyViolation "bytes_in exceeds limit")
  rejectIf (profile.limits.maxBytesOut.any (usage.bytesOut > ·))
    (policyViolation "bytes_out exceeds limit")
  rejectIf (profile.limits.maxFiles.any (usage.fileCount > ·))
    (policyViolation "file count exceeds limit")

/-- `map_error_status`. -/
def mapErrorStatus (code : String) : EvidenceStatus :=
  if Text.startsWith code "AUTH." || Text.startsWith code "SANDBOX.PERMISSION_DENIED" ||
      Text.startsWith code "POLICY." then .denied
  else .error

/-- The part of `execute` from the profile to the lookup of the executor. -/
def lookUp (sandbox : Sandbox) (request : ExecuteRequest) :
    SandboxComputation (Profile × Capability) := do
  let profile ← ofResult (← call (.build request.grant request.manifest request.policy))
  let capability ← ofResult (selectCapability sandbox.crates profile request.op)
  ensureConsent sandbox.crates request.grant capability request.op profile
  ofResult (← call (.validate profile capability))
  ofResult (rejectIf (!sandbox.registered capability.kind)
    (capabilityMissing "executor not registered"))
  return (profile, capability)

/-- The part of `execute` up to the lookup of the executor. -/
def admission (sandbox : Sandbox) (request : ExecuteRequest) :
    SandboxComputation (Profile × Capability) := do
  ensureGrantActive request.grant
  let revoked ← ofResult (← call (.isRevoked request.grant))
  ofResult (rejectIf revoked (permissionDenied "grant has been revoked"))
  lookUp sandbox request

/-- The part of `execute` before the reservation. -/
def authorize (sandbox : Sandbox) (request : ExecuteRequest) :
    SandboxComputation (Profile × Capability × Budget) := do
  let (profile, capability) ← admission sandbox request
  let reservation ← ofResult (estimateBudget sandbox.crates request.op)
  return (profile, capability, reservation)

/-- The end of the evidence for an error of the executor. -/
def failedEvidence (builder : EvidenceBuilder) (inputDigest : Option DataDigest)
    (err : SandboxError) (finishedAt : DateTime) : EvidenceEvent :=
  .finish (builder.endEvidence finishedAt (mapErrorStatus err.toPublic.code)
    (some err.toPublic.code) inputDigest none [] {})

/-- The part of `execute` for an error of the executor. -/
def closeFailed (builder : EvidenceBuilder) (inputDigest : Option DataDigest)
    (reservation : Budget) (err : SandboxError) : SandboxComputation ExecutionOutcome := do
  call (.rollback reservation)
  let finishedAt ← call .now
  let endEvent := failedEvidence builder inputDigest err finishedAt
  call (.emit endEvent)
  return {
    begin := .begin (builder.beginEvidence inputDigest)
    finish := endEvent
    result := .failure err.toPublic.code (some err.toPublic.message) }

/-- The end of the evidence for a result of the executor. -/
def finishedEvidence (crates : Crates) (builder : EvidenceBuilder)
    (inputDigest : Option DataDigest) (execResult : ExecResult) (finishedAt : DateTime) :
    EvidenceEvent :=
  .finish (builder.endEvidence finishedAt (if execResult.ok then .ok else .error)
    execResult.code inputDigest (some (crates.digestValue execResult.out))
    execResult.sideEffects execResult.usage.toBudget)

/-- The part of `execute` for a result of the executor. -/
def closeFinished (crates : Crates) (builder : EvidenceBuilder) (inputDigest : Option DataDigest)
    (execResult : ExecResult) : SandboxComputation ExecutionOutcome := do
  ofResult (ensureUsageWithinLimits builder.profile execResult.usage)
  call (.commit execResult.usage.toBudget)
  let finishedAt ← call .now
  let endEvent := finishedEvidence crates builder inputDigest execResult finishedAt
  call (.emit endEvent)
  return {
    begin := .begin (builder.beginEvidence inputDigest)
    finish := endEvent
    result := execResult }

set_option linter.dupNamespace false in
/-- `Sandbox::execute`. -/
def Sandbox.execute (sandbox : Sandbox) (request : ExecuteRequest) :
    SandboxComputation ExecutionOutcome := do
  let (profile, capability, reservation) ← authorize sandbox request
  ofResult (← call (.reserve reservation))
  let inputDigest := some (sandbox.crates.digestValue request.op.toValue)
  let startedAt ← call .now
  let builder : EvidenceBuilder := {
    profile := profile
    capability := capability
    envelopeId := request.envelopeId
    startedAt := startedAt }
  call (.emit (.begin (builder.beginEvidence inputDigest)))
  match ← call (.execute capability.kind profile request.op) with
  | .error err => closeFailed builder inputDigest reservation err
  | .ok execResult => closeFinished sandbox.crates builder inputDigest execResult

end Soulbase.Sandbox
