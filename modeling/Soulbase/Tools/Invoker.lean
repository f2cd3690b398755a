/-
# Invoking a tool

`InvokerImpl::invoke` as a program over the calls it makes of the idempotency store, the
concurrency map, the clock, the sandbox, the events and the metrics. The sandbox executes one
operation at a time, and its outcome is up to the environment.
-/

import Soulbase.Sandbox.Manager
import Soulbase.Tools.Preflight

namespace Soulbase.Tools

open Soulbase.Foundation ToolError
open Soulbase.Auth (Obligation)
open Soulbase.Sandbox (Budget ExecOp ExecResult ExecuteRequest EvidenceEvent ExecutionOutcome
  SandboxResult SideEffectRecord)

/-- `InvokeStatus`. -/
inductive InvokeStatus
  | ok
  | denied
  | error
  deriving DecidableEq

/-- `InvokeResult`. -/
structure InvokeResult where
  status : InvokeStatus
  errorCode : Option String
  output : Option Json.Value
  evidenceRef : Option Id

/-- `InvokeResult::ok`. -/
def InvokeResult.ok (output : Json.Value) (evidenceRef : Option Id) : InvokeResult where
  status := .ok
  errorCode := none
  output := some output
  evidenceRef := evidenceRef

/-- `InvokeRequest`. -/
structure InvokeRequest where
  plan : PreflightPlan
  call : ToolCall

/-- The fields that `ToolInvokeBegin` and `ToolInvokeEnd` have in common. -/
structure ToolInvokeEvent where
  envelopeId : Id
  tenant : TenantId
  subjectId : Id
  toolId : ToolId
  toolVersion : String
  callId : Id
  origin : ToolOrigin
  profileHash : String
  policyHash : Option String
  configVersion : Option String
  configHash : Option String
  argsDigest : String

/-- `ToolInvokeBegin`. -/
structure ToolInvokeBegin extends ToolInvokeEvent where
  safety : SafetyClass
  sideEffect : SideEffect

/-- `ToolInvokeEnd`. -/
structure ToolInvokeEnd extends ToolInvokeEvent where
  status : InvokeStatus
  errorCode : Option String
  outputDigest : Option String
  sideEffectsDigest : Option String
  budget : Budget
  durationMs : Int64

/-- What `invoke` calls. -/
inductive ToolOp
  /-- `IdempotencyStore::get`. -/
  | idempotencyGet (key : String)
  /-- `IdempotencyStore::put`. -/
  | idempotencyPut (key : String) (value : InvokeResult)
  /-- `ConcurrencyGuard::lock`. -/
  | lock (key : String)
  /-- `Drop for ConcurrencyGuard`. -/
  | unlock (key : String)
  /-- `Instant::now`. -/
  | now
  /-- `Sandbox::execute`. -/
  | execute (request : ExecuteRequest)
  /-- `ToolEventSink::on_invoke_begin`. -/
  | onInvokeBegin (event : ToolInvokeBegin)
  /-- `ToolEventSink::on_invoke_end`. -/
  | onInvokeEnd (event : ToolInvokeEnd)
  /-- `ToolMetrics::record_invocation`. -/
  | recordInvocation (tenant : TenantId) (tool : ToolId) (origin : ToolOrigin)
      (status : InvokeStatus) (code : Option String) (duration : Duration)
  /-- `ToolMetrics::record_budget`. -/
  | recordBudget (tenant : TenantId) (tool : ToolId) (origin : ToolOrigin)
      (bytesIn bytesOut : UInt64)

/-- What a call returns. -/
abbrev ToolOp.Answer : ToolOp → Type
  | idempotencyGet _ => Option InvokeResult
  | execute _ => SandboxResult ExecutionOutcome
  | now => Instant
  | idempotencyPut .. | lock _ | unlock _ | onInvokeBegin _ | onInvokeEnd _
  | recordInvocation .. | recordBudget .. => Unit

/-- A call that was made and answered. -/
abbrev ToolStep := Sigma ToolOp.Answer

/-- A computation of `invoke`. -/
abbrev ToolProgram := Program ToolOp ToolOp.Answer

/-- Make a call. -/
def callTool (op : ToolOp) : ToolProgram op.Answer := perform op

/-- The paths that are named in the parameters of an obligation. -/
def obligationPaths (obligation : Obligation) : List String :=
  (obligation.params.asArray.getD []).filterMap Json.Value.asStr

/-- Assign a value at each of the paths. -/
def assignAll (assigned : Json.Value) (value : Json.Value) (paths : List String) : Json.Value :=
  paths.foldl (fun value path => Json.assignAt value path assigned) value

/-- The body of the loop of `apply_obligations`. -/
def applyObligation (value : Json.Value) (obligation : Obligation) : Json.Value :=
  match obligation.kind with
  | "mask_fields" => assignAll (.string "***") value (obligationPaths obligation)
  | "drop_fields" => assignAll .null value (obligationPaths obligation)
  | _ => value

/-- `apply_obligations`. -/
def applyObligations (value : Json.Value) (obligations : List Obligation) :
    ToolResult Json.Value :=
  .ok (obligations.foldl applyObligation value)

/-- `validate_output`. -/
def validateOutput (crates : ToolCrates) (manifest : ToolManifest) (value : Json.Value) :
    ToolResult Unit :=
  crates.validator.check "output" manifest.outputSchema value

/-- `digest_json`. -/
def digestJson (crates : ToolCrates) (value : Json.Value) : String :=
  crates.hashing.sha256Hex ((crates.toVec value).getD [])

/-- The variables of the loop. -/
structure Course where
  lastOutput : Json.Value := .null
  hasOutput : Bool := false
  status : InvokeStatus := .ok
  errorCode : Option String := none
  failure : Option ToolError := none
  budgetUsed : Budget := {}
  totalSideEffects : List SideEffectRecord := []
  outputDigest : Option String := none
  durationMs : Int64 := 0

namespace Course

/-- What is added up from the evidence of an operation. -/
def account (course : Course) : EvidenceEvent → Course
  | .begin _ => course
  | .finish finish =>
      { course with
        budgetUsed := course.budgetUsed.addAssign finish.budgetUsed
        totalSideEffects := course.totalSideEffects ++ finish.sideEffects
        durationMs := course.durationMs + finish.durationMs
        outputDigest := (finish.outputsDigest.map fun digest =>
          digest.algo ++ ":" ++ digest.b64).orElse fun _ => course.outputDigest }

/-- What is kept of the result of an operation. -/
def conclude (course : Course) (result : ExecResult) : Course :=
  let course := { course with lastOutput := result.out, hasOutput := true }
  if result.ok then course
  else { course with
    status := .error
    errorCode := result.code
    failure := some (executionFailed (result.message.getD "tool execution failed")) }

/-- The body of the loop. It breaks where there is a failure. -/
def take (course : Course) : SandboxResult ExecutionOutcome → Course
  | .error err =>
      { course with
        status := .error
        errorCode := some err.toPublic.code
        failure := some (executionFailed err.toPublic.message) }
  | .ok outcome => (course.account outcome.finish).conclude outcome.result

/-- The output, unless there is none. -/
def output (course : Course) : Json.Value := if course.hasOutput then course.lastOutput else .null

/-- A failure after the loop. -/
def fail (course : Course) (err : ToolError) : Course :=
  { course with
    status := .error
    errorCode := some err.toPublic.code
    failure := some err }

/-- What becomes of the output after the loop. -/
def settle (course : Course) (crates : ToolCrates) (plan : PreflightPlan) : Course × Json.Value :=
  if course.status = .ok then
    match applyObligations course.output plan.obligations with
    | .error err => (course.fail err, .null)
    | .ok output =>
        match validateOutput crates plan.spec.manifest output with
        | .error err => (course.fail err, .null)
        | .ok () => (course, output)
  else (course, course.output)

end Course

namespace InvokeRequest

variable (request : InvokeRequest)

/-- The manifest of the plan. -/
def manifest : ToolManifest := request.plan.spec.manifest

/-- `idempotency_key`. -/
def idempotencyKey : Option String :=
  match request.manifest.idempotency with
  | .keyed => request.call.idempotencyKey
  | .none => none

/-- The key of `ConcurrencyGuard::lock`. -/
def lockKey : String := request.manifest.id.asStr ++ "::" ++ request.call.tenant.asStr

/-- The request to the sandbox for an operation of the plan. -/
def executeRequest (idx : ℕ) (op : ExecOp) : ExecuteRequest where
  grant := request.plan.grant
  manifest := request.plan.sandboxManifest
  policy := request.plan.policy
  op := op
  envelopeId := ⟨request.call.callId.asStr ++ "#" ++ toString idx⟩

/-- What both events say. -/
def event (crates : ToolCrates) : ToolInvokeEvent where
  envelopeId := request.call.callId
  tenant := request.call.tenant
  subjectId := request.call.actor.subjectId
  toolId := request.manifest.id
  toolVersion := request.manifest.version
  callId := request.call.callId
  origin := request.call.origin
  profileHash := request.plan.profile.profileHash
  policyHash := request.plan.policy.policyHash.filter (· ≠ "")
  configVersion := request.plan.configVersion
  configHash := request.plan.configHash
  argsDigest := digestJson crates request.call.args

/-- The event before the operations. -/
def beginEvent (crates : ToolCrates) : ToolInvokeBegin where
  toToolInvokeEvent := request.event crates
  safety := request.manifest.safetyClass
  sideEffect := request.manifest.sideEffect

/-- The event after the operations. -/
def endEvent (crates : ToolCrates) (course : Course) (output : Json.Value)
    (duration : Duration) : ToolInvokeEnd where
  toToolInvokeEvent := request.event crates
  status := course.status
  errorCode := course.errorCode
  outputDigest :=
    if course.status = .ok then course.outputDigest.orElse fun _ => some (digestJson crates output)
    else course.outputDigest
  sideEffectsDigest :=
    if course.totalSideEffects.isEmpty then none
    else some (digestJson crates (.array (course.totalSideEffects.map SideEffectRecord.toValue)))
  budget := course.budgetUsed
  durationMs := if course.durationMs > 0 then course.durationMs else .ofNat (duration / 1000000)

/-- The loop over the planned operations. -/
def runOps : ℕ → List ExecOp → Course → ToolProgram Course
  | _, [], course => return course
  | idx, op :: rest, course => do
      let execution ← callTool (.execute (request.executeRequest idx op))
      let course := course.take execution
      if course.failure.isSome then return course else runOps (idx + 1) rest course

/-- What is reported after the operations. -/
def report (crates : ToolCrates) (course : Course) (output : Json.Value) (startedAt : Instant) :
    ToolProgram Unit := do
  let endedAt ← callTool .now
  let duration := endedAt - startedAt
  callTool (.onInvokeEnd (request.endEvent crates course output duration))
  callTool (.recordInvocation request.call.tenant request.manifest.id request.call.origin
    course.status course.errorCode duration)
  callTool (.recordBudget request.call.tenant request.manifest.id request.call.origin
    course.budgetUsed.bytesIn course.budgetUsed.bytesOut)

/-- Store the result, where there is a key. -/
def keep (result : InvokeResult) : ToolProgram Unit :=
  match request.idempotencyKey with
  | some key => callTool (.idempotencyPut key result)
  | none => return ()

/-- What `invoke` ends with. -/
def conclude (course : Course) (output : Json.Value) :
    ToolProgram (ToolResult InvokeResult) :=
  match course.failure with
  | some err => return .error err
  | none => do
      let result := InvokeResult.ok output (some request.call.callId)
      request.keep result
      return .ok result

/-- The part of `invoke` under the guard. -/
def run (crates : ToolCrates) (startedAt : Instant) : ToolProgram (ToolResult InvokeResult) :=
  if request.plan.plannedOps.isEmpty then
    return .error (invalidManifest "no exec operations derived")
  else do
    callTool (.onInvokeBegin (request.beginEvent crates))
    let course ← request.runOps 0 request.plan.plannedOps {}
    let settled := course.settle crates request.plan
    request.report crates settled.1 settled.2 startedAt
    request.conclude settled.1 settled.2

/-- The part of `invoke` after the lookup. The guard is dropped whatever it ends with. -/
def runGuarded (crates : ToolCrates) (startedAt : Instant) :
    ToolProgram (ToolResult InvokeResult) :=
  match request.manifest.concurrency with
  | .serial => do
      callTool (.lock request.lockKey)
      let result ← request.run crates startedAt
      callTool (.unlock request.lockKey)
      return result
  | .parallel => request.run crates startedAt

/-- `InvokerImpl::invoke`. -/
def invoke (crates : ToolCrates) : ToolProgram (ToolResult InvokeResult) := do
  let startedAt ← callTool .now
  match request.idempotencyKey with
  | some key =>
      match ← callTool (.idempotencyGet key) with
      | some hit => return .ok hit
      | none => request.runGuarded crates startedAt
  | none => request.runGuarded crates startedAt

end InvokeRequest

end Soulbase.Tools
