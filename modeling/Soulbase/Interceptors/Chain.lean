/-
# The chain

`InterceptorChain::run_with_handler` as a program over its calls: request stages until one
stops, the handler with its retries, response stages, the idempotency store and the response.
Stages are programs of their own. What a stage may call is a field of it: a request stage
cannot call the handler, and a response stage, which is not asynchronous, can only set the
status and headers of the response.
-/

import Soulbase.Auth.Facade
import Soulbase.Foundation.Trail
import Soulbase.Interceptors.Context
import Soulbase.Interceptors.Idempotency

namespace Soulbase.Interceptors

open Soulbase.Foundation Soulbase.Errors Soulbase.Auth

/-- What a chain and its stages call. -/
inductive ChainOp
  /-- `Uuid::new_v4`. -/
  | newRequestId
  /-- `Utc::now`. -/
  | timestampMillis
  /-- `ConfigSnapshotProvider::snapshot`, its version and checksum. -/
  | snapshot
  /-- `ProtoRequest::read_json`. -/
  | readJson
  /-- `Authenticator::authenticate`, of the authenticator of a stage. -/
  | authenticate (input : AuthnInput)
  /-- A call of `AuthFacade`. -/
  | auth (op : AuthOp)
  /-- `IdempotencyStore::get`. -/
  | idempotencyGet (key : String)
  /-- `IdempotencyStore::put`. -/
  | idempotencyPut (key : String) (response : StoredResponse) (ttl : Duration)
  /-- Whatever else a stage may ask for. -/
  | outside (question : String)
  /-- `Semaphore::acquire_owned`. -/
  | acquirePermit
  /-- The handler. -/
  | callHandler (cx : InterceptContext) (req : ProtoRequest)
  /-- The handler, within a timeout. -/
  | callHandlerWithin (cx : InterceptContext) (req : ProtoRequest) (duration : Duration)
  /-- `tokio::time::sleep`. -/
  | sleep (duration : Duration)
  /-- `ProtoResponse::set_status`. -/
  | setStatus (code : UInt16)
  /-- `ProtoResponse::insert_header`. -/
  | insertHeader (name value : String)
  /-- `ProtoResponse::write_json`. -/
  | writeJson (body : Json.Value)

namespace ChainOp

/-- What a call returns. The handler returns the context as it leaves it; `none` is the
timeout. -/
@[reducible]
def Answer : ChainOp → Type
  | newRequestId => String
  | timestampMillis => Int64
  | snapshot => Option (String × String)
  | readJson => Except InterceptError Json.Value
  | authenticate _ => Except AuthError Subject
  | auth op => op.Answer
  | idempotencyGet _ => Option StoredResponse
  | idempotencyPut .. => Unit
  | outside _ => Json.Value
  | acquirePermit => Except Unit Unit
  | callHandler .. => Returned Json.Value
  | callHandlerWithin .. => Option (Except InterceptError Json.Value) × InterceptContext
  | sleep _ => Unit
  | setStatus _ => Unit
  | insertHeader .. => Unit
  | writeJson _ => Except InterceptError Unit

/-- A call that a response stage may make. -/
def isSync : ChainOp → Bool
  | setStatus _ | insertHeader .. | outside _ => true
  | _ => false

/-- A call that the error responder may make. -/
def isResponse : ChainOp → Bool
  | setStatus _ | insertHeader .. | outside _ | writeJson _ => true
  | _ => false

/-- A call of the idempotency store. -/
def isStore : ChainOp → Bool
  | idempotencyGet _ | idempotencyPut .. => true
  | _ => false

/-- A call that is left to the chain itself. -/
def isHandling : ChainOp → Bool
  | acquirePermit | callHandler .. | callHandlerWithin .. | sleep _ => true
  | _ => false

/-- A call that has nothing to do with the idempotency store or the handler. -/
def isAside (op : ChainOp) : Bool := !op.isStore && !op.isHandling

/-- Such a call that has nothing to do with the facade either. -/
def isPlain : ChainOp → Bool
  | auth _ => false
  | op => op.isAside

theorem isAside_of_isPlain {op : ChainOp} (h : op.isPlain = true) : op.isAside = true := by
  cases op <;> first | rfl | cases h

theorem isAside_of_isResponse {op : ChainOp} (h : op.isResponse = true) : op.isAside = true := by
  cases op <;> first | rfl | cases h

theorem isHandling_of_isStore {op : ChainOp} (h : op.isStore = true) :
    op.isHandling = false := by
  cases op <;> first | rfl | cases h

theorem isHandling_of_isAside {op : ChainOp} (h : op.isAside = true) :
    op.isHandling = false := by
  cases op <;> first | rfl | cases h

end ChainOp

/-- A call that was made and answered. -/
abbrev ChainCall := Sigma ChainOp.Answer

/-- A program of a chain. -/
abbrev ChainProgram := Program ChainOp ChainOp.Answer

/-- Make a call. -/
def call (op : ChainOp) : ChainProgram op.Answer := perform op

/-- The program leaves the handler alone, as every stage does. -/
abbrev CallsStage {α : Type} (program : ChainProgram α) : Prop :=
  program.CallsOnly fun op => op.isHandling = false

/-- The program leaves the idempotency store alone, too. -/
abbrev CallsAside {α : Type} (program : ChainProgram α) : Prop :=
  program.CallsOnly fun op => op.isAside = true

/-- The program leaves the facade alone, too. -/
abbrev CallsPlain {α : Type} (program : ChainProgram α) : Prop :=
  program.CallsOnly fun op => op.isPlain = true

/-- The program only does what a response stage may do. -/
abbrev CallsSync {α : Type} (program : ChainProgram α) : Prop :=
  program.CallsOnly fun op => op.isSync = true

/-- The program only does what an error responder may do. -/
abbrev CallsResponse {α : Type} (program : ChainProgram α) : Prop :=
  program.CallsOnly fun op => op.isResponse = true

section Calls

variable {α : Type} {op : ChainOp} {second : op.Answer → ChainProgram α}

theorem runs_call_bind_iff {calls : List ChainCall} {value : α} :
    Runs (call op >>= second) calls value ↔
      ∃ answer rest, calls = ⟨op, answer⟩ :: rest ∧ Runs (second answer) rest value :=
  runs_call_iff

theorem callsPlain_call_bind (hop : op.isPlain = true)
    (hrest : ∀ answer, CallsPlain (second answer)) : CallsPlain (call op >>= second) :=
  Program.callsOnly_call hop hrest

theorem CallsPlain.callsAside {program : ChainProgram α} (h : CallsPlain program) :
    CallsAside program :=
  h.mono fun _ => ChainOp.isAside_of_isPlain

theorem CallsAside.callsStage {program : ChainProgram α} (h : CallsAside program) :
    CallsStage program :=
  h.mono fun _ => ChainOp.isHandling_of_isAside

end Calls

/-- `StageOutcome`. -/
inductive StageOutcome
  | proceed
  | shortCircuit
  deriving DecidableEq

/-- `Stage`. -/
structure Stage where
  handle : InterceptContext → ProtoRequest → ChainProgram (Returned StageOutcome)
  calls_stage : ∀ cx req, CallsStage (handle cx req)

/-- `ResponseStage`. -/
structure ResponseStage where
  handleResponse : InterceptContext → ChainProgram (Returned Unit)
  calls_sync : ∀ cx, CallsSync (handleResponse cx)

/-- `ErrorResponder`. -/
structure ErrorResponder where
  handleError : InterceptContext → InterceptError → ChainProgram (Returned Unit)
  calls_response : ∀ cx error, CallsResponse (handleError cx error)

/-- `DefaultErrorResponder::handle_error`, without the labels that it leaves in the context. -/
def DefaultErrorResponder.handleError (cx : InterceptContext) (error : InterceptError) :
    ChainProgram (Returned Unit) := do
  let status := error.inner.toHttpStatus
  let body := error.toPublic
  call (.setStatus status)
  call (.insertHeader "Content-Type" "application/json")
  let written ← call (.writeJson body)
  return (written, { cx with responseStatus := some status, responseBody := some body })

/-- `DefaultErrorResponder`. -/
def DefaultErrorResponder : ErrorResponder where
  handleError := DefaultErrorResponder.handleError
  calls_response _ _ := ⟨rfl, fun _ _ => ⟨rfl, fun _ _ => ⟨rfl, fun _ _ => trivial⟩⟩⟩

/-! ## The handler -/

/-- `ResiliencePolicy`. -/
structure ResiliencePolicy where
  timeout : Option Duration
  maxRetries : ℕ
  retryBackoff : Option Duration

/-- `ResiliencePolicy::default`. -/
def ResiliencePolicy.default : ResiliencePolicy where
  timeout := some 10000000000
  maxRetries := 0
  retryBackoff := some 200000000

/-- `timeout_error`, without the entry `timeout_ms` of its metadata, which no response shows. -/
def timeoutError : InterceptError :=
  ⟨(FullErrorObj.new codes.providerUnavailable).userMsg "请求处理超时，请稍后重试。"⟩

/-- One call of the handler, `none` past the timeout. -/
def ResiliencePolicy.attempt (policy : ResiliencePolicy) (cx : InterceptContext)
    (req : ProtoRequest) :
    ChainProgram (Option (Except InterceptError Json.Value) × InterceptContext) :=
  match policy.timeout with
  | some duration => call (.callHandlerWithin cx req duration)
  | none => do
      let (result, cx) ← call (.callHandler cx req)
      return (some result, cx)

/-- The pause before a retry. -/
def ResiliencePolicy.backOff (policy : ResiliencePolicy) : ChainProgram Unit :=
  match policy.retryBackoff with
  | some backoff => call (.sleep backoff)
  | none => return ()

/-- What an attempt leads to: a retry, if there is one left, after a transient error. -/
def ResiliencePolicy.conclude (policy : ResiliencePolicy)
    (retry : Option (InterceptContext → ChainProgram (Returned Json.Value))) :
    Option (Except InterceptError Json.Value) × InterceptContext →
      ChainProgram (Returned Json.Value)
  | (none, cx) => return (.error timeoutError, cx)
  | (some (.ok body), cx) => return (.ok body, cx)
  | (some (.error error), cx) =>
      match error.inner.retryable, retry with
      | .transient, some retry => do
          policy.backOff
          retry cx
      | _, _ => return (.error error, cx)

/-- The loop of `execute_with_resilience`, with the retries that are left. -/
def ResiliencePolicy.executeFrom (policy : ResiliencePolicy) (req : ProtoRequest) :
    ℕ → InterceptContext → ChainProgram (Returned Json.Value)
  | 0, cx => do
      let ended ← policy.attempt cx req
      policy.conclude none ended
  | left + 1, cx => do
      let ended ← policy.attempt cx req
      policy.conclude (some (policy.executeFrom req left)) ended

/-- `execute_with_resilience`. -/
def executeWithResilience (policy : ResiliencePolicy) (cx : InterceptContext)
    (req : ProtoRequest) : ChainProgram (Returned Json.Value) :=
  policy.executeFrom req policy.maxRetries cx

/-- `InterceptorChain`. The number of permits is looked after by the semaphore;
`toVec` is `serde_json::to_vec`. -/
structure InterceptorChain where
  requestStages : List Stage
  responseStages : List ResponseStage
  errorResponder : ErrorResponder
  resilience : ResiliencePolicy
  concurrencyLimit : Option ℕ
  toVec : Json.Value → Except String (List UInt8)

namespace InterceptorChain

/-- What follows a stage: the next ones, unless it has stopped. -/
def advance (rest : InterceptContext → ChainProgram (Returned StageOutcome)) :
    Returned StageOutcome → ChainProgram (Returned StageOutcome)
  | (.ok .proceed, cx) => rest cx
  | stopped => return stopped

/-- The loop over the request stages. -/
def runStages (stages : List Stage) (cx : InterceptContext) (req : ProtoRequest) :
    ChainProgram (Returned StageOutcome) :=
  match stages with
  | [] => return (.ok .proceed, cx)
  | stage :: rest => do
      let returned ← stage.handle cx req
      advance (runStages rest · req) returned

/-- The loop over the response stages. -/
def runResponseStages : List ResponseStage → InterceptContext → ChainProgram (Returned Unit)
  | [], cx => return (.ok (), cx)
  | stage :: stages, cx => do
      match ← stage.handleResponse cx with
      | (.ok (), cx) => runResponseStages stages cx
      | failed => return failed

section ResponseStages

variable {stage : ResponseStage} {stages : List ResponseStage} {cx cx' : InterceptContext}

theorem runResponseStages_ok (h : stage.handleResponse cx = return (.ok (), cx')) :
    runResponseStages (stage :: stages) cx = runResponseStages stages cx' := by
  rw [runResponseStages, h]
  rfl

theorem runResponseStages_error {error : InterceptError}
    (h : stage.handleResponse cx = return (.error error, cx')) :
    runResponseStages (stage :: stages) cx = return (.error error, cx') := by
  rw [runResponseStages, h]
  rfl

end ResponseStages

/-- The permit, where one is needed. -/
def acquire (chain : InterceptorChain) (outcome : StageOutcome) :
    ChainProgram (Except InterceptError Unit) :=
  match outcome, chain.concurrencyLimit with
  | .proceed, some _ => do
      match ← call .acquirePermit with
      | .ok () => return .ok ()
      | .error () => return .error (.fromPublic codes.quotaRateLimited "服务当前并发已满。")
  | _, _ => return .ok ()

/-- The handler, unless there is a response already. -/
def produce (chain : InterceptorChain) (outcome : StageOutcome) (cx : InterceptContext)
    (req : ProtoRequest) : ChainProgram (Returned Unit) :=
  match outcome, cx.responseBody with
  | .proceed, none => do
      match ← executeWithResilience chain.resilience cx req with
      | (.ok body, cx) => return (.ok (), { cx with responseBody := some body })
      | (.error error, cx) => return (.error error, cx)
  | _, _ => return (.ok (), cx)

/-- The status of the response. -/
def status (cx : InterceptContext) : UInt16 := cx.responseStatus.getD 200

/-- Keep the response for the key of the request. -/
def keep (chain : InterceptorChain) (cx : InterceptContext) :
    ChainProgram (Except InterceptError Unit) :=
  match cx.idempotencyLayer, cx.idempotencyKey, cx.idempotencyReplay, cx.responseBody with
  | some layer, some key, false, some body =>
      match chain.toVec body with
      | .error error =>
          return .error (.fromPublic codes.unknownInternal s!"无法序列化响应用于幂等缓存: {error}")
      | .ok bytes =>
          if bytes.length > layer.maxBodySize then
            return .error (oversizedBodyError bytes.length layer.maxBodySize)
          else do
            let response : StoredResponse :=
              { status := status cx
                body := body
                headers := cx.responseHeaders }
            call (.idempotencyPut key response layer.ttl)
            return .ok ()
  | _, _, _, _ => return .ok ()

/-- Write the headers of a response. -/
def writeHeaders : List (String × String) → ChainProgram Unit
  | [] => return ()
  | (name, value) :: headers => do
      call (.insertHeader name value)
      writeHeaders headers

/-- Write the response. -/
def write (cx : InterceptContext) : ChainProgram (Except InterceptError Unit) := do
  call (.setStatus (status cx))
  writeHeaders cx.responseHeaders
  call (.writeJson (cx.responseBody.getD .null))

/-- What follows once there is a response. -/
def respond (chain : InterceptorChain) (cx : InterceptContext) :
    ChainProgram (Except InterceptError Unit) := do
  match ← runResponseStages chain.responseStages cx with
  | (.error error, _) => return .error error
  | (.ok (), cx) =>
      match ← chain.keep cx with
      | .error error => return .error error
      | .ok () => write cx

/-- Answer with an error. -/
def refuse (chain : InterceptorChain) (cx : InterceptContext) (error : InterceptError) :
    ChainProgram (Except InterceptError Unit) := do
  let (written, _) ← chain.errorResponder.handleError cx error
  return written

/-- What follows the request stages where none of them fails. -/
def finish (chain : InterceptorChain) (outcome : StageOutcome) (cx : InterceptContext)
    (req : ProtoRequest) : ChainProgram (Except InterceptError Unit) := do
  match ← chain.acquire outcome with
  | .error error => return .error error
  | .ok () =>
      match ← chain.produce outcome cx req with
      | (.error error, cx) => chain.refuse cx error
      | (.ok (), cx) => chain.respond cx

/-- `InterceptorChain::run_with_handler`. The handler is called by an operation. -/
def runWithHandler (chain : InterceptorChain) (cx : InterceptContext) (req : ProtoRequest) :
    ChainProgram (Except InterceptError Unit) := do
  match ← runStages chain.requestStages cx req with
  | (.error error, cx) => chain.refuse cx error
  | (.ok outcome, cx) => chain.finish outcome cx req

end InterceptorChain

end Soulbase.Interceptors
