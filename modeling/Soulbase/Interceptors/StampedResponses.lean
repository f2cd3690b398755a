/-
# One stamped response to a request

A request leaves `run_with_handler` in one of three ways: it is refused by the error responder,
it fails with nothing written, or its response is ready and is written. The response stages,
and with them the stamp, come on the last way only.
-/

import Soulbase.Interceptors.Service

namespace Soulbase.Interceptors

open Soulbase.Foundation Soulbase.Errors Soulbase.Auth InterceptorChain

/-- How a request leaves the stages and the handler. -/
inductive Ending
  /-- A request stage or the handler has failed, and the error responder answers. -/
  | refused (cx : InterceptContext) (error : InterceptError)
  /-- There is no permit, a response stage has failed, or the response cannot be stored. -/
  | failed (error : InterceptError)
  /-- The response is written. -/
  | ready (cx : InterceptContext)

namespace InterceptorChain

/-- The response stages and the store. -/
def settle (chain : InterceptorChain) (cx : InterceptContext) : ChainProgram Ending := do
  match ← runResponseStages chain.responseStages cx with
  | (.error error, _) => return .failed error
  | (.ok (), cx) =>
      match ← chain.keep cx with
      | .error error => return .failed error
      | .ok () => return .ready cx

/-- The handler, and what follows. -/
def complete (chain : InterceptorChain) (outcome : StageOutcome) (cx : InterceptContext)
    (req : ProtoRequest) : ChainProgram Ending := do
  match ← chain.acquire outcome with
  | .error error => return .failed error
  | .ok () =>
      match ← chain.produce outcome cx req with
      | (.error error, cx) => return .refused cx error
      | (.ok (), cx) => chain.settle cx

/-- What becomes of a request. -/
def conclude (chain : InterceptorChain) : Ending → ChainProgram (Except InterceptError Unit)
  | .refused cx error => chain.refuse cx error
  | .failed error => return .error error
  | .ready cx => write cx

variable (chain : InterceptorChain) (cx : InterceptContext) (req : ProtoRequest)

end InterceptorChain

namespace ChainOp

/-- A call that writes no request id. -/
def isUnstamped : ChainOp → Bool
  | insertHeader name _ => name ≠ "X-Request-Id"
  | _ => true

/-- A call that writes no status, no body and no request id. -/
def isSilent : ChainOp → Bool
  | setStatus _ | writeJson _ => false
  | op => op.isUnstamped

end ChainOp

/-- A chain that begins with `ContextInit` and stamps its responses. Otherwise its request
stages leave the response to the chain, and its response stages do not change the stamp. -/
structure StampingChain where
  contextInit : ContextInitStage
  stages : List Stage
  before : List ResponseStage
  after : List ResponseStage
  errorResponder : ErrorResponder
  resilience : ResiliencePolicy
  concurrencyLimit : Option ℕ
  toVec : Json.Value → Except String (List UInt8)
  silent : ∀ stage ∈ stages, ∀ cx req,
    (stage.handle cx req).CallsOnly fun op => op.isSilent = true
  unstamped : ∀ stage ∈ after, ∀ cx,
    (stage.handleResponse cx).CallsOnly fun op => op.isUnstamped = true
  keeps_id : ∀ stage ∈ after, ∀ cx calls cx',
    Runs (stage.handleResponse cx) calls (.ok (), cx') → cx'.requestId = cx.requestId

/-- The chain. -/
def StampingChain.toChain (stamping : StampingChain) : InterceptorChain where
  requestStages := stamping.contextInit.toStage :: stamping.stages
  responseStages := stamping.before ++ ResponseStampStage :: stamping.after
  errorResponder := stamping.errorResponder
  resilience := stamping.resilience
  concurrencyLimit := stamping.concurrencyLimit
  toVec := stamping.toVec

namespace Passage

variable {chain : InterceptorChain}

end Passage

section Quiet

variable {calls : List ChainCall}

end Quiet

section Stamp

variable {cx cx' : InterceptContext} {calls : List ChainCall}

variable (stamping : StampingChain)

end Stamp

/-! ## The endings -/

section Endings

variable (stamping : StampingChain) {cx : InterceptContext} {req : ProtoRequest}
variable {calls before : List ChainCall} {ending : Ending}

end Endings

end Soulbase.Interceptors
