/-
# Error objects

The part of `sb-errors` that callers look at: the stable code, the message for
users and the message for developers. Code that answers requests also looks at the
HTTP status and the retry class, which `FullErrorObj` adds; the other transport
attributes (kind, severity, gRPC status) play no role in the modelled code.
-/

import Mathlib.Data.Option.Basic

namespace Soulbase.Errors

/-- `sb_errors::ErrorCode`, a stable string. -/
structure ErrorCode where
  /-- The string. -/
  value : String
  deriving DecidableEq

namespace codes

/-- `AUTH_UNAUTHENTICATED`. -/
def authUnauthenticated : ErrorCode := ⟨"AUTH.UNAUTHENTICATED"⟩

/-- `AUTH_FORBIDDEN`. -/
def authForbidden : ErrorCode := ⟨"AUTH.FORBIDDEN"⟩

/-- `POLICY_DENY_TOOL`. -/
def policyDenyTool : ErrorCode := ⟨"POLICY.DENY_TOOL"⟩

/-- `SANDBOX_PERMISSION_DENIED`. -/
def sandboxPermissionDenied : ErrorCode := ⟨"SANDBOX.PERMISSION_DENIED"⟩

/-- `SANDBOX_CAPABILITY_BLOCKED`. -/
def sandboxCapabilityBlocked : ErrorCode := ⟨"SANDBOX.CAPABILITY_BLOCKED"⟩

/-- `SCHEMA_VALIDATION_FAILED`. -/
def schemaValidationFailed : ErrorCode := ⟨"SCHEMA.VALIDATION_FAILED"⟩

/-- `QUOTA_RATE_LIMITED`. -/
def quotaRateLimited : ErrorCode := ⟨"QUOTA.RATE_LIMITED"⟩

/-- `QUOTA_BUDGET_EXCEEDED`. -/
def quotaBudgetExceeded : ErrorCode := ⟨"QUOTA.BUDGET_EXCEEDED"⟩

/-- `PROVIDER_UNAVAILABLE`. -/
def providerUnavailable : ErrorCode := ⟨"PROVIDER.UNAVAILABLE"⟩

/-- `STORAGE_CONFLICT`. -/
def storageConflict : ErrorCode := ⟨"STORAGE.CONFLICT"⟩

/-- `STORAGE_NOT_FOUND`. -/
def storageNotFound : ErrorCode := ⟨"STORAGE.NOT_FOUND"⟩

/-- `UNKNOWN_INTERNAL`. -/
def unknownInternal : ErrorCode := ⟨"UNKNOWN.INTERNAL"⟩

end codes

/-- `sb_errors::ErrorObj`. -/
structure ErrorObj where
  code : ErrorCode
  messageUser : String
  messageDev : Option String
  deriving DecidableEq

/-- `PublicErrorView`: what leaves the process. -/
structure PublicErrorView where
  code : String
  message : String
  deriving DecidableEq

/-- `ErrorObj::to_public`. The developer message stays inside. -/
def ErrorObj.toPublic (error : ErrorObj) : PublicErrorView where
  code := error.code.value
  message := error.messageUser

/-- `sb_errors::RetryClass`. -/
inductive RetryClass
  | none
  | transient
  | permanent
  deriving DecidableEq

/-- `sb_errors::CodeSpec`. -/
structure CodeSpec where
  code : ErrorCode
  httpStatus : UInt16
  retryable : RetryClass
  defaultUserMsg : String

/-- The entry of `UNKNOWN_INTERNAL`. -/
def unknownInternalSpec : CodeSpec :=
  ⟨codes.unknownInternal, 500, .transient, "出现未知错误，请稍后重试。"⟩

/-- The entries of `REGISTRY` for the codes that the chain and the facade use. -/
def registry : List CodeSpec :=
  [⟨codes.authUnauthenticated, 401, .none, "请先登录。"⟩,
    ⟨codes.authForbidden, 403, .none, "没有访问该资源的权限。"⟩,
    ⟨codes.schemaValidationFailed, 422, .permanent, "请求数据格式不符合要求。"⟩,
    ⟨codes.quotaRateLimited, 429, .transient, "请求过于频繁，请稍后重试。"⟩,
    ⟨codes.quotaBudgetExceeded, 402, .permanent, "额度已用尽，请调整预算配置。"⟩,
    ⟨codes.policyDenyTool, 403, .permanent, "当前策略不允许执行该操作。"⟩,
    ⟨codes.providerUnavailable, 503, .transient, "外部服务暂时不可用，请稍后重试。"⟩,
    unknownInternalSpec]

/-- `spec_of`. -/
def specOf (code : ErrorCode) : Option CodeSpec := registry.find? (·.code = code)

/-- `sb_errors::ErrorObj` with the attributes that a transport looks at. -/
structure FullErrorObj extends ErrorObj where
  httpStatus : UInt16
  retryable : RetryClass
  correlationId : Option String
  deriving DecidableEq

namespace FullErrorObj

/-- `ErrorBuilder::new` and `build`. A code that is not registered becomes
`UNKNOWN_INTERNAL`. -/
def new (code : ErrorCode) : FullErrorObj :=
  let spec := (specOf code).getD unknownInternalSpec
  { code := spec.code
    messageUser := spec.defaultUserMsg
    messageDev := none
    httpStatus := spec.httpStatus
    retryable := spec.retryable
    correlationId := none }

/-- `ErrorBuilder::user_msg`. -/
def userMsg (error : FullErrorObj) (message : String) : FullErrorObj :=
  { error with messageUser := message }

/-- `ErrorBuilder::dev_msg`. -/
def devMsg (error : FullErrorObj) (message : String) : FullErrorObj :=
  { error with messageDev := some message }

/-- `mapping_http::to_http_status`. -/
def toHttpStatus (error : FullErrorObj) : UInt16 :=
  if 100 ≤ error.httpStatus ∧ error.httpStatus ≤ 999 then error.httpStatus else 500

end FullErrorObj

end Soulbase.Errors
