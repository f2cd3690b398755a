/-
# Transaction errors

`TxError` wraps an `ErrorObj` and prints only its public view. Each constructor
fixes a code and a user message and may add a developer message.
-/

import Soulbase.Errors

namespace Soulbase.Tx

open Soulbase.Errors

/-- `TxError`. The printed form is a function of the wrapped error. -/
structure TxError where
  /-- The wrapped error. -/
  inner : ErrorObj
  deriving DecidableEq

/-- `TxResult`. -/
abbrev TxResult (α : Type) := Except TxError α

namespace TxError

/-- `TxError::as_public`. -/
def asPublic (error : TxError) : PublicErrorView := error.inner.toPublic

/-- The `Display` text: the public code and message. -/
def toString (error : TxError) : String :=
  error.asPublic.code ++ ": " ++ error.asPublic.message

/-- The shape shared by the constructors. -/
def build (code : ErrorCode) (userMsg : String) (devMsg : Option String) : TxError :=
  ⟨{ code := code, messageUser := userMsg, messageDev := devMsg }⟩

/-- `TxError::provider_unavailable`. -/
def providerUnavailable (msg : String) : TxError :=
  build codes.providerUnavailable "upstream is unavailable, please retry later" (some msg)

/-- `TxError::timeout`. It shares the code of `providerUnavailable`. -/
def timeout (msg : String) : TxError :=
  build codes.providerUnavailable "operation timed out" (some msg)

/-- `TxError::idempo_busy`. -/
def idempoBusy : TxError :=
  build codes.quotaRateLimited "request is already being processed" none

/-- `TxError::idempo_failed`. -/
def idempoFailed : TxError :=
  build codes.unknownInternal "previous attempt failed" none

/-- `TxError::schema`. -/
def schema (msg : String) : TxError :=
  build codes.schemaValidationFailed "invalid input payload" (some msg)

/-- `TxError::conflict`. -/
def conflict (msg : String) : TxError :=
  build codes.storageConflict "conflict detected" (some msg)

/-- `TxError::budget_exhausted`. -/
def budgetExhausted (msg : String) : TxError :=
  build codes.quotaBudgetExceeded "budget exhausted for tenant" (some msg)

/-- `TxError::unknown`. -/
def unknown (msg : String) : TxError :=
  build codes.unknownInternal "internal transaction error" (some msg)

end TxError

/-- Both succeed with values that count as the same, or both fail. -/
def EndAlike {α : Type} (same : α → α → Prop) : TxResult α → TxResult α → Prop
  | .ok value, .ok other => same value other
  | .error _, .error _ => True
  | .ok _, .error _ | .error _, .ok _ => False

end Soulbase.Tx
