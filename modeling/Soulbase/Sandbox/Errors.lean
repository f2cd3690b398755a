/-
# Sandbox errors

`SandboxError` wraps an `ErrorObj`, like the other error types. Its constructors
differ in the code and the message for users, and keep the detail for developers.
-/

import Soulbase.Errors

namespace Soulbase.Sandbox

open Soulbase.Errors

/-- `SandboxError`. The printed form is a function of the wrapped error. -/
structure SandboxError where
  /-- The wrapped error. -/
  inner : ErrorObj
  deriving DecidableEq

/-- `Result<T, SandboxError>`. -/
abbrev SandboxResult (α : Type) := Except SandboxError α

namespace SandboxError

/-- The shape shared by the constructors. -/
def build (code : ErrorCode) (userMsg detail : String) : SandboxError :=
  ⟨{ code := code, messageUser := userMsg, messageDev := some detail }⟩

/-- `SandboxError::permission_denied`. -/
def permissionDenied (detail : String) : SandboxError :=
  build codes.sandboxPermissionDenied "操作被沙箱禁止。" detail

/-- `SandboxError::policy_violation`. -/
def policyViolation (detail : String) : SandboxError :=
  build codes.policyDenyTool "未通过策略校验。" detail

/-- `SandboxError::capability_missing`. -/
def capabilityMissing (detail : String) : SandboxError :=
  build codes.sandboxCapabilityBlocked "缺少执行所需能力。" detail

/-- `SandboxError::forbidden`. -/
def forbidden (detail : String) : SandboxError :=
  build codes.authForbidden "当前请求被拒绝。" detail

/-- `SandboxError::to_public`. -/
def toPublic (error : SandboxError) : PublicErrorView := error.inner.toPublic

end SandboxError

/-- `if condition { return Err(error); }`. -/
def rejectIf (condition : Bool) (error : SandboxError) : SandboxResult Unit :=
  if condition then .error error else .ok ()

@[simp]
theorem rejectIf_eq_ok_iff {condition : Bool} {error : SandboxError} {value : Unit} :
    rejectIf condition error = .ok value ↔ condition = false := by
  cases condition <;> simp [rejectIf]

theorem condition_of_rejectIf_eq_error {condition : Bool} {error other : SandboxError}
    (h : rejectIf condition error = .error other) : condition = true := by
  cases condition with
  | true => rfl
  | false => cases h

/-- The question mark operator. -/
theorem bind_eq_ok_iff {α β : Type} {first : SandboxResult α} {next : α → SandboxResult β}
    {value : β} : first >>= next = .ok value ↔ ∃ middle, first = .ok middle ∧
      next middle = .ok value := by
  cases first with
  | error error => exact ⟨nofun, nofun⟩
  | ok middle => exact ⟨fun h => ⟨middle, rfl, h⟩, fun ⟨_, hok, h⟩ => by cases hok; exact h⟩

/-- A check and what follows it. -/
@[simp]
theorem rejectIf_bind_eq_ok_iff {α : Type} {condition : Bool} {error : SandboxError}
    {next : Unit → SandboxResult α} {value : α} :
    rejectIf condition error >>= next = .ok value ↔
      condition = false ∧ next () = .ok value := by
  cases condition with
  | true => exact ⟨nofun, nofun⟩
  | false => exact ⟨fun h => ⟨rfl, h⟩, fun h => h.2⟩

end Soulbase.Sandbox
