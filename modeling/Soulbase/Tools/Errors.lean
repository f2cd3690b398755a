/-
# Tool errors

`ToolError` wraps an `ErrorObj`, like the other error types. Its constructors differ in the
code and the message for users, and keep the detail for developers.
-/

import Soulbase.Errors

namespace Soulbase.Tools

open Soulbase.Errors

/-- `ToolError`. The printed form is a function of the wrapped error. -/
structure ToolError where
  /-- The wrapped error. -/
  inner : ErrorObj
  deriving DecidableEq

/-- `ToolResult`. -/
abbrev ToolResult (α : Type) := Except ToolError α

namespace ToolError

/-- `ToolError::to_public`. -/
def toPublic (error : ToolError) : PublicErrorView := error.inner.toPublic

/-- The shape shared by the constructors. -/
def build (code : ErrorCode) (userMsg msg : String) : ToolError :=
  ⟨{ code := code, messageUser := userMsg, messageDev := some msg }⟩

/-- `ToolError::invalid_manifest`. -/
def invalidManifest (msg : String) : ToolError :=
  build codes.schemaValidationFailed "tool manifest validation failed" msg

/-- `ToolError::not_found`. -/
def notFound (msg : String) : ToolError :=
  build codes.policyDenyTool "tool is unavailable or disabled" msg

/-- `ToolError::sandbox_blocked`. -/
def sandboxBlocked (msg : String) : ToolError :=
  build codes.sandboxCapabilityBlocked "sandbox policy blocked tool execution" msg

/-- `ToolError::execution_failed`. -/
def executionFailed (msg : String) : ToolError :=
  build codes.unknownInternal "tool execution failed" msg

/-- `ToolError::schema`. -/
def schema (msg : String) : ToolError :=
  build codes.schemaValidationFailed "tool input or output violates schema" msg

end ToolError

/-- `if condition { return Err(error); }`. -/
def rejectIf (condition : Bool) (error : ToolError) : ToolResult Unit :=
  if condition then .error error else .ok ()

end Soulbase.Tools
