/-
# The executor of the browser

`BrowserExecutor` drives no browser. It says what it would have done.
-/

import Soulbase.Sandbox.Errors
import Soulbase.Sandbox.Exec

namespace Soulbase.Sandbox

open SandboxError

namespace BrowserExecutor

/-- What a screenshot is described by. -/
def screenshotEntries (selector : Option String) (fullPage : Bool) :
    List (String × Json.Value) :=
  [("full_page", .bool fullPage), ("selector", ExecOp.optionValue .string selector)]

/-- `BrowserExecutor::execute`, for a token that says whether the call is cancelled. -/
def execute (profile : Profile) (isCancelled : Bool) (op : ExecOp) :
    SandboxResult ExecResult := do
  rejectIf isCancelled (policyViolation "execution cancelled")
  match op with
  | .browserNav url =>
      return .success (.object [("navigated_to", .string url)]) { calls := 1 }
        [{ kind := .browser
           metadata := .object [("action", .string "navigate"), ("url", .string url)] }]
  | .browserScreenshot selector fullPage => do
      rejectIf (profile.limits.maxBytesIn = some 0)
        (policyViolation "browser screenshot disabled by policy")
      return .success
        (.object [("screenshot", .object (screenshotEntries selector fullPage))]) { calls := 1 }
        [{ kind := .browser
           metadata := .object
            (("action", .string "screenshot") :: screenshotEntries selector fullPage) }]
  | .fsRead .. | .fsWrite .. | .fsList _ | .netHttp .. | .procExec .. | .tmpAlloc _ =>
      .error (policyViolation "operation not supported by BrowserExecutor")

end BrowserExecutor

end Soulbase.Sandbox
