/-
# The executor of processes

`ProcessExecutor` is a program over two calls: it runs a command to its end, and then
looks at how long that took.
-/

import Soulbase.Foundation.Program
import Soulbase.Json
import Soulbase.Sandbox.Select

namespace Soulbase.Sandbox

open Soulbase.Foundation SandboxError

/-- `std::process::Output`. -/
structure ProcessOutput where
  /-- `ExitStatus::code`. -/
  code : Option Int32
  stdout : List UInt8
  stderr : List UInt8

/-- The calls of `ProcessExecutor`. -/
inductive ProcessCall
  /-- `Command::output`. -/
  | output (tool : String) (args : List String) (currentDir : Option String)
  /-- `Instant::elapsed`, in nanoseconds. -/
  | elapsed

/-- What a call returns. -/
abbrev ProcessCall.Answer : ProcessCall → Type
  | output .. => Option ProcessOutput
  | elapsed => ℕ

/-- A computation of the executor. -/
abbrev ProcessComputation := ExceptT SandboxError (Program ProcessCall ProcessCall.Answer)

namespace ProcessComputation

/-- Make a call. -/
def call (processCall : ProcessCall) : ProcessComputation processCall.Answer :=
  ExceptT.lift (perform processCall)

/-- The question mark operator. -/
def ofResult {α : Type} (result : SandboxResult α) : ProcessComputation α :=
  ExceptT.mk (.done result)

end ProcessComputation

namespace ProcessExecutor

open ProcessComputation

/-- `ensure_tool_allowed`. -/
def ensureToolAllowed (profile : Profile) (tool : String) : SandboxResult Unit := do
  rejectIf profile.whitelists.tools.isEmpty
    (policyViolation "process execution disabled by policy")
  rejectIf (!profile.whitelists.tools.contains tool) (policyViolation "tool not allowed")

/-- `ensure_args_safe`. -/
def ensureArgsSafe (args : List String) : SandboxResult Unit :=
  rejectIf (args.any fun arg => arg.toList.any (";|&`".toList.contains ·))
    (policyViolation "argument contains unsafe characters")

/-- An exit code as a number. -/
def codeValue (code : Int32) : Json.Value := .ofInt64 code.toInt64

/-- The result of `execute`. -/
def outputResult (crates : Crates) (limits : Limits) (tool : String) (args : List String)
    (output : ProcessOutput) : SandboxResult ExecResult := do
  let stdoutLen := UInt64.ofNat output.stdout.length
  let stderrLen := UInt64.ofNat output.stderr.length
  rejectIf (limits.maxBytesIn.any (stdoutLen + stderrLen > ·))
    (policyViolation "process output exceeds byte limit")
  return .success
    (.object [("status", ExecOp.optionValue codeValue output.code),
      ("stderr_b64", .string (crates.encodeBase64 output.stderr)),
      ("stdout_b64", .string (crates.encodeBase64 output.stdout))])
    { calls := 1, bytesIn := stdoutLen + stderrLen }
    [{ kind := .process
       metadata := .object [("args", .array (args.map .string)),
        ("status", ExecOp.optionValue codeValue output.code),
        ("stderr_bytes", ExecOp.numberValue stderrLen),
        ("stdout_bytes", ExecOp.numberValue stdoutLen), ("tool", .string tool)] }]

/-- The part of `execute` for an operation that is a process. -/
def runTool (crates : Crates) (profile : Profile) (tool : String) (args : List String)
    (timeoutMs : Option UInt64) : ProcessComputation ExecResult := do
  ofResult (ensureToolAllowed profile tool)
  ofResult (ensureArgsSafe args)
  let timeout := timeoutMs.getD profile.timeoutMs
  let found ← call (.output tool args profile.mappings.tmpDir)
  let output ← ofResult (okOr (policyViolation "failed to spawn process") found)
  let elapsed ← call .elapsed
  ofResult (rejectIf (elapsed > timeout.toNat * 1000000)
    (policyViolation "process timeout exceeded"))
  ofResult (outputResult crates profile.limits tool args output)

/-- `ProcessExecutor::execute`, for a token that says whether the call is cancelled. -/
def execute (crates : Crates) (profile : Profile) (isCancelled : Bool) (op : ExecOp) :
    ProcessComputation ExecResult := do
  ofResult (rejectIf isCancelled (policyViolation "execution cancelled"))
  match op with
  | .procExec tool args timeoutMs => runTool crates profile tool args timeoutMs
  | .fsRead .. | .fsWrite .. | .fsList _ | .netHttp .. | .browserNav _ | .browserScreenshot ..
  | .tmpAlloc _ =>
      throw (policyViolation "operation not supported by ProcessExecutor")

end ProcessExecutor

end Soulbase.Sandbox
