/-
# The executor of temporary space

`TmpExecutor` makes the directory of the profile, where there is one, and allocates
nothing in it.
-/

import Soulbase.Sandbox.Exec.Fs

namespace Soulbase.Sandbox

open Soulbase.Foundation SandboxError FsComputation

namespace TmpExecutor

/-- The part of `execute` that makes the directory. -/
def createTmpDir : Option String → FsComputation Unit
  | none => pure ()
  | some tmp =>
      require (.createDirAll (LexicalPath.components tmp)) id "failed to create tmp dir"

/-- The result of `execute`. -/
def allocResult (mappings : Mappings) (sizeBytes : UInt64) : ExecResult :=
  .success (.object [("allocated", ExecOp.numberValue sizeBytes)])
    { bytesOut := sizeBytes, calls := 1 }
    [{ kind := .filesystem
       metadata := .object [("bytes", ExecOp.numberValue sizeBytes),
        ("tmp_dir", ExecOp.optionValue .string mappings.tmpDir)] }]

/-- `TmpExecutor::execute`, for a token that says whether the call is cancelled. -/
def execute (profile : Profile) (isCancelled : Bool) (op : ExecOp) :
    FsComputation ExecResult := do
  ofResult (rejectIf isCancelled (policyViolation "execution cancelled"))
  match op with
  | .tmpAlloc sizeBytes => do
      ofResult (rejectIf (profile.limits.maxBytesOut.any (sizeBytes > ·))
        (policyViolation "tmp allocation exceeds limit"))
      createTmpDir profile.mappings.tmpDir
      return allocResult profile.mappings sizeBytes
  | .fsRead .. | .fsWrite .. | .fsList _ | .netHttp .. | .browserNav _ | .browserScreenshot ..
  | .procExec .. =>
      throw (policyViolation "operation not supported by TmpExecutor")

end TmpExecutor

end Soulbase.Sandbox
