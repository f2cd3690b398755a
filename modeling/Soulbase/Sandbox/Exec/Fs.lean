/-
# The executor of the file system

`FsExecutor` is a program over the calls of `std::fs`. It does not look at the
capability that was chosen: it opens the path of the operation as it stands, and a
relative path is taken from the working directory of the process.
-/

import Soulbase.Foundation.Program
import Soulbase.Sandbox.Select

namespace Soulbase.Sandbox

open Soulbase.Foundation SandboxError

/-- What the file system says of an entry of a directory. -/
inductive FileType
  | dir
  | file
  | other
  deriving DecidableEq

/-- The calls of the file system. -/
inductive FsCall
  /-- `File::open`. -/
  | openFile (path : String)
  /-- `Seek::seek` from the start. -/
  | seek (offset : UInt64)
  /-- `Read::read_to_end`, behind `Read::take` if there is a limit. -/
  | readToEnd (limit : Option UInt64)
  /-- `Path::exists`. -/
  | pathExists (path : String)
  /-- `fs::create_dir_all`, of a parent directory. -/
  | createDirAll (parent : List Component)
  /-- `File::create`. -/
  | createFile (path : String)
  /-- `Write::write_all`. -/
  | writeAll (bytes : List UInt8)
  /-- `fs::read_dir`, with the iteration over the entries. -/
  | readDir (path : String)

/-- What a call returns. Where it only succeeds or fails that is all that is looked
at. -/
abbrev FsCall.Answer : FsCall → Type
  | openFile _ => Bool
  | seek _ => Bool
  | readToEnd _ => Option (List UInt8)
  | pathExists _ => Bool
  | createDirAll _ => Bool
  | createFile _ => Bool
  | writeAll _ => Bool
  | readDir _ => Option (List (Option (List UInt8 × Option FileType)))

/-- The path that a call opens. -/
def FsCall.opens? : FsCall → Option String
  | openFile path | createFile path | readDir path => some path
  | seek _ | readToEnd _ | pathExists _ | createDirAll _ | writeAll _ => none

/-- A computation of the executor. -/
abbrev FsComputation := ExceptT SandboxError (Program FsCall FsCall.Answer)

namespace FsComputation

/-- Call the file system. -/
def call (fsCall : FsCall) : FsComputation fsCall.Answer := ExceptT.lift (perform fsCall)

/-- The question mark operator. -/
def ofResult {α : Type} : SandboxResult α → FsComputation α
  | .ok value => pure value
  | .error error => throw error

/-- Call the file system, and stop if it fails. -/
def require (fsCall : FsCall) (ok : fsCall.Answer → Bool) (detail : String) :
    FsComputation Unit := do
  let answer ← call fsCall
  ofResult (rejectIf (!ok answer) (policyViolation detail))

section Calls

variable {permits : FsCall → Prop} {fsCall : FsCall}

theorem callsOnly_ofResult {α : Type} (result : SandboxResult α) :
    (ofResult result).run.CallsOnly permits := by
  cases result <;> trivial

theorem callsOnly_call (hcall : permits fsCall) : (call fsCall).run.CallsOnly permits :=
  Program.callsOnly_perform hcall

theorem callsOnly_require {ok : fsCall.Answer → Bool} {detail : String}
    (hcall : permits fsCall) : (require fsCall ok detail).run.CallsOnly permits :=
  callsOnly_fallible_bind (callsOnly_call hcall) fun _ => callsOnly_ofResult _

end Calls

end FsComputation

namespace FsExecutor

open FsComputation

/-- The part of `read_file` that moves to the offset. -/
def seekTo : Option UInt64 → FsComputation Unit
  | none => pure ()
  | some off => require (.seek off) id "failed to seek file"

/-- How much `read_file` reads at most. -/
def readLimit (limits : Limits) (len : Option UInt64) : Option UInt64 :=
  let allowed := limits.maxBytesIn.getD (UInt64.ofNat (UInt64.size - 1))
  let toRead := min (len.getD allowed) allowed
  if toRead < UInt64.ofNat (UInt64.size - 1) then some toRead else none

/-- The result of `read_file`. -/
def readResult (crates : Crates) (limits : Limits) (path : String) (buffer : List UInt8) :
    SandboxResult ExecResult := do
  let bytes := UInt64.ofNat buffer.length
  rejectIf (limits.maxBytesIn.any (bytes > ·)) (policyViolation "read exceeds byte limit")
  return .success (.object [("data_b64", .string (crates.encodeBase64 buffer))])
    { bytesIn := bytes, calls := 1 }
    [{ kind := .read
       metadata := .object [("bytes", ExecOp.numberValue bytes), ("path", .string path)] }]

/-- `read_file`. -/
def readFile (crates : Crates) (limits : Limits) (path : String) (offset len : Option UInt64) :
    FsComputation ExecResult := do
  require (.openFile path) id "failed to open file for read"
  seekTo offset
  let found ← call (.readToEnd (readLimit limits len))
  let buffer ← ofResult (okOr (policyViolation "failed to read file") found)
  ofResult (readResult crates limits path buffer)

/-- What `write_file` checks before it looks at the file system. -/
def checkWrite (limits : Limits) (bytes : List UInt8) : SandboxResult Unit := do
  rejectIf (limits.maxBytesOut.any (UInt64.ofNat bytes.length > ·))
    (policyViolation "write exceeds byte limit")
  rejectIf (limits.maxFiles = some 0) (policyViolation "file writes disabled by policy")

/-- The part of `write_file` that creates the parent directory. The root and the empty
path have none. -/
def createParent (path : String) : FsComputation Unit :=
  let steps := LexicalPath.components path
  if steps = [] ∨ steps.getLast? = some .rootDir then pure ()
  else require (.createDirAll steps.dropLast) id "failed to create directories"

/-- The result of `write_file`. -/
def writeResult (path : String) (bytes : List UInt8) : ExecResult :=
  let written := UInt64.ofNat bytes.length
  .success (.object [("written_bytes", ExecOp.numberValue written)])
    { bytesOut := written, calls := 1, fileCount := 1 }
    [{ kind := .write
       metadata := .object [("bytes", ExecOp.numberValue written), ("path", .string path)] }]

/-- `write_file`. -/
def writeFile (crates : Crates) (limits : Limits) (path dataB64 : String) (overwrite : Bool) :
    FsComputation ExecResult := do
  let bytes ← ofResult
    (okOr (policyViolation "invalid base64 payload") (crates.decodeBase64 dataB64))
  ofResult (checkWrite limits bytes)
  let found ← call (.pathExists path)
  ofResult
    (rejectIf (found && !overwrite) (policyViolation "file exists and overwrite disabled"))
  createParent path
  require (.createFile path) id "failed to open file for write"
  require (.writeAll bytes) id "failed to write file"
  return writeResult path bytes

/-- The text of the type of an entry. -/
def fileTypeText : FileType → String
  | .dir => "dir"
  | .file => "file"
  | .other => "other"

/-- What `serde` writes for an `OsString`. -/
def fileNameValue (name : List UInt8) : Json.Value :=
  .object [("Unix", .array (name.map (ExecOp.numberValue ·.toUInt64)))]

/-- The loop of `list_dir`. -/
def listEntries :
    List (Option (List UInt8 × Option FileType)) → SandboxResult (List Json.Value)
  | [] => .ok []
  | none :: _ => .error (policyViolation "failed to read entry")
  | some (_, none) :: _ => .error (policyViolation "failed to inspect entry")
  | some (name, some fileType) :: rest => do
      let items ← listEntries rest
      return .object [("kind", .string (fileTypeText fileType)), ("name", fileNameValue name)] ::
        items

/-- The result of `list_dir`. -/
def listResult (limits : Limits) (path : String) (items : List Json.Value) :
    SandboxResult ExecResult := do
  let count := UInt64.ofNat items.length
  rejectIf (limits.maxFiles.any (count > ·)) (policyViolation "directory listing exceeds limit")
  return .success (.object [("entries", .array items)]) { calls := 1, fileCount := count }
    [{ kind := .filesystem
       metadata := .object [("count", ExecOp.numberValue count), ("path", .string path)] }]

/-- `list_dir`. -/
def listDir (limits : Limits) (path : String) : FsComputation ExecResult := do
  let found ← call (.readDir path)
  let entries ← ofResult (okOr (policyViolation "failed to list directory") found)
  let items ← ofResult (listEntries entries)
  ofResult (listResult limits path items)

/-- `FsExecutor::execute`, for a token that says whether the call is cancelled. -/
def execute (crates : Crates) (limits : Limits) (isCancelled : Bool) (op : ExecOp) :
    FsComputation ExecResult :=
  if isCancelled then throw (policyViolation "execution cancelled")
  else
    match op with
    | .fsRead path offset len => readFile crates limits path offset len
    | .fsWrite path bytesB64 overwrite => writeFile crates limits path bytesB64 overwrite
    | .fsList path => listDir limits path
    | .netHttp .. | .browserNav _ | .browserScreenshot .. | .procExec .. | .tmpAlloc _ =>
        throw (policyViolation "operation not supported by FsExecutor")

end FsExecutor

/-- The call opens the path, or nothing. -/
def FsCall.OpensOnly (path : String) (fsCall : FsCall) : Prop :=
  ∀ opened, fsCall.opens? = some opened → opened = path

section OpensOnly

variable {path : String} {fsCall : FsCall}

theorem FsCall.opensOnly_of_opens_nothing (h : fsCall.opens? = none) : fsCall.OpensOnly path := by
  intro opened hopened
  rw [h] at hopened
  cases hopened

theorem FsCall.opensOnly_of_opens (h : fsCall.opens? = some path) : fsCall.OpensOnly path := by
  intro opened hopened
  rw [h] at hopened
  cases hopened
  rfl

end OpensOnly

namespace FsExecutor

open FsComputation FsCall

variable {crates : Crates} {limits : Limits} {path : String}

theorem opensOnly_readFile {offset len : Option UInt64} :
    (readFile crates limits path offset len).run.CallsOnly (OpensOnly path) := by
  apply callsOnly_fallible_bind (callsOnly_require (opensOnly_of_opens rfl))
  intro _
  apply callsOnly_fallible_bind
  · cases offset with
    | none => exact Program.callsOnly_done _
    | some off => exact callsOnly_require (opensOnly_of_opens_nothing rfl)
  intro _
  apply callsOnly_fallible_bind (callsOnly_call (opensOnly_of_opens_nothing rfl))
  intro found
  exact callsOnly_fallible_bind (callsOnly_ofResult _) fun _ => callsOnly_ofResult _

theorem opensOnly_writeFile {dataB64 : String} {overwrite : Bool} :
    (writeFile crates limits path dataB64 overwrite).run.CallsOnly (OpensOnly path) := by
  apply callsOnly_fallible_bind (callsOnly_ofResult _)
  intro bytes
  apply callsOnly_fallible_bind (callsOnly_ofResult _)
  intro _
  apply callsOnly_fallible_bind (callsOnly_call (opensOnly_of_opens_nothing rfl))
  intro found
  apply callsOnly_fallible_bind (callsOnly_ofResult _)
  intro _
  apply callsOnly_fallible_bind
  · unfold createParent
    dsimp only
    split
    case isTrue => exact Program.callsOnly_done _
    case isFalse => exact callsOnly_require (opensOnly_of_opens_nothing rfl)
  intro _
  apply callsOnly_fallible_bind (callsOnly_require (opensOnly_of_opens rfl))
  intro _
  apply callsOnly_fallible_bind (callsOnly_require (opensOnly_of_opens_nothing rfl))
  intro _
  exact Program.callsOnly_done _

theorem opensOnly_listDir : (listDir limits path).run.CallsOnly (OpensOnly path) := by
  apply callsOnly_fallible_bind (callsOnly_call (opensOnly_of_opens rfl))
  intro found
  apply callsOnly_fallible_bind (callsOnly_ofResult _)
  intro entries
  exact callsOnly_fallible_bind (callsOnly_ofResult _) fun _ => callsOnly_ofResult _

theorem opensOnly_execute {isCancelled : Bool} {op : ExecOp} (hpath : op.path? = some path) :
    (execute crates limits isCancelled op).run.CallsOnly (OpensOnly path) := by
  cases isCancelled with
  | true => exact Program.callsOnly_done _
  | false =>
      cases op with
      | fsRead _ _ _ =>
          cases hpath
          exact opensOnly_readFile
      | fsWrite _ _ _ =>
          cases hpath
          exact opensOnly_writeFile
      | fsList _ =>
          cases hpath
          exact opensOnly_listDir
      | netHttp _ _ _ _ | browserNav _ | browserScreenshot _ _ | procExec _ _ _ | tmpAlloc _ =>
          cases hpath

/-- Whatever the file system answers, the executor opens the path of the operation, as
it stands, and nothing else. -/
theorem opens_own_path {isCancelled : Bool} {op : ExecOp} (hpath : op.path? = some path)
    {calls : List (Sigma FsCall.Answer)} {result : SandboxResult ExecResult}
    (hruns : Runs (execute crates limits isCancelled op).run calls result) :
    ∀ call ∈ calls, ∀ opened, call.1.opens? = some opened → opened = path :=
  (opensOnly_execute hpath).of_runs hruns

end FsExecutor

end Soulbase.Sandbox
