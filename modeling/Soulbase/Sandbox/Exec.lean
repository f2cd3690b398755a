/-
# Operations and results of executors
-/

import Soulbase.Sandbox.Model

namespace Soulbase.Sandbox

/-- `ExecOp`. -/
inductive ExecOp
  | fsRead (path : String) (offset len : Option UInt64)
  | fsWrite (path bytesB64 : String) (overwrite : Bool)
  | fsList (path : String)
  | netHttp (method url : String) (headers : Json.Value) (bodyB64 : Option String)
  | browserNav (url : String)
  | browserScreenshot (selector : Option String) (fullPage : Bool)
  | procExec (tool : String) (args : List String) (timeoutMs : Option UInt64)
  | tmpAlloc (sizeBytes : UInt64)

namespace ExecOp

/-- The path of an operation on the file system. -/
def path? : ExecOp → Option String
  | fsRead path _ _ | fsWrite path _ _ | fsList path => some path
  | netHttp .. | browserNav _ | browserScreenshot .. | procExec .. | tmpAlloc _ => none

/-- The kind of capability that an operation needs. -/
def kind : ExecOp → CapabilityKind
  | fsRead .. => .fsRead
  | fsWrite .. => .fsWrite
  | fsList _ => .fsList
  | netHttp .. => .netHttp
  | browserNav _ | browserScreenshot .. => .browserUse
  | procExec .. => .procExec
  | tmpAlloc _ => .tmpUse

section Values

open Json

/-- A number of `serde_json`. -/
def numberValue (value : UInt64) : Value := .number (.posInt value)

/-- What an absent or present value is written as. -/
def optionValue {α : Type} (write : α → Value) : Option α → Value
  | none => .null
  | some value => write value

/-- `serde_json::to_value`, with the entries in the order of their keys. -/
def toValue : ExecOp → Value
  | fsRead path offset len =>
      .object [("len", optionValue numberValue len), ("offset", optionValue numberValue offset),
        ("op", .string "fs_read"), ("path", .string path)]
  | fsWrite path bytesB64 overwrite =>
      .object [("bytes_b64", .string bytesB64), ("op", .string "fs_write"),
        ("overwrite", .bool overwrite), ("path", .string path)]
  | fsList path => .object [("op", .string "fs_list"), ("path", .string path)]
  | netHttp method url headers bodyB64 =>
      .object [("body_b64", optionValue .string bodyB64), ("headers", headers),
        ("method", .string method), ("op", .string "net_http"), ("url", .string url)]
  | browserNav url => .object [("op", .string "browser_nav"), ("url", .string url)]
  | browserScreenshot selector fullPage =>
      .object [("full_page", .bool fullPage), ("op", .string "browser_screenshot"),
        ("selector", optionValue .string selector)]
  | procExec tool args timeoutMs =>
      .object [("args", .array (args.map .string)), ("op", .string "proc_exec"),
        ("timeout_ms", optionValue numberValue timeoutMs), ("tool", .string tool)]
  | tmpAlloc sizeBytes =>
      .object [("op", .string "tmp_alloc"), ("size_bytes", numberValue sizeBytes)]

end Values

end ExecOp

/-- `ExecUsage`. -/
structure ExecUsage where
  bytesIn : UInt64 := 0
  bytesOut : UInt64 := 0
  calls : UInt64 := 0
  cpuMs : UInt64 := 0
  fileCount : UInt64 := 0
  deriving DecidableEq

/-- `From<&ExecUsage> for Budget`. -/
def ExecUsage.toBudget (usage : ExecUsage) : Budget where
  calls := usage.calls
  bytesIn := usage.bytesIn
  bytesOut := usage.bytesOut
  cpuMs := usage.cpuMs
  fileCount := usage.fileCount

/-- `ExecResult`. -/
structure ExecResult where
  ok : Bool
  code : Option String
  message : Option String
  out : Json.Value
  usage : ExecUsage
  sideEffects : List SideEffectRecord

namespace ExecResult

/-- `ExecResult::success`. -/
def success (out : Json.Value) (usage : ExecUsage) (sideEffects : List SideEffectRecord) :
    ExecResult where
  ok := true
  code := none
  message := none
  out := out
  usage := usage
  sideEffects := sideEffects

/-- `ExecResult::failure`. -/
def failure (code : String) (message : Option String) : ExecResult where
  ok := false
  code := some code
  message := message
  out := .null
  usage := {}
  sideEffects := []

end ExecResult

end Soulbase.Sandbox
