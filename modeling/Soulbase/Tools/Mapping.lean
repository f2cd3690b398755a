/-
# From declarations to capabilities and operations

What a tool declares is mapped to capabilities of the sandbox and, with the arguments of a
call, to operations. The capabilities are about the declared resources, and the operations
about the paths and addresses in the arguments.
-/

import Soulbase.Sandbox.Exec
import Soulbase.Tools.Manifest

namespace Soulbase.Tools

open Soulbase.Foundation
open Soulbase.Sandbox (Capability ExecOp)

/-- The body of the loop of `manifest_to_capabilities`. -/
def CapabilityDecl.toCapability (upper : Char → List Char) (decl : CapabilityDecl) :
    Option Capability :=
  match decl.domain with
  | "fs" =>
      match decl.action with
      | "read" => some (.fsRead decl.resource)
      | "write" => some (.fsWrite decl.resource false)
      | "list" => some (.fsList decl.resource)
      | _ => none
  | "net.http" =>
      some (.netHttp decl.resource none (some "https") [Text.toUppercase upper decl.action])
  | "tmp" => some .tmpUse
  | "browser" => some (.browserUse decl.resource)
  | "proc" => some (.procExec decl.resource)
  | _ => none

/-- `manifest_to_capabilities`. -/
def manifestToCapabilities (upper : Char → List Char) (manifest : ToolManifest) :
    List Capability :=
  manifest.capabilities.filterMap (·.toCapability upper)

theorem mem_manifestToCapabilities_iff {upper : Char → List Char} {manifest : ToolManifest}
    {capability : Capability} :
    capability ∈ manifestToCapabilities upper manifest ↔
      ∃ decl ∈ manifest.capabilities, decl.toCapability upper = some capability :=
  List.mem_filterMap

/-- A field of the arguments that must be a text. -/
def requireStr (args : Json.Value) (field : String) : ToolResult String :=
  match (args.get field).bind Json.Value.asStr with
  | some text => .ok text
  | none => .error (.schema ("missing field: " ++ field))

/-- `plan_http`. -/
def planHttp (upper : Char → List Char) (method : String) (args : Json.Value) :
    ToolResult ExecOp := do
  let url ← requireStr args "url"
  return .netHttp (Text.toUppercase upper method) url ((args.get "headers").getD (.object []))
    ((args.get "body_b64").bind Json.Value.asStr)

/-- `plan_fs_read`. -/
def planFsRead (args : Json.Value) : ToolResult ExecOp := do
  let path ← requireStr args "path"
  return .fsRead path ((args.get "offset").bind Json.Value.asU64)
    ((args.get "len").bind Json.Value.asU64)

/-- `plan_fs_write`. -/
def planFsWrite (args : Json.Value) : ToolResult ExecOp := do
  let path ← requireStr args "path"
  let bytesB64 ← requireStr args "content_b64"
  return .fsWrite path bytesB64 (((args.get "overwrite").bind Json.Value.asBool).getD false)

/-- `plan_tmp`. -/
def planTmp (args : Json.Value) : ToolResult ExecOp :=
  return .tmpAlloc (((args.get "size_bytes").bind Json.Value.asU64).getD 1024)

/-- The body of the loop of `plan_exec_ops`. -/
def CapabilityDecl.planOp (upper : Char → List Char) (decl : CapabilityDecl)
    (args : Json.Value) : ToolResult (Option ExecOp) :=
  match decl.domain with
  | "net.http" => some <$> planHttp upper decl.action args
  | "fs" =>
      match decl.action with
      | "read" => some <$> planFsRead args
      | "write" => some <$> planFsWrite args
      | _ => .ok none
  | "tmp" => some <$> planTmp args
  | _ => .ok none

/-- The loop of `plan_exec_ops`. -/
def planDecls (upper : Char → List Char) (args : Json.Value) :
    List CapabilityDecl → ToolResult (List ExecOp)
  | [] => .ok []
  | decl :: rest => do
      let op ← decl.planOp upper args
      let ops ← planDecls upper args rest
      return op.toList ++ ops

/-- `plan_exec_ops`. -/
def planExecOps (upper : Char → List Char) (manifest : ToolManifest) (args : Json.Value) :
    ToolResult (List ExecOp) :=
  planDecls upper args manifest.capabilities

end Soulbase.Tools
