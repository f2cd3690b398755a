/-
# Capabilities, grants and profiles

The data of `sb-sandbox`: what a grant, a manifest and a policy say, and the
profile that is made of the three.
-/

import Mathlib.Data.Nat.Basic
import Mathlib.Order.Basic
import Soulbase.Foundation.MachineInt
import Soulbase.Types

namespace Soulbase.Sandbox

/-- `Capability`. -/
inductive Capability
  | fsRead (path : String)
  | fsWrite (path : String) (append : Bool)
  | fsList (path : String)
  | netHttp (host : String) (port : Option UInt16) (scheme : Option String)
      (methods : List String)
  | browserUse (scope : String)
  | procExec (tool : String)
  | tmpUse
  | sysGpu (gpuClass : String)
  deriving DecidableEq

/-- `CapabilityKind`. -/
inductive CapabilityKind
  | fsRead
  | fsWrite
  | fsList
  | netHttp
  | browserUse
  | procExec
  | tmpUse
  | sysGpu
  deriving DecidableEq

namespace Capability

/-- `Capability::kind`. -/
def kind : Capability → CapabilityKind
  | fsRead _ => .fsRead
  | fsWrite .. => .fsWrite
  | fsList _ => .fsList
  | netHttp .. => .netHttp
  | browserUse _ => .browserUse
  | procExec _ => .procExec
  | tmpUse => .tmpUse
  | sysGpu _ => .sysGpu

/-- The path of a capability of the file system. -/
def path? : Capability → Option String
  | fsRead path | fsWrite path _ | fsList path => some path
  | netHttp .. | browserUse _ | procExec _ | tmpUse | sysGpu _ => none

/-- `Capability::describe`. -/
def describe : Capability → String
  | fsRead path => "fs.read:" ++ path
  | fsWrite path append => "fs.write:" ++ path ++ ":append=" ++ toString append
  | fsList path => "fs.list:" ++ path
  | netHttp host port scheme methods =>
      let parts := [scheme.getD "http", host] ++ port.toList.map (toString ·.toNat) ++
        if methods.isEmpty then [] else ["|".intercalate methods]
      "net.http:" ++ ":".intercalate parts
  | browserUse scope => "browser.use:" ++ scope
  | procExec tool => "proc.exec:" ++ tool
  | tmpUse => "tmp.use"
  | sysGpu gpuClass => "sys.gpu:" ++ gpuClass

end Capability

/-- `SafetyClass`. -/
inductive SafetyClass
  | low
  | medium
  | high
  deriving DecidableEq

/-- The place in the declaration, by which classes are compared. -/
def SafetyClass.rank : SafetyClass → ℕ
  | low => 0
  | medium => 1
  | high => 2

theorem SafetyClass.rank_injective : Function.Injective SafetyClass.rank := by
  intro a b h
  cases a <;> cases b <;> first | rfl | cases h

instance : LinearOrder SafetyClass :=
  LinearOrder.lift' SafetyClass.rank SafetyClass.rank_injective

/-- The `Debug` text. -/
def SafetyClass.debug : SafetyClass → String
  | low => "Low"
  | medium => "Medium"
  | high => "High"

/-- `SideEffect`. -/
inductive SideEffect
  | none
  | read
  | write
  | network
  | filesystem
  | browser
  | process
  deriving DecidableEq

/-- The text of `serde`. -/
def SideEffect.serialized : SideEffect → String
  | none => "none"
  | read => "read"
  | write => "write"
  | network => "network"
  | filesystem => "filesystem"
  | browser => "browser"
  | process => "process"

/-- The place in the declaration, by which effects are compared. -/
def SideEffect.rank : SideEffect → ℕ
  | none => 0
  | read => 1
  | write => 2
  | network => 3
  | filesystem => 4
  | browser => 5
  | process => 6

theorem SideEffect.rank_injective : Function.Injective SideEffect.rank := by
  intro a b h
  cases a <;> cases b <;> first | rfl | cases h

instance : LinearOrder SideEffect :=
  LinearOrder.lift' SideEffect.rank SideEffect.rank_injective

/-- `SideEffectRecord`. -/
structure SideEffectRecord where
  kind : SideEffect
  metadata : Json.Value

/-- `serde_json::to_value`. -/
def SideEffectRecord.toValue (record : SideEffectRecord) : Json.Value :=
  .object [("kind", .string record.kind.serialized), ("meta", record.metadata)]

/-- `Budget`. -/
structure Budget where
  calls : UInt64 := 0
  bytesOut : UInt64 := 0
  bytesIn : UInt64 := 0
  cpuMs : UInt64 := 0
  gpuMs : UInt64 := 0
  fileCount : UInt64 := 0
  deriving DecidableEq

/-- `Budget::add_assign`. -/
def Budget.addAssign (budget other : Budget) : Budget where
  calls := Foundation.saturatingAdd budget.calls other.calls
  bytesOut := Foundation.saturatingAdd budget.bytesOut other.bytesOut
  bytesIn := Foundation.saturatingAdd budget.bytesIn other.bytesIn
  cpuMs := Foundation.saturatingAdd budget.cpuMs other.cpuMs
  gpuMs := Foundation.saturatingAdd budget.gpuMs other.gpuMs
  fileCount := Foundation.saturatingAdd budget.fileCount other.fileCount

/-- `Limits`. -/
structure Limits where
  maxBytesIn : Option UInt64 := none
  maxBytesOut : Option UInt64 := none
  maxFiles : Option UInt64 := none
  maxDepth : Option UInt32 := none
  maxConcurrency : Option UInt32 := none
  deriving DecidableEq

/-- `Whitelists`. -/
structure Whitelists where
  domains : List String := []
  paths : List String := []
  tools : List String := []
  mimeAllow : List String := []
  methods : List String := []
  deriving DecidableEq

/-- `Mappings`. -/
structure Mappings where
  rootFs : Option String := none
  tmpDir : Option String := none
  deriving DecidableEq

/-- `Grant`. -/
structure Grant where
  tenant : TenantId
  subjectId : Id
  toolName : String
  callId : Id
  capabilities : List Capability
  expiresAt : Int64
  budget : Budget
  decisionFingerprint : String
  consent : Option Consent

/-- `ToolManifest`. -/
structure ToolManifest where
  name : String
  version : String
  capabilities : List Capability
  safety : SafetyClass
  sideEffects : List SideEffect
  limits : Option Limits
  whitelists : Option Whitelists
  mappings : Option Mappings
  timeoutMs : Option UInt64
  metadata : Json.Value

/-- `PolicyConfig`, with the timeout of `PolicyDefaults`. -/
structure PolicyConfig where
  capabilities : List Capability
  safetyClass : SafetyClass
  sideEffects : List SideEffect
  limits : Option Limits
  whitelists : Option Whitelists
  mappings : Option Mappings
  timeoutMs : Option UInt64
  defaultTimeoutMs : Option UInt64
  policyHash : Option String
  configVersion : Option String
  configHash : Option String

/-- `PolicyConfig::default`: a policy without restrictions of its own. -/
def PolicyConfig.default : PolicyConfig where
  capabilities := []
  safetyClass := .low
  sideEffects := []
  limits := none
  whitelists := none
  mappings := none
  timeoutMs := none
  defaultTimeoutMs := none
  policyHash := none
  configVersion := none
  configHash := none

/-- `Profile`. -/
structure Profile where
  tenant : TenantId
  subjectId : Id
  toolName : String
  callId : Id
  capabilities : List Capability
  safety : SafetyClass
  sideEffects : List SideEffect
  limits : Limits
  whitelists : Whitelists
  mappings : Mappings
  timeoutMs : UInt64
  profileHash : String
  policyHash : Option String
  configVersion : Option String
  configHash : Option String
  deriving DecidableEq

namespace Grant

/-- A grant for one call of a tool. It does not expire, and limits nothing. -/
def forCall (toolName : String) (capabilities : List Capability) : Grant where
  tenant := ⟨"t"⟩
  subjectId := ⟨"s"⟩
  toolName := toolName
  callId := ⟨"c"⟩
  capabilities := capabilities
  expiresAt := 0
  budget := {}
  decisionFingerprint := ""
  consent := none

variable (grant : Grant)

/-- The manifest of a tool that needs what is granted. -/
def manifest : ToolManifest where
  name := grant.toolName
  version := "1"
  capabilities := grant.capabilities
  safety := .low
  sideEffects := []
  limits := none
  whitelists := none
  mappings := none
  timeoutMs := none
  metadata := .null

/-- The profile of the call, without hashes and limits. -/
def profile : Profile where
  tenant := grant.tenant
  subjectId := grant.subjectId
  toolName := grant.toolName
  callId := grant.callId
  capabilities := grant.capabilities
  safety := .low
  sideEffects := []
  limits := {}
  whitelists := {}
  mappings := {}
  timeoutMs := 30000
  profileHash := ""
  policyHash := none
  configVersion := none
  configHash := none

end Grant

/-- `DataDigest`. -/
structure DataDigest where
  algo : String
  b64 : String
  size : UInt64
  deriving DecidableEq

end Soulbase.Sandbox
