/-
# Manifests and their registry

What a tool declares of itself, what is checked of it when it is registered, and what the
registry gives out to callers.
-/

import Soulbase.Foundation.FiniteMap
import Soulbase.Foundation.Text
import Soulbase.Json
import Soulbase.Tools.Errors

namespace Soulbase.Tools

open Soulbase.Foundation ToolError

/-- `ToolId`. -/
structure ToolId where
  asStr : String
  deriving DecidableEq

/-- `SafetyClass`. -/
inductive SafetyClass
  | low
  | medium
  | high
  deriving DecidableEq

/-- `SideEffect`. -/
inductive SideEffect
  | none
  | read
  | write
  | network
  | filesystem
  | browser
  | process
  deriving DecidableEq

/-- `ConsentPolicy`, without the hint. -/
structure ConsentPolicy where
  required : Bool := false
  maxTtlMs : Option UInt64 := Option.none

/-- `Limits`. -/
structure Limits where
  timeoutMs : UInt64 := 30000
  maxBytesIn : UInt64 := 2097152
  maxBytesOut : UInt64 := 2097152
  maxFiles : UInt64 := 8
  maxDepth : UInt32 := 4
  maxConcurrency : UInt32 := 1

/-- `CapabilityDecl`, without its attributes. -/
structure CapabilityDecl where
  domain : String
  action : String
  resource : String
  deriving DecidableEq

/-- `IdempoKind`. -/
inductive IdempoKind
  | keyed
  | none
  deriving DecidableEq

/-- `ConcurrencyKind`. -/
inductive ConcurrencyKind
  | serial
  | parallel
  deriving DecidableEq

/-- `ToolManifest`, without what is only shown to people. A version is its text and a schema
its JSON. -/
structure ToolManifest where
  id : ToolId
  version : String
  inputSchema : Json.Value
  outputSchema : Json.Value
  scopes : List Scope
  capabilities : List CapabilityDecl
  sideEffect : SideEffect
  safetyClass : SafetyClass
  consent : ConsentPolicy
  limits : Limits
  idempotency : IdempoKind
  concurrency : ConcurrencyKind
  metadata : Json.Value
  deprecated : Bool

/-- `JSONSchema`, for draft 2020-12. -/
structure SchemaValidator where
  /-- `compile`. -/
  compile : Json.Value → Except String (Json.Value → List String)

namespace SchemaValidator

/-- `validate_schema`, of `ToolManifest`. -/
def validateSchema (validator : SchemaValidator) (schema : Json.Value) : ToolResult Unit :=
  match validator.compile schema with
  | .error err => .error (invalidManifest ("compile schema failed: " ++ err))
  | .ok _ => .ok ()

/-- What `validate_args` and `validate_output` have in common. -/
def check (validator : SchemaValidator) (label : String) (schema value : Json.Value) :
    ToolResult Unit :=
  match validator.compile schema with
  | .error err => .error (ToolError.schema ("compile " ++ label ++ " schema failed: " ++ err))
  | .ok errors =>
      if (errors value).isEmpty then .ok ()
      else .error (ToolError.schema
        (label ++ " schema validation failed: " ++ "; ".intercalate (errors value)))

end SchemaValidator

/-- `ToolId::validate`. -/
def ToolId.validate (id : ToolId) : ToolResult Unit := do
  rejectIf (id.asStr = "") (invalidManifest "tool id must not be empty")
  rejectIf (!id.asStr.toList.all fun c => c.isAlphanum || c = '.' || c = '-' || c = '_')
    (invalidManifest "tool id must contain only [a-zA-Z0-9._-]")
  rejectIf (id.asStr.toList.count '.' < 2)
    (invalidManifest "tool id must follow <group>.<pkg>.<name>")

namespace ToolManifest

variable (manifest : ToolManifest)

/-- Whether a capability to write files is declared. -/
def hasWriteCap : Bool :=
  manifest.capabilities.any fun decl =>
    decl.domain = "fs" && Text.contains decl.action "write"

/-- `validate_capability_scope_alignment`. -/
def validateCapabilityScopeAlignment : ToolResult Unit :=
  rejectIf (manifest.hasWriteCap && !manifest.scopes.any (·.action = "write"))
    (invalidManifest "fs write capability requires write scope")

/-- `ToolManifest::validate`. -/
def validate (validator : SchemaValidator) : ToolResult Unit := do
  manifest.id.validate
  rejectIf (manifest.safetyClass = .low &&
      (manifest.sideEffect = .write || manifest.sideEffect = .process))
    (invalidManifest "write/process side effect requires safety>=Medium")
  rejectIf (manifest.safetyClass = .high && !manifest.consent.required)
    (invalidManifest "safety=High tools must require consent")
  rejectIf manifest.capabilities.isEmpty (invalidManifest "capabilities must not be empty")
  manifest.validateCapabilityScopeAlignment
  validator.validateSchema manifest.inputSchema
  validator.validateSchema manifest.outputSchema

end ToolManifest

/-- `ToolState`. -/
inductive ToolState
  | registered
  | enabled
  | paused
  | deprecated
  deriving DecidableEq

/-- `RegistryRecord`, without its times. -/
structure RegistryRecord where
  manifest : ToolManifest
  state : ToolState
  policyHash : String
  visibleToLlm : Bool
  configVersion : Option String
  configHash : Option String

/-- `AvailableSpec`, without the copies of two fields of the manifest. -/
structure AvailableSpec where
  manifest : ToolManifest
  policyHash : String
  enabled : Bool
  visibleToLlm : Bool
  configVersion : Option String
  configHash : Option String

/-- `InMemoryRegistry`. What is in it was accepted, and is found under its own id. -/
structure InMemoryRegistry (validator : SchemaValidator) where
  records : HashMap ToolId RegistryRecord
  accepted : ∀ id record, records.get id = some record →
    record.manifest.id = id ∧ record.manifest.validate validator = .ok ()

/-- `InMemoryRegistry::convert`. -/
def RegistryRecord.convert (record : RegistryRecord) : AvailableSpec where
  manifest := record.manifest
  policyHash := record.policyHash
  enabled := record.state = .enabled
  visibleToLlm := record.visibleToLlm && record.state = .enabled && !record.manifest.deprecated
  configVersion := record.configVersion
  configHash := record.configHash

namespace InMemoryRegistry

variable {validator : SchemaValidator}

/-- `InMemoryRegistry::new`. -/
def new : InMemoryRegistry validator where
  records := ∅
  accepted id record hget := by
    rw [HashMap.get_empty] at hget
    cases hget

/-- A record whose manifest was accepted is stored under its id. -/
def put (registry : InMemoryRegistry validator) (record : RegistryRecord)
    (h : record.manifest.validate validator = .ok ()) : InMemoryRegistry validator where
  records := registry.records.put record.manifest.id record
  accepted id found hget := by
    rw [HashMap.get_put] at hget
    split at hget
    case isTrue hid =>
      cases hget
      exact ⟨hid.symm, h⟩
    case isFalse => exact registry.accepted id found hget

/-- The record that a new manifest gets. -/
def fresh (manifest : ToolManifest) : RegistryRecord where
  manifest := manifest
  state := .enabled
  policyHash := "policy:default"
  visibleToLlm := true
  configVersion := none
  configHash := none

/-- `InMemoryRegistry::register`. -/
def register (registry : InMemoryRegistry validator) (manifest : ToolManifest) :
    ToolResult (InMemoryRegistry validator) :=
  match h : manifest.validate validator with
  | .error err => .error err
  | .ok () =>
      if (registry.records.get manifest.id).isSome then
        .error (invalidManifest "tool already exists")
      else .ok (registry.put (fresh manifest) h)

/-- `InMemoryRegistry::update`. -/
def update (registry : InMemoryRegistry validator) (manifest : ToolManifest) :
    ToolResult (InMemoryRegistry validator) :=
  match h : manifest.validate validator with
  | .error err => .error err
  | .ok () =>
      match registry.records.get manifest.id with
      | none => .error (notFound "tool not registered")
      | some record => .ok (registry.put { record with manifest := manifest } h)

/-- The operations that change a record, but not its manifest. -/
def modify (registry : InMemoryRegistry validator) (id : ToolId)
    (change : RegistryRecord → RegistryRecord)
    (hchange : ∀ record, (change record).manifest = record.manifest) :
    ToolResult (InMemoryRegistry validator) :=
  match h : registry.records.get id with
  | none => .error (notFound "tool not registered")
  | some record => .ok (registry.put (change record) (by
      rw [hchange]
      exact (registry.accepted id record h).2))

/-- `InMemoryRegistry::set_state`. -/
def setState (registry : InMemoryRegistry validator) (id : ToolId) (state : ToolState) :
    ToolResult (InMemoryRegistry validator) :=
  registry.modify id (fun record => { record with state := state }) fun _ => rfl

/-- `InMemoryRegistry::update_policy`. -/
def updatePolicy (registry : InMemoryRegistry validator) (id : ToolId)
    (policyHash : Option String) (visibleToLlm : Option Bool) :
    ToolResult (InMemoryRegistry validator) :=
  registry.modify id
    (fun record => { record with
      policyHash := policyHash.getD record.policyHash
      visibleToLlm := visibleToLlm.getD record.visibleToLlm })
    fun _ => rfl

/-- `InMemoryRegistry::update_config_fingerprint`. -/
def updateConfigFingerprint (registry : InMemoryRegistry validator) (id : ToolId)
    (version hash : Option String) : ToolResult (InMemoryRegistry validator) :=
  registry.modify id
    (fun record => { record with configVersion := version, configHash := hash }) fun _ => rfl

/-- `InMemoryRegistry::get`, for any tenant. -/
def get (registry : InMemoryRegistry validator) (id : ToolId) : Option AvailableSpec :=
  (registry.records.get id).map RegistryRecord.convert

/-- What the registry gives out was accepted. -/
theorem validate_of_get {registry : InMemoryRegistry validator} {id : ToolId}
    {spec : AvailableSpec} (h : registry.get id = some spec) :
    spec.manifest.id = id ∧ spec.manifest.validate validator = .ok () := by
  obtain ⟨record, hrecord, rfl⟩ := Option.map_eq_some_iff.mp h
  exact registry.accepted id record hrecord

end InMemoryRegistry

end Soulbase.Tools
