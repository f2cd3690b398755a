/-
# Evidence

What is recorded of a call before and after it runs.
-/

import Soulbase.Sandbox.Model

namespace Soulbase.Sandbox

/-- `EvidenceStatus`. -/
inductive EvidenceStatus
  | ok
  | denied
  | error
  deriving DecidableEq

/-- `BeginEvidence`. -/
structure BeginEvidence where
  envelopeId : Id
  tenant : TenantId
  subjectId : Id
  toolName : String
  callId : Id
  profileHash : String
  capability : String
  declaredSideEffects : List SideEffect
  safety : String
  inputsDigest : Option DataDigest
  policyHash : Option String
  configVersion : Option String
  configHash : Option String
  startedAt : DateTime

/-- `EndEvidence`. -/
structure EndEvidence where
  envelopeId : Id
  tenant : TenantId
  subjectId : Id
  toolName : String
  callId : Id
  profileHash : String
  policyHash : Option String
  configVersion : Option String
  configHash : Option String
  finishedAt : DateTime
  status : EvidenceStatus
  errorCode : Option String
  inputsDigest : Option DataDigest
  outputsDigest : Option DataDigest
  sideEffects : List SideEffectRecord
  budgetUsed : Budget
  durationMs : Int64

/-- `EvidenceEvent`. -/
inductive EvidenceEvent
  | begin (evidence : BeginEvidence)
  | finish (evidence : EndEvidence)

/-- `EvidenceBuilder`. -/
structure EvidenceBuilder where
  profile : Profile
  capability : Capability
  envelopeId : Id
  startedAt : DateTime

namespace EvidenceBuilder

/-- `EvidenceBuilder::begin`. -/
def beginEvidence (builder : EvidenceBuilder) (inputsDigest : Option DataDigest) :
    BeginEvidence where
  envelopeId := builder.envelopeId
  tenant := builder.profile.tenant
  subjectId := builder.profile.subjectId
  toolName := builder.profile.toolName
  callId := builder.profile.callId
  profileHash := builder.profile.profileHash
  capability := builder.capability.describe
  declaredSideEffects := builder.profile.sideEffects
  safety := builder.profile.safety.debug
  inputsDigest := inputsDigest
  policyHash := builder.profile.policyHash
  configVersion := builder.profile.configVersion
  configHash := builder.profile.configHash
  startedAt := builder.startedAt

/-- `EvidenceBuilder::end`, at a reading of the clock. -/
def endEvidence (builder : EvidenceBuilder) (finishedAt : DateTime) (status : EvidenceStatus)
    (errorCode : Option String) (inputsDigest outputsDigest : Option DataDigest)
    (sideEffects : List SideEffectRecord) (budgetUsed : Budget) : EndEvidence where
  envelopeId := builder.envelopeId
  tenant := builder.profile.tenant
  subjectId := builder.profile.subjectId
  toolName := builder.profile.toolName
  callId := builder.profile.callId
  profileHash := builder.profile.profileHash
  policyHash := builder.profile.policyHash
  configVersion := builder.profile.configVersion
  configHash := builder.profile.configHash
  finishedAt := finishedAt
  status := status
  errorCode := errorCode
  inputsDigest := inputsDigest
  outputsDigest := outputsDigest
  sideEffects := sideEffects
  budgetUsed := budgetUsed
  durationMs := finishedAt.millisSince builder.startedAt

end EvidenceBuilder

end Soulbase.Sandbox
