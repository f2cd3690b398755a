/-
# Chat models

The part of `sb-llm` that providers are written against: messages, requests and responses of a
chat, the estimate of its usage, and what is asked of an answer that has to be JSON.
-/

import Soulbase.Errors
import Soulbase.Foundation.MachineInt
import Soulbase.Foundation.Text
import Soulbase.Types

namespace Soulbase.Llm

open Soulbase.Foundation Soulbase.Errors

/-- `LlmError`. -/
structure LlmError where
  inner : ErrorObj
  /-- `public`. -/
  publicText : String

namespace LlmError

/-- `LlmError::new`. -/
def new (inner : ErrorObj) : LlmError :=
  ⟨inner, inner.toPublic.code ++ ": " ++ inner.toPublic.message⟩

/-- `LlmError::schema`. -/
def schema (msg : String) : LlmError :=
  new { code := codes.schemaValidationFailed
        messageUser := "Model output failed schema validation."
        messageDev := some msg }

end LlmError

/-- `Role`. -/
inductive Role
  | system
  | user
  | assistant
  | tool
  deriving DecidableEq

/-- `ContentSegment`. -/
inductive ContentSegment
  | text (content : String)
  | imageRef (uri mime : String) (width height : Option UInt32)
  | audioRef (uri : String) (seconds : Float32) (sampleRate : Option UInt32) (mime : Option String)
  | attachmentRef (uri : String) (bytes : Option UInt64) (mime : Option String)

/-- The text of a segment, if it is one. -/
def ContentSegment.asText : ContentSegment → Option String
  | .text content => some content
  | .imageRef _ _ _ _ | .audioRef _ _ _ _ | .attachmentRef _ _ _ => none

/-- `ToolCallProposal`. -/
structure ToolCallProposal where
  name : String
  callId : Id
  arguments : Json.Value

/-- `Message`. -/
structure Message where
  role : Role
  segments : List ContentSegment
  toolCalls : List ToolCallProposal

/-- `last_user_text`. -/
def lastUserText (messages : List Message) : Option String :=
  (messages.reverse.find? (·.role = .user)).bind fun message =>
    message.segments.reverse.findSome? ContentSegment.asText

/-- `Usage`. -/
structure Usage where
  inputTokens : UInt32
  outputTokens : UInt32
  cachedTokens : Option UInt32
  imageUnits : Option UInt32
  audioSeconds : Option Float32
  requests : UInt32

/-- The estimate of a text, in a build without overflow checks. -/
def estimateTokens (text : String) : UInt32 := (.ofNat text.length + 3) / 4

/-- `estimate_usage`. -/
def estimateUsage (inputs : List String) (output : String) : Usage where
  inputTokens := (inputs.map estimateTokens).foldl (· + ·) 0
  outputTokens := estimateTokens output
  cachedTokens := none
  imageUnits := none
  audioSeconds := none
  requests := 1

/-- `CostBreakdown`. -/
structure CostBreakdown where
  input : Float32
  output : Float32
  image : Float32
  audio : Float32

/-- `Cost`. -/
structure Cost where
  usd : Float32
  currency : String
  breakdown : CostBreakdown

/-- `zero_cost`. -/
def zeroCost : Option Cost := some ⟨0.0, "USD", ⟨0.0, 0.0, 0.0, 0.0⟩⟩

/-- Nothing is estimated for a text of no characters, and for one whose count has wrapped around
to none, or does so where three are added. -/
theorem estimateTokens_eq_zero_iff {text : String} :
    estimateTokens text = 0 ↔
      text.length % 2 ^ 32 = 0 ∨ 2 ^ 32 - 3 ≤ text.length % 2 ^ 32 := by
  rw [← UInt32.toNat_inj, estimateTokens, UInt32.toNat_div, UInt32.toNat_add, UInt32.toNat_ofNat]
  change (text.length % 2 ^ 32 + 3) % 2 ^ 32 / 4 = 0 ↔ _
  omega

/-- `ResponseKind`. -/
inductive ResponseKind
  | text
  | json
  | jsonSchema
  deriving DecidableEq

section Schemas

variable (Schema : Type)

/-- `ResponseFormat`. -/
structure ResponseFormat where
  kind : ResponseKind
  jsonSchema : Option Schema
  strict : Bool

/-- What a local provider looks at in a `ChatRequest`. -/
structure ChatRequest where
  modelId : String
  messages : List Message
  responseFormat : Option (ResponseFormat Schema)

end Schemas

/-- `FinishReason`. -/
inductive FinishReason
  | stop
  | length
  | tool
  | safety
  | other (reason : String)

/-- `ChatResponse`. -/
structure ChatResponse where
  modelId : String
  message : Message
  usage : Usage
  cost : Option Cost
  finish : FinishReason
  providerMeta : Json.Value

/-- `ChatDelta`. -/
structure ChatDelta where
  textDelta : Option String
  toolCallDelta : Option ToolCallProposal
  usagePartial : Option Usage
  finish : Option FinishReason
  firstTokenMs : Option UInt32

/-- `ChatStream`, as what it yields. -/
abbrev ChatStream := List (Except LlmError ChatDelta)

/-- What is used of `serde_json`, and of `schemars`, which accepts everything where its feature is
off. -/
structure JsonLibrary (Schema : Type) where
  /-- `Value::to_string`. -/
  toText : Json.Value → String
  /-- `serde_json::from_str`. -/
  fromText : String → Except String Json.Value
  /-- `Validate::validate`. -/
  validate : Schema → Json.Value → Except String Unit

/-- `StructOutPolicy`. -/
inductive StructOutPolicy
  | off
  | strictReject
  | strictRepair (maxAttempts : UInt8)

section Answers

variable {Schema : Type} (library : JsonLibrary Schema)

/-- The loop of `enforce_json`, with the attempts that are left. -/
def repair (text : String) (left : ℕ) : Except LlmError Json.Value :=
  match library.fromText text with
  | .ok value => .ok value
  | .error err =>
      match left with
      | 0 => .error (.schema ("json parse after repair: " ++ err))
      | left + 1 =>
          let text := Text.trimMatches (· = '"') (Text.trim text)
          if text = "" then .error (.schema "json parse after repair: empty") else repair text left

/-- `enforce_json`. -/
def enforceJson (candidate : String) : StructOutPolicy → Except LlmError Json.Value
  | .off =>
      (library.fromText candidate).mapError fun err => .schema ("json parse (off): " ++ err)
  | .strictReject =>
      (library.fromText candidate).mapError fun err => .schema ("json parse: " ++ err)
  | .strictRepair maxAttempts => repair library (Text.trim candidate) maxAttempts.toNat

/-- `validate_against_schema`. -/
def validateAgainstSchema (value : Json.Value) : Option Schema → Except LlmError Unit
  | none => .ok ()
  | some schema => (library.validate schema value).mapError fun err =>
      .schema ("schema validation failed: " ++ err)

end Answers

end Soulbase.Llm
