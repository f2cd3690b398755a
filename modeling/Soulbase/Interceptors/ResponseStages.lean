/-
# The response stages

The stages of the crate that run once there is a response: the check of its body against the
schema of the route, the obligations of the decision, which rewrite the body, and the headers
that every response carries.
-/

import Soulbase.Interceptors.RequestStages

namespace Soulbase.Interceptors

open Soulbase.Foundation Soulbase.Errors Soulbase.Auth

namespace SchemaGuardStage

/-- What the guard says of a response. -/
def verdict (crates : Crates) (stage : SchemaGuardStage) (cx : InterceptContext) :
    Except InterceptError Unit :=
  match cx.route.bind (·.responseSchema), cx.responseBody with
  | some schema, some body => stage.guard crates schema body
  | _, _ => .ok ()

/-- `SchemaGuardStage::handle_response`. -/
def handleResponse (crates : Crates) (stage : SchemaGuardStage) (cx : InterceptContext) :
    ChainProgram (Returned Unit) :=
  return (stage.verdict crates cx, cx)

/-- `SchemaGuardStage` as a response stage. -/
def toResponseStage (crates : Crates) (stage : SchemaGuardStage) : ResponseStage where
  handleResponse := stage.handleResponse crates
  calls_sync _ := Program.callsOnly_done _

end SchemaGuardStage

/-- `path_segments`. -/
def pathSegments (obligation : Obligation) (key : String) : Except InterceptError (List String) :=
  match (obligation.params.get key).bind (·.asStr) with
  | some raw => .ok ((raw.toList.splitOn '.').map String.ofList)
  | none => .error (.fromPublic codes.policyDenyTool "义务缺少路径。")

/-- The replacement of a masked value. -/
def replacement (obligation : Obligation) : String :=
  ((obligation.params.get "replacement").bind (·.asStr)).getD "****"

/-- `apply_obligation`. -/
def applyObligation (body : Json.Value) (obligation : Obligation) :
    Except InterceptError Json.Value :=
  match obligation.kind with
  | "mask" =>
      match pathSegments obligation "path" with
      | .error error => .error error
      | .ok path =>
          match Json.descendMut (fun _ => .string (replacement obligation)) path body with
          | some edited => .ok edited
          | none => .error (.fromPublic codes.policyDenyTool "无法执行脱敏义务。")
  | "redact" =>
      match pathSegments obligation "path" with
      | .error error => .error error
      | .ok path =>
          match Json.removePath path body with
          | some edited => .ok edited
          | none => .error (.fromPublic codes.policyDenyTool "无法执行删除义务。")
  | "watermark" =>
      let mark := ((obligation.params.get "value").bind (·.asStr)).getD "watermark"
      match body with
      | .object map => .ok (.object (Json.Map.insert map "__watermark" (.string mark)))
      | _ => .error (.fromPublic codes.policyDenyTool "响应不是 JSON 对象，无法打水印。")
  | _ => .ok body

/-- The obligations one after the other, on a body. -/
def applyObligations : List Obligation → Json.Value → Except InterceptError Json.Value
  | [], body => .ok body
  | obligation :: rest, body =>
      match applyObligation body obligation with
      | .error error => .error error
      | .ok edited => applyObligations rest edited

namespace ObligationsStage

/-- The loop of `ObligationsStage::handle_response`. -/
def applyEach : List Obligation → InterceptContext → Returned Unit
  | [], cx => (.ok (), cx)
  | obligation :: rest, cx =>
      let body := cx.responseBody.getD .null
      match applyObligation body obligation with
      | .error error => (.error error, { cx with responseBody := some body })
      | .ok edited => applyEach rest { cx with responseBody := some edited }

/-- `ObligationsStage::handle_response`. -/
def handleResponse (cx : InterceptContext) : ChainProgram (Returned Unit) :=
  return applyEach cx.obligations cx

/-- The loop works on the body alone. -/
theorem applyEach_of_body {obligations : List Obligation} {cx : InterceptContext}
    {body : Json.Value} (h : cx.responseBody = some body) :
    (∃ error, applyObligations obligations body = .error error ∧
      (applyEach obligations cx).1 = .error error) ∨
    ∃ edited, applyObligations obligations body = .ok edited ∧
      applyEach obligations cx = (.ok (), { cx with responseBody := some edited }) := by
  induction obligations generalizing cx body with
  | nil =>
      refine .inr ⟨body, rfl, ?_⟩
      rw [applyEach, ← h]
  | cons obligation rest ih =>
      simp only [applyObligations, applyEach, h, Option.getD_some]
      cases applyObligation body obligation with
      | error error => exact .inl ⟨error, rfl, rfl⟩
      | ok edited => exact @ih { cx with responseBody := some edited } edited rfl

end ObligationsStage

/-- `ObligationsStage`. -/
def ObligationsStage : ResponseStage where
  handleResponse := ObligationsStage.handleResponse
  calls_sync _ := Program.callsOnly_done _

namespace ResponseStampStage

/-- The headers of a response. -/
def stamps (cx : InterceptContext) : List (String × String) :=
  [("X-Request-Id", cx.requestId)] ++
    (cx.trace.traceId.map ("X-Trace-Id", ·)).toList ++
      (cx.configVersion.map ("X-Config-Version", ·)).toList ++
        (cx.configChecksum.map ("X-Config-Checksum", ·)).toList ++
          (if cx.obligations.isEmpty then []
            else [("X-Obligations", ",".intercalate (cx.obligations.map (·.kind)))]) ++
            if cx.idempotencyReplay then [("X-Idempotent-Replay", "true")] else []

/-- `ResponseStampStage::handle_response`. -/
def handleResponse (cx : InterceptContext) : ChainProgram (Returned Unit) := do
  InterceptorChain.writeHeaders (stamps cx)
  return (.ok (), cx)

end ResponseStampStage

theorem InterceptorChain.callsSync_writeHeaders (headers : List (String × String)) :
    CallsSync (writeHeaders headers) := by
  induction headers with
  | nil => exact Program.callsOnly_done _
  | cons header rest ih => exact Program.callsOnly_call rfl fun _ => ih

/-- `ResponseStampStage`. -/
def ResponseStampStage : ResponseStage where
  handleResponse := ResponseStampStage.handleResponse
  calls_sync _ :=
    Program.callsOnly_bind (InterceptorChain.callsSync_writeHeaders _) fun _ =>
      Program.callsOnly_done _

end Soulbase.Interceptors
