/-
# Requests, contexts and errors

The data that the stages of a chain work on: the request as they see it, the context that is
passed along, and the errors with which they stop.
-/

import Soulbase.Auth.Model

namespace Soulbase.Interceptors

open Soulbase.Errors Soulbase.Auth

/-- `InterceptError`. Its text is rendered from the inner error. -/
structure InterceptError where
  inner : FullErrorObj
  deriving DecidableEq

namespace InterceptError

/-- `InterceptError::from_public`. -/
def fromPublic (code : ErrorCode) (message : String) : InterceptError :=
  ⟨(FullErrorObj.new code).userMsg message⟩

/-- `InterceptError::deny_policy`. -/
def denyPolicy (detail : String) : InterceptError :=
  ⟨(FullErrorObj.new codes.policyDenyTool).devMsg detail⟩

/-- The public view of the error, as JSON: `to_public` and `to_value`. -/
def toPublic (error : InterceptError) : Json.Value :=
  let view := error.inner.toErrorObj.toPublic
  match error.inner.correlationId with
  | none => .object [("code", .string view.code), ("message", .string view.message)]
  | some id =>
      .object [("code", .string view.code), ("correlation_id", .string id),
        ("message", .string view.message)]

end InterceptError

/-- `ProtoRequest`. Its body is read by a call. -/
structure ProtoRequest where
  method : String
  path : String
  header : String → Option String

/-- `RouteBinding`. -/
structure RouteBinding where
  resource : ResourceUrn
  action : Action
  attrs : Json.Value
  requestSchema : Option String
  responseSchema : Option String

/-- `EnvelopeSeed`. -/
structure EnvelopeSeed where
  correlationId : Option String
  causationId : Option String
  partitionKey : String
  producedAtMs : Int64

/-- `IdempotencyLayer`. Its store is called by the operations of a chain. -/
structure IdempotencyLayer where
  ttl : Duration
  maxBodySize : ℕ
  deriving DecidableEq

/-- `StoredResponse`. -/
structure StoredResponse where
  status : UInt16
  body : Json.Value
  headers : List (String × String)

/-- `InterceptContext`. -/
structure InterceptContext where
  requestId : String
  trace : TraceContext
  tenantHeader : Option String
  consentToken : Option String
  route : Option RouteBinding
  subject : Option Subject
  obligations : List Obligation
  envelopeSeed : EnvelopeSeed
  configVersion : Option String
  configChecksum : Option String
  authInput : Option AuthnInput
  responseBody : Option Json.Value
  responseStatus : Option UInt16
  responseHeaders : List (String × String)
  idempotencyReplay : Bool
  idempotencyKey : Option String
  idempotencyLayer : Option IdempotencyLayer
  extensions : Json.Map

namespace InterceptContext

/-- `InterceptContext::new`. -/
def new : InterceptContext where
  requestId := ""
  trace := ⟨none, none⟩
  tenantHeader := none
  consentToken := none
  route := none
  subject := none
  obligations := []
  envelopeSeed := ⟨none, none, "", 0⟩
  configVersion := none
  configChecksum := none
  authInput := none
  responseBody := none
  responseStatus := none
  responseHeaders := []
  idempotencyReplay := false
  idempotencyKey := none
  idempotencyLayer := none
  extensions := []

end InterceptContext

/-- What a function that changes a context returns, with the context as it leaves it. -/
abbrev Returned (α : Type) := Except InterceptError α × InterceptContext

end Soulbase.Interceptors
