/-
# Requests, decisions and attributes

The data of `sb-auth`: what is asked, by whom, and what is decided, and the merge of two
attribute maps.
-/

import Soulbase.Errors
import Soulbase.Json

namespace Soulbase.Auth

open Soulbase.Errors

/-- `AuthnInput`. -/
inductive AuthnInput
  | bearer (token : String)
  | apiKey (token : String)
  | serviceToken (token : String)
  deriving DecidableEq

/-- `ResourceUrn`. -/
structure ResourceUrn where
  asStr : String
  deriving DecidableEq

/-- `Action`. -/
inductive Action
  | read
  | write
  | invoke
  | list
  | admin
  | configure
  deriving DecidableEq

/-- `AuthzRequest`. -/
structure AuthzRequest where
  subject : Subject
  resource : ResourceUrn
  action : Action
  attrs : Json.Value
  consent : Option Consent
  correlationId : Option String

/-- The request is about what a subject wants to do with a resource. -/
structure AuthzRequest.IsAbout (request : AuthzRequest) (subject : Subject)
    (resource : ResourceUrn) (action : Action) : Prop where
  tenant : request.subject.tenant = subject.tenant
  subjectId : request.subject.subjectId = subject.subjectId
  resource : request.resource = resource
  action : request.action = action

/-- `Obligation`. -/
structure Obligation where
  kind : String
  params : Json.Value

/-- `Decision`. -/
structure Decision where
  allow : Bool
  reason : Option String
  obligations : List Obligation
  evidence : Json.Value
  cacheTtlMs : UInt32

/-- `DecisionKey`. -/
structure DecisionKey where
  tenant : String
  subjectId : String
  resource : ResourceUrn
  action : Action
  attrsHash : UInt64
  deriving DecidableEq

/-- `QuotaKey`. -/
structure QuotaKey where
  tenant : String
  subjectId : String
  resource : ResourceUrn
  action : Action
  deriving DecidableEq

/-- `QuotaOutcome`. -/
inductive QuotaOutcome
  | allowed
  | rateLimited
  | budgetExceeded
  deriving DecidableEq

/-- `format_action`. -/
def formatAction : Action → String
  | .read => "read"
  | .write => "write"
  | .invoke => "invoke"
  | .list => "list"
  | .admin => "admin"
  | .configure => "configure"

/-- `BasicConsentVerifier::verify`, at a reading of the clock in milliseconds. -/
def basicVerify (now : Int64) (consent : Consent) (request : AuthzRequest) : Bool :=
  !(consent.expiresAt.any fun expiresAt => expiresAt.asMillis < now) &&
    consent.scopes.any fun scope =>
      scope.resource = request.resource.asStr ∧ scope.action = formatAction request.action

mutual

/-- `merge_json`, the second value over the first. -/
def mergeJson (lhs : Json.Value) : Json.Value → Json.Value
  | .object b =>
      match lhs with
      | .object a => .object (mergeEntries a b)
      | _ => .object b
  | .null => lhs
  | rhs => rhs

/-- The loop of `merge_json` over the entries of an object. -/
def mergeEntries (merged : Json.Map) : List (String × Json.Value) → Json.Map
  | [] => merged
  | entry :: rest => mergeEntries (mergeEntry merged entry) rest

/-- The body of that loop. -/
def mergeEntry (merged : Json.Map) : String × Json.Value → Json.Map
  | (key, value) => merged.insert key (mergeJson ((merged.get key).getD .null) value)

end

/-- `AuthError`. -/
abbrev AuthError := FullErrorObj

namespace AuthError

/-- `AuthError::rate_limited`. -/
def rateLimited : AuthError :=
  (FullErrorObj.new codes.quotaRateLimited).userMsg "Rate limit exceeded."

/-- `AuthError::budget_exceeded`. -/
def budgetExceeded : AuthError :=
  (FullErrorObj.new codes.quotaBudgetExceeded).userMsg "Budget exceeded."

/-- `AuthError::policy_deny`. -/
def policyDeny (reason : String) : AuthError :=
  ((FullErrorObj.new codes.policyDenyTool).userMsg "Request denied by policy.").devMsg reason

end AuthError

end Soulbase.Auth
