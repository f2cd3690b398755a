/-
# The request stages

The stages of the crate that run before the handler. Each is a program with its calls, and
with it what the context is where it lets a request through.
-/

import Soulbase.Foundation.Text
import Soulbase.Interceptors.Chain

namespace Soulbase.Interceptors

open Soulbase.Foundation Soulbase.Errors Soulbase.Auth

/-- What comes from other crates. -/
structure Crates where
  /-- `char::to_uppercase`. -/
  upper : Char → List Char
  /-- `base64`, the standard alphabet. -/
  decodeBase64 : String → Except String (List UInt8)
  /-- `serde_json::from_slice` for a consent. -/
  consentFromSlice : List UInt8 → Except String Consent
  /-- `JSONSchema::compile`, and `validate` of what it returns. -/
  compile : Json.Value → Except String (Json.Value → Except (List String) Unit)

/-- `ContextInitStage`: whether it has a provider of snapshots. -/
structure ContextInitStage where
  config : Bool

namespace ContextInitStage

/-- The first segment of a path. -/
def firstSegment (path : String) : String :=
  let segments := (Text.trimStartMatches (· = '/') path).toList.splitOn '/'
  String.ofList (segments.headD ['-'])

/-- The id of the request. -/
def requestId (req : ProtoRequest) : ChainProgram String :=
  match req.header "X-Request-Id" with
  | some requestId => return requestId
  | none => call .newRequestId

/-- The version and checksum of the configuration, where there is a provider. -/
def configuration (stage : ContextInitStage) : ChainProgram (Option (String × String)) :=
  if stage.config then call .snapshot else return none

/-- `ContextInitStage::handle`. -/
def handle (stage : ContextInitStage) (cx : InterceptContext) (req : ProtoRequest) :
    ChainProgram (Returned StageOutcome) := do
  let requestId ← requestId req
  let snapshot ← stage.configuration
  let producedAtMs ← call .timestampMillis
  let tenantHeader := req.header "X-Soul-Tenant"
  let partition := tenantHeader.getD "unknown"
  return (.ok .proceed,
    { cx with
      requestId := requestId
      trace := ⟨req.header "X-Trace-Id", req.header "X-Span-Id"⟩
      tenantHeader := tenantHeader
      consentToken := req.header "X-Consent-Token"
      configVersion := ((snapshot.map (·.1)).or cx.configVersion).or (req.header "X-Config-Version")
      configChecksum :=
        ((snapshot.map (·.2)).or cx.configChecksum).or (req.header "X-Config-Checksum")
      envelopeSeed :=
        { correlationId := req.header "X-Correlation-Id"
          causationId := req.header "X-Causation-Id"
          partitionKey := partition ++ ":" ++ firstSegment req.path
          producedAtMs := producedAtMs } })

/-- The stage asks for an id, for the configuration and for the time. -/
theorem callsOnly_handle {permits : ChainOp → Prop} (hid : permits .newRequestId)
    (hsnapshot : permits .snapshot) (htime : permits .timestampMillis) (stage : ContextInitStage)
    (cx : InterceptContext) (req : ProtoRequest) : (stage.handle cx req).CallsOnly permits := by
  apply Program.callsOnly_bind
  · unfold requestId
    split
    · exact Program.callsOnly_done _
    · exact Program.callsOnly_perform hid
  · intro requestId
    apply Program.callsOnly_bind
    · unfold configuration
      split
      · exact Program.callsOnly_perform hsnapshot
      · exact Program.callsOnly_done _
    · intro snapshot
      exact Program.callsOnly_call htime fun _ => Program.callsOnly_done _

theorem callsPlain_handle (stage : ContextInitStage) (cx : InterceptContext)
    (req : ProtoRequest) : CallsPlain (stage.handle cx req) := by
  apply callsOnly_handle <;> rfl

/-- The stage lets every request through, and sets what it reads from the headers. -/
theorem runs_handle {stage : ContextInitStage} {cx cx' : InterceptContext} {req : ProtoRequest}
    {calls : List ChainCall} {result : Except InterceptError StageOutcome}
    (h : Runs (stage.handle cx req) calls (result, cx')) :
    result = .ok .proceed ∧ ∃ requestId version checksum seed,
      cx' = { cx with
        requestId := requestId
        trace := ⟨req.header "X-Trace-Id", req.header "X-Span-Id"⟩
        tenantHeader := req.header "X-Soul-Tenant"
        consentToken := req.header "X-Consent-Token"
        configVersion := version
        configChecksum := checksum
        envelopeSeed := seed } := by
  obtain ⟨_, requestId, _, _, _, hrest⟩ := runs_bind_iff.mp h
  obtain ⟨_, snapshot, _, _, _, hlast⟩ := runs_bind_iff.mp hrest
  obtain ⟨producedAtMs, _, _, hdone⟩ := runs_call_bind_iff.mp hlast
  obtain ⟨_, heq⟩ := runs_done_iff.mp hdone
  obtain ⟨rfl, rfl⟩ := Prod.mk.inj heq
  exact ⟨rfl, _, _, _, _, rfl⟩

/-- `ContextInitStage` as a stage. -/
def toStage (stage : ContextInitStage) : Stage where
  handle := stage.handle
  calls_stage cx req := (stage.callsPlain_handle cx req).callsAside.callsStage

end ContextInitStage

/-- `MatchCond`. -/
inductive MatchCond
  | http (method pathPrefix : String)

/-- `RouteBindingSpec`. -/
structure RouteBindingSpec where
  resource : String
  action : String
  attrsFromBody : Bool
  requestSchema : Option String
  responseSchema : Option String

/-- `RoutePolicySpec`. -/
structure RoutePolicySpec where
  when : MatchCond
  bind : RouteBindingSpec

/-- `RoutePolicy`. -/
structure RoutePolicy where
  rules : List RoutePolicySpec

/-- `RoutePolicy::match_http`. -/
def RoutePolicy.matchHttp (policy : RoutePolicy) (method path : String) :
    Option RoutePolicySpec :=
  policy.rules.find? fun spec =>
    match spec.when with
    | .http ruleMethod pathPrefix =>
        Text.eqIgnoreAsciiCase ruleMethod method && Text.startsWith path pathPrefix

/-- `RoutePolicyStage`. -/
structure RoutePolicyStage where
  policy : RoutePolicy

namespace RoutePolicyStage

/-- `RoutePolicyStage::convert_action`. -/
def convertAction : String → Action
  | "Read" | "read" => .read
  | "Write" | "write" => .write
  | "Invoke" | "invoke" => .invoke
  | "List" | "list" => .list
  | "Admin" | "admin" => .admin
  | "Configure" | "configure" => .configure
  | _ => .read

/-- The binding that a rule makes. -/
def binding (spec : RoutePolicySpec) (attrs : Json.Value) : RouteBinding where
  resource := ⟨spec.bind.resource⟩
  action := convertAction spec.bind.action
  attrs := attrs
  requestSchema := spec.bind.requestSchema
  responseSchema := spec.bind.responseSchema

/-- The attributes that a rule takes from the body of the request. -/
def attributes (spec : RoutePolicySpec) : ChainProgram Json.Value :=
  if spec.bind.attrsFromBody then do
    match ← call .readJson with
    | .ok body => return body
    | .error _ => return .object []
  else return .object []

/-- `RoutePolicyStage::handle`. -/
def handle (stage : RoutePolicyStage) (cx : InterceptContext) (req : ProtoRequest) :
    ChainProgram (Returned StageOutcome) :=
  match stage.policy.matchHttp req.method req.path with
  | none => return (.error (.denyPolicy "route not declared"), cx)
  | some spec => do
      let attrs ← attributes spec
      return (.ok .proceed, { cx with route := some (binding spec attrs) })

theorem callsPlain_handle (stage : RoutePolicyStage) (cx : InterceptContext)
    (req : ProtoRequest) : CallsPlain (stage.handle cx req) := by
  unfold handle
  split
  · exact Program.callsOnly_done _
  · apply Program.callsOnly_bind
    · unfold attributes
      split
      · apply callsPlain_call_bind rfl
        intro answer
        cases answer <;> exact Program.callsOnly_done _
      · exact Program.callsOnly_done _
    · exact fun _ => Program.callsOnly_done _

/-- A request is let through on a declared route, and bound to it. -/
theorem route_of_runs {stage : RoutePolicyStage} {cx cx' : InterceptContext}
    {req : ProtoRequest} {calls : List ChainCall} {outcome : StageOutcome}
    (h : Runs (stage.handle cx req) calls (.ok outcome, cx')) :
    outcome = .proceed ∧ ∃ spec attrs, stage.policy.matchHttp req.method req.path = some spec ∧
      cx' = { cx with route := some (binding spec attrs) } := by
  unfold handle at h
  cases hspec : stage.policy.matchHttp req.method req.path with
  | none =>
      rw [hspec] at h
      cases (runs_done_iff.mp h).2
  | some spec =>
      rw [hspec] at h
      obtain ⟨_, attrs, _, _, _, hdone⟩ := runs_bind_iff.mp h
      obtain ⟨_, heq⟩ := runs_done_iff.mp hdone
      cases heq
      exact ⟨rfl, spec, attrs, rfl, rfl⟩

/-- `RoutePolicyStage` as a stage. -/
def toStage (stage : RoutePolicyStage) : Stage where
  handle := stage.handle
  calls_stage cx req := (stage.callsPlain_handle cx req).callsAside.callsStage

end RoutePolicyStage

/-- `JsonSchemaRegistry`. -/
structure JsonSchemaRegistry where
  schemas : HashMap String Json.Value

/-- `JsonSchemaRegistry::validate`. -/
def JsonSchemaRegistry.validate (crates : Crates) (registry : JsonSchemaRegistry)
    (name : String) (payload : Json.Value) : Except (List String) Unit :=
  match registry.schemas.get name with
  | none => .ok ()
  | some schema =>
      match crates.compile schema with
      | .error error => .error [error]
      | .ok validator => validator payload

/-- `SchemaGuardStage`. -/
structure SchemaGuardStage where
  registry : Option JsonSchemaRegistry

namespace SchemaGuardStage

/-- `SchemaGuardStage::guard`. -/
def guard (crates : Crates) (stage : SchemaGuardStage) (schema : String)
    (payload : Json.Value) : Except InterceptError Unit :=
  match stage.registry with
  | none => .ok ()
  | some registry =>
      match registry.validate crates schema payload with
      | .ok () => .ok ()
      | .error errors =>
          let detail :=
            if errors.isEmpty then "Schema validation failed" else "; ".intercalate errors
          .error ⟨((FullErrorObj.new codes.schemaValidationFailed).userMsg
            "请求数据格式不符合要求。").devMsg detail⟩

/-- `SchemaGuardStage::handle`. -/
def handle (crates : Crates) (stage : SchemaGuardStage) (cx : InterceptContext)
    (_req : ProtoRequest) : ChainProgram (Returned StageOutcome) :=
  match cx.route.bind (·.requestSchema) with
  | none => return (.ok .proceed, cx)
  | some schema => do
      match ← call .readJson with
      | .error error => return (.error error, cx)
      | .ok payload =>
          match stage.guard crates schema payload with
          | .error error => return (.error error, cx)
          | .ok () =>
              let extensions := cx.extensions.insert "last_request_body" payload
              return (.ok .proceed, { cx with extensions := extensions })

theorem callsPlain_handle (crates : Crates) (stage : SchemaGuardStage) (cx : InterceptContext)
    (req : ProtoRequest) : CallsPlain (stage.handle crates cx req) := by
  unfold handle
  split
  · exact Program.callsOnly_done _
  · apply callsPlain_call_bind rfl
    intro answer
    cases answer with
    | error error => exact Program.callsOnly_done _
    | ok payload =>
        dsimp only
        split <;> exact Program.callsOnly_done _

/-- A request that is let through leaves no more than its body in the context. -/
theorem extensions_of_runs {crates : Crates} {stage : SchemaGuardStage}
    {cx cx' : InterceptContext} (req : ProtoRequest) {calls : List ChainCall}
    {outcome : StageOutcome} (h : Runs (stage.handle crates cx req) calls (.ok outcome, cx')) :
    outcome = .proceed ∧ ∃ extensions, cx' = { cx with extensions := extensions } := by
  unfold handle at h
  split at h
  · cases (runs_done_iff.mp h).2
    exact ⟨rfl, cx.extensions, rfl⟩
  · obtain ⟨answer, rest, _, hrest⟩ := runs_call_bind_iff.mp h
    cases answer with
    | error error => cases (runs_done_iff.mp hrest).2
    | ok payload =>
        dsimp only at hrest
        split at hrest
        · cases (runs_done_iff.mp hrest).2
        · cases (runs_done_iff.mp hrest).2
          exact ⟨rfl, _, rfl⟩

/-- `SchemaGuardStage` as a request stage. -/
def toStage (crates : Crates) (stage : SchemaGuardStage) : Stage where
  handle := stage.handle crates
  calls_stage cx req := (stage.callsPlain_handle crates cx req).callsAside.callsStage

end SchemaGuardStage

/-! ## `IdempotencyStage` -/

/-- `IdempotencyStage`. -/
structure IdempotencyStage where
  layer : Option IdempotencyLayer

namespace IdempotencyStage

/-- `IDEMPOTENT_METHODS`. -/
def idempotentMethods : List String := ["POST", "PUT", "PATCH", "DELETE"]

/-- What the lookup under a key leads to. -/
def lookUp (layer : IdempotencyLayer) (key : String) (cx : InterceptContext) :
    ChainProgram (Returned StageOutcome) := do
  match ← call (.idempotencyGet key) with
  | some existing =>
      return (.ok .shortCircuit,
        { cx with
          idempotencyLayer := some layer
          idempotencyReplay := true
          idempotencyKey := some key
          responseStatus := some existing.status
          responseBody := some existing.body
          responseHeaders := cx.responseHeaders ++ existing.headers })
  | none =>
      return (.ok .proceed,
        { cx with
          idempotencyLayer := some layer
          idempotencyKey := some key })

/-- `IdempotencyStage::handle`. -/
def handle (crates : Crates) (stage : IdempotencyStage) (cx : InterceptContext)
    (req : ProtoRequest) : ChainProgram (Returned StageOutcome) :=
  let method := Text.toUppercase crates.upper req.method
  match stage.layer, req.header "Idempotency-Key" with
  | some layer, some rawKey =>
      if method ∈ idempotentMethods then
        if Text.trim rawKey = "" then
          return (.error (idempotencyError "Idempotency-Key is empty"), cx)
        else lookUp layer (buildIdempotencyKey cx (Text.trim rawKey) method req.path) cx
      else return (.ok .proceed, { cx with idempotencyLayer := none })
  | _, _ => return (.ok .proceed, { cx with idempotencyLayer := none })

/-- The key under which a request is looked up, if it is. -/
def lookupKey (crates : Crates) (stage : IdempotencyStage) (cx : InterceptContext)
    (req : ProtoRequest) : Option String :=
  let method := Text.toUppercase crates.upper req.method
  match stage.layer, req.header "Idempotency-Key" with
  | some _, some rawKey =>
      if method ∈ idempotentMethods ∧ Text.trim rawKey ≠ "" then
        some (buildIdempotencyKey cx (Text.trim rawKey) method req.path)
      else none
  | _, _ => none

/-- The key depends on the context by its tenant only. -/
theorem lookupKey_congr {crates : Crates} {stage : IdempotencyStage} {cx cx' : InterceptContext}
    (htenant : cx.tenantHeader = cx'.tenantHeader) (hsubject : cx.subject = cx'.subject)
    (req : ProtoRequest) : stage.lookupKey crates cx req = stage.lookupKey crates cx' req := by
  unfold lookupKey buildIdempotencyKey
  rw [htenant, hsubject]

/-- The stage refuses a blank key, lets a request without key through, or does a lookup. -/
theorem handle_cases (crates : Crates) (stage : IdempotencyStage) (cx : InterceptContext)
    (req : ProtoRequest) :
    (stage.lookupKey crates cx req = none ∧
      (stage.handle crates cx req =
          .done (.error (idempotencyError "Idempotency-Key is empty"), cx) ∨
        stage.handle crates cx req = .done (.ok .proceed, { cx with idempotencyLayer := none }))) ∨
      ∃ layer key, stage.layer = some layer ∧ stage.lookupKey crates cx req = some key ∧
        stage.handle crates cx req = lookUp layer key cx := by
  unfold handle lookupKey
  cases stage.layer with
  | none => exact .inl ⟨rfl, .inr rfl⟩
  | some layer =>
      cases req.header "Idempotency-Key" with
      | none => exact .inl ⟨rfl, .inr rfl⟩
      | some rawKey =>
          by_cases hmethod : Text.toUppercase crates.upper req.method ∈ idempotentMethods
          · by_cases hblank : Text.trim rawKey = ""
            · simp only [hmethod, hblank, if_pos, ne_eq, not_true, and_false, if_false]
              exact .inl ⟨trivial, .inl rfl⟩
            · simp only [hmethod, hblank, if_pos, ne_eq, not_false_eq_true, and_self, if_false]
              exact .inr ⟨layer, _, rfl, rfl, rfl⟩
          · simp only [hmethod, false_and, if_false]
            exact .inl ⟨trivial, .inr rfl⟩

/-- The stage does a lookup only. -/
theorem callsLookup_handle (crates : Crates) (stage : IdempotencyStage) (cx : InterceptContext)
    (req : ProtoRequest) :
    (stage.handle crates cx req).CallsOnly fun op => ∃ key, op = .idempotencyGet key := by
  rcases stage.handle_cases crates cx req with ⟨_, h | h⟩ | ⟨layer, key, _, _, h⟩
  · rw [h]
    exact Program.callsOnly_done _
  · rw [h]
    exact Program.callsOnly_done _
  · rw [h]
    apply Program.callsOnly_call
    · exact ⟨key, rfl⟩
    · intro answer
      cases answer <;> exact Program.callsOnly_done _

/-- The stage calls the store only. -/
theorem callsStore_handle (crates : Crates) (stage : IdempotencyStage) (cx : InterceptContext)
    (req : ProtoRequest) :
    (stage.handle crates cx req).CallsOnly fun op => op.isStore = true := by
  refine (stage.callsLookup_handle crates cx req).mono ?_
  rintro _ ⟨key, rfl⟩
  rfl

/-- A request that is let through has been looked up, or need not be. -/
theorem lookedUp_of_runs {crates : Crates} {stage : IdempotencyStage}
    {cx cx' : InterceptContext} {req : ProtoRequest} {calls : List ChainCall}
    (h : Runs (stage.handle crates cx req) calls (.ok .proceed, cx')) :
    ∃ layer key, cx' = { cx with
      idempotencyLayer := layer
      idempotencyKey := key } := by
  rcases stage.handle_cases crates cx req with ⟨_, hhandle | hhandle⟩ | ⟨layer, key, _, _, hhandle⟩
  · rw [hhandle] at h
    cases (runs_done_iff.mp h).2
  · rw [hhandle] at h
    cases (runs_done_iff.mp h).2
    exact ⟨_, _, rfl⟩
  · rw [hhandle] at h
    obtain ⟨answer, rest, _, hrest⟩ := runs_call_bind_iff.mp h
    cases answer with
    | some existing => cases (runs_done_iff.mp hrest).2
    | none =>
        cases (runs_done_iff.mp hrest).2
        exact ⟨_, _, rfl⟩

/-- `IdempotencyStage` as a stage. -/
def toStage (crates : Crates) (stage : IdempotencyStage) : Stage where
  handle := stage.handle crates
  calls_stage cx req :=
    (stage.callsStore_handle crates cx req).mono fun _ => ChainOp.isHandling_of_isStore

end IdempotencyStage

namespace AuthnMapStage

/-- The token of an `Authorization` header. -/
def bearerToken (header : String) : String :=
  ((Text.stripPrefix header "Bearer ").or (Text.stripPrefix header "bearer ")).getD header

/-- `AuthnMapStage::handle`. -/
def handle (cx : InterceptContext) (req : ProtoRequest) : ChainProgram (Returned StageOutcome) :=
  match req.header "Authorization" with
  | none => return (.error (.fromPublic codes.authUnauthenticated "请先登录。"), cx)
  | some header => do
      let input := AuthnInput.bearer (bearerToken header)
      match ← call (.authenticate input) with
      | .error error => return (.error ⟨error⟩, cx)
      | .ok subject =>
          return (.ok .proceed,
            { cx with
              subject := some subject
              authInput := some input })

/-- The stage asks the authenticator only. -/
theorem callsOnly_handle {permits : ChainOp → Prop} (h : ∀ input, permits (.authenticate input))
    (cx : InterceptContext) (req : ProtoRequest) : (handle cx req).CallsOnly permits := by
  unfold handle
  split
  · exact Program.callsOnly_done _
  · apply Program.callsOnly_call (h _)
    intro answer
    cases answer <;> exact Program.callsOnly_done _

theorem callsPlain_handle (cx : InterceptContext) (req : ProtoRequest) :
    CallsPlain (handle cx req) :=
  callsOnly_handle (fun _ => rfl) cx req

/-- A request is let through if the authenticator accepts its token. -/
theorem accepted_of_runs {cx cx' : InterceptContext} {req : ProtoRequest}
    {calls : List ChainCall} {outcome : StageOutcome}
    (h : Runs (handle cx req) calls (.ok outcome, cx')) :
    outcome = .proceed ∧ ∃ header subject, req.header "Authorization" = some header ∧
      calls = [⟨.authenticate (.bearer (bearerToken header)), .ok subject⟩] ∧
        cx' = { cx with
          subject := some subject
          authInput := some (.bearer (bearerToken header)) } := by
  unfold handle at h
  split at h
  · cases (runs_done_iff.mp h).2
  · obtain ⟨answer, rest, rfl, hrest⟩ := runs_call_bind_iff.mp h
    cases answer with
    | error error => cases (runs_done_iff.mp hrest).2
    | ok subject =>
        obtain ⟨rfl, heq⟩ := runs_done_iff.mp hrest
        cases heq
        exact ⟨rfl, _, subject, ‹_›, rfl, rfl⟩

end AuthnMapStage

/-- `AuthnMapStage`. -/
def AuthnMapStage : Stage where
  handle := AuthnMapStage.handle
  calls_stage cx req := (AuthnMapStage.callsPlain_handle cx req).callsAside.callsStage

/-- `parse_consent`. -/
def parseConsent (crates : Crates) : Option String → Except InterceptError (Option Consent)
  | none => .ok none
  | some raw =>
      if Text.trim raw = "" then .ok none
      else
        match crates.decodeBase64 (Text.trim raw) with
        | .error error => .error (.fromPublic codes.authForbidden s!"无效的同意凭证: {error}")
        | .ok decoded =>
            match crates.consentFromSlice decoded with
            | .error error =>
                .error (.fromPublic codes.authForbidden s!"无法解析同意凭证: {error}")
            | .ok consent => .ok (some consent)

/-- `AuthzQuotaStage`. -/
structure AuthzQuotaStage where
  facade : AuthFacade
  defaultCost : Int64

namespace AuthzQuotaStage

/-- The tenant of the header is not the one of the subject. -/
def tenantMismatch (cx : InterceptContext) : Bool :=
  match cx.tenantHeader, cx.subject with
  | some tenant, some subject => subject.tenant.asStr ≠ tenant
  | _, _ => false

/-- What is asked of the facade. -/
def authContext (stage : AuthzQuotaStage) (cx : InterceptContext) (input : AuthnInput)
    (route : RouteBinding) (consent : Option Consent) : AuthContext where
  input := input
  resource := route.resource
  action := route.action
  attrs := route.attrs
  consent := consent
  correlationId := cx.envelopeSeed.correlationId
  cost := stage.defaultCost

/-- `AuthFacade::authorize`, called from a stage. -/
def authorize (stage : AuthzQuotaStage) (ctx : AuthContext) :
    ChainProgram (Except AuthError AuthResult) :=
  (stage.facade.authorize ctx).run.embed ChainOp.auth fun op => Equiv.refl op.Answer

/-- A call of the facade, as one of the chain. -/
def authCall (call : AuthCall) : ChainCall := ⟨.auth call.1, call.2⟩

theorem runs_authorize_iff {stage : AuthzQuotaStage} {ctx : AuthContext}
    {calls : List ChainCall} {result : Except AuthError AuthResult} :
    Runs (stage.authorize ctx) calls result ↔
      ∃ inner, calls = inner.map authCall ∧ Runs (stage.facade.authorize ctx).run inner result :=
  runs_embed_iff

theorem mem_map_authCall_iff {inner : List AuthCall} {op : AuthOp} {answer : op.Answer} :
    ⟨.auth op, answer⟩ ∈ inner.map authCall ↔ ⟨op, answer⟩ ∈ inner := by
  rw [List.mem_map]
  constructor
  · rintro ⟨⟨other, given⟩, hmem, heq⟩
    cases heq
    exact hmem
  · exact fun hmem => ⟨⟨op, answer⟩, hmem, rfl⟩

/-- What a decision of the facade leads to. -/
def conclude (cx : InterceptContext) (result : AuthResult) : Returned StageOutcome :=
  let cx :=
    { cx with
      subject := some result.subject
      obligations := result.decision.obligations }
  if result.decision.allow then (.ok .proceed, cx)
  else (.error (.fromPublic codes.authForbidden (result.decision.reason.getD "请求被拒绝")), cx)

/-- `AuthzQuotaStage::handle`. -/
def handle (crates : Crates) (stage : AuthzQuotaStage) (cx : InterceptContext)
    (_req : ProtoRequest) : ChainProgram (Returned StageOutcome) :=
  match cx.authInput, cx.route with
  | none, _ => return (.error (.fromPublic codes.authUnauthenticated "缺少身份凭证。"), cx)
  | some _, none => return (.error (.denyPolicy "route not bound"), cx)
  | some input, some route =>
      if tenantMismatch cx then
        return (.error (.fromPublic codes.authForbidden "租户不匹配。"), cx)
      else
        match parseConsent crates cx.consentToken with
        | .error error => return (.error error, cx)
        | .ok consent => do
            match ← stage.authorize (stage.authContext cx input route consent) with
            | .error error => return (.error ⟨error⟩, cx)
            | .ok result => return conclude cx result

theorem callsAside_handle (crates : Crates) (stage : AuthzQuotaStage) (cx : InterceptContext)
    (req : ProtoRequest) : CallsAside (stage.handle crates cx req) := by
  unfold handle
  split
  · exact Program.callsOnly_done _
  · exact Program.callsOnly_done _
  · split
    · exact Program.callsOnly_done _
    · split
      · exact Program.callsOnly_done _
      · apply Program.callsOnly_bind
        · exact Program.callsOnly_embed _ fun _ => rfl
        · intro answer
          cases answer <;> exact Program.callsOnly_done _

/-- A request is let through if the facade allows what its route asks for. -/
theorem allowed_of_runs {crates : Crates} {stage : AuthzQuotaStage}
    {cx cx' : InterceptContext} (req : ProtoRequest) {calls : List ChainCall}
    {outcome : StageOutcome} (h : Runs (stage.handle crates cx req) calls (.ok outcome, cx')) :
    outcome = .proceed ∧ ∃ input route consent result,
      cx.authInput = some input ∧ cx.route = some route ∧
        Runs (stage.authorize (stage.authContext cx input route consent)) calls (.ok result) ∧
          result.decision.allow = true ∧
            cx' = { cx with
              subject := some result.subject
              obligations := result.decision.obligations } := by
  unfold handle at h
  cases hinput : cx.authInput with
  | none =>
      rw [hinput] at h
      cases (runs_done_iff.mp h).2
  | some input =>
      cases hroute : cx.route with
      | none =>
          rw [hinput, hroute] at h
          cases (runs_done_iff.mp h).2
      | some route =>
          rw [hinput, hroute] at h
          dsimp only at h
          split at h
          · cases (runs_done_iff.mp h).2
          · cases hconsent : parseConsent crates cx.consentToken with
            | error error =>
                rw [hconsent] at h
                cases (runs_done_iff.mp h).2
            | ok consent =>
                rw [hconsent] at h
                obtain ⟨before, answer, after, rfl, hfacade, hrest⟩ := runs_bind_iff.mp h
                cases answer with
                | error error => cases (runs_done_iff.mp hrest).2
                | ok result =>
                    obtain ⟨rfl, heq⟩ := runs_done_iff.mp hrest
                    unfold conclude at heq
                    split at heq
                    case isFalse => cases heq
                    case isTrue hallow =>
                      cases heq
                      rw [List.append_nil]
                      exact ⟨rfl, input, route, consent, result, rfl, rfl, hfacade, hallow,
                        by rw [← hinput, ← hroute]⟩

/-- `AuthzQuotaStage` as a stage. -/
def toStage (crates : Crates) (stage : AuthzQuotaStage) : Stage where
  handle := stage.handle crates
  calls_stage cx req := (stage.callsAside_handle crates cx req).callsStage

end AuthzQuotaStage

end Soulbase.Interceptors
